import NanoAt.HeapAllocation
import NanoAt.Lib.GuardedRun

/-!
# Objects on the heap

What the heap is for: objects that do not disturb each other. The program calls the heap
and stores into the objects it got; an abstract object knows its place, its size and what
the program stored in it, and nothing of headers.

## Main definitions

- `HeapObject` — an object as the program sees it
- `HeapCall` — a call of the heap, or a store of the program
- `HeapUse` — the heap and the objects the program holds
- `HeapUse.Permitted` — the calls a program may make
- `HeapUse.step` — the call made on the heap, and what it means for the objects

## Main results

- `HeapUse.Keeps` — the objects lie in blocks of their own, with their contents
- `HeapUse.permitted_enabled` — every permitted call returns
-/

namespace NanoAt

open ByteMemory BlockList GuardedRun

/-- An object the program got from the heap: its address, the bytes it asked for, and the
value of each byte that the program knows. -/
structure HeapObject where
  ptr : ℕ
  size : ℕ
  bytes : ℕ → Option UInt8

/-- A call of the heap, or a store into byte `k` of an object. -/
inductive HeapCall where
  | malloc (size : UInt32)
  | calloc (count size : UInt32)
  | realloc (ptr : ℕ) (newsize : UInt32)
  | free (ptr : ℕ)
  | store (ptr k : ℕ) (byte : UInt8)
  deriving DecidableEq

/-- The heap and the objects on it. -/
structure HeapUse where
  heap : Heap
  objects : List HeapObject

namespace HeapUse

/-- An object of the program is at address `ptr`. -/
def Held (s : HeapUse) (ptr : ℕ) : Prop := ∃ o ∈ s.objects, o.ptr = ptr

instance (s : HeapUse) (ptr : ℕ) : Decidable (s.Held ptr) :=
  inferInstanceAs (Decidable (∃ o ∈ s.objects, o.ptr = ptr))

/-- What a program may do: free and resize what it holds, store inside it, and ask for
sizes that can be aligned. -/
def Permitted (s : HeapUse) : HeapCall → Prop
  | .malloc size => size.toNat + 3 < 2 ^ 32
  | .calloc count size => count.toNat * size.toNat + 3 < 2 ^ 32
  | .realloc ptr newsize => (ptr = rtNull ∨ s.Held ptr) ∧ newsize.toNat + 3 < 2 ^ 32
  | .free ptr => ptr = rtNull ∨ s.Held ptr
  | .store ptr k _ => ∃ o ∈ s.objects, o.ptr = ptr ∧ k < o.size

instance (s : HeapUse) (a : HeapCall) : Decidable (s.Permitted a) := by
  cases a <;> unfold Permitted <;> infer_instance

/-- The objects but the one at `ptr`. -/
def without (objects : List HeapObject) (ptr : ℕ) : List HeapObject :=
  objects.filter fun o => o.ptr ≠ ptr

/-- The objects with one more, unless its address is `RT_NULL`. -/
def grant (objects : List HeapObject) (o : HeapObject) : List HeapObject :=
  if o.ptr = rtNull then objects else o :: objects

/-- What is known of an object of which `n` bytes were carried over. -/
def firstBytes (objects : List HeapObject) (ptr n : ℕ) : ℕ → Option UInt8 := fun k =>
  if k < n then (objects.find? fun o => o.ptr = ptr).bind fun o =>
    if k < o.size then o.bytes k else none
  else none

/-- A byte of the object at `ptr` is stored. -/
def storeByte (objects : List HeapObject) (ptr k : ℕ) (byte : UInt8) : List HeapObject :=
  objects.map fun o =>
    if o.ptr = ptr then { o with bytes := fun i => if i = k then some byte else o.bytes i } else o

/-- The objects after `rt_realloc` returned `p` for the object at `ptr`. -/
def resized (objects : List HeapObject) (ptr p : ℕ) (newsize : UInt32) : List HeapObject :=
  if newsize = 0 then without objects ptr
  else if p = rtNull then objects
  else ⟨p, newsize.toNat, firstBytes objects ptr newsize.toNat⟩ :: without objects ptr

/-- A permitted call: the function of `mem.c` on the heap, its meaning for the objects. -/
def step (a : HeapCall) (s : HeapUse) : Option HeapUse :=
  if s.Permitted a then
    match a with
    | .malloc size => (s.heap.rtMalloc size).map fun (p, h) =>
        ⟨h, grant s.objects ⟨p, size.toNat, fun _ => none⟩⟩
    | .calloc count size => (s.heap.rtCalloc count size).map fun (p, h) =>
        ⟨h, grant s.objects ⟨p, count.toNat * size.toNat, fun _ => some 0⟩⟩
    | .realloc ptr newsize => (s.heap.rtRealloc ptr newsize).map fun (p, h) =>
        ⟨h, resized s.objects ptr p newsize⟩
    | .free ptr => (s.heap.rtFree ptr).map fun h => ⟨h, without s.objects ptr⟩
    | .store ptr k byte =>
      some ⟨{ s.heap with memory := Function.update s.heap.memory (ptr + k) byte },
        storeByte s.objects ptr k byte⟩
  else none

/-- An object lies in the block in use at the place `x`, with the bytes it is known to have. -/
structure Holds (m : Memory) (base : ℕ) (o : HeapObject) (x : ℕ × ℕ) : Prop where
  ptr : o.ptr = base + x.1 + 12
  size : o.size ≤ x.2
  bytes : ∀ k, k < o.size → ∀ b ∈ o.bytes k, m (o.ptr + k) = b

/-- The objects are in the blocks in use, each in one of its own, and no block in use is
without an object. A heap without objects starts its search at a free block. -/
structure Keeps (s : HeapUse) (bs : List Block) : Prop where
  represents : s.heap.Represents bs
  least : 12 ≤ s.heap.memSizeAligned
  distinct : s.objects.Pairwise fun o o' => o.ptr ≠ o'.ptr
  held : ∀ o ∈ s.objects, ∃ x ∈ usedFrom 12 0 bs, Holds s.heap.memory s.heap.heapPtr o x
  owned : ∀ x ∈ usedFrom 12 0 bs, s.Held (s.heap.heapPtr + x.1 + 12)
  idle : usedFrom 12 0 bs = [] → s.heap.lfree ≠ s.heap.heapEnd

variable {s : HeapUse} {h h' : Heap} {m m' : Memory} {base : ℕ} {o o' : HeapObject}
  {x y : ℕ × ℕ} {bs bs' l r : List Block} {b : Block} {objects : List HeapObject} {n ptr : ℕ}

theorem Holds.frame (ho : Holds m base o x) (hs : SameOn m' m (base + x.1 + 12) x.2) :
    Holds m' base o x := by
  refine ⟨ho.ptr, ho.size, fun k hk b hb => ?_⟩
  have hptr := ho.ptr
  have hsize := ho.size
  rw [hs _ (by omega) (by omega)]
  exact ho.bytes k hk b hb

/-- No object is at `RT_NULL`. -/
theorem Keeps.ptr_ne_null (hk : Keeps s bs) (ho : o ∈ s.objects) : o.ptr ≠ rtNull := by
  obtain ⟨x, -, hx⟩ := hk.held o ho
  have hptr := hx.ptr
  rw [rtNull]
  omega

/-- Two objects at one address are one object. -/
theorem Keeps.eq_of_ptr_eq (hk : Keeps s bs) (ho : o ∈ s.objects) (ho' : o' ∈ s.objects)
    (hp : o.ptr = o'.ptr) : o = o' := by
  have hsymm : Std.Symm fun o o' : HeapObject => o.ptr ≠ o'.ptr := ⟨fun _ _ h => h.symm⟩
  by_contra hne
  exact hk.distinct.forall ho ho' hne hp

/-- The block an object lies in. -/
theorem Keeps.block_of_held (hk : Keeps s bs) (hp : s.Held ptr) :
    ∃ l n r, bs = l ++ ⟨true, n⟩ :: r ∧ ptr = s.heap.heapPtr + (extent 12 l + 12) := by
  obtain ⟨o, ho, rfl⟩ := hp
  obtain ⟨x, hx, hold⟩ := hk.held o ho
  obtain ⟨l, r, hbs, hpos⟩ := exists_split_of_mem_usedFrom hx
  have hptr := hold.ptr
  exact ⟨l, x.2, r, hbs, by omega⟩

/-- Stores inside the data of a block in use leave the blocks as they are. -/
theorem represents_store (hr : h.Represents bs) (hx : x ∈ usedFrom 12 0 bs)
    (hs : SameOutside h.memory m (h.heapPtr + x.1 + 12) (h.heapPtr + x.1 + 12 + x.2)) :
    Heap.Represents { h with memory := m } bs := by
  obtain ⟨l, r, rfl, hpos⟩ := exists_split_of_mem_usedFrom hx
  rw [Nat.zero_add] at hpos
  have hc := hr.consists
  refine ⟨⟨?_, hc.size, hc.lfree⟩, hr.base, hr.aligned, hr.coalesced, hr.usedMem, hr.maxMem⟩
  obtain ⟨⟨hl, hb, hrest⟩, hbound⟩ := blockChain_iff.mp hc.chain
  refine blockChain_iff.mpr ⟨⟨hl.frame_left hs (by omega), ?_, hrest.frame hs ?_⟩, hbound⟩
  · exact (hs.heapMem (q := h.heapPtr + extent 12 l) (by omega)).trans hb
  · simp only
    omega

/-- Stores inside the block an operation handed out. -/
theorem turns_store {xs : List (ℕ × ℕ)} (ht : Heap.Turns h h' bs' xs)
    (hx : x ∈ usedFrom 12 0 bs') (hxs : ∀ y ∈ xs, y ∈ usedFrom 12 0 bs' ∧ y ≠ x)
    (hs : SameOutside h'.memory m (h'.heapPtr + x.1 + 12) (h'.heapPtr + x.1 + 12 + x.2)) :
    Heap.Turns h { h' with memory := m } bs' xs := by
  refine ⟨represents_store ht.represents hx hs, ht.heapPtr, ht.memSizeAligned, fun y hy => ?_⟩
  obtain ⟨hmem, hne⟩ := hxs y hy
  have hbase := ht.heapPtr
  have hapart := usedFrom_apart hmem hx hne
  exact (hs.sameOn (by omega)).trans (ht.data y hy)

/-- A new object in a block put to use for it. -/
theorem Keeps.granted (hk : Keeps s bs) (ht : Heap.Turns s.heap h' bs' (usedFrom 12 0 bs))
    (hused : ∀ x, x ∈ usedFrom 12 0 bs' ↔ x = y ∨ x ∈ usedFrom 12 0 bs)
    (hy : y ∉ usedFrom 12 0 bs) (ho : Holds h'.memory h'.heapPtr o y) :
    Keeps ⟨h', o :: s.objects⟩ bs' := by
  have hbase := ht.heapPtr
  refine ⟨ht.represents, by rw [ht.memSizeAligned]; exact hk.least, ?_, ?_, ?_, fun hnil => ?_⟩
  · refine List.pairwise_cons.mpr ⟨fun o' ho' heq => ?_, hk.distinct⟩
    obtain ⟨x, hx, hold⟩ := hk.held o' ho'
    have hne : x ≠ y := fun h => hy (h ▸ hx)
    have hapart := usedFrom_apart ((hused x).mpr (.inr hx)) ((hused y).mpr (.inl rfl)) hne
    have hptr := ho.ptr
    have hptr' := hold.ptr
    omega
  · intro o' ho'
    rcases List.mem_cons.mp ho' with rfl | ho'
    · exact ⟨y, (hused y).mpr (.inl rfl), ho⟩
    · obtain ⟨x, hx, hold⟩ := hk.held o' ho'
      refine ⟨x, (hused x).mpr (.inr hx), ?_⟩
      have hframe := hold.frame (ht.data x hx)
      simp only [hbase]
      exact hframe
  · intro x hx
    rcases (hused x).mp hx with rfl | hx
    · exact ⟨o, List.mem_cons_self, ho.ptr⟩
    · obtain ⟨o', ho', hptr⟩ := hk.owned x hx
      exact ⟨o', List.mem_cons_of_mem _ ho', by simp only [hbase]; exact hptr⟩
  · exact absurd ((hused y).mpr (.inl rfl)) (by simp [hnil])

/-- The block of an object released with it. -/
theorem Keeps.drop (hk : Keeps s (l ++ ⟨true, n⟩ :: r))
    (ht : Heap.Turns s.heap h' (release 12 l n r) (usedFrom 12 0 (release 12 l n r)))
    (hlfree : h'.lfree ≤ s.heap.heapPtr + extent 12 l)
    (hptr : ptr = s.heap.heapPtr + (extent 12 l + 12)) :
    Keeps ⟨h', without s.objects ptr⟩ (release 12 l n r) := by
  have hbase := ht.heapPtr
  have hend := hk.represents.consists.heapEnd_eq
  refine ⟨ht.represents, by rw [ht.memSizeAligned]; exact hk.least, hk.distinct.filter _, ?_, ?_,
    fun _ => ?_⟩
  · intro o ho
    obtain ⟨ho, hne⟩ := List.mem_filter.mp ho
    obtain ⟨x, hx, hold⟩ := hk.held o ho
    have hne' : x.1 ≠ extent 12 l := by
      intro heq
      have hp := hold.ptr
      simp only [ne_eq, decide_eq_true_eq] at hne
      omega
    have hx' := (mem_usedFrom_release (by norm_num)).mpr ⟨hx, hne'⟩
    refine ⟨x, hx', ?_⟩
    simp only [hbase]
    exact hold.frame (ht.data x hx')
  · intro x hx
    obtain ⟨hx, hne⟩ := (mem_usedFrom_release (by norm_num)).mp hx
    obtain ⟨o, ho, hp⟩ := hk.owned x hx
    refine ⟨o, List.mem_filter.mpr ⟨ho, ?_⟩, by simp only [hbase]; exact hp⟩
    simp only [ne_eq, decide_eq_true_eq]
    omega
  · have hsame : h'.heapEnd = s.heap.heapEnd := by
      rw [Heap.heapEnd, Heap.heapEnd, hbase, ht.memSizeAligned]
    rw [extent_append, extent_cons] at hend
    simp only [hsame]
    omega

section Calls

theorem without_eq_self (h : ¬ s.Held ptr) : without s.objects ptr = s.objects := by
  refine List.filter_eq_self.mpr fun o ho => ?_
  simp only [ne_eq, decide_eq_true_eq]
  exact fun hp => h ⟨o, ho, hp⟩

theorem Keeps.not_held_null (hk : Keeps s bs) : ¬ s.Held rtNull := fun ⟨_, ho, hp⟩ =>
  hk.ptr_ne_null ho hp

theorem extent_not_start (hx : x ∈ usedFrom 12 0 (l ++ b :: r)) (hb : b.used = false) :
    x.1 ≠ extent 12 l := by
  rw [usedFrom_append, usedFrom_cons_free hb, List.mem_append] at hx
  rcases hx with hx | hx
  · have hbounds := usedFrom_bounds hx
    omega
  · have hbounds := usedFrom_bounds hx
    omega

/-- What `rt_malloc` does for the objects: none is granted, or one in a block of its own. -/
theorem Keeps.rtMalloc (hk : Keeps s bs) (size : UInt32) :
    s.heap.rtMalloc size = some (rtNull, s.heap) ∨
      ∃ p h' bs' y, s.heap.rtMalloc size = some (p, h') ∧ p ≠ rtNull ∧
        Heap.Turns s.heap h' bs' (usedFrom 12 0 bs) ∧ y ∉ usedFrom 12 0 bs ∧
        (∀ x, x ∈ usedFrom 12 0 bs' ↔ x = y ∨ x ∈ usedFrom 12 0 bs) ∧
        p = s.heap.heapPtr + y.1 + 12 ∧ Heap.need size ≤ y.2 ∧
        (s.heap.LowestFree bs → h'.LowestFree bs') ∧ s.heap.lfree < p ∧
        s.heap.lfree ≤ h'.lfree := by
  rcases hk.represents.rtMalloc hk.least size with
    ⟨l, b, r, h', rfl, hfit, -, hret, hbec, hup⟩ | ⟨hret, -⟩
  · right
    obtain ⟨n, hn, hu⟩ := Heap.usedFrom_carved (l := l) (r := r) hfit.room
    have hbehind := hfit.behind
    refine ⟨_, h', _, (extent 12 l, n), hret, ?_, hbec.toTurns, ?_, fun x => ?_, by omega, hn,
      hbec.lowest, by omega, hup⟩
    · rw [rtNull]
      omega
    · exact fun hx => extent_not_start hx hfit.free rfl
    · rw [hu, usedFrom_append, usedFrom_cons_free hfit.free, Nat.zero_add]
      simp only [List.mem_append, List.mem_cons]
      tauto
  · exact .inl hret

/-- What `rt_malloc` hands out was not held. -/
theorem Keeps.malloc_fresh (hk : Keeps s bs) {size : UInt32} {p : ℕ}
    (hret : s.heap.rtMalloc size = some (p, h')) (hnull : p ≠ rtNull) : ¬ s.Held p := by
  rcases hk.rtMalloc size with hret' | ⟨p', h'', bs', y, hret', -, -, hy, hu, hp, -⟩
  · rw [hret', Option.some.injEq, Prod.mk.injEq] at hret
    exact absurd hret.1.symm hnull
  · rw [hret', Option.some.injEq, Prod.mk.injEq] at hret
    rintro ⟨o, ho, hop⟩
    obtain ⟨x, hx, hold⟩ := hk.held o ho
    have hptr := hold.ptr
    have hne : x ≠ y := fun h => hy (h ▸ hx)
    have hapart := usedFrom_apart ((hu x).mpr (.inr hx)) ((hu y).mpr (.inl rfl)) hne
    omega

theorem Keeps.malloc (hk : Keeps s bs) {size : UInt32} (hsize : size.toNat + 3 < 2 ^ 32) :
    ∃ s' bs', step (.malloc size) s = some s' ∧ Keeps s' bs' ∧
      (s.heap.LowestFree bs → s'.heap.LowestFree bs') := by
  have hstep : step (.malloc size) s = (s.heap.rtMalloc size).map fun (p, h) =>
      ⟨h, grant s.objects ⟨p, size.toNat, fun _ => none⟩⟩ := if_pos hsize
  rcases hk.rtMalloc size with hret | ⟨p, h', bs', y, hret, hnull, ht, hy, hu, hp, hn, hlow, -⟩
  · exact ⟨s, bs, by rw [hstep, hret]; rfl, hk, id⟩
  · refine ⟨⟨h', ⟨p, size.toNat, fun _ => none⟩ :: s.objects⟩, bs', ?_, ?_, hlow⟩
    · simp [hstep, hret, grant, hnull]
    · refine hk.granted ht hu hy ⟨by rw [ht.heapPtr]; exact hp, ?_, by simp⟩
      exact (Heap.le_need hsize).trans hn

theorem Keeps.free (hk : Keeps s bs) (hp : ptr = rtNull ∨ s.Held ptr) :
    ∃ h' bs', s.heap.rtFree ptr = some h' ∧ Keeps ⟨h', without s.objects ptr⟩ bs' ∧
      (s.heap.LowestFree bs → h'.LowestFree bs') := by
  rcases hp with rfl | hp
  · refine ⟨s.heap, bs, if_pos rfl, ?_, id⟩
    rw [without_eq_self hk.not_held_null]
    exact hk
  · obtain ⟨l, n, r, rfl, rfl⟩ := hk.block_of_held hp
    obtain ⟨h', hret, hbec, hlfree⟩ := hk.represents.rtFree
    exact ⟨h', _, hret, hk.drop hbec.toTurns hlfree rfl, hbec.lowest⟩

theorem Keeps.calloc (hk : Keeps s bs) {count size : UInt32}
    (hsize : count.toNat * size.toNat + 3 < 2 ^ 32) :
    ∃ s' bs', step (.calloc count size) s = some s' ∧ Keeps s' bs' ∧
      (s.heap.LowestFree bs → s'.heap.LowestFree bs') := by
  have hstep : step (.calloc count size) s = (s.heap.rtCalloc count size).map fun (p, h) =>
      ⟨h, grant s.objects ⟨p, count.toNat * size.toNat, fun _ => some 0⟩⟩ := if_pos hsize
  have hprod : (count * size).toNat = count.toNat * size.toNat := by
    rw [UInt32.toNat_mul, Nat.mod_eq_of_lt (by omega)]
  rcases hk.rtMalloc (count * size) with
    hret | ⟨p, h', bs', y, hret, hnull, ht, hy, hu, hp, hn, hlow, -⟩
  · exact ⟨s, bs, by rw [hstep, Heap.rtCalloc, hret]; rfl, hk, id⟩
  · have hroom : (count * size).toNat ≤ y.2 := (Heap.le_need (by omega)).trans hn
    have hptr : p = h'.heapPtr + y.1 + 12 := by rw [ht.heapPtr]; exact hp
    have hs : SameOutside h'.memory (fill h'.memory p (count * size).toNat 0)
        (h'.heapPtr + y.1 + 12) (h'.heapPtr + y.1 + 12 + y.2) := fun i hi =>
      fill_of_outside (by omega)
    have ht' := turns_store ht ((hu y).mpr (.inl rfl))
      (fun x hx => ⟨(hu x).mpr (.inr hx), fun h => hy (h ▸ hx)⟩) hs
    refine ⟨⟨_, ⟨p, count.toNat * size.toNat, fun _ => some 0⟩ :: s.objects⟩, bs', ?_,
      hk.granted ht' hu hy ⟨hptr, by rw [← hprod]; exact hroom, ?_⟩, hlow⟩
    · simp [hstep, Heap.rtCalloc, hret, grant, hnull]
    · intro k hk' b hb
      simp only [Option.mem_def, Option.some.injEq] at hb
      have hlt : k < (count * size).toNat := hprod ▸ hk'
      rw [← hb]
      exact fill_of_inside (i := p + k) (by omega) (by omega)

theorem Keeps.store (hk : Keeps s bs) {k : ℕ} (byte : UInt8) (ho : o ∈ s.objects)
    (hsize : k < o.size) :
    Keeps ⟨{ s.heap with memory := Function.update s.heap.memory (o.ptr + k) byte },
      storeByte s.objects o.ptr k byte⟩ bs := by
  obtain ⟨x, hx, hold⟩ := hk.held o ho
  have hptr := hold.ptr
  have hroom := hold.size
  have hs : SameOutside s.heap.memory (Function.update s.heap.memory (o.ptr + k) byte)
      (s.heap.heapPtr + x.1 + 12) (s.heap.heapPtr + x.1 + 12 + x.2) := fun i hi =>
    Function.update_of_ne (by omega) _ _
  refine ⟨represents_store hk.represents hx hs, hk.least, ?_, ?_, ?_, hk.idle⟩
  · refine List.pairwise_map.mpr (hk.distinct.imp fun hne => ?_)
    split <;> split <;> exact hne
  · intro o' ho'
    obtain ⟨o₀, ho₀, rfl⟩ := List.mem_map.mp ho'
    by_cases hp : o₀.ptr = o.ptr
    · obtain rfl := hk.eq_of_ptr_eq ho₀ ho hp
      rw [if_pos rfl]
      refine ⟨x, hx, hptr, hroom, fun i hi b hb => ?_⟩
      simp only at hi hb ⊢
      by_cases hik : i = k
      · subst hik
        simpa using hb
      · rw [if_neg hik] at hb
        rw [Function.update_of_ne (by omega)]
        exact hold.bytes i hi b hb
    · rw [if_neg hp]
      obtain ⟨y, hy, hold'⟩ := hk.held o₀ ho₀
      have hptr' := hold'.ptr
      have hapart := usedFrom_apart hy hx fun h => hp (by rw [hptr', hptr, h])
      exact ⟨y, hy, hold'.frame (hs.sameOn (by omega))⟩
  · intro y hy
    obtain ⟨o₀, ho₀, hp⟩ := hk.owned y hy
    refine ⟨_, List.mem_map.mpr ⟨o₀, ho₀, rfl⟩, ?_⟩
    split <;> exact hp

/-- The bytes of an object that its successor is known to have. -/
theorem Keeps.firstBytes_eq (hk : Keeps s bs) (ho : o ∈ s.objects) {n k : ℕ} {b : UInt8}
    (hb : b ∈ firstBytes s.objects o.ptr n k) : k < n ∧ k < o.size ∧ b ∈ o.bytes k := by
  have hfind : s.objects.find? (fun o' => o'.ptr = o.ptr) = some o := by
    obtain ⟨o', ho'⟩ : ∃ o', s.objects.find? (fun o' => o'.ptr = o.ptr) = some o' :=
      Option.isSome_iff_exists.mp (List.find?_isSome.mpr ⟨o, ho, by simp⟩)
    have hp := List.find?_some ho'
    rw [ho', hk.eq_of_ptr_eq (List.mem_of_find?_eq_some ho') ho (by simpa using hp)]
  rw [firstBytes, hfind] at hb
  by_cases hkn : k < n
  · by_cases hko : k < o.size
    · exact ⟨hkn, hko, by simpa [hkn, hko] using hb⟩
    · simp [hkn, hko] at hb
  · simp [hkn] at hb

/-- An object resized in its place. -/
theorem Keeps.replaced (hk : Keeps s bs) (ho : o ∈ s.objects)
    (hold : Holds s.heap.memory s.heap.heapPtr o x) {n m : ℕ}
    (ht : Heap.Turns s.heap h' bs' (usedFrom 12 0 bs'))
    (hused : ∀ y, y ∈ usedFrom 12 0 bs' ↔ y = (x.1, m) ∨ y ∈ usedFrom 12 0 bs ∧ y.1 ≠ x.1)
    (hn : n ≤ m) :
    Keeps ⟨h', ⟨o.ptr, n, firstBytes s.objects o.ptr n⟩ :: without s.objects o.ptr⟩ bs' := by
  have hbase := ht.heapPtr
  have hptr := hold.ptr
  have hx' := (hused (x.1, m)).mpr (.inl rfl)
  refine ⟨ht.represents, by rw [ht.memSizeAligned]; exact hk.least, ?_, ?_, ?_,
    fun hnil => absurd hx' (by simp [hnil])⟩
  · refine List.pairwise_cons.mpr ⟨fun o' ho' => ?_, hk.distinct.filter _⟩
    have hne := (List.mem_filter.mp ho').2
    simp only [ne_eq, decide_eq_true_eq] at hne ⊢
    exact fun h => hne h.symm
  · intro o' ho'
    rcases List.mem_cons.mp ho' with rfl | ho'
    · refine ⟨_, hx', by simpa [hbase] using hptr, hn, fun k hkn b hb => ?_⟩
      obtain ⟨-, hko, hb⟩ := hk.firstBytes_eq ho hb
      have hsame := ht.data _ hx' (o.ptr + k) (by simp only; omega) (by simp only at hkn ⊢; omega)
      exact hsame.trans (hold.bytes k hko b hb)
    · obtain ⟨ho', hne⟩ := List.mem_filter.mp ho'
      obtain ⟨y, hy, hold'⟩ := hk.held o' ho'
      have hptr' := hold'.ptr
      simp only [ne_eq, decide_eq_true_eq] at hne
      have hy' := (hused y).mpr (.inr ⟨hy, by omega⟩)
      refine ⟨y, hy', ?_⟩
      simp only [hbase]
      exact hold'.frame (ht.data y hy')
  · intro y hy
    rcases (hused y).mp hy with rfl | ⟨hy, hne⟩
    · exact ⟨_, List.mem_cons_self, by simpa [hbase] using hptr⟩
    · obtain ⟨o', ho', hp⟩ := hk.owned y hy
      refine ⟨o', List.mem_cons_of_mem _ (List.mem_filter.mpr ⟨ho', ?_⟩), by simpa [hbase] using hp⟩
      simp only [ne_eq, decide_eq_true_eq]
      omega

theorem Keeps.realloc_null (hk : Keeps s bs) {newsize : UInt32} (hnew : newsize ≠ 0)
    (hsize : newsize.toNat + 3 < 2 ^ 32) :
    ∃ p h' bs', s.heap.rtMalloc (rtAlign newsize) = some (p, h') ∧
      Keeps ⟨h', resized s.objects rtNull p newsize⟩ bs' := by
  have hbound := hk.represents.consists.chain.bound
  have hmem := hk.represents.consists.size
  have hal := toNat_rtAlign newsize
  rw [Nat.mod_eq_of_lt hsize] at hal
  rcases hk.rtMalloc (rtAlign newsize) with
    hret | ⟨p, h', bs', y, hret, hnull, ht, hy, hu, hp, hn, -, -⟩
  · refine ⟨rtNull, s.heap, bs, hret, ?_⟩
    rw [resized, if_neg hnew, if_pos rfl]
    exact hk
  · refine ⟨p, h', bs', hret, ?_⟩
    rw [resized, if_neg hnew, if_neg hnull, without_eq_self hk.not_held_null]
    have hroom := (Heap.le_need (n := rtAlign newsize) (by omega)).trans hn
    refine hk.granted ht hu hy ⟨by rw [ht.heapPtr]; exact hp, by simp only; omega, ?_⟩
    intro k _ b hb
    have hfind : s.objects.find? (fun o => o.ptr = rtNull) = none :=
      List.find?_eq_none.mpr fun o ho => by simpa using hk.ptr_ne_null ho
    simp only [firstBytes, hfind, Option.bind_none, ite_self] at hb
    simp at hb

/-- The branch of `rt_realloc` that goes through a new block. -/
theorem Keeps.moved (hk : Keeps s bs) (ho : o ∈ s.objects) (hx : x ∈ usedFrom 12 0 bs)
    (hold : Holds s.heap.memory s.heap.heapPtr o x) {newsize : UInt32} (hnew : newsize ≠ 0)
    (hsize : newsize.toNat + 3 < 2 ^ 32) :
    ∃ p h' bs', s.heap.expand o.ptr x.2 (rtAlign newsize) = some (p, h') ∧
      Keeps ⟨h', resized s.objects o.ptr p newsize⟩ bs' := by
  have hbound := hk.represents.consists.chain.bound
  have hmem := hk.represents.consists.size
  have hal := toNat_rtAlign newsize
  rw [Nat.mod_eq_of_lt hsize] at hal
  rcases hk.rtMalloc (rtAlign newsize) with
    hret | ⟨p, h', bs', y, hret, hnull, ht, hy, hu, hp, hn, -, -⟩
  · refine ⟨rtNull, s.heap, bs, by rw [Heap.expand, hret]; rfl, ?_⟩
    rw [resized, if_neg hnew, if_pos rfl]
    exact hk
  · obtain ⟨len, hlen⟩ : ∃ len, len = if x.2 < (rtAlign newsize).toNat then x.2
      else (rtAlign newsize).toNat := ⟨_, rfl⟩
    have hlen' : len ≤ x.2 ∧ len ≤ (rtAlign newsize).toNat ∧
        (len = x.2 ∨ len = (rtAlign newsize).toNat) := by
      rw [hlen]
      split <;> omega
    have hroom := (Heap.le_need (n := rtAlign newsize) (by omega)).trans hn
    have hbase := ht.heapPtr
    have hs : SameOutside h'.memory (copy h'.memory p o.ptr len)
        (h'.heapPtr + y.1 + 12) (h'.heapPtr + y.1 + 12 + y.2) := fun i hi =>
      copy_of_outside (by omega)
    have ht' := turns_store ht ((hu y).mpr (.inl rfl))
      (fun z hz => ⟨(hu z).mpr (.inr hz), fun h => hy (h ▸ hz)⟩) hs
    have hptr := hold.ptr
    have hosize := hold.size
    have hnewObject : Holds (copy h'.memory p o.ptr len) h'.heapPtr
        ⟨p, newsize.toNat, firstBytes s.objects o.ptr newsize.toNat⟩ y := by
      refine ⟨by rw [hbase]; exact hp, by simp only; omega, fun k _ b hb => ?_⟩
      obtain ⟨hkn, hko, hb⟩ := hk.firstBytes_eq ho hb
      rw [copy_of_inside (i := p + k) (by omega) (by omega), Nat.add_sub_cancel_left]
      exact (ht.data x hx _ (by omega) (by omega)).trans (hold.bytes k hko b hb)
    have hk' := hk.granted ht' hu hy hnewObject
    have hne : p ≠ o.ptr := fun h => hk.malloc_fresh hret hnull ⟨o, ho, h.symm⟩
    obtain ⟨h'', bs'', hfree, hk'', -⟩ :=
      hk'.free (.inr ⟨o, List.mem_cons_of_mem _ ho, rfl⟩)
    refine ⟨p, h'', bs'', ?_, ?_⟩
    · rw [Heap.expand, hret, Option.bind_some]
      simp only [← hlen]
      rw [if_pos hnull, hfree]
      rfl
    · rw [resized, if_neg hnew, if_neg hnull]
      have hkeep : without (⟨p, newsize.toNat, firstBytes s.objects o.ptr newsize.toNat⟩ ::
          s.objects) o.ptr = ⟨p, newsize.toNat, firstBytes s.objects o.ptr newsize.toNat⟩ ::
            without s.objects o.ptr := List.filter_cons_of_pos (by simpa using hne)
      rw [← hkeep]
      exact hk''

/-- The size `rt_realloc` reads from the header in front of an object. -/
theorem Keeps.size_read (hk : Keeps s bs) (hx : x ∈ usedFrom 12 0 bs) (rmem : ℕ)
    (hp : rmem = s.heap.heapPtr + x.1 + 12) :
    subSize (subSize (s.heap.header (rmem - sizeofStructMem)).next
      (rmem - sizeofStructMem - s.heap.heapPtr)) sizeofStructMem = x.2 := by
  obtain ⟨l, r, rfl, hpos⟩ := exists_split_of_mem_usedFrom hx
  have hhead := hk.represents.consists.header
  have hbound := hk.represents.consists.chain.bound
  simp only [extent_append, extent_cons] at hbound
  have hmem : rmem - sizeofStructMem = s.heap.heapPtr + extent 12 l := by
    simp only [sizeofStructMem]
    omega
  have hnext : (s.heap.header (rmem - sizeofStructMem)).next = extent 12 l + (12 + x.2) := by
    rw [hmem, hhead]
    rfl
  have hin : subSize (extent 12 l + (12 + x.2)) (extent 12 l) = 12 + x.2 := by
    rw [Heap.subSize_of_le (by omega) (by omega)]
    omega
  rw [hnext, hmem, Nat.add_sub_cancel_left, hin, Heap.subSize_of_le (by simp) (by omega)]
  simp

/-- `rt_realloc` on an object: its size stays, its block is cut, or it moves. -/
theorem Keeps.rtRealloc_eq (hk : Keeps s (l ++ ⟨true, n⟩ :: r)) {newsize : UInt32}
    (hp : ptr = s.heap.heapPtr + (extent 12 l + 12))
    (hfit : (rtAlign newsize).toNat ≤ s.heap.memSizeAligned) (hnew : rtAlign newsize ≠ 0) :
    s.heap.rtRealloc ptr newsize =
      if n = (rtAlign newsize).toNat then some (ptr, s.heap)
      else if (rtAlign newsize).toNat + 12 + 12 < n then
        (s.heap.shrink (extent 12 l) n (rtAlign newsize).toNat).map fun h => (ptr, h)
      else s.heap.expand ptr n (rtAlign newsize) := by
  have hx : (extent 12 l, n) ∈ usedFrom 12 0 (l ++ ⟨true, n⟩ :: r) := by
    rw [usedFrom_append, usedFrom_cons_used rfl, Nat.zero_add]
    simp
  have hread := hk.size_read hx ptr (by simp only; omega)
  have hin := usedFrom_bounds hx
  have hend := hk.represents.consists.heapEnd_eq
  have hpos : 0 < n := (hk.represents.aligned ⟨true, n⟩ (by simp)).2 rfl
  have hmem : ptr - sizeofStructMem - s.heap.heapPtr = extent 12 l := by
    simp only [sizeofStructMem]
    omega
  rw [hmem] at hread
  rw [Heap.rtRealloc]
  simp only [hmem, hread]
  rw [if_neg (by omega), if_neg hnew, if_neg (by rw [rtNull]; omega), if_neg (by simp only at hin; omega)]

/-- What `rt_realloc` does for the objects. -/
theorem Keeps.realloc (hk : Keeps s bs) {newsize : UInt32} (hp : ptr = rtNull ∨ s.Held ptr)
    (hsize : newsize.toNat + 3 < 2 ^ 32) :
    ∃ p h' bs', s.heap.rtRealloc ptr newsize = some (p, h') ∧
      Keeps ⟨h', resized s.objects ptr p newsize⟩ bs' := by
  have hal := toNat_rtAlign newsize
  rw [Nat.mod_eq_of_lt hsize] at hal
  have hzero : rtAlign newsize = 0 ↔ newsize = 0 := by
    rw [← UInt32.toNat_inj, ← UInt32.toNat_inj, hal]
    simp only [UInt32.toNat_zero]
    omega
  by_cases hbig : s.heap.memSizeAligned < (rtAlign newsize).toNat
  · have hnew : newsize ≠ 0 := by
      rintro rfl
      simp [hal] at hbig
    refine ⟨rtNull, s.heap, bs, if_pos hbig, ?_⟩
    rw [resized, if_neg hnew, if_pos rfl]
    exact hk
  by_cases hnew : newsize = 0
  · obtain ⟨h', bs', hfree, hk', -⟩ := hk.free hp
    refine ⟨rtNull, h', bs', ?_, by rw [resized, if_pos hnew]; exact hk'⟩
    rw [Heap.rtRealloc]
    simp only
    rw [if_neg hbig, if_pos (hzero.mpr hnew), hfree]
    rfl
  have hfit : (rtAlign newsize).toNat ≤ s.heap.memSizeAligned := by omega
  rcases hp with rfl | ⟨o, ho, rfl⟩
  · obtain ⟨p, h', bs', hret, hk'⟩ := hk.realloc_null hnew hsize
    refine ⟨p, h', bs', ?_, hk'⟩
    rw [Heap.rtRealloc]
    simp only
    rw [if_neg hbig, if_neg (mt hzero.mp hnew), if_pos trivial, hret]
  obtain ⟨x, hx, hold⟩ := hk.held o ho
  have hptr := hold.ptr
  obtain ⟨l, r, rfl, hpos⟩ := exists_split_of_mem_usedFrom hx
  rw [Nat.zero_add] at hpos
  have hxs : ∀ y ∈ usedFrom 12 0 (l ++ ⟨true, x.2⟩ :: r), y.1 = x.1 → y = x := fun y hy heq => by
    by_contra hne
    have hapart := usedFrom_apart hy hx hne
    omega
  rw [hk.rtRealloc_eq (by omega) hfit (mt hzero.mp hnew)]
  split
  · -- the size stays
    next hsame =>
    refine ⟨o.ptr, s.heap, l ++ ⟨true, x.2⟩ :: r, rfl, ?_⟩
    rw [resized, if_neg hnew, if_neg (hk.ptr_ne_null ho)]
    refine hk.replaced (m := x.2) ho hold
      ⟨hk.represents, rfl, rfl, fun _ _ => .refl⟩ (fun y => ?_) (by omega)
    constructor
    · intro hy
      by_cases hyx : y.1 = x.1
      · exact .inl (hxs y hy hyx)
      · exact .inr ⟨hy, hyx⟩
    · rintro (rfl | ⟨hy, -⟩)
      exacts [hx, hy]
  split
  · -- the block is cut
    next hcut =>
    obtain ⟨h', hret, ht, -⟩ := hk.represents.shrink (n := (rtAlign newsize).toNat) (by omega)
      (by
        have hpos := mt hzero.mp hnew
        rw [← UInt32.toNat_inj, UInt32.toNat_zero] at hpos
        omega) hcut
    refine ⟨o.ptr, h', l ++ ⟨true, (rtAlign newsize).toNat⟩ ::
      mergeNext 12 ⟨false, x.2 - (rtAlign newsize).toNat - 12⟩ r, by rw [hret]; rfl, ?_⟩
    rw [resized, if_neg hnew, if_neg (hk.ptr_ne_null ho)]
    refine hk.replaced (m := (rtAlign newsize).toNat) ho hold ht (fun y => ?_) (by omega)
    rw [hpos]
    exact mem_usedFrom_shorten (by norm_num) (by omega)
  · obtain ⟨p, h', bs', hret, hk'⟩ := hk.moved ho hx hold hnew hsize
    exact ⟨p, h', bs', hret, hk'⟩

end Calls

/-- Every permitted call returns, and the objects stay in blocks of their own with their
contents. -/
theorem Keeps.step (hk : Keeps s bs) {a : HeapCall} (ha : s.Permitted a) :
    ∃ s' bs', step a s = some s' ∧ Keeps s' bs' := by
  cases a with
  | malloc size =>
    obtain ⟨s', bs', hret, hk', -⟩ := hk.malloc ha
    exact ⟨s', bs', hret, hk'⟩
  | calloc count size =>
    obtain ⟨s', bs', hret, hk', -⟩ := hk.calloc ha
    exact ⟨s', bs', hret, hk'⟩
  | realloc ptr newsize =>
    obtain ⟨p, h', bs', hret, hk'⟩ := hk.realloc ha.1 ha.2
    exact ⟨_, bs', by simp [HeapUse.step, ha, hret], hk'⟩
  | free ptr =>
    obtain ⟨h', bs', hret, hk', -⟩ := hk.free ha
    exact ⟨_, bs', by simp [HeapUse.step, ha, hret], hk'⟩
  | store ptr k byte =>
    obtain ⟨o, ho, rfl, hlt⟩ := ha
    exact ⟨_, bs, if_pos ⟨o, ho, rfl, hlt⟩, hk.store byte ho hlt⟩

end HeapUse

end NanoAt
