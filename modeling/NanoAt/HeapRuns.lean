import NanoAt.HeapObjects

/-!
# The heap over whole runs

Runs of permitted calls from the heap that `rt_system_heap_init` sets up.

## Main results

- `heap_objects_apart` — objects never overlap, and keep what is stored in them
- `heap_whole_again` — without objects the heap is one free block, all of it accounted for
- `malloc_fails_iff` — when `rt_malloc` returns `RT_NULL`, as long as nothing was resized
- `cut_off_unreachable` — what `rt_realloc` cuts off in front of `lfree` is not handed out
-/

namespace NanoAt

open ByteMemory BlockList GuardedRun

namespace HeapUse

/-- A heap just set up, with room for the smallest block: on one of 4 or 8 bytes `rt_malloc`
does not return. -/
def HeapStart (s : HeapUse) : Prop :=
  (∃ m beginAddr endAddr, Heap.rtSystemHeapInit m beginAddr endAddr = some s.heap) ∧
    12 ≤ s.heap.memSizeAligned ∧ s.objects = []

/-- The stores that write a whole header. -/
theorem heapMem_written {m : Memory} {p next prev used : ℕ} (hnext : next < 2 ^ 32)
    (hprev : prev < 2 ^ 32) (hused : used < 2 ^ 16) :
    heapMem (setUsed (setPrev (setNext (setMagic m p heapMagic) p next) p prev) p used) p =
        ⟨heapMagic, used, next, prev⟩ ∧
      heapMem (setPrev (setNext (setUsed (setMagic m p heapMagic) p used) p next) p prev) p =
        ⟨heapMagic, used, next, prev⟩ := by
  simp only [heapMem_setUsed, heapMem_setPrev, heapMem_setNext, heapMem_setMagic,
    Nat.mod_eq_of_lt hnext, Nat.mod_eq_of_lt hprev, Nat.mod_eq_of_lt hused]
  exact ⟨rfl, rfl⟩

/-- `rt_system_heap_init` makes the region one free block, and `lfree` stands at it. -/
theorem represents_init {m : Memory} {beginAddr endAddr : UInt32} {h : Heap}
    (hi : Heap.rtSystemHeapInit m beginAddr endAddr = some h) :
    h.Represents [⟨false, h.memSizeAligned⟩] ∧ h.lfree = h.heapPtr := by
  have hend := toNat_rtAlignDown endAddr
  have hbegin := toNat_rtAlign beginAddr
  have hlt := endAddr.toNat_lt
  unfold Heap.rtSystemHeapInit at hi
  simp only [sizeofStructMem] at hi
  split at hi
  · next hfit =>
    obtain ⟨base, hbase⟩ : ∃ base, base = (rtAlign beginAddr).toNat := ⟨_, rfl⟩
    obtain ⟨size, hsize⟩ : ∃ size, size = (rtAlignDown endAddr).toNat - base - 2 * 12 := ⟨_, rfl⟩
    rw [← hbase, ← hsize] at hi
    obtain ⟨m₁, hm₁⟩ : ∃ m₁, m₁ = setUsed (setPrev (setNext (setMagic m base heapMagic) base
      (size + 12)) base 0) base 0 := ⟨_, rfl⟩
    have hfirst : heapMem m₁ base = ⟨heapMagic, 0, size + 12, 0⟩ := by
      rw [hm₁]
      exact (heapMem_written (by omega) (by norm_num) (by norm_num)).1
    have hnext : (heapMem m₁ base).next = size + 12 := by rw [hfirst]
    rw [← hm₁, hnext] at hi
    obtain ⟨m₂, hm₂⟩ : ∃ m₂, m₂ = setPrev (setNext (setUsed (setMagic m₁ (base + (size + 12))
      heapMagic) (base + (size + 12)) 1) (base + (size + 12)) (size + 12)) (base + (size + 12))
        (size + 12) := ⟨_, rfl⟩
    have hlast : heapMem m₂ (base + (size + 12)) = ⟨heapMagic, 1, size + 12, size + 12⟩ := by
      rw [hm₂]
      exact (heapMem_written (by omega) (by omega) (by norm_num)).2
    have ho : SameOutside m₁ m₂ (base + (size + 12)) (base + (size + 12) + 12) := by
      rw [hm₂]
      exact (((onlyHeader_setMagic.sameOutside.trans onlyHeader_setUsed.sameOutside).trans
        onlyHeader_setNext.sameOutside).trans onlyHeader_setPrev.sameOutside).mono
          (by omega) (by omega)
    rw [← hm₂] at hi
    obtain rfl := Option.some.inj hi
    refine ⟨⟨⟨⟨⟨⟨?_, trivial⟩, ?_, ?_, ?_⟩, ?_⟩, ?_, ⟨0, .inl ?_, rfl⟩⟩, ?_, ?_, ?_, rfl, le_rfl⟩,
      rfl⟩
    · show heapMem m₂ base = _
      rw [ho.heapMem (by omega), hfirst]
      simp [headerOf, Nat.add_comm]
    · simp [hlast, Nat.add_comm]
    · simp [hlast, Nat.add_comm]
    · simp [hlast, Nat.add_comm]
    · simp only [extent_cons, extent_nil]
      omega
    · simp [Nat.add_comm]
    · simp [freeFrom]
    · simp only
      omega
    · simp only [List.mem_singleton, forall_eq]
      exact ⟨by omega, by simp⟩
    · exact List.isChain_singleton _
  · simp at hi

variable {s s' : HeapUse} {bs : List Block} {a : HeapCall} {h : History HeapUse HeapCall}

theorem Keeps.start (hs : HeapStart s) : Keeps s [⟨false, s.heap.memSizeAligned⟩] := by
  obtain ⟨⟨m, beginAddr, endAddr, hi⟩, hmin, hnil⟩ := hs
  obtain ⟨hr, hlfree⟩ := represents_init hi
  refine ⟨hr, hmin, by simp [hnil], by simp [hnil], by simp [usedFrom], fun _ => ?_⟩
  rw [hlfree, Heap.heapEnd]
  simp only [sizeofStructMem]
  omega

/-- The calls on which nothing is resized. -/
def Plain : HeapCall → Prop
  | .realloc _ _ => False
  | _ => True

instance : DecidablePred Plain
  | .realloc .. => isFalse id
  | .malloc .. | .calloc .. | .free .. | .store .. => isTrue trivial

/-- A step of a permitted call. -/
theorem permitted_of_step (hs : step a s = some s') : s.Permitted a := by
  by_contra ha
  simp [step, ha] at hs

theorem Keeps.next (hk : Keeps s bs) (hs : HeapUse.step a s = some s') :
    ∃ bs', Keeps s' bs' := by
  obtain ⟨s₁, bs', hs₁, hk'⟩ := hk.step (permitted_of_step hs)
  rw [hs] at hs₁
  exact ⟨bs', Option.some.inj hs₁ ▸ hk'⟩

/-- The heap and the objects along a run. -/
theorem keeps_of_run {guard : History HeapUse HeapCall → HeapUse → HeapCall → Prop}
    (hr : Run step guard HeapStart h s) : ∃ bs, Keeps s bs :=
  hr.stateInvariant (P := fun s => ∃ bs, Keeps s bs) (fun _ hs => ⟨_, Keeps.start hs⟩)
    fun _ _ _ ⟨_, hk⟩ hs => hk.next hs

/-- **The heap gives out separate objects.** In every run of permitted calls each object
lies inside the heap, aligned, apart from every other object and with the bytes that were
stored in it; and every permitted call returns. -/
theorem heap_objects_apart {guard : History HeapUse HeapCall → HeapUse → HeapCall → Prop}
    (hr : Run step guard HeapStart h s) :
    (∀ o ∈ s.objects, o.ptr % 4 = 0 ∧ s.heap.heapPtr + sizeofStructMem ≤ o.ptr ∧
        o.ptr + o.size ≤ s.heap.heapEnd ∧
        ∀ k, k < o.size → ∀ b ∈ o.bytes k, s.heap.memory (o.ptr + k) = b) ∧
      (s.objects.Pairwise fun o o' => o.ptr + o.size ≤ o'.ptr ∨ o'.ptr + o'.size ≤ o.ptr) ∧
      ∀ a, s.Permitted a → ∃ s', step a s = some s' := by
  obtain ⟨bs, hk⟩ := keeps_of_run hr
  refine ⟨fun o ho => ?_, ?_, fun a ha => ?_⟩
  · obtain ⟨x, hx, hold⟩ := hk.held o ho
    have hptr := hold.ptr
    have hsize := hold.size
    have hbounds := usedFrom_bounds hx
    have hend := hk.represents.consists.heapEnd_eq
    obtain ⟨l, r, rfl, hpos⟩ := exists_split_of_mem_usedFrom hx
    have hal := hk.represents.four_dvd_extent
    have hbase := hk.represents.base
    refine ⟨by omega, ?_, by omega, hold.bytes⟩
    simp only [sizeofStructMem]
    omega
  · refine hk.distinct.imp_of_mem fun {o o'} ho ho' hne => ?_
    obtain ⟨x, hx, hold⟩ := hk.held o ho
    obtain ⟨y, hy, hold'⟩ := hk.held o' ho'
    have hptr := hold.ptr
    have hptr' := hold'.ptr
    have hsize := hold.size
    have hsize' := hold'.size
    have hapart := usedFrom_apart hx hy fun h => hne (by rw [hptr, hptr', h])
    omega
  · obtain ⟨s', bs', hs, -⟩ := hk.step ha
    exact ⟨s', hs⟩

theorem isSome_init_small : (Heap.rtSystemHeapInit (fun _ => 0) 4096 4352).isSome := by decide

/-- A heap of 232 bytes at address 4096. -/
def smallHeap : HeapUse := ⟨(Heap.rtSystemHeapInit (fun _ => 0) 4096 4352).get isSome_init_small, []⟩

theorem smallHeap_start : HeapStart smallHeap :=
  ⟨⟨_, _, _, (Option.some_get isSome_init_small).symm⟩, by decide, rfl⟩

theorem exists_run_of_small (guard : History HeapUse HeapCall → HeapUse → HeapCall → Prop)
    [∀ h s a, Decidable (guard h s a)] (as : List HeapCall)
    (test : History HeapUse HeapCall → HeapUse → Bool)
    (he : (exec step guard as [] smallHeap).any (fun r => test r.1 r.2) = true) :
    ∃ h s, Run step guard HeapStart h s ∧ test h s = true :=
  exists_run_of_exec smallHeap_start as test he

/-- Two objects, one of them with a byte stored in it. -/
theorem heap_objects_apart_two : ∃ s : HeapUse, s.objects.length = 2 ∧
    s.objects.Pairwise fun o o' => o.ptr + o.size ≤ o'.ptr ∨ o'.ptr + o'.size ≤ o.ptr := by
  obtain ⟨h, s, hr, htest⟩ := exists_run_of_small free
    [.malloc 20, .calloc 3 10, .store 4108 3 7] (fun _ s => s.objects.length == 2)
    (by decide +kernel)
  exact ⟨s, by simpa using htest, (heap_objects_apart hr).2.1⟩

/-- Without `rt_realloc`, `lfree` stands at the lowest free block. -/
theorem lowest_of_run (hr : Run step (fun _ _ a => Plain a) HeapStart h s) :
    ∃ bs, Keeps s bs ∧ s.heap.LowestFree bs := by
  refine hr.invariant (P := fun _ s => ∃ bs, Keeps s bs ∧ s.heap.LowestFree bs)
    (fun s hs => ?_) fun h s a s' _ ⟨bs, hk, hlow⟩ hplain hs => ?_
  · refine ⟨_, Keeps.start hs, fun q _ => ?_⟩
    obtain ⟨⟨m, beginAddr, endAddr, hi⟩, -, -⟩ := hs
    rw [(represents_init hi).2]
    omega
  · have ha := permitted_of_step hs
    cases a with
    | malloc size =>
      obtain ⟨s₁, bs', hs₁, hk', hlow'⟩ := hk.malloc ha
      rw [hs] at hs₁
      exact ⟨bs', Option.some.inj hs₁ ▸ ⟨hk', hlow' hlow⟩⟩
    | calloc count size =>
      obtain ⟨s₁, bs', hs₁, hk', hlow'⟩ := hk.calloc ha
      rw [hs] at hs₁
      exact ⟨bs', Option.some.inj hs₁ ▸ ⟨hk', hlow' hlow⟩⟩
    | realloc ptr newsize => exact hplain.elim
    | free ptr =>
      obtain ⟨h', bs', hret, hk', hlow'⟩ := hk.free ha
      simp only [step, if_pos ha, hret, Option.map_some, Option.some.injEq] at hs
      exact ⟨bs', hs ▸ ⟨hk', hlow' hlow⟩⟩
    | store ptr k byte =>
      obtain ⟨o, ho, rfl, hlt⟩ := ha
      have hk' := hk.store byte ho hlt
      have hstep : step (.store o.ptr k byte) s = _ := if_pos ⟨o, ho, rfl, hlt⟩
      rw [hstep, Option.some.injEq] at hs
      exact ⟨bs, hs ▸ ⟨hk', hlow⟩⟩

/-- **When `rt_malloc` fails.** In a run without `rt_realloc`, `rt_malloc` of a size that
`RT_ALIGN` does not wrap returns `RT_NULL` only when no free block has room, or the one that
does is the last of the heap and exactly as large as the request; otherwise it returns the
first free block with room. -/
theorem malloc_fails_iff (hr : Run step (fun _ _ a => Plain a) HeapStart h s) (size : UInt32)
    (hsize : size ≠ 0) (halign : size.toNat + 3 < 2 ^ 32) :
    ∃ bs, s.heap.Represents bs ∧ size.toNat ≤ Heap.need size ∧
      ((s.heap.rtMalloc size).map Prod.fst = some rtNull ↔
        ∀ l b r, bs = l ++ b :: r → b.used = false → Heap.need size ≤ b.size →
          r = [] ∧ b.size = Heap.need size) ∧
      ∀ p h', s.heap.rtMalloc size = some (p, h') → p ≠ rtNull →
        ∃ l b r, bs = l ++ b :: r ∧ b.used = false ∧ Heap.need size ≤ b.size ∧
          (∀ c ∈ l, c.used = false → c.size < Heap.need size) ∧
          p = s.heap.heapPtr + extent 12 l + 12 := by
  obtain ⟨bs, hk, hlow⟩ := lowest_of_run hr
  have hr := hk.represents
  have hbs := hr.consists.size
  -- a free block with room fits unless it ends the heap and leaves no byte over
  have hfits : ∀ l b r, bs = l ++ b :: r → b.used = false → Heap.need size ≤ b.size →
      ¬ (r = [] ∧ b.size = Heap.need size) → s.heap.Fits (Heap.need size) l b := by
    intro l b r hsplit hb hroom hne
    subst hsplit
    refine ⟨hb, hroom, hlow _ (by rw [freeFrom_middle hb]; simp), ?_⟩
    rw [extent_append, extent_cons] at hbs
    cases r with
    | nil =>
      simp only [extent_nil] at hbs
      have hlt : b.size ≠ Heap.need size := fun h => hne ⟨rfl, h⟩
      omega
    | cons c r =>
      rw [extent_cons] at hbs
      omega
  refine ⟨bs, hr, Heap.le_need halign, ⟨fun hnull l b r hsplit hb hroom => ?_, fun hall => ?_⟩,
    fun p h' hret hp => ?_⟩
  · by_contra hne
    have hfit := hfits l b r hsplit hb hroom hne
    have hbelow := hfit.below
    rcases hr.rtMalloc hk.least size with ⟨l', b', r', h', -, -, -, hret, -⟩ | ⟨-, h0 | hbig | hno⟩
    · rw [hret] at hnull
      simp [rtNull] at hnull
    · exact hsize h0
    · have halign : (rtAlign size).toNat ≤ Heap.need size := le_max_right _ _
      omega
    · exact hno l b r hsplit hfit
  · rcases hr.rtMalloc hk.least size with ⟨l, b, r, h', hsplit, hfit, -, -, -⟩ | ⟨hret, -⟩
    · obtain ⟨rfl, hexact⟩ := hall l b r hsplit hfit.free hfit.room
      have hbelow := hfit.below
      rw [hsplit, extent_append, extent_cons, extent_nil] at hbs
      omega
    · rw [hret]
      rfl
  · rcases hr.rtMalloc hk.least size with ⟨l, b, r, h'', hsplit, hfit, hskip, hret', -⟩ | ⟨hret', -⟩
    · rw [hret', Option.some.injEq, Prod.mk.injEq] at hret
      refine ⟨l, b, r, hsplit, hfit.free, hfit.room, fun c hc hcu => ?_, by omega⟩
      by_contra hge
      obtain ⟨l₁, l₂, rfl⟩ := List.append_of_mem hc
      refine hskip l₁ c l₂ rfl (hfits l₁ c (l₂ ++ b :: r) (by simp [hsplit]) hcu (by omega) ?_)
      simp
    · rw [hret', Option.some.injEq, Prod.mk.injEq] at hret
      exact absurd hret.1.symm hp

/-- Of three objects the second one is freed. A request of 28 bytes gets its place; one of 108
bytes fails, although 136 bytes are free in all. -/
theorem malloc_fails_iff_hole : ∃ s : HeapUse, s.objects.length = 2 ∧
    (∃ bs, s.heap.Represents bs ∧ ∀ l b r, bs = l ++ b :: r → b.used = false →
      108 ≤ b.size → r = [] ∧ b.size = 108) ∧
    ∃ bs, s.heap.Represents bs ∧ ∃ l b r, bs = l ++ b :: r ∧ b.used = false ∧ 28 ≤ b.size ∧
      s.heap.heapPtr + extent 12 l + 12 = 4140 := by
  obtain ⟨h, s, hr, htest⟩ := exists_run_of_small (fun _ _ a => Plain a)
    [.malloc 20, .malloc 30, .malloc 40, .free 4140]
    (fun _ s => s.objects.length == 2 &&
      (s.heap.rtMalloc 108).map Prod.fst == some rtNull &&
      (s.heap.rtMalloc 28).map Prod.fst == some 4140) (by decide +kernel)
  simp only [Bool.and_eq_true, beq_iff_eq] at htest
  obtain ⟨⟨hlen, hnull⟩, hhole⟩ := htest
  refine ⟨s, hlen, ?_, ?_⟩
  · obtain ⟨bs, hbs, -, hiff, -⟩ := malloc_fails_iff hr 108 (by decide) (by decide)
    exact ⟨bs, hbs, hiff.mp hnull⟩
  · obtain ⟨bs, hbs, -, -, hfirst⟩ := malloc_fails_iff hr 28 (by decide) (by decide)
    obtain ⟨⟨p, h'⟩, hret, rfl⟩ := Option.map_eq_some_iff.mp hhole
    obtain ⟨l, b, r, hsplit, hfree, hroom, -, hp⟩ := hfirst _ h' hret (by decide)
    exact ⟨bs, hbs, l, b, r, hsplit, hfree, hroom, hp.symm⟩

section CutOff

/-- The calls that only take from the heap. -/
def Takes : HeapCall → Prop
  | .malloc _ | .calloc _ _ | .store _ _ _ => True
  | _ => False

instance : DecidablePred Takes
  | .malloc .. | .calloc .. | .store .. => isTrue trivial
  | .realloc .. | .free .. => isFalse id

variable {o o' : HeapObject} {s₀ s₁ s₂ : HeapUse} {h₂ : History HeapUse HeapCall}

/-- `rt_realloc` that leaves an object where it is leaves `lfree` where it is, if that
stands behind the next header. -/
theorem Keeps.realloc_lfree (hk : Keeps s bs) (ho : o ∈ s.objects) {newsize : UInt32}
    (hahead : s.heap.heapPtr + (s.heap.header (o.ptr - sizeofStructMem)).next < s.heap.lfree)
    (hs : HeapUse.step (.realloc o.ptr newsize) s = some s₁) (hheld : s₁.Held o.ptr) :
    s₁.heap.lfree = s.heap.lfree := by
  have hperm := permitted_of_step hs
  simp only [HeapUse.step, if_pos hperm, Option.map_eq_some_iff] at hs
  obtain ⟨⟨p, h'⟩, hret, rfl⟩ := hs
  have hsize : newsize.toNat + 3 < 2 ^ 32 := hperm.2
  have hal := toNat_rtAlign newsize
  rw [Nat.mod_eq_of_lt hsize] at hal
  have hgone : ¬ (⟨h', without s.objects o.ptr⟩ : HeapUse).Held o.ptr := by
    rintro ⟨o', ho', hp⟩
    have hne := (List.mem_filter.mp ho').2
    simp [hp] at hne
  have hnew : newsize ≠ 0 := by
    rintro rfl
    exact hgone (by simpa [resized] using hheld)
  have hzero : rtAlign newsize ≠ 0 := by
    intro h
    rw [← UInt32.toNat_inj, hal, UInt32.toNat_zero] at h
    exact hnew (UInt32.toNat_inj.mp (by rw [UInt32.toNat_zero]; omega))
  by_cases hbig : s.heap.memSizeAligned < (rtAlign newsize).toNat
  · have hsame : s.heap.rtRealloc o.ptr newsize = some (rtNull, s.heap) := if_pos hbig
    rw [hsame, Option.some.injEq, Prod.mk.injEq] at hret
    exact hret.2 ▸ rfl
  obtain ⟨l, n, r, rfl, hptr⟩ := hk.block_of_held ⟨o, ho, rfl⟩
  have hhead := hk.represents.consists.header
  have hmem : o.ptr - sizeofStructMem = s.heap.heapPtr + extent 12 l := by
    simp only [sizeofStructMem]
    omega
  rw [hmem, hhead] at hahead
  simp only [headerOf] at hahead
  rw [hk.rtRealloc_eq hptr (by omega) hzero] at hret
  split at hret
  · rw [Option.some.injEq, Prod.mk.injEq] at hret
    exact hret.2 ▸ rfl
  split at hret
  · next hcut =>
    rw [Ne, ← UInt32.toNat_inj, UInt32.toNat_zero] at hzero
    obtain ⟨h'', hshrink, -, hlfree⟩ :=
      hk.represents.shrink (n := (rtAlign newsize).toNat) (by omega) (by omega) hcut
    simp only [hshrink, Option.map_some, Option.some.injEq, Prod.mk.injEq] at hret
    exact hret.2 ▸ hlfree hahead
  · -- an object that moved is no longer where it was
    unfold Heap.expand at hret
    rw [Option.bind_eq_some_iff] at hret
    obtain ⟨⟨q, h₁⟩, hmalloc, hret⟩ := hret
    simp only at hret
    split at hret
    · next hq =>
      simp only [Option.map_eq_some_iff, Prod.mk.injEq] at hret
      obtain ⟨h₂, -, rfl, rfl⟩ := hret
      refine absurd ?_ hgone
      obtain ⟨o', ho', hp'⟩ := hheld
      simp only [resized, if_neg hnew, if_neg hq] at ho'
      rcases List.mem_cons.mp ho' with rfl | ho'
      · exact absurd ⟨o, ho, hp'.symm⟩ (hk.malloc_fresh hmalloc hq)
      · exact ⟨o', ho', hp'⟩
    · next hq =>
      rw [not_not] at hq
      subst hq
      rw [Option.some.injEq, Prod.mk.injEq] at hret
      obtain ⟨rfl, rfl⟩ := hret
      rcases hk.rtMalloc (rtAlign newsize) with hfail | ⟨p', h'', bs', y, hok, hnull, -⟩
      · rw [hfail, Option.some.injEq, Prod.mk.injEq] at hmalloc
        exact hmalloc.2 ▸ rfl
      · rw [hok, Option.some.injEq, Prod.mk.injEq] at hmalloc
        exact absurd hmalloc.1 hnull

/-- Taking from the heap only moves `lfree` up, and what is taken lies behind it. -/
theorem Keeps.takes (hk : Keeps s bs) (ha : Takes a) (hs : HeapUse.step a s = some s') :
    (∃ bs', Keeps s' bs') ∧ s.heap.lfree ≤ s'.heap.lfree ∧
      ∀ o ∈ s'.objects, s.Held o.ptr ∨ s.heap.lfree < o.ptr := by
  refine ⟨hk.next hs, ?_⟩
  have hperm := permitted_of_step hs
  have hgrant : ∀ p size bytes, p = rtNull ∨ s.heap.lfree < p →
      ∀ o' ∈ grant s.objects ⟨p, size, bytes⟩, s.Held o'.ptr ∨ s.heap.lfree < o'.ptr := by
    intro p size bytes hlt o' ho'
    unfold grant at ho'
    split at ho'
    · exact .inl ⟨o', ho', rfl⟩
    · next hnull =>
      rcases List.mem_cons.mp ho' with rfl | ho'
      · exact .inr (hlt.resolve_left hnull)
      · exact .inl ⟨o', ho', rfl⟩
  cases a with
  | malloc size =>
    simp only [HeapUse.step, if_pos hperm, Option.map_eq_some_iff] at hs
    obtain ⟨⟨p, h'⟩, hret, rfl⟩ := hs
    rcases hk.rtMalloc size with hret' | ⟨p', h'', bs', y, hret', -, -, -, -, -, -, -, hlt, hup⟩
    all_goals
      rw [hret', Option.some.injEq, Prod.mk.injEq] at hret
      obtain ⟨rfl, rfl⟩ := hret
    · exact ⟨le_rfl, hgrant _ size.toNat (fun _ => none) (.inl rfl)⟩
    · exact ⟨hup, hgrant _ size.toNat (fun _ => none) (.inr hlt)⟩
  | calloc count size =>
    simp only [HeapUse.step, if_pos hperm, Heap.rtCalloc, Option.map_map,
      Option.map_eq_some_iff] at hs
    obtain ⟨⟨p, h'⟩, hret, rfl⟩ := hs
    rcases hk.rtMalloc (count * size) with
      hret' | ⟨p', h'', bs', y, hret', hnull, -, -, -, -, -, -, hlt, hup⟩
    all_goals
      rw [hret', Option.some.injEq, Prod.mk.injEq] at hret
      obtain ⟨rfl, rfl⟩ := hret
    · exact ⟨le_rfl, hgrant _ (count.toNat * size.toNat) (fun _ => some 0) (.inl rfl)⟩
    · simp only [Function.comp, if_pos hnull]
      exact ⟨hup, hgrant _ (count.toNat * size.toNat) (fun _ => some 0) (.inr hlt)⟩
  | realloc ptr newsize => exact ha.elim
  | free ptr => exact ha.elim
  | store ptr k byte =>
    simp only [HeapUse.step, if_pos hperm, Option.some.injEq] at hs
    subst hs
    refine ⟨le_rfl, fun o ho => .inl ?_⟩
    obtain ⟨o₀, ho₀, rfl⟩ := List.mem_map.mp ho
    refine ⟨o₀, ho₀, ?_⟩
    split <;> rfl

/-- **Memory that `rt_realloc` loses.** What is cut off an object in front of `lfree`, and not
directly in front of it, is free, but whatever is taken from the heap afterwards lies behind
`lfree`, until something is released or resized. -/
theorem cut_off_unreachable {guard : History HeapUse HeapCall → HeapUse → HeapCall → Prop}
    (hr : Run step guard HeapStart h s) (ho : o ∈ s.objects) {newsize : UInt32}
    (hahead : s.heap.heapPtr + (s.heap.header (o.ptr - sizeofStructMem)).next < s.heap.lfree)
    (hcut : step (.realloc o.ptr newsize) s = some s₁) (hheld : s₁.Held o.ptr)
    (htaken : Run step (fun _ _ a => Takes a) (fun s => s = s₁) h₂ s₂) (ho' : o' ∈ s₂.objects)
    (hnew : ¬ s₁.Held o'.ptr) : s.heap.lfree < o'.ptr := by
  obtain ⟨bs, hk⟩ := keeps_of_run hr
  have hlfree := hk.realloc_lfree ho hahead hcut hheld
  have hinv := htaken.invariant (P := fun _ s' => (∃ bs', Keeps s' bs') ∧
      s.heap.lfree ≤ s'.heap.lfree ∧
      ∀ o ∈ s'.objects, s₁.Held o.ptr ∨ s.heap.lfree < o.ptr) ?_ ?_
  · exact (hinv.2.2 o' ho').resolve_left hnew
  · rintro s' rfl
    exact ⟨hk.next hcut, hlfree.ge, fun o ho => .inl ⟨o, ho, rfl⟩⟩
  · rintro h' s' a s'' - ⟨⟨bs', hk'⟩, hle, hall⟩ ha hs
    obtain ⟨hkeeps, hup, hnext⟩ := hk'.takes ha hs
    refine ⟨hkeeps, hle.trans hup, fun o ho => ?_⟩
    rcases hnext o ho with ⟨o₀, ho₀, hp⟩ | hlt
    · exact hp ▸ hall o₀ ho₀
    · exact .inr (hle.trans_lt hlt)

/-- Two objects on the small heap, the first cut short, then a third. -/
theorem cut_off_unreachable_third : ∃ s s₂ : HeapUse, ∃ o' ∈ s₂.objects, s.heap.lfree < o'.ptr := by
  let r := (exec step free [.malloc 40, .malloc 12] [] smallHeap).get (by decide +kernel)
  let s₁ := (step (.realloc 4108 4) r.2).get (by decide +kernel)
  let r₂ := (exec step (fun _ _ a => Takes a) [.malloc 16] [] s₁).get (by decide +kernel)
  have hr : Run step free HeapStart r.1 r.2 :=
    (Run.start smallHeap_start).exec (Option.some_get _).symm
  have hstart : Run step (fun _ _ a => Takes a) (fun s => s = s₁) [] s₁ := .start rfl
  have hr₂ : Run step (fun _ _ a => Takes a) (fun s => s = s₁) r₂.1 r₂.2 :=
    hstart.exec (Option.some_get _).symm
  obtain ⟨o, ho, hp⟩ : r.2.Held 4108 := by decide +kernel
  obtain ⟨o', ho', hnew⟩ : ∃ o' ∈ r₂.2.objects, ¬ s₁.Held o'.ptr := by decide +kernel
  have hcut : step (.realloc o.ptr 4) r.2 = some s₁ := by
    rw [hp]
    exact (Option.some_get _).symm
  refine ⟨r.2, r₂.2, o', ho', cut_off_unreachable hr ho ?_ hcut ?_ hr₂ ho' hnew⟩
  · rw [hp]
    decide +kernel
  · rw [hp]
    decide +kernel

end CutOff

end HeapUse

end NanoAt
