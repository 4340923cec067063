import NanoAt.HeapRelease

/-!
# Blocks handed out by the heap

What `rt_malloc` and the branch of `rt_realloc` that splits a block do to the list of
blocks the heap consists of, to `lfree` and to the data of the blocks in use.

## Main results

- `Represents.rtMalloc` — `rt_malloc` carves the first block at or behind `lfree` that fits
- `Represents.shrink` — the part `rt_realloc` cuts off becomes a free block
-/

namespace NanoAt

open ByteMemory BlockList

variable {m m' : Memory} {h h' : Heap} {p q n : ℕ} {b c : Block} {bs l r : List Block}

namespace Heap

section Cutting

variable {mem mem2 ptr ptr2 next : ℕ}

/-- What the first stores of a split leave in the two headers. -/
theorem insertMem2_spec (m : Memory) (mem mem2 ptr ptr2 : ℕ) (hmem2 : mem + 12 ≤ mem2) :
    heapMem (insertMem2 m mem mem2 ptr ptr2) mem =
        { heapMem m mem with next := ptr2 % 2 ^ 32 } ∧
      heapMem (insertMem2 m mem mem2 ptr ptr2) mem2 =
        ⟨heapMagic, 0, (heapMem m mem).next % 2 ^ 32, ptr % 2 ^ 32⟩ ∧
      ∀ i, (i < mem ∨ mem + 12 ≤ i) → (i < mem2 ∨ mem2 + 12 ≤ i) →
        insertMem2 m mem mem2 ptr ptr2 i = m i := by
  obtain ⟨m₁, hm₁⟩ : ∃ m₁, m₁ = setUsed (setMagic m mem2 heapMagic) mem2 0 := ⟨_, rfl⟩
  have ho₁ : SameOutside m m₁ mem2 (mem2 + 12) := by
    rw [hm₁]
    exact (onlyHeader_setMagic.sameOutside.trans onlyHeader_setUsed.sameOutside).mono
      (by omega) (by omega)
  have hkeep : heapMem m₁ mem = heapMem m mem := ho₁.heapMem (.inl hmem2)
  obtain ⟨m₂, hm₂⟩ : ∃ m₂, m₂ = setPrev (setNext m₁ mem2 (heapMem m mem).next) mem2 ptr :=
    ⟨_, rfl⟩
  have ho₂ : SameOutside m m₂ mem2 (mem2 + 12) := by
    rw [hm₂]
    exact (ho₁.trans (onlyHeader_setNext.sameOutside.trans
      onlyHeader_setPrev.sameOutside)).mono (by omega) (by omega)
  have hinsert : insertMem2 m mem mem2 ptr ptr2 = setNext m₂ mem ptr2 := by
    rw [hm₂, ← hkeep, hm₁]
    rfl
  have ho : SameOutside m₂ (setNext m₂ mem ptr2) mem (mem + 12) := onlyHeader_setNext
  rw [hinsert]
  refine ⟨?_, ?_, fun i hi hi2 => (ho i hi).trans (ho₂ i hi2)⟩
  · rw [heapMem_setNext, ho₂.heapMem (.inl hmem2)]
  · rw [ho.heapMem (.inr hmem2), hm₂, heapMem_setPrev, heapMem_setNext, hm₁, heapMem_setUsed,
      heapMem_setMagic]
    rfl

/-- The store behind a new header reaches no further than the header behind it. -/
theorem linkBack_sameOutside {z : ℕ} (hm : SameOutside m m' mem z)
    (hnext : (heapMem m' mem2).next = next) (hlow : mem ≤ h.heapPtr + next) :
    SameOutside m (h.linkBack m' mem2 ptr2) mem (max z (h.heapPtr + next + 12)) := by
  unfold linkBack
  simp only [hnext]
  split
  · exact (hm.trans onlyHeader_setPrev.sameOutside).mono (by omega) (by omega)
  · exact hm.mono le_rfl (by omega)

theorem linkBack_of_lt {i : ℕ} (hnext : (heapMem m mem2).next = next)
    (hi : i < h.heapPtr + next) : h.linkBack m mem2 ptr2 i = m i := by
  unfold linkBack
  simp only [hnext]
  split
  · exact onlyHeader_setPrev i (.inl hi)
  · rfl

/-- The stores of a split: a header inside the data of a block, linked in both directions. -/
theorem Consists.cut (hc : h.Consists (l ++ b :: r)) (hn : n + 12 ≤ b.size) {u : Bool}
    (hs : SameOutside h.memory m' (h.heapPtr + extent 12 l)
      (h.heapPtr + extent 12 l + (12 + b.size)))
    (hmem : heapMem m' (h.heapPtr + extent 12 l) =
      headerOf ⟨u, n⟩ (extent 12 l) (lastFrom 0 0 l))
    (hmem2 : heapMem m' (h.heapPtr + (extent 12 l + 12 + n)) =
      headerOf ⟨false, b.size - n - 12⟩ (extent 12 l + 12 + n) (extent 12 l)) :
    BlockChain (h.linkBack m' (h.heapPtr + (extent 12 l + 12 + n)) (extent 12 l + 12 + n))
        h.heapPtr (l ++ ⟨u, n⟩ :: ⟨false, b.size - n - 12⟩ :: r) ∧
      SameOutside h.memory
        (h.linkBack m' (h.heapPtr + (extent 12 l + 12 + n)) (extent 12 l + 12 + n))
        (h.heapPtr + extent 12 l) (h.heapPtr + extent 12 l + (12 + b.size) + 12) := by
  have hnext : (heapMem m' (h.heapPtr + (extent 12 l + 12 + n))).next =
      extent 12 l + (12 + b.size) := by
    simp only [hmem2, headerOf]
    omega
  constructor
  · have hsplit := hc.chain.split hn hs hmem hmem2
    rw [hc.size] at hsplit
    exact hsplit
  · exact (linkBack_sameOutside hs hnext (by omega)).mono le_rfl (by omega)

end Cutting

/-- The block a heap is to hand out, put to use. -/
theorem Represents.allot (hr : h.Represents (l ++ b :: r)) (hn : n ≤ b.size) {mem : ℕ}
    (hmem : mem = h.heapPtr + extent 12 l) :
    BlockChain (setMagic (h.allot n (extent 12 l)).memory mem heapMagic) h.heapPtr
        (l ++ (carve 12 12 n b ++ r)) ∧
      SameOutside h.memory (setMagic (h.allot n (extent 12 l)).memory mem heapMagic) mem
        (mem + (12 + b.size) + 12) ∧
      h.allot n (extent 12 l) =
        { h.account (inUse 12 (carve 12 12 n b)) with
          memory := (h.allot n (extent 12 l)).memory } := by
  have hc := hr.consists
  have hbound := hc.chain.bound
  have hhead := hc.header
  rw [← hmem] at hhead
  simp only [extent_append, extent_cons] at hbound
  have hdata : subSize (h.header mem).next (extent 12 l + sizeofStructMem) = b.size := by
    rw [hhead]
    simp only [headerOf, sizeofStructMem]
    rw [subSize_of_le (by omega) (by omega)]
    omega
  have hmagic := fun m => (onlyHeader_setMagic (m := m) (p := mem) (v := heapMagic)).sameOutside
  by_cases hsplit : n + 12 + 12 ≤ b.size
  · -- the block is split
    obtain ⟨mem2, hm2⟩ : ∃ mem2, mem2 = h.heapPtr + (extent 12 l + 12 + n) := ⟨_, rfl⟩
    obtain ⟨hins, hins2, hkeep⟩ := insertMem2_spec h.memory mem mem2 (extent 12 l)
      (extent 12 l + 12 + n) (by omega)
    obtain ⟨m, hm⟩ : ∃ m, m = setUsed (insertMem2 h.memory mem mem2 (extent 12 l)
      (extent 12 l + 12 + n)) mem 1 := ⟨_, rfl⟩
    have ho := (onlyHeader_setUsed (m := insertMem2 h.memory mem mem2 (extent 12 l)
      (extent 12 l + 12 + n)) (p := mem) (v := 1)).sameOutside
    rw [← hm] at ho
    have hs : SameOutside h.memory m mem (mem + (12 + b.size)) := fun i hi =>
      (ho i (by omega)).trans (hkeep i (by omega) (by omega))
    have hmem1 : heapMem m mem = headerOf ⟨true, n⟩ (extent 12 l) (lastFrom 0 0 l) := by
      rw [hm, heapMem_setUsed, hins, show heapMem h.memory mem = _ from hhead]
      simp only [headerOf, HeapMem.mk.injEq, true_and, and_true]
      exact ⟨rfl, by omega⟩
    have hmem2 : heapMem m mem2 =
        headerOf ⟨false, b.size - n - 12⟩ (extent 12 l + 12 + n) (extent 12 l) := by
      rw [ho.heapMem (by omega), hins2, show heapMem h.memory mem = _ from hhead]
      simp only [headerOf, HeapMem.mk.injEq, true_and]
      exact ⟨rfl, by omega, by omega⟩
    subst hmem hm2
    obtain ⟨hchain, hout⟩ := hc.cut (by omega) hs hmem1 hmem2
    have hallot : h.allot n (extent 12 l) = { h with
        memory := h.linkBack m (h.heapPtr + (extent 12 l + 12 + n)) (extent 12 l + 12 + n) }.account
          (n + sizeofStructMem) := by
      rw [hm]
      exact if_pos (by rw [hdata]; exact hsplit)
    rw [hallot, carve_of_le hsplit]
    refine ⟨hchain.setMagic, ?_, ?_⟩
    · exact (hout.trans (hmagic _)).mono (by omega) (by omega)
    · rw [inUse_cons_used rfl, inUse_cons_free rfl, Nat.add_comm n]
      rfl
  · -- the block is taken whole
    have hallot : h.allot n (extent 12 l) =
        { h with memory := setUsed h.memory mem 1 }.account (12 + b.size) := by
      have hwhole : subSize (h.header mem).next (extent 12 l) = 12 + b.size := by
        rw [hhead]
        simp only [headerOf]
        rw [subSize_of_le (by omega) (by omega), Nat.add_sub_cancel_left]
      rw [← hwhole, hmem]
      exact if_neg (by rw [← hmem, hdata]; exact hsplit)
    rw [hallot, carve_of_lt (by omega)]
    refine ⟨?_, ?_, ?_⟩
    · rw [hmem]
      exact (hc.chain.setUsed true).setMagic
    · exact ((onlyHeader_setUsed.sameOutside).trans (hmagic _)).mono (by omega) (by omega)
    · rw [inUse_cons_used rfl]
      rfl

/-- The scan for the next free block stops at the first one, or at the end. -/
theorem nextFree_eq (hchain : BlockChain h.memory h.heapPtr (l ++ r))
    (hend : h.heapEnd = h.heapPtr + extent 12 (l ++ r)) {fuel : ℕ} (hfuel : r.length < fuel) :
    h.nextFree fuel (h.heapPtr + extent 12 l) =
      some (h.heapPtr + (freeFrom 12 (extent 12 l) r).headD (extent 12 (l ++ r))) := by
  induction r generalizing l fuel with
  | nil =>
    obtain ⟨fuel, rfl⟩ : ∃ k, fuel = k + 1 := ⟨fuel - 1, by simp at hfuel; omega⟩
    rw [List.append_nil] at hend
    rw [nextFree, if_neg (by simp [hend])]
    simp
  | cons c r ih =>
    obtain ⟨fuel, rfl⟩ : ∃ k, fuel = k + 1 := ⟨fuel - 1, by simp at hfuel; omega⟩
    have hhead : h.header (h.heapPtr + extent 12 l) = headerOf c (extent 12 l) (lastFrom 0 0 l) :=
      (blockChain_iff.mp hchain).1.2.1
    rw [nextFree, hhead]
    cases hcu : c.used with
    | true =>
      have hlt : h.heapPtr + extent 12 l ≠ h.heapEnd := by
        rw [hend, extent_append, extent_cons]
        omega
      have hpos : extent 12 l + (12 + c.size) = extent 12 (l ++ [c]) := by simp
      have hrest := ih (l := l ++ [c]) (by simpa using hchain) (by simpa using hend)
        (by simpa using hfuel)
      rw [if_pos ⟨by simp [headerOf, hcu], hlt⟩, freeFrom_cons_used hcu, hpos]
      simp only [headerOf, hpos]
      rw [hrest, List.append_assoc]
      rfl
    | false =>
      rw [if_neg (by simp [headerOf, hcu]), freeFrom_cons_free hcu]
      rfl

theorem Consists.length_lt (hc : h.Consists bs) : bs.length + 1 < h.passes := by
  have hlen : bs.length * 12 ≤ extent 12 bs := length_mul_le_extent
  rw [hc.size] at hlen
  simp only [passes, sizeofStructMem]
  omega

theorem account_usedMem (hr : h.Represents bs) {k : ℕ} (hk : h.usedMem + k < 2 ^ 32) :
    (h.account k).usedMem = h.usedMem + k ∧ (h.account k).usedMem ≤ (h.account k).maxMem := by
  have hmax := hr.maxMem
  simp only [account, addSize, Nat.mod_eq_of_lt hk, true_and]
  split <;> omega

/-- The blocks of the heap with a free one carved. -/
abbrev carved (n : ℕ) (l : List Block) (b : Block) (r : List Block) : List Block :=
  l ++ (carve 12 12 n b ++ r)

theorem freeFrom_carved : freeFrom 12 0 (carved n l b r) = freeFrom 12 0 l ++
    (freeFrom 12 (extent 12 l) (carve 12 12 n b) ++
      freeFrom 12 (extent 12 l + (12 + b.size)) r) := by
  rw [carved, freeFrom_append, freeFrom_append, Nat.zero_add, extent_carve]

theorem usedFrom_carved (hn : n ≤ b.size) : ∃ s, n ≤ s ∧ usedFrom 12 0 (carved n l b r) =
    usedFrom 12 0 l ++ (extent 12 l, s) :: usedFrom 12 (extent 12 l + (12 + b.size)) r := by
  obtain ⟨s, hs, hu⟩ := usedFrom_carve (w := 12) (k := 12) (p := extent 12 l) hn
  refine ⟨s, hs, ?_⟩
  rw [carved, usedFrom_append, usedFrom_append, Nat.zero_add, hu, extent_carve]
  rfl

theorem extent_carved : extent 12 (carved n l b r) = extent 12 (l ++ b :: r) := by
  rw [carved, extent_append, extent_append, extent_append, extent_carve, extent_cons]

/-- Carving removes one free start. -/
theorem mem_freeFrom_carved (hb : b.used = false) (hq : q ∈ freeFrom 12 0 (l ++ b :: r))
    (hne : q ≠ extent 12 l) : q ∈ freeFrom 12 0 (carved n l b r) := by
  rw [freeFrom_carved]
  rw [freeFrom_middle hb] at hq
  simp only [List.mem_append, List.mem_cons] at hq ⊢
  tauto

/-- What carving adds to the free starts lies behind the carved block. -/
theorem mem_freeFrom_of_carved (hb : b.used = false)
    (hq : q ∈ freeFrom 12 0 (carved n l b r)) :
    q ∈ freeFrom 12 0 (l ++ b :: r) ∨ extent 12 l ≤ q := by
  rw [freeFrom_carved] at hq
  rw [freeFrom_middle hb]
  simp only [List.mem_append, List.mem_cons] at hq ⊢
  rcases hq with hq | hq | hq
  · exact .inl (.inl hq)
  · exact .inr (freeFrom_bounds hq).1
  · exact .inl (.inr (.inr hq))

/-- `lfree` after a block is put to use: where it stood, or at the next free block. -/
theorem carved_lfree (hb : b.used = false) {lfree next mem : ℕ} (hmem : mem = p + extent 12 l)
    (hold : ∃ q, FreeOrEnd (l ++ b :: r) q ∧ lfree = p + q)
    (hnext : next = p + (freeFrom 12 (extent 12 l) (carve 12 12 n b ++ r)).headD
      (extent 12 (carved n l b r))) :
    (∃ q, FreeOrEnd (carved n l b r) q ∧ (if mem = lfree then next else lfree) = p + q) ∧
      ((∀ q ∈ freeFrom 12 0 (l ++ b :: r), lfree ≤ p + q) →
        ∀ q ∈ freeFrom 12 0 (carved n l b r), (if mem = lfree then next else lfree) ≤ p + q) ∧
      lfree ≤ if mem = lfree then next else lfree := by
  have hsplit : freeFrom 12 0 (carved n l b r) =
      freeFrom 12 0 l ++ freeFrom 12 (extent 12 l) (carve 12 12 n b ++ r) := by
    rw [carved, freeFrom_append, Nat.zero_add]
  have hpos : extent 12 l ∈ freeFrom 12 0 (l ++ b :: r) := by
    rw [freeFrom_middle hb]
    simp
  split
  · next hat =>
    refine ⟨?_, ?_, ?_⟩
    · refine ⟨_, ?_, hnext⟩
      rw [FreeOrEnd, hsplit, List.mem_append]
      cases freeFrom 12 (extent 12 l) (carve 12 12 n b ++ r) <;> simp
    · intro hlow q hq
      rw [hsplit, List.mem_append] at hq
      rcases hq with hq | hq
      · -- a free block in front of the one taken would have been the lowest
        have hbefore := (freeFrom_bounds hq).2
        have hge := hlow q (by rw [freeFrom_middle hb]; exact List.mem_append_left _ hq)
        omega
      · have hle := headD_freeFrom_le (e := extent 12 (carved n l b r)) hq
        omega
    · have hahead : extent 12 l ≤ (freeFrom 12 (extent 12 l) (carve 12 12 n b ++ r)).headD
          (extent 12 (carved n l b r)) := by
        cases hf : freeFrom 12 (extent 12 l) (carve 12 12 n b ++ r) with
        | nil =>
          rw [List.headD_nil, extent_append]
          omega
        | cons q qs => exact (freeFrom_bounds (by rw [hf]; exact List.mem_cons_self)).1
      omega
  · next hat =>
    refine ⟨?_, ?_, le_rfl⟩
    · obtain ⟨q, hq | hq, hlq⟩ := hold
      · exact ⟨q, .inl (mem_freeFrom_carved hb hq (by omega)), hlq⟩
      · exact ⟨q, .inr (by rw [extent_carved, hq]), hlq⟩
    · intro hlow q hq
      have hge := hlow _ hpos
      rcases mem_freeFrom_of_carved hb hq with hq | hq
      · exact hlow q hq
      · omega

theorem aligned_carved (hr : h.Represents (l ++ b :: r)) (h4 : 4 ∣ n) (hpos : 0 < n)
    (hn : n ≤ b.size) :
    ∀ c ∈ carved n l b r, 4 ∣ c.size ∧ (c.used = true → 0 < c.size) := by
  have hb := hr.aligned b (by simp)
  have hl : ∀ c ∈ l, 4 ∣ c.size ∧ (c.used = true → 0 < c.size) := fun c hc =>
    hr.aligned c (by simp [hc])
  have hrest : ∀ c ∈ r, 4 ∣ c.size ∧ (c.used = true → 0 < c.size) := fun c hc =>
    hr.aligned c (by simp [hc])
  by_cases hsplit : n + 12 + 12 ≤ b.size
  · rw [carved, carve_of_le hsplit]
    intro c hc
    simp only [List.cons_append, List.nil_append, List.mem_append, List.mem_cons] at hc
    rcases hc with hc | rfl | rfl | hc
    · exact hl c hc
    · exact ⟨h4, fun _ => hpos⟩
    · exact ⟨by simp only; omega, by simp⟩
    · exact hrest c hc
  · rw [carved, carve_of_lt (by omega)]
    intro c hc
    simp only [List.cons_append, List.nil_append, List.mem_append, List.mem_cons] at hc
    rcases hc with hc | rfl | hc
    · exact hl c hc
    · exact ⟨hb.1, fun _ => by simp only; omega⟩
    · exact hrest c hc

/-- Once `rt_malloc` has found a block it hands it out. -/
theorem Represents.mallocAt (hr : h.Represents (l ++ b :: r)) (hb : b.used = false)
    (hn : n ≤ b.size) (h4 : 4 ∣ n) (hpos : 0 < n) :
    ∃ h', h.mallocAt n (extent 12 l) = some (h.heapPtr + (extent 12 l + 12), h') ∧
      Becomes h h' (l ++ b :: r) (carved n l b r) (usedFrom 12 0 (l ++ b :: r)) ∧
      h.lfree ≤ h'.lfree := by
  have hc := hr.consists
  have hbound := hc.chain.bound
  have hend := hc.heapEnd_eq
  have hbase := hr.base
  have hal := hr.four_dvd_extent
  obtain ⟨hchain, hout, hallot⟩ := hr.allot hn rfl
  obtain ⟨mem, hmem⟩ : ∃ mem, mem = h.heapPtr + extent 12 l := ⟨_, rfl⟩
  obtain ⟨k, hk⟩ : ∃ k, k = inUse 12 (carve 12 12 n b) := ⟨_, rfl⟩
  obtain ⟨m, hm⟩ : ∃ m, m = setMagic (h.allot n (extent 12 l)).memory mem heapMagic := ⟨_, rfl⟩
  rw [← hmem, ← hm] at hchain hout
  have hcarve : inUse 12 (carved n l b r) ≤ extent 12 (carved n l b r) := inUse_le_extent
  have huse : inUse 12 (carved n l b r) = inUse 12 (l ++ b :: r) + k := by
    rw [carved, inUse_append, inUse_append, inUse_append, inUse_cons_free hb, hk]
    omega
  rw [extent_carved, huse] at hcarve
  have hacc := account_usedMem hr (k := k) (by have := hr.usedMem; omega)
  -- the heap on which `lfree` is looked for
  obtain ⟨h₁, hh₁⟩ : ∃ h₁ : Heap, h₁ = { h.account k with memory := m } := ⟨_, rfl⟩
  have hcons : h₁.heapEnd = h₁.heapPtr + extent 12 (carved n l b r) := by
    rw [extent_carved, hh₁]
    exact hend
  obtain ⟨next, hnext⟩ : ∃ next, next = h.heapPtr +
    (freeFrom 12 (extent 12 l) (carve 12 12 n b ++ r)).headD (extent 12 (carved n l b r)) :=
      ⟨_, rfl⟩
  have hscan : h₁.nextFree h₁.passes mem = some next := by
    have hlen : (carve 12 12 n b ++ r).length < h₁.passes := by
      have hlt := hc.length_lt
      have hcl : (carve 12 12 n b).length ≤ 2 := by
        unfold carve
        split <;> simp
      have hpass : h₁.passes = h.passes := by rw [hh₁]; rfl
      simp only [List.length_append, List.length_cons] at hlt ⊢
      omega
    have hfree := nextFree_eq (h := h₁) (l := l) (r := carve 12 12 n b ++ r)
      (by rw [hh₁]; exact hchain) hcons hlen
    rw [hnext, hmem]
    rw [hh₁] at hfree ⊢
    exact hfree
  have hlf := carved_lfree hb hmem hc.lfree hnext
  obtain ⟨lfree, hl⟩ : ∃ lfree, lfree = if mem = h.lfree then next else h.lfree := ⟨_, rfl⟩
  rw [← hl] at hlf
  refine ⟨{ h₁ with lfree }, ?_, ⟨⟨?_, by rw [hh₁]; rfl, by rw [hh₁]; rfl, ?_⟩, ?_⟩, ?_⟩
  · have hstep : h.mallocAt n (extent 12 l) =
        (if mem = h₁.lfree then h₁.nextFree h₁.passes h₁.lfree else some h₁.lfree).bind
          fun lfree => if mem + 12 + n ≤ h₁.heapEnd ∧ (mem + 12) % 4 = 0 ∧ mem % 4 = 0 then
            some (mem + 12, { h₁ with lfree }) else none := by
      have hheap : { h.allot n (extent 12 l) with memory := m } = h₁ := by
        rw [hallot, hh₁, hk]
      rw [← hheap, hm, hmem]
      rfl
    have hchoice : (if mem = h₁.lfree then h₁.nextFree h₁.passes h₁.lfree else some h₁.lfree) =
        some lfree := by
      have hsame : h₁.lfree = h.lfree := by rw [hh₁]; rfl
      rw [hsame, hl]
      split
      · next hat => rw [← hat, hscan]
      · rfl
    have hassert : mem + 12 + n ≤ h₁.heapEnd ∧ (mem + 12) % 4 = 0 ∧ mem % 4 = 0 := by
      have hsame : h₁.heapEnd = h.heapEnd := by rw [hh₁]; rfl
      rw [hsame, hend, extent_append, extent_cons]
      omega
    rw [hstep, hchoice, Option.bind_some, if_pos hassert, hmem, Nat.add_assoc]
  · have hco : Coalesced (carved n l b r) := by
      simpa [carved] using coalesced_carve (k := 12) (n := n) hr.coalesced hb
    refine ⟨⟨?_, ?_, ?_⟩, ?_, aligned_carved hr h4 hpos hn, hco, ?_, ?_⟩
    · rw [hh₁]
      exact hchain
    · rw [extent_carved, hc.size, hh₁]
      rfl
    · rw [hh₁]
      exact hlf.1
    · rw [hh₁]
      exact hbase
    · have hu := hr.usedMem
      rw [hh₁]
      simp only
      rw [hacc.1, huse, hu]
    · rw [hh₁]
      exact hacc.2
  · rw [hh₁]
    have hmid : usedFrom 12 (extent 12 l) [b] = [] := by
      rw [usedFrom_cons_free hb]
      rfl
    have hs := hout.mono (c := h.heapPtr + extent 12 l)
      (d := h.heapPtr + extent 12 l + extent 12 [b] + 12) (by omega)
      (by simp only [extent_cons, extent_nil]; omega)
    simpa using hs.keepsData (r := r) hmid
  · rw [hh₁]
    exact hlf.2.1
  · exact hlf.2.2

/-- The loop of `rt_malloc` finds the first free block with room for `n` bytes that starts
below `limit`. -/
theorem Represents.mallocLoop (hr : h.Represents (l ++ r)) (hn : n ≤ h.memSizeAligned)
    {fuel : ℕ} (hfuel : r.length < fuel) :
    (∃ s b t, r = s ++ b :: t ∧ (∀ c ∈ s, c.used = false → c.size < n) ∧ b.used = false ∧
        n ≤ b.size ∧ extent 12 (l ++ s) < h.memSizeAligned - n ∧
        h.mallocLoop n fuel (extent 12 l) = h.mallocAt n (extent 12 (l ++ s))) ∨
      ((∀ s b t, r = s ++ b :: t → b.used = false → n ≤ b.size →
        h.memSizeAligned - n ≤ extent 12 (l ++ s)) ∧
        h.mallocLoop n fuel (extent 12 l) = some (rtNull, h)) := by
  have hbound := hr.consists.chain.bound
  have hsize := hr.consists.size
  have hlimit : subSize h.memSizeAligned n = h.memSizeAligned - n :=
    subSize_of_le hn (by omega)
  induction r generalizing l fuel with
  | nil =>
    obtain ⟨fuel, rfl⟩ : ∃ k, fuel = k + 1 := ⟨fuel - 1, by simp at hfuel; omega⟩
    right
    refine ⟨by simp, ?_⟩
    rw [List.append_nil] at hsize
    rw [Heap.mallocLoop, hlimit, if_neg (by omega)]
  | cons c r ih =>
    obtain ⟨fuel, rfl⟩ : ∃ k, fuel = k + 1 := ⟨fuel - 1, by simp at hfuel; omega⟩
    have hhead := hr.consists.header
    have hdata : subSize (h.header (h.heapPtr + extent 12 l)).next (extent 12 l + sizeofStructMem) =
        c.size := by
      simp only [extent_append, extent_cons] at hbound
      rw [hhead]
      simp only [headerOf, sizeofStructMem]
      rw [subSize_of_le (by omega) (by omega)]
      omega
    have hfree : (h.header (h.heapPtr + extent 12 l)).used = 0 ↔ c.used = false := by
      rw [hhead]
      cases hcu : c.used <;> simp [headerOf, hcu]
    by_cases hpos : extent 12 l < h.memSizeAligned - n
    · by_cases hfit : c.used = false ∧ n ≤ c.size
      · -- the block at hand fits
        refine .inl ⟨[], c, r, rfl, by simp, hfit.1, hfit.2, by simpa using hpos, ?_⟩
        rw [Heap.mallocLoop, hlimit, if_pos hpos, List.append_nil]
        exact if_pos ⟨hfree.mpr hfit.1, by rw [hdata]; exact hfit.2⟩
      · have hnext : (h.header (h.heapPtr + extent 12 l)).next = extent 12 (l ++ [c]) := by
          rw [hhead]
          simp [headerOf]
        have hloop : h.mallocLoop n (fuel + 1) (extent 12 l) =
            h.mallocLoop n fuel (extent 12 (l ++ [c])) := by
          rw [Heap.mallocLoop, hlimit, if_pos hpos, ← hnext]
          exact if_neg (by rw [hdata, hfree]; exact hfit)
        have hassoc : ∀ s, (l ++ [c]) ++ s = l ++ c :: s := by simp
        rw [hloop]
        rcases ih (l := l ++ [c]) (by rw [hassoc]; exact hr) (by simpa using hfuel)
          (by rw [hassoc]; exact hbound) (by rw [hassoc]; exact hsize) with
          ⟨s, b, t, rfl, hskip, hb, hnb, hlt, heq⟩ | ⟨hnone, heq⟩
        · rw [hassoc] at hlt heq
          refine .inl ⟨c :: s, b, t, rfl, ?_, hb, hnb, hlt, heq⟩
          rw [List.forall_mem_cons]
          exact ⟨fun hcu => by by_contra hge; exact hfit ⟨hcu, by omega⟩, hskip⟩
        · refine .inr ⟨fun s b t hsplit hb hnb => ?_, heq⟩
          cases s with
          | nil =>
            simp only [List.nil_append, List.cons.injEq] at hsplit
            exact absurd ⟨hsplit.1 ▸ hb, hsplit.1 ▸ hnb⟩ hfit
          | cons d s =>
            simp only [List.cons_append, List.cons.injEq] at hsplit
            have hge := hnone s b t hsplit.2 hb hnb
            rw [hassoc, hsplit.1] at hge
            exact hge
    · -- what is left of the heap is too small
      refine .inr ⟨fun s b t _ _ _ => ?_, ?_⟩
      · rw [extent_append]
        omega
      · rw [Heap.mallocLoop, hlimit, if_neg hpos]

/-- The bytes `rt_malloc` looks for on a request. -/
def need (size : UInt32) : ℕ := max minSizeAligned (rtAlign size).toNat

theorem four_dvd_need (size : UInt32) : 4 ∣ need size := by
  rw [need, toNat_rtAlign]
  rcases max_choice minSizeAligned (4 * ((size.toNat + 3) % 2 ^ 32 / 4)) with hmax | hmax <;>
    rw [hmax]
  · exact ⟨3, rfl⟩
  · exact Dvd.intro _ rfl

theorem twelve_le_need (size : UInt32) : 12 ≤ need size := le_max_left _ _

/-- The request is covered unless aligning it wraps around. -/
theorem le_need {n : UInt32} (hs : n.toNat + 3 < 2 ^ 32) : n.toNat ≤ need n := by
  refine le_trans ?_ (le_max_right _ _)
  rw [toNat_rtAlign, Nat.mod_eq_of_lt hs]
  omega

/-- A free block, at or behind `lfree`, that `rt_malloc` would hand out for `n` bytes. -/
structure Fits (h : Heap) (n : ℕ) (l : List Block) (b : Block) : Prop where
  free : b.used = false
  room : n ≤ b.size
  behind : h.lfree ≤ h.heapPtr + extent 12 l
  below : extent 12 l < h.memSizeAligned - n

/-- `rt_malloc` carves the first block that fits, or leaves the heap as it is. -/
theorem Represents.rtMalloc (hr : h.Represents bs) (hmin : 12 ≤ h.memSizeAligned)
    (size : UInt32) :
    (∃ l b r h', bs = l ++ b :: r ∧ h.Fits (need size) l b ∧
        (∀ s c t, l = s ++ c :: t → ¬ h.Fits (need size) s c) ∧
        h.rtMalloc size = some (h.heapPtr + (extent 12 l + 12), h') ∧
        Becomes h h' bs (carved (need size) l b r) (usedFrom 12 0 bs) ∧ h.lfree ≤ h'.lfree) ∨
      h.rtMalloc size = some (rtNull, h) ∧ (size = 0 ∨ h.memSizeAligned < (rtAlign size).toNat ∨
        ∀ l b r, bs = l ++ b :: r → ¬ h.Fits (need size) l b) := by
  have hc := hr.consists
  by_cases hzero : size = 0
  · exact .inr ⟨if_pos hzero, .inl hzero⟩
  by_cases hbig : h.memSizeAligned < (rtAlign size).toNat
  · exact .inr ⟨(if_neg hzero).trans (if_pos hbig), .inr (.inl hbig)⟩
  have hn : need size ≤ h.memSizeAligned := max_le hmin (by omega)
  obtain ⟨q, hq, hlq⟩ := hc.lfree
  obtain ⟨l₀, r₀, rfl, hl₀⟩ : ∃ l r, bs = l ++ r ∧ q = extent 12 l := by
    rcases hq with hq | hq
    · obtain ⟨l, r, hbs, hpos⟩ := exists_split_of_mem_freeFrom hq
      exact ⟨l, r, hbs, by simpa using hpos⟩
    · exact ⟨bs, [], by simp, hq⟩
  have hmalloc : h.rtMalloc size = h.mallocLoop (need size) h.passes (extent 12 l₀) := by
    have hsize : (if (rtAlign size).toNat < minSizeAligned then minSizeAligned
        else (rtAlign size).toNat) = need size := by
      rw [need]
      split <;> omega
    have hstart : h.lfree - h.heapPtr = extent 12 l₀ := by omega
    unfold Heap.rtMalloc
    rw [if_neg hzero]
    simp only
    rw [if_neg hbig, hsize, hstart]
  have hbehind : ∀ l b r, l₀ ++ r₀ = l ++ b :: r → h.lfree ≤ h.heapPtr + extent 12 l →
      ∃ s, l = l₀ ++ s ∧ r₀ = s ++ b :: r := fun l b r hsplit hle =>
    exists_append_of_extent_le (w := 12) (by norm_num) hsplit.symm (by omega)
  have hlen := hc.length_lt
  rw [List.length_append] at hlen
  rcases hr.mallocLoop hn (show r₀.length < h.passes by omega) with
    ⟨s, b, t, rfl, hskip, hb, hnb, hlt, heq⟩ | ⟨hnone, heq⟩
  · have hr' : h.Represents ((l₀ ++ s) ++ b :: t) := by simpa using hr
    obtain ⟨h', hat, hbec, hup⟩ :=
      hr'.mallocAt hb hnb (four_dvd_need size) (by have := twelve_le_need size; omega)
    refine .inl ⟨l₀ ++ s, b, t, h', by simp, ⟨hb, hnb, by rw [extent_append]; omega, hlt⟩, ?_,
      hmalloc.trans (heq.trans hat), by simpa using hbec, hup⟩
    intro s' c t' hsplit hfit
    obtain ⟨s'', -, hs⟩ := exists_append_of_extent_le (w := 12) (l := s') (by norm_num) hsplit.symm
      (by have := hfit.behind; omega)
    have hsmall := hskip c (by rw [hs]; simp) hfit.free
    have hroom := hfit.room
    omega
  · refine .inr ⟨hmalloc.trans heq, .inr (.inr fun l b r hsplit hfit => ?_)⟩
    obtain ⟨s, rfl, hs⟩ := hbehind l b r hsplit hfit.behind
    have hge := hnone s b r hs hfit.free hfit.room
    have hbelow := hfit.below
    omega

/-- The part of a block in use that `rt_realloc` cuts off becomes a free block. `lfree` is
lowered only with a free neighbour it stood at. -/
theorem Represents.shrink {s : ℕ} (hr : h.Represents (l ++ ⟨true, s⟩ :: r)) (h4 : 4 ∣ n)
    (hpos : 0 < n) (hn : n + 12 + 12 < s) :
    ∃ h', h.shrink (extent 12 l) s n = some h' ∧
      Turns h h' (l ++ ⟨true, n⟩ :: mergeNext 12 ⟨false, s - n - 12⟩ r)
        (usedFrom 12 0 (l ++ ⟨true, n⟩ :: mergeNext 12 ⟨false, s - n - 12⟩ r)) ∧
      (h.heapPtr + (extent 12 l + (12 + s)) < h.lfree → h'.lfree = h.lfree) := by
  have hc := hr.consists
  have hbound := hc.chain.bound
  have hhead := hc.header
  have hused := hr.usedMem
  have hs4 := (hr.aligned ⟨true, s⟩ (by simp)).1
  have hle : inUse 12 (l ++ ⟨true, s⟩ :: r) ≤ extent 12 (l ++ ⟨true, s⟩ :: r) := inUse_le_extent
  simp only [extent_append, extent_cons, inUse_append, inUse_cons_used] at hbound hused hle
  have hrest : h.usedMem - (s - n) = inUse 12 l + (12 + n + inUse 12 r) := by omega
  obtain ⟨mem, hmem⟩ : ∃ mem, mem = h.heapPtr + extent 12 l := ⟨_, rfl⟩
  obtain ⟨mem2, hmem2⟩ : ∃ mem2, mem2 = h.heapPtr + (extent 12 l + 12 + n) := ⟨_, rfl⟩
  rw [← hmem] at hhead
  obtain ⟨hins, hins2, hkeep⟩ := insertMem2_spec h.memory mem mem2 (extent 12 l)
    (extent 12 l + 12 + n) (by omega)
  obtain ⟨m, hm⟩ : ∃ m, m = insertMem2 h.memory mem mem2 (extent 12 l) (extent 12 l + 12 + n) :=
    ⟨_, rfl⟩
  rw [← hm] at hins hins2 hkeep
  have hhdr : heapMem m mem = headerOf ⟨true, n⟩ (extent 12 l) (lastFrom 0 0 l) := by
    rw [hins, show heapMem h.memory mem = _ from hhead]
    simp only [headerOf, HeapMem.mk.injEq, true_and, and_true]
    omega
  have hhdr2 : heapMem m mem2 =
      headerOf ⟨false, s - n - 12⟩ (extent 12 l + 12 + n) (extent 12 l) := by
    rw [hins2, show heapMem h.memory mem = _ from hhead]
    simp only [headerOf, HeapMem.mk.injEq, true_and]
    exact ⟨rfl, by omega, by omega⟩
  have hs : SameOutside h.memory m mem (mem + (12 + s)) := fun i hi =>
    hkeep i (by omega) (by omega)
  have hcut := hc.cut (n := n) (b := ⟨true, s⟩) (by simp only; omega) (hmem ▸ hs) (hmem ▸ hhdr)
    (hmem2 ▸ hhdr2)
  rw [← hmem2, ← hmem] at hcut
  obtain ⟨M, hM⟩ : ∃ M, M = h.linkBack m mem2 (extent 12 l + 12 + n) := ⟨_, rfl⟩
  rw [← hM] at hcut
  obtain ⟨hchain, hout⟩ := hcut
  simp only at hout
  -- the heap between the split and `plug_holes`
  obtain ⟨h₁, hh₁⟩ : ∃ h₁ : Heap, h₁ =
    { h with memory := M, usedMem := subSize h.usedMem (subSize s n) } := ⟨_, rfl⟩
  have hc₁ : h₁.Consists ((l ++ [⟨true, n⟩]) ++ ⟨false, s - n - 12⟩ :: r) := by
    have hassoc : (l ++ [⟨true, n⟩]) ++ ⟨false, s - n - 12⟩ :: r =
      l ++ ⟨true, n⟩ :: ⟨false, s - n - 12⟩ :: r := by simp
    rw [hassoc]
    refine ⟨by rw [hh₁]; exact hchain, ?_, ?_⟩
    · have hsize := hc.size
      rw [hh₁]
      simp only [extent_append, extent_cons] at hsize ⊢
      omega
    · obtain ⟨q, hq, hlq⟩ := hc.lfree
      refine ⟨q, ?_, by rw [hh₁]; exact hlq⟩
      have hpos' : extent 12 l + (12 + n) + (12 + (s - n - 12)) = extent 12 l + (12 + s) := by
        omega
      rcases hq with hq | hq
      · left
        rw [freeFrom_append, freeFrom_cons_used rfl, Nat.zero_add] at hq ⊢
        rw [freeFrom_cons_free rfl]
        simp only [hpos', List.mem_append, List.mem_cons] at hq ⊢
        tauto
      · right
        rw [hq]
        simp only [extent_append, extent_cons]
        omega
  obtain ⟨h', hp, hre⟩ := hc₁.plugHoles rfl
  obtain ⟨b', r', hnext, hb'⟩ :=
    mergeNext_eq_cons (w := 12) (r := r) (b := ⟨false, s - n - 12⟩) rfl
  have hblocks : mergePrev 12 (l ++ [⟨true, n⟩]) (mergeNext 12 ⟨false, s - n - 12⟩ r) =
      l ++ ⟨true, n⟩ :: mergeNext 12 ⟨false, s - n - 12⟩ r := by
    rw [hnext, mergePrev_concat_used rfl]
  rw [hblocks] at hre
  have hmem2' : h₁.heapPtr + extent 12 (l ++ [⟨true, n⟩]) = mem2 := by
    rw [hh₁, hmem2]
    simp only [extent_append, extent_cons, extent_nil]
    omega
  rw [hmem2'] at hp
  have hsub : subSize h.usedMem (subSize s n) = h.usedMem - (s - n) := by
    rw [subSize_of_le (x := s) (by omega) (by omega), subSize_of_le (by omega) (by omega)]
  have hframe : h'.heapPtr = h.heapPtr ∧ h'.memSizeAligned = h.memSizeAligned ∧
      h'.usedMem = h.usedMem - (s - n) ∧ h'.maxMem = h.maxMem := by
    rw [hre.frame, hh₁]
    exact ⟨rfl, rfl, hsub, rfl⟩
  obtain ⟨hbase', hsize', hused', hmax'⟩ := hframe
  refine ⟨h', ?_, ⟨⟨hre.consists, by rw [hbase']; exact hr.base, ?_, ?_, ?_, ?_⟩, hbase', hsize',
    ?_⟩, fun hlf => ?_⟩
  · have hstep : h.shrink (extent 12 l) s n = h₁.plugHoles mem2 := by
      rw [hh₁, hM, hm, hmem, hmem2]
      rfl
    rw [hstep, hp]
  · have hl : ∀ c ∈ l, 4 ∣ c.size ∧ (c.used = true → 0 < c.size) := fun c hcl =>
      hr.aligned c (by simp [hcl])
    have hrest := forall_mem_mergeNext (w := 12) (b := ⟨false, s - n - 12⟩) (r := r)
      (P := fun c => 4 ∣ c.size ∧ (c.used = true → 0 < c.size))
      (fun a b ha hb => ⟨by simp only [fuse_size]; omega, by simp⟩)
      ⟨by simp only at hs4 ⊢; omega, by simp⟩ (fun c hcr => hr.aligned c (by simp [hcr]))
    intro c hcm
    rw [List.mem_append, List.mem_cons] at hcm
    rcases hcm with hcm | rfl | hcm
    exacts [hl c hcm, ⟨h4, fun _ => hpos⟩, hrest c hcm]
  · have hco := hr.coalesced
    exact hco.of_append_left.insert_used
      (coalesced_mergeNext (coalesced_cons.mp hco.of_append_right).2) rfl
  · rw [hused', inUse_append, inUse_cons_used rfl, inUse_mergeNext rfl, hrest]
  · rw [hused', hmax']
    exact (Nat.sub_le _ _).trans hr.maxMem
  · have hdata := hre.data
    have hm₁ : h₁.memory = M ∧ h₁.heapPtr = h.heapPtr := by rw [hh₁]; exact ⟨rfl, rfl⟩
    have hlist : usedFrom 12 0 (l ++ ⟨true, n⟩ :: mergeNext 12 ⟨false, s - n - 12⟩ r) =
        usedFrom 12 0 l ++ ((extent 12 l, n) :: usedFrom 12 (extent 12 l + (12 + s)) r) := by
      have hpos' : extent 12 l + (12 + n) + (12 + (s - n - 12)) = extent 12 l + (12 + s) := by
        omega
      rw [usedFrom_append, usedFrom_cons_used rfl, usedFrom_mergeNext rfl, Nat.zero_add]
      simp only [hpos']
    have hlist' : usedFrom 12 0 ((l ++ [⟨true, n⟩]) ++ ⟨false, s - n - 12⟩ :: r) =
        usedFrom 12 0 (l ++ ⟨true, n⟩ :: mergeNext 12 ⟨false, s - n - 12⟩ r) := by
      rw [List.append_assoc, List.singleton_append, usedFrom_append, usedFrom_append,
        usedFrom_cons_used (b := ⟨true, n⟩) rfl, usedFrom_cons_used (b := ⟨true, n⟩) rfl,
        usedFrom_mergeNext rfl, usedFrom_cons_free rfl]
    rw [hm₁.1, hm₁.2, hlist', hlist] at hdata
    rw [hlist]
    refine KeepsData.trans ?_ hdata
    rw [keepsData_append]
    refine ⟨hout.keepsData_left (by omega), ?_⟩
    intro x hx
    rcases List.mem_cons.mp hx with rfl | hx
    · intro i hi hi'
      simp only at hi hi'
      have hnxt : (heapMem m mem2).next = extent 12 l + (12 + s) := by
        simp only [hhdr2, headerOf]
        omega
      rw [hM, linkBack_of_lt hnxt (by omega)]
      exact hkeep i (by omega) (by omega)
    · exact hout.keepsData_right (p := extent 12 l + (12 + s)) (by omega) x hx
  · have hlf₁ : h₁.lfree = h.lfree ∧ h₁.heapPtr = h.heapPtr := by rw [hh₁]; exact ⟨rfl, rfl⟩
    have hhead₁ := hc₁.header
    rw [hmem2'] at hhead₁
    have hnxt : h₁.heapPtr + (h₁.header mem2).next < h₁.lfree := by
      rw [hhead₁, hlf₁.1, hlf₁.2]
      simp only [headerOf, extent_append, extent_cons, extent_nil]
      omega
    rw [plugHoles_lfree hp (by omega) hnxt, hlf₁.1]

end Heap

end NanoAt
