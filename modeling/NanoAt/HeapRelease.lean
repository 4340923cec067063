import NanoAt.HeapBlocks

/-!
# Blocks going back to the heap

What `plug_holes` and `rt_free` do to the list of blocks the heap consists of, to `lfree`
and to the data of the blocks in use.

## Main definitions

- `Heap.Consists` — the blocks in memory, `lfree` at a free one or at the end
- `Heap.Represents` — the heap between two operations
- `Heap.Turns`, `Heap.Becomes` — what an operation does to the blocks

## Main results

- `Consists.plugForward`, `Consists.plugBackward` — the two halves of `plug_holes` merge
  a free block with its neighbours
- `Represents.rtFree` — `rt_free` releases a block
-/

namespace NanoAt

open ByteMemory BlockList

/-- The offsets at which `lfree` may stand: the free blocks, and the end of the heap. -/
def FreeOrEnd (bs : List Block) (q : ℕ) : Prop := q ∈ freeFrom 12 0 bs ∨ q = extent 12 bs

variable {m m' : Memory} {h h' : Heap} {p q n : ℕ} {a b c : Block}
  {bs bs' l r : List Block}

theorem freeFrom_middle (hb : b.used = false) : freeFrom 12 0 (l ++ b :: r) =
    freeFrom 12 0 l ++ extent 12 l :: freeFrom 12 (extent 12 l + (12 + b.size)) r := by
  rw [freeFrom_append, Nat.zero_add, freeFrom_cons_free hb]

theorem freeFrom_fused (hb : b.used = false) (hc : c.used = false) :
    freeFrom 12 0 (l ++ b :: c :: r) = freeFrom 12 0 l ++ extent 12 l ::
      (extent 12 l + (12 + b.size)) ::
        freeFrom 12 (extent 12 l + (12 + b.size) + (12 + c.size)) r := by
  rw [freeFrom_middle hb, freeFrom_cons_free hc]

/-- Fusing two free blocks takes the start of the second away. -/
theorem mem_freeFrom_fuse (hb : b.used = false) (hc : c.used = false)
    (hq : q ∈ freeFrom 12 0 (l ++ fuse 12 b c :: r)) :
    q ∈ freeFrom 12 0 (l ++ b :: c :: r) := by
  rw [freeFrom_append, Nat.zero_add, freeFrom_fuse] at hq
  rw [freeFrom_fused hb hc]
  simp only [List.mem_append, List.mem_cons] at hq ⊢
  tauto

theorem freeOrEnd_fuse (hb : b.used = false) (hc : c.used = false)
    (hq : FreeOrEnd (l ++ b :: c :: r) q) :
    FreeOrEnd (l ++ fuse 12 b c :: r)
      (if q = extent 12 l + (12 + b.size) then extent 12 l else q) := by
  have hmem : extent 12 l ∈ freeFrom 12 0 (l ++ fuse 12 b c :: r) := by
    rw [freeFrom_middle rfl]
    simp
  split
  · exact .inl hmem
  · next hne =>
    rcases hq with hq | hq
    · left
      rw [freeFrom_append, Nat.zero_add, freeFrom_fuse]
      rw [freeFrom_fused hb hc] at hq
      simp only [List.mem_append, List.mem_cons] at hq ⊢
      tauto
    · right
      simp only [hq, extent_append, extent_cons, fuse_size]
      omega

namespace Heap

/-- The memory of the heap holds the blocks `bs`, and `lfree` stands at a free one of
them or at the end. -/
structure Consists (h : Heap) (bs : List Block) : Prop where
  chain : BlockChain h.memory h.heapPtr bs
  size : extent 12 bs = h.memSizeAligned + 12
  lfree : ∃ q, FreeOrEnd bs q ∧ h.lfree = h.heapPtr + q

/-- No free block lies in front of `lfree`. -/
def LowestFree (h : Heap) (bs : List Block) : Prop :=
  ∀ q ∈ freeFrom 12 0 bs, h.lfree ≤ h.heapPtr + q

/-- From the blocks `bs` to the blocks `bs'` without a change to the data of the blocks
in use. -/
structure Rearranged (h h' : Heap) (bs bs' : List Block) : Prop where
  consists : h'.Consists bs'
  frame : h' = { h with memory := h'.memory, lfree := h'.lfree }
  lowest : h.LowestFree bs → h'.LowestFree bs'
  lower : h'.lfree ≤ h.lfree
  data : KeepsData h.memory h'.memory h.heapPtr (usedFrom 12 0 bs)

theorem Consists.heapEnd_eq (hc : h.Consists bs) : h.heapEnd = h.heapPtr + extent 12 bs := by
  rw [heapEnd, hc.size]

theorem Consists.header (hc : h.Consists (l ++ b :: r)) :
    h.header (h.heapPtr + extent 12 l) = headerOf b (extent 12 l) (lastFrom 0 0 l) :=
  (blockChain_iff.mp hc.chain).1.2.1

theorem Rearranged.refl (hc : h.Consists bs) : Rearranged h h bs bs :=
  ⟨hc, rfl, id, le_rfl, fun _ _ => .refl⟩

/-- The heap after the second of two free neighbours left the chain. -/
theorem Consists.fused (hc : h.Consists (l ++ b :: c :: r)) (hb : b.used = false)
    (hcu : c.used = false) {mem mem2 behind next : ℕ} (hmem : mem = h.heapPtr + extent 12 l)
    (hmem2 : mem2 = mem + (12 + b.size)) (hnext : (h.header mem2).next = next)
    (hbehind : (heapMem (setNext h.memory mem next) mem2).next = behind) :
    Rearranged h
      { h with
        lfree := if h.lfree = mem2 then mem else h.lfree
        memory := setPrev (setNext h.memory mem next) (h.heapPtr + behind) (mem - h.heapPtr) }
      (l ++ b :: c :: r) (l ++ fuse 12 b c :: r) := by
  have hheader := (show h.Consists ((l ++ [b]) ++ c :: r) by simpa using hc).header
  have hpos : extent 12 (l ++ [b]) = extent 12 l + (12 + b.size) := by simp
  rw [hpos, ← Nat.add_assoc, ← hmem, ← hmem2] at hheader
  have ho := (onlyHeader_setNext (m := h.memory) (p := mem) (v := next)).sameOutside
  rw [ho.heapMem (by omega)] at hbehind
  have hsame : behind = next := hbehind.symm.trans hnext
  have hval : next = extent 12 l + (12 + b.size) + (12 + c.size) := by
    rw [← hnext, hheader]
    rfl
  have ho' := (onlyHeader_setPrev (m := setNext h.memory mem next) (p := h.heapPtr + behind)
    (v := mem - h.heapPtr)).sameOutside
  constructor
  · refine ⟨?_, ?_, ?_⟩
    · have hchain := hc.chain.fuse hb
      rw [← hmem, ← Nat.add_assoc h.heapPtr, ← hmem, ← hmem2] at hchain
      rw [hsame, hval]
      rw [show (heapMem h.memory mem2).next = next from hnext, hval] at hchain
      rwa [show mem - h.heapPtr = extent 12 l by omega]
    · have hsize := hc.size
      simp only [extent_append, extent_cons, fuse_size] at hsize ⊢
      omega
    · obtain ⟨q, hq, hlq⟩ := hc.lfree
      refine ⟨_, freeOrEnd_fuse hb hcu hq, ?_⟩
      have hiff : h.lfree = mem2 ↔ q = extent 12 l + (12 + b.size) := by omega
      simp only [hiff]
      split <;> omega
  · rfl
  · intro hlow q hq
    have hold := hlow q (mem_freeFrom_fuse hb hcu hq)
    simp only
    split <;> omega
  · simp only
    split <;> omega
  · have hmid : usedFrom 12 (extent 12 l) [b, c] = [] := by
      simp [usedFrom, hb, hcu]
    have hs := (ho.trans ho').mono (c := h.heapPtr + extent 12 l)
      (d := h.heapPtr + extent 12 l + extent 12 [b, c] + 12) (by omega)
      (by simp only [extent_cons, extent_nil]; omega)
    simpa using hs.keepsData (r := r) hmid

/-- The forward half of `plug_holes`. -/
theorem Consists.plugForward (hc : h.Consists (l ++ b :: r)) (hb : b.used = false) :
    Rearranged h (h.plugForward (h.heapPtr + extent 12 l)) (l ++ b :: r)
      (l ++ mergeNext 12 b r) := by
  have hn : h.heapPtr + (h.header (h.heapPtr + extent 12 l)).next =
      h.heapPtr + extent 12 l + (12 + b.size) := by
    rw [hc.header, Nat.add_assoc]
    rfl
  have hend := hc.heapEnd_eq
  simp only [extent_append, extent_cons] at hend
  cases r with
  | nil =>
    have hstop : h.heapPtr + extent 12 l + (12 + b.size) = h.heapEnd := by
      rw [hend, extent_nil]
      omega
    rw [plugForward_of_stop hn (.inr hstop)]
    exact .refl hc
  | cons c r =>
    have hnext := (show h.Consists ((l ++ [b]) ++ c :: r) by simpa using hc).header
    have hpos : h.heapPtr + extent 12 (l ++ [b]) = h.heapPtr + extent 12 l + (12 + b.size) := by
      simp only [extent_append, extent_cons, extent_nil]
      omega
    rw [hpos] at hnext
    cases hcu : c.used with
    | true =>
      have hused : (h.header (h.heapPtr + extent 12 l + (12 + b.size))).used ≠ 0 := by
        simp [hnext, headerOf, hcu]
      rw [plugForward_of_stop hn (.inl hused), mergeNext_cons_used hcu]
      exact .refl hc
    | false =>
      have hfree : (h.header (h.heapPtr + extent 12 l + (12 + b.size))).used = 0 := by
        simp [hnext, headerOf, hcu]
      have hne : h.heapPtr + extent 12 l + (12 + b.size) ≠ h.heapEnd := by
        rw [hend, extent_cons]
        omega
      rw [plugForward_of_free hn (by omega) hfree hne, mergeNext_cons_free hcu]
      exact hc.fused hb hcu rfl rfl rfl rfl

/-- The backward half of `plug_holes`. -/
theorem Consists.plugBackward (hc : h.Consists (l ++ b :: r)) (hb : b.used = false) :
    Rearranged h (h.plugBackward (h.heapPtr + extent 12 l)) (l ++ b :: r)
      (mergePrev 12 l (b :: r)) := by
  have hp : h.heapPtr + (h.header (h.heapPtr + extent 12 l)).prev =
      h.heapPtr + lastFrom 0 0 l := by
    rw [hc.header]
    rfl
  rcases List.eq_nil_or_concat l with rfl | ⟨l, a, rfl⟩
  · rw [plugBackward_of_stop hp (.inl rfl)]
    exact .refl hc
  · rw [List.concat_eq_append] at hc hp ⊢
    rw [lastFrom_concat, Nat.zero_add] at hp
    have hc' : h.Consists (l ++ a :: b :: r) := by simpa using hc
    have hprev := hc'.header
    have hpos : h.heapPtr + extent 12 (l ++ [a]) = h.heapPtr + extent 12 l + (12 + a.size) := by
      simp only [extent_append, extent_cons, extent_nil]
      omega
    rw [hpos] at hp ⊢
    cases ha : a.used with
    | true =>
      have hused : (h.header (h.heapPtr + extent 12 l)).used ≠ 0 := by
        simp [hprev, headerOf, ha]
      rw [plugBackward_of_stop hp (.inr hused), mergePrev_concat_used ha]
      simpa using Rearranged.refl hc'
    | false =>
      have hfree : (h.header (h.heapPtr + extent 12 l)).used = 0 := by
        simp [hprev, headerOf, ha]
      rw [plugBackward_of_free hp (by omega) hfree, mergePrev_concat_free ha]
      have hf := hc'.fused ha hb rfl rfl rfl rfl
      simpa using hf

theorem Rearranged.trans {h'' : Heap} {bs'' : List Block} (h₁ : Rearranged h h' bs bs')
    (h₂ : Rearranged h' h'' bs' bs'') (hu : usedFrom 12 0 bs' = usedFrom 12 0 bs) :
    Rearranged h h'' bs bs'' where
  consists := h₂.consists
  frame := by
    have hf := h₂.frame
    rw [h₁.frame] at hf
    rw [hf]
  lowest := h₂.lowest ∘ h₁.lowest
  lower := h₂.lower.trans h₁.lower
  data := by
    have hbase : h'.heapPtr = h.heapPtr := by rw [h₁.frame]
    have hd := h₂.data
    rw [hbase, hu] at hd
    exact h₁.data.trans hd

/-- `plug_holes` merges a free block with its neighbours. -/
theorem Consists.plugHoles (hc : h.Consists (l ++ b :: r)) (hb : b.used = false) :
    ∃ h', h.plugHoles (h.heapPtr + extent 12 l) = some h' ∧
      Rearranged h h' (l ++ b :: r) (mergePrev 12 l (mergeNext 12 b r)) := by
  have hcond : h.heapPtr ≤ h.heapPtr + extent 12 l ∧ h.heapPtr + extent 12 l < h.heapEnd ∧
      (h.header (h.heapPtr + extent 12 l)).used = 0 := by
    refine ⟨by omega, ?_, ?_⟩
    · rw [hc.heapEnd_eq, extent_append, extent_cons]
      omega
    · rw [hc.header, headerOf, hb]
      rfl
  have hforward := hc.plugForward hb
  obtain ⟨b', r', hm, hb'⟩ := mergeNext_eq_cons (w := 12) (r := r) hb
  have hbase : (h.plugForward (h.heapPtr + extent 12 l)).heapPtr = h.heapPtr := by
    rw [hforward.frame]
  have hbackward := (hm ▸ hforward.consists).plugBackward hb'
  rw [hbase, ← hm] at hbackward
  refine ⟨_, if_pos hcond, hforward.trans hbackward ?_⟩
  rw [usedFrom_append, usedFrom_append, usedFrom_mergeNext hb, usedFrom_cons_free hb]

/-- `plug_holes` leaves `lfree` alone where it stands behind the block and its neighbour. -/
theorem plugHoles_lfree {mem : ℕ} (hp : h.plugHoles mem = some h') (hmem : mem < h.lfree)
    (hnext : h.heapPtr + (h.header mem).next < h.lfree) : h'.lfree = h.lfree := by
  have hforward : (h.plugForward mem).lfree = h.lfree := by
    unfold Heap.plugForward
    simp only
    split
    · exact if_neg hnext.ne'
    · rfl
  have hbackward : ((h.plugForward mem).plugBackward mem).lfree = (h.plugForward mem).lfree := by
    rw [← hforward] at hmem
    generalize h.plugForward mem = h₁ at hmem ⊢
    unfold Heap.plugBackward
    simp only
    split
    · exact if_neg hmem.ne'
    · rfl
  unfold Heap.plugHoles at hp
  split at hp
  · rw [← Option.some.inj hp, hbackward, hforward]
  · simp at hp

/-- A heap between two operations: the blocks are aligned, those in use have data, no two
neighbours are free, and `used_mem` counts the bytes of the blocks in use. -/
structure Represents (h : Heap) (bs : List Block) : Prop where
  consists : h.Consists bs
  base : 4 ∣ h.heapPtr
  aligned : ∀ b ∈ bs, 4 ∣ b.size ∧ (b.used = true → 0 < b.size)
  coalesced : Coalesced bs
  usedMem : h.usedMem = inUse 12 bs
  maxMem : h.usedMem ≤ h.maxMem

/-- An operation turns the heap into one of the blocks `bs` and leaves the data at the
places `xs` alone. -/
structure Turns (h h' : Heap) (bs : List Block) (xs : List (ℕ × ℕ)) : Prop where
  represents : h'.Represents bs
  heapPtr : h'.heapPtr = h.heapPtr
  memSizeAligned : h'.memSizeAligned = h.memSizeAligned
  data : KeepsData h.memory h'.memory h.heapPtr xs

/-- An operation that also keeps `lfree` at the lowest free block. -/
structure Becomes (h h' : Heap) (bs bs' : List Block) (xs : List (ℕ × ℕ)) : Prop
    extends Turns h h' bs' xs where
  lowest : h.LowestFree bs → h'.LowestFree bs'

theorem subSize_of_le {x y : ℕ} (hxy : y ≤ x) (hx : x < 2 ^ 32) : subSize x y = x - y := by
  unfold subSize
  rw [show x + 2 ^ 32 - y = x - y + 2 ^ 32 by omega, Nat.add_mod_right,
    Nat.mod_eq_of_lt (by omega)]

theorem Represents.four_dvd_extent (hr : h.Represents (l ++ r)) : 4 ∣ extent 12 l := by
  have hl : ∀ b ∈ l, 4 ∣ b.size := fun b hb => (hr.aligned b (List.mem_append_left r hb)).1
  clear hr
  induction l with
  | nil => simp
  | cons b l ih =>
    have hb := hl b List.mem_cons_self
    have hrest := ih fun c hc => hl c (List.mem_cons_of_mem b hc)
    rw [extent_cons]
    omega

/-- Clearing the `used` flag of a block, with `lfree` lowered to it. -/
theorem Consists.clear (hc : h.Consists (l ++ ⟨true, n⟩ :: r)) {mem u : ℕ}
    (hmem : mem = h.heapPtr + extent 12 l) :
    Consists
      { h with
        memory := setMagic (setUsed h.memory mem 0) mem heapMagic
        lfree := if mem < h.lfree then mem else h.lfree
        usedMem := u }
      (l ++ ⟨false, n⟩ :: r) := by
  refine ⟨?_, ?_, ?_⟩
  · rw [hmem]
    exact (hc.chain.setUsed false).setMagic
  · simpa using hc.size
  · obtain ⟨q, hq, hlq⟩ := hc.lfree
    have hfree : extent 12 l ∈ freeFrom 12 0 (l ++ ⟨false, n⟩ :: r) := by
      rw [freeFrom_middle rfl]
      simp
    by_cases hlt : mem < h.lfree
    · exact ⟨_, .inl hfree, by rw [if_pos hlt, hmem]⟩
    · refine ⟨q, ?_, by rw [if_neg hlt, hlq]⟩
      rcases hq with hq | hq
      · left
        rw [freeFrom_append, freeFrom_cons_used rfl] at hq
        rw [freeFrom_middle rfl, List.mem_append, List.mem_cons]
        rw [List.mem_append, Nat.zero_add] at hq
        tauto
      · exact .inr (by simpa using hq)

/-- `rt_free` releases a block in use, and `lfree` does not stay behind it. -/
theorem Represents.rtFree (hr : h.Represents (l ++ ⟨true, n⟩ :: r)) :
    ∃ h', h.rtFree (h.heapPtr + (extent 12 l + 12)) = some h' ∧
      Becomes h h' (l ++ ⟨true, n⟩ :: r) (release 12 l n r)
        (usedFrom 12 0 (release 12 l n r)) ∧
      h'.lfree ≤ h.heapPtr + extent 12 l := by
  have hc := hr.consists
  have hbound := hc.chain.bound
  have hend := hc.heapEnd_eq
  have hal := hr.four_dvd_extent
  have hbase := hr.base
  have hused := hr.usedMem
  have hle : inUse 12 (l ++ ⟨true, n⟩ :: r) ≤ extent 12 (l ++ ⟨true, n⟩ :: r) := inUse_le_extent
  have hpos : 0 < n := (hr.aligned ⟨true, n⟩ (by simp)).2 rfl
  simp only [extent_append, extent_cons, inUse_append, inUse_cons_used] at hbound hend hused hle
  obtain ⟨mem, hmem⟩ : ∃ mem, mem = h.heapPtr + extent 12 l := ⟨_, rfl⟩
  have hhead := hc.header
  rw [← hmem] at hhead
  -- the memory once the flag is cleared, and the header in it
  obtain ⟨m, hm⟩ : ∃ m, m = setMagic (setUsed h.memory mem 0) mem heapMagic := ⟨_, rfl⟩
  have hnext : (heapMem m mem).next = extent 12 l + (12 + n) := by
    have hkeep : (heapMem m mem).next = (h.header mem).next := by
      rw [hm, heapMem_setMagic, heapMem_setUsed]
      rfl
    rw [hkeep, hhead]
    rfl
  have hsub : subSize (heapMem m mem).next (mem - h.heapPtr) = 12 + n := by
    rw [hnext, subSize_of_le (by omega) (by omega)]
    omega
  have ho := (onlyHeader_setUsed (m := h.memory) (p := mem) (v := 0)).sameOutside.trans
    (onlyHeader_setMagic (p := mem) (v := heapMagic)).sameOutside
  rw [← hm] at ho
  obtain ⟨h', hp, hre⟩ := (hc.clear (u := subSize h.usedMem (12 + n)) hmem).plugHoles rfl
  simp only [← hmem, ← hm] at hp hre
  have hbase' : h'.heapPtr = h.heapPtr := by rw [hre.frame]
  have hlower := hre.lower
  refine ⟨h', ?_, ⟨⟨?_, hbase', by rw [hre.frame], ?_⟩, ?_⟩, ?_⟩
  · unfold Heap.rtFree
    rw [if_neg (by rw [rtNull]; omega), if_pos (by omega)]
    have hsubmem : h.heapPtr + (extent 12 l + 12) - sizeofStructMem = mem := by
      rw [hmem, ← Nat.add_assoc]
      exact Nat.add_sub_cancel _ _
    simp only [hsubmem, ← hm]
    rw [if_pos (by rw [hhead]; exact ⟨one_ne_zero, rfl⟩)]
    simp only [Heap.header, hsub]
    exact hp
  · refine ⟨hre.consists, hbase' ▸ hbase, ?_, ?_, ?_, ?_⟩
    · refine forall_mem_release (P := fun b => 4 ∣ b.size ∧ (b.used = true → 0 < b.size))
        ?_ ?_ ?_ ?_
      · intro a b ha hb
        simp only [fuse_size, fuse_used]
        exact ⟨by omega, by simp⟩
      · exact fun b hb => hr.aligned b (by simp [hb])
      · exact ⟨(hr.aligned ⟨true, n⟩ (by simp)).1, by simp⟩
      · exact fun b hb => hr.aligned b (by simp [hb])
    · exact coalesced_release hr.coalesced.of_append_left
        (coalesced_cons.mp hr.coalesced.of_append_right).2
    · rw [hre.frame, inUse_release]
      simp only
      rw [subSize_of_le (by omega) (by omega)]
      omega
    · have hmax := hr.maxMem
      rw [hre.frame]
      simp only
      rw [subSize_of_le (by omega) (by omega)]
      omega
  · have hdata := hre.data
    rw [usedFrom_append, usedFrom_cons_free rfl] at hdata
    rw [usedFrom_release]
    refine KeepsData.trans ?_ hdata
    rw [keepsData_append]
    exact ⟨ho.keepsData_left (by omega), ho.keepsData_right (by omega)⟩
  · -- `lfree` was lowered to the freed block if it stood behind it
    intro hlow
    refine hre.lowest fun q hq => ?_
    rw [freeFrom_middle rfl, List.mem_append, List.mem_cons] at hq
    have hold : q ≠ extent 12 l → h.lfree ≤ h.heapPtr + q := by
      intro hne
      refine hlow q ?_
      rw [freeFrom_append, freeFrom_cons_used rfl, List.mem_append, Nat.zero_add]
      tauto
    simp only
    split <;> by_cases hqe : q = extent 12 l <;> grind
  · simp only at hlower
    split at hlower <;> omega

end Heap

end NanoAt
