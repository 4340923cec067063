import NanoAt.Heap
import NanoAt.Lib.BlockList

/-!
# The blocks of the heap

The chain of headers in memory as a list of blocks. Every operation of `mem.c` on the
bytes is an operation on the list: `rt_malloc` carves the first free block that fits,
`rt_free` releases one.

## Main definitions

- `Headers` — the headers of a list of blocks lie in memory
- `BlockChain` — the headers of the whole heap, the last one included
- `Heap.Represents` — a heap that consists of a list of blocks
- `KeepsData` — the data of the blocks in use is unchanged
-/

namespace NanoAt

open ByteMemory BlockList

/-- The header of block `b` at offset `pos`, with `prev` as its `prev`. -/
def headerOf (b : Block) (pos prev : ℕ) : HeapMem :=
  ⟨heapMagic, if b.used then 1 else 0, pos + (12 + b.size), prev⟩

/-- The headers of the blocks lie in memory, the first at offset `pos`. -/
def Headers (m : Memory) (base : ℕ) : ℕ → ℕ → List Block → Prop
  | _, _, [] => True
  | pos, prev, b :: bs =>
    heapMem m (base + pos) = headerOf b pos prev ∧ Headers m base (pos + (12 + b.size)) pos bs

/-- The offset of the last block, or `prev` when there is none. -/
def lastFrom : ℕ → ℕ → List Block → ℕ
  | _, prev, [] => prev
  | pos, _, b :: bs => lastFrom (pos + (12 + b.size)) pos bs

/-- What the operations read of the header at `heap_end`, its offset being `pos`. -/
structure EndHeader (m : Memory) (base pos : ℕ) : Prop where
  magic : (heapMem m (base + pos)).magic = heapMagic
  used : (heapMem m (base + pos)).used = 1
  next : (heapMem m (base + pos)).next = pos

/-- The headers from offset `pos` to the end of the heap. -/
def Rest (m : Memory) (base pos prev : ℕ) (bs : List Block) : Prop :=
  Headers m base pos prev bs ∧ EndHeader m base (pos + extent 12 bs)

/-- The heap at `base` consists of the blocks `bs`. -/
structure BlockChain (m : Memory) (base : ℕ) (bs : List Block) : Prop where
  rest : Rest m base 0 0 bs
  bound : base + extent 12 bs + 12 ≤ 2 ^ 32

/-- Nothing but the bytes from `a` to `b` changed. -/
def SameOutside (m m' : Memory) (a b : ℕ) : Prop := ∀ i, i < a ∨ b ≤ i → m' i = m i

variable {m m' m'' : Memory} {base pos prev p q n v : ℕ} {b c : Block} {bs l r mid : List Block}

section Frames

theorem SameOutside.trans {a b c d : ℕ} (h : SameOutside m m' a b)
    (h' : SameOutside m' m'' c d) : SameOutside m m'' (min a c) (max b d) :=
  fun i hi => (h' i (by omega)).trans (h i (by omega))

theorem SameOutside.mono {a b c d : ℕ} (h : SameOutside m m' a b) (ha : c ≤ a) (hb : b ≤ d) :
    SameOutside m m' c d :=
  fun i hi => h i (by omega)

theorem SameOutside.sameOn {a b : ℕ} (h : SameOutside m m' a b) (ho : q + n ≤ a ∨ b ≤ q) :
    SameOn m' m q n :=
  fun i _ _ => h i (by omega)

theorem OnlyHeader.sameOutside (h : OnlyHeader m m' p) : SameOutside m m' p (p + 12) := h

/-- A header apart from what changed. -/
theorem SameOutside.heapMem {a b : ℕ} (h : SameOutside m m' a b) (ho : q + 12 ≤ a ∨ b ≤ q) :
    heapMem m' q = heapMem m q :=
  heapMem_congr (h.sameOn ho)

theorem Headers.frame (h : Headers m base pos prev bs)
    (hs : SameOn m' m (base + pos) (extent 12 bs)) : Headers m' base pos prev bs := by
  induction bs generalizing pos prev with
  | nil => trivial
  | cons b bs ih =>
    rw [extent_cons] at hs
    have hhead : SameOn m' m (base + pos) 12 := hs.mono le_rfl (by omega)
    exact ⟨(heapMem_congr hhead).trans h.1, ih h.2 (hs.mono (by omega) (by omega))⟩

theorem EndHeader.frame (h : EndHeader m base pos)
    (hs : heapMem m' (base + pos) = heapMem m (base + pos)) : EndHeader m' base pos :=
  ⟨hs ▸ h.magic, hs ▸ h.used, hs ▸ h.next⟩

/-- Headers that lie behind what changed. -/
theorem Rest.frame {a b : ℕ} (h : Rest m base pos prev bs) (hs : SameOutside m m' a b)
    (hb : b ≤ base + pos) : Rest m' base pos prev bs :=
  ⟨h.1.frame (hs.sameOn (by omega)), h.2.frame (hs.heapMem (by omega))⟩

/-- Headers that lie in front of what changed. -/
theorem Headers.frame_left {a b : ℕ} (h : Headers m base pos prev bs)
    (hs : SameOutside m m' a b) (ha : base + pos + extent 12 bs ≤ a) :
    Headers m' base pos prev bs :=
  h.frame (hs.sameOn (by omega))

end Frames

section Splitting

theorem headers_append : Headers m base pos prev (l ++ r) ↔
    Headers m base pos prev l ∧ Headers m base (pos + extent 12 l) (lastFrom pos prev l) r := by
  induction l generalizing pos prev with
  | nil => simp [Headers, lastFrom]
  | cons b l ih => simp [Headers, lastFrom, ih, and_assoc, Nat.add_assoc]

theorem rest_append : Rest m base pos prev (l ++ r) ↔
    Headers m base pos prev l ∧ Rest m base (pos + extent 12 l) (lastFrom pos prev l) r := by
  rw [Rest, Rest, headers_append, extent_append, and_assoc, Nat.add_assoc]

theorem rest_cons : Rest m base pos prev (b :: r) ↔
    heapMem m (base + pos) = headerOf b pos prev ∧ Rest m base (pos + (12 + b.size)) pos r := by
  rw [Rest, Rest, extent_cons, Headers, and_assoc, Nat.add_assoc pos]

theorem lastFrom_concat : lastFrom pos prev (l ++ [b]) = pos + extent 12 l := by
  induction l generalizing pos prev with
  | nil => simp [lastFrom]
  | cons c l ih => simp [lastFrom, ih]; omega

/-- The `prev` of the header behind a list of blocks can be set, that of `heap_end` too. -/
theorem Rest.setPrev (h : Rest m base pos prev bs) (hv : v < 2 ^ 32) :
    Rest (setPrev m (base + pos) v) base pos v bs := by
  cases bs with
  | nil =>
    refine ⟨trivial, ?_, ?_, ?_⟩
    · simpa using h.2.magic
    · simpa using h.2.used
    · simpa using h.2.next
  | cons b bs =>
    obtain ⟨hb, hr⟩ := rest_cons.mp h
    refine rest_cons.mpr ⟨?_, hr.frame onlyHeader_setPrev.sameOutside (by omega)⟩
    rw [heapMem_setPrev, hb, Nat.mod_eq_of_lt hv]
    rfl

/-- No `prev` points in front of a block at the end of the heap. -/
theorem Rest.nil_prev (h : Rest m base pos prev []) : Rest m base pos v [] := ⟨trivial, h.2⟩

end Splitting

section Stores

/-- The parts of a chain around one block. -/
theorem blockChain_iff : BlockChain m base (l ++ b :: r) ↔
    (Headers m base 0 0 l ∧
      heapMem m (base + extent 12 l) = headerOf b (extent 12 l) (lastFrom 0 0 l) ∧
      Rest m base (extent 12 l + (12 + b.size)) (extent 12 l) r) ∧
    base + extent 12 (l ++ b :: r) + 12 ≤ 2 ^ 32 := by
  constructor
  · intro h
    refine ⟨?_, h.bound⟩
    have hrest := h.rest
    rwa [rest_append, rest_cons, Nat.zero_add] at hrest
  · intro h
    refine ⟨?_, h.2⟩
    rw [rest_append, rest_cons, Nat.zero_add]
    exact h.1

/-- Setting the `used` flag of a block. -/
theorem BlockChain.setUsed (h : BlockChain m base (l ++ b :: r)) (u : Bool) :
    BlockChain (setUsed m (base + extent 12 l) (if u then 1 else 0)) base
      (l ++ { b with used := u } :: r) := by
  obtain ⟨⟨hl, hb, hr⟩, hbound⟩ := blockChain_iff.mp h
  have ho := (onlyHeader_setUsed (m := m) (p := base + extent 12 l)
    (v := if u then 1 else 0)).sameOutside
  refine blockChain_iff.mpr ⟨⟨hl.frame_left ho (by omega), ?_, hr.frame ho (by omega)⟩, ?_⟩
  · rw [heapMem_setUsed, hb]
    cases u <;> rfl
  · simpa using hbound

/-- Setting the magic of a block, which it has. -/
theorem BlockChain.setMagic (h : BlockChain m base (l ++ b :: r)) :
    BlockChain (setMagic m (base + extent 12 l) heapMagic) base (l ++ b :: r) := by
  obtain ⟨⟨hl, hb, hr⟩, hbound⟩ := blockChain_iff.mp h
  have ho := (onlyHeader_setMagic (m := m) (p := base + extent 12 l)
    (v := heapMagic)).sameOutside
  refine blockChain_iff.mpr ⟨⟨hl.frame_left ho (by omega), ?_, hr.frame ho (by omega)⟩, hbound⟩
  rw [heapMem_setMagic, hb]
  rfl

/-- The stores that take the block behind a free one out of the chain. -/
theorem BlockChain.fuse (h : BlockChain m base (l ++ b :: c :: r)) (hb : b.used = false) :
    BlockChain (NanoAt.setPrev (setNext m (base + extent 12 l)
        (heapMem m (base + (extent 12 l + (12 + b.size)))).next)
      (base + (extent 12 l + (12 + b.size) + (12 + c.size))) (extent 12 l)) base
      (l ++ BlockList.fuse 12 b c :: r) := by
  obtain ⟨⟨hl, hhb, hrest⟩, hbound⟩ := blockChain_iff.mp h
  obtain ⟨hhc, hr⟩ := rest_cons.mp hrest
  simp only [extent_append, extent_cons] at hbound
  rw [hhc]
  have ho := (onlyHeader_setNext (m := m) (p := base + extent 12 l)
    (v := extent 12 l + (12 + b.size) + (12 + c.size))).sameOutside
  have hr' := (hr.frame ho (by omega)).setPrev (v := extent 12 l) (by omega)
  have ho' := (onlyHeader_setPrev (m := setNext m (base + extent 12 l)
      (extent 12 l + (12 + b.size) + (12 + c.size)))
    (p := base + (extent 12 l + (12 + b.size) + (12 + c.size))) (v := extent 12 l)).sameOutside
  refine blockChain_iff.mpr ⟨⟨?_, ?_, ?_⟩, ?_⟩
  · exact (hl.frame_left ho (by omega)).frame_left ho' (by omega)
  · rw [headerOf, ho'.heapMem (by omega), heapMem_setNext, hhb]
    simp [headerOf, hb]
    omega
  · rw [fuse_size, show extent 12 l + (12 + (b.size + 12 + c.size)) =
      extent 12 l + (12 + b.size) + (12 + c.size) by omega]
    exact hr'
  · simp only [extent_append, extent_cons, fuse_size]
    omega

/-- A header stored inside the data of a block, and the block shortened to end there. -/
theorem BlockChain.split {u : Bool} (h : BlockChain m base (l ++ b :: r)) (hn : n + 12 ≤ b.size)
    (hs : SameOutside m m' (base + extent 12 l) (base + extent 12 l + (12 + b.size)))
    (hmem : heapMem m' (base + extent 12 l) = headerOf ⟨u, n⟩ (extent 12 l) (lastFrom 0 0 l))
    (hmem2 : heapMem m' (base + (extent 12 l + 12 + n)) =
      headerOf ⟨false, b.size - n - 12⟩ (extent 12 l + 12 + n) (extent 12 l)) :
    BlockChain (if (heapMem m' (base + (extent 12 l + 12 + n))).next ≠ extent 12 (l ++ b :: r)
        then NanoAt.setPrev m' (base + (heapMem m' (base + (extent 12 l + 12 + n))).next)
          (extent 12 l + 12 + n)
        else m') base (l ++ ⟨u, n⟩ :: ⟨false, b.size - n - 12⟩ :: r) := by
  obtain ⟨⟨hl, -, hr⟩, hbound⟩ := blockChain_iff.mp h
  simp only [extent_append, extent_cons] at hbound ⊢
  have hnext : (heapMem m' (base + (extent 12 l + 12 + n))).next =
      extent 12 l + (12 + b.size) := by
    simp only [hmem2, headerOf]
    omega
  have hl' := hl.frame_left hs (by omega)
  have hr' := hr.frame hs (by omega)
  have hsum : base + extent 12 (l ++ ⟨u, n⟩ :: ⟨false, b.size - n - 12⟩ :: r) + 12 ≤ 2 ^ 32 := by
    simp only [extent_append, extent_cons]
    omega
  have hpos : extent 12 l + (12 + n) + (12 + (b.size - n - 12)) =
    extent 12 l + (12 + b.size) := by omega
  rw [hnext]
  split
  · -- the header behind is a block's: its `prev` is set
    have ho := (onlyHeader_setPrev (m := m') (p := base + (extent 12 l + (12 + b.size)))
      (v := extent 12 l + 12 + n)).sameOutside
    refine blockChain_iff.mpr ⟨⟨hl'.frame_left ho (by omega), ?_, rest_cons.mpr ⟨?_, ?_⟩⟩, hsum⟩
    · rw [ho.heapMem (by omega), hmem]
    · rw [ho.heapMem (by simp only; omega), ← Nat.add_assoc (extent 12 l), hmem2]
    · simp only [hpos]
      rw [← Nat.add_assoc (extent 12 l) 12 n]
      exact hr'.setPrev (by omega)
  · -- the header behind is `heap_end`
    next hend =>
    have hnil : r = [] := by
      cases r with
      | nil => rfl
      | cons c r =>
        rw [extent_cons] at hend
        omega
    subst hnil
    refine blockChain_iff.mpr ⟨⟨hl', hmem, rest_cons.mpr ⟨?_, ?_⟩⟩, hsum⟩
    · rw [← Nat.add_assoc (extent 12 l), hmem2]
    · simp only [hpos]
      exact hr'.nil_prev

end Stores

section Data

/-- The data of the blocks at the places `xs` is unchanged. -/
def KeepsData (m m' : Memory) (base : ℕ) (xs : List (ℕ × ℕ)) : Prop :=
  ∀ x ∈ xs, SameOn m' m (base + x.1 + 12) x.2

theorem KeepsData.trans {xs : List (ℕ × ℕ)} (h : KeepsData m m' base xs)
    (h' : KeepsData m' m'' base xs) : KeepsData m m'' base xs :=
  fun x hx => (h' x hx).trans (h x hx)

theorem keepsData_append {xs ys : List (ℕ × ℕ)} :
    KeepsData m m' base (xs ++ ys) ↔ KeepsData m m' base xs ∧ KeepsData m m' base ys := by
  simp only [KeepsData, List.mem_append]
  exact ⟨fun h => ⟨fun x hx => h x (.inl hx), fun x hx => h x (.inr hx)⟩,
    fun h x hx => hx.elim (h.1 x) (h.2 x)⟩

/-- Changes behind some blocks do not reach their data. -/
theorem SameOutside.keepsData_left {a b : ℕ} (h : SameOutside m m' a b)
    (ha : base + (p + extent 12 l) ≤ a) : KeepsData m m' base (usedFrom 12 p l) := by
  intro x hx
  have hx := usedFrom_bounds hx
  exact h.sameOn (by omega)

/-- Changes up to the end of the first header of some blocks do not reach their data. -/
theorem SameOutside.keepsData_right {a b : ℕ} (h : SameOutside m m' a b)
    (hb : b ≤ base + p + 12) : KeepsData m m' base (usedFrom 12 p r) := by
  intro x hx
  have hx := usedFrom_bounds hx
  exact h.sameOn (by omega)

/-- Changes to blocks of which none is in use, and to the header behind them. -/
theorem SameOutside.keepsData
    (h : SameOutside m m' (base + extent 12 l) (base + extent 12 l + extent 12 mid + 12))
    (hmid : usedFrom 12 (extent 12 l) mid = []) :
    KeepsData m m' base (usedFrom 12 0 (l ++ mid ++ r)) := by
  rw [usedFrom_append, usedFrom_append, Nat.zero_add, hmid, List.append_nil, keepsData_append]
  refine ⟨h.keepsData_left (by omega), h.keepsData_right ?_⟩
  rw [extent_append]
  omega

end Data

end NanoAt
