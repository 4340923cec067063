import NanoAt.Lib.ByteMemory

/-!
# The small memory heap

`mem.c` over the bytes of memory. The heap is a chain of `struct heap_mem` headers, each
followed by the data of its block; `next` and `prev` are offsets from `heap_ptr`. Every
operation holds `heap_sem`, so it runs against the heap undisturbed; `rt_realloc` lets go
of the semaphore where it goes on with `rt_malloc` and `rt_free`.

A function that does not return (a loop that does not end, an assertion that fails) has
the value `none`.

## Main definitions

- `HeapMem` — `struct heap_mem`, read from and stored to memory field by field
- `Heap` — the memory and the variables of `mem.c`
- `Heap.rtSystemHeapInit`, `Heap.rtMalloc`, `Heap.rtFree`, `Heap.rtRealloc`, `Heap.rtCalloc`
-/

namespace NanoAt

open ByteMemory

/-- `RT_NULL`. -/
def rtNull : ℕ := 0

/-- `RT_ALIGN(size, RT_ALIGN_SIZE)`. -/
def rtAlign (size : UInt32) : UInt32 := (size + 3) &&& ~~~3

/-- `RT_ALIGN_DOWN(size, RT_ALIGN_SIZE)`. -/
def rtAlignDown (size : UInt32) : UInt32 := size &&& ~~~3

/-- Masking the two low bits of a 32-bit number. -/
theorem land_mask {x : ℕ} (hx : x < 2 ^ 32) : x &&& 4294967292 = 4 * (x / 4) := by
  have hmask : (4294967292 : ℕ) = 2 ^ 2 * (2 ^ 30 - 1) := by norm_num
  refine Nat.eq_of_testBit_eq fun i => ?_
  rw [Nat.testBit_and, hmask, show 4 * (x / 4) = 2 ^ 2 * (x / 2 ^ 2) by norm_num,
    Nat.testBit_two_pow_mul, Nat.testBit_two_pow_mul, Nat.testBit_two_pow_sub_one,
    Nat.testBit_div_two_pow]
  by_cases hi : 2 ≤ i
  · by_cases hi2 : i < 32
    · simp [hi, show i - 2 < 30 by omega]
    · have hhigh : x < 2 ^ i := lt_of_lt_of_le hx (Nat.pow_le_pow_right (by norm_num) (by omega))
      simp [hi, Nat.testBit_lt_two_pow hhigh]
  · simp [hi]

theorem toNat_rtAlignDown (size : UInt32) :
    (rtAlignDown size).toNat = 4 * (size.toNat / 4) := by
  rw [rtAlignDown, UInt32.toNat_and]
  exact land_mask size.toNat_lt

theorem toNat_rtAlign (size : UInt32) :
    (rtAlign size).toNat = 4 * ((size.toNat + 3) % 2 ^ 32 / 4) :=
  toNat_rtAlignDown (size + 3)

/-- A sum of two `rt_size_t`. -/
def addSize (a b : ℕ) : ℕ := (a + b) % 2 ^ 32

/-- A difference of two `rt_size_t`. -/
def subSize (a b : ℕ) : ℕ := (a + 2 ^ 32 - b) % 2 ^ 32

/-- `HEAP_MAGIC`. -/
def heapMagic : ℕ := 0x1ea0

/-- `SIZEOF_STRUCT_MEM`. -/
abbrev sizeofStructMem : ℕ := 12

/-- `MIN_SIZE_ALIGNED`, and `MIN_SIZE`, which is aligned. -/
abbrev minSizeAligned : ℕ := 12

/-- `struct heap_mem`. -/
@[ext] structure HeapMem where
  magic : ℕ
  used : ℕ
  next : ℕ
  prev : ℕ
  deriving DecidableEq

/-- The header at address `p`. -/
def heapMem (m : Memory) (p : ℕ) : HeapMem where
  magic := load m p 2
  used := load m (p + 2) 2
  next := load m (p + 4) 4
  prev := load m (p + 8) 4

def setMagic (m : Memory) (p v : ℕ) : Memory := store m p 2 v

def setUsed (m : Memory) (p v : ℕ) : Memory := store m (p + 2) 2 v

def setNext (m : Memory) (p v : ℕ) : Memory := store m (p + 4) 4 v

def setPrev (m : Memory) (p v : ℕ) : Memory := store m (p + 8) 4 v

section Fields

variable {m m' : Memory} {p q v : ℕ}

/-- Headers that lie on the same bytes are the same. -/
theorem heapMem_congr (h : SameOn m m' p sizeofStructMem) : heapMem m p = heapMem m' p := by
  have hsize : sizeofStructMem = 12 := rfl
  have hmagic := load_congr (h.mono (b := p) (k := 2) (by omega) (by omega))
  have hused := load_congr (h.mono (b := p + 2) (k := 2) (by omega) (by omega))
  have hnext := load_congr (h.mono (b := p + 4) (k := 4) (by omega) (by omega))
  have hprev := load_congr (h.mono (b := p + 8) (k := 4) (by omega) (by omega))
  simp only [heapMem, hmagic, hused, hnext, hprev]

@[simp] theorem heapMem_setMagic :
    heapMem (setMagic m p v) p = { heapMem m p with magic := v % 2 ^ 16 } := by
  ext
  · exact load_store_self
  all_goals exact load_store_of_disjoint (by omega)

@[simp] theorem heapMem_setUsed :
    heapMem (setUsed m p v) p = { heapMem m p with used := v % 2 ^ 16 } := by
  ext
  case used => exact load_store_self
  all_goals exact load_store_of_disjoint (by omega)

@[simp] theorem heapMem_setNext :
    heapMem (setNext m p v) p = { heapMem m p with next := v % 2 ^ 32 } := by
  ext
  case next => exact load_store_self
  all_goals exact load_store_of_disjoint (by omega)

@[simp] theorem heapMem_setPrev :
    heapMem (setPrev m p v) p = { heapMem m p with prev := v % 2 ^ 32 } := by
  ext
  case prev => exact load_store_self
  all_goals exact load_store_of_disjoint (by omega)

/-- Memory changed at most in the header at `p`. -/
def OnlyHeader (m m' : Memory) (p : ℕ) : Prop :=
  ∀ i, i < p ∨ p + sizeofStructMem ≤ i → m' i = m i

theorem onlyHeader_setMagic : OnlyHeader m (setMagic m p v) p :=
  fun i (hi : i < p ∨ p + 12 ≤ i) => store_of_outside (by omega)

theorem onlyHeader_setUsed : OnlyHeader m (setUsed m p v) p :=
  fun i (hi : i < p ∨ p + 12 ≤ i) => store_of_outside (by omega)

theorem onlyHeader_setNext : OnlyHeader m (setNext m p v) p :=
  fun i (hi : i < p ∨ p + 12 ≤ i) => store_of_outside (by omega)

theorem onlyHeader_setPrev : OnlyHeader m (setPrev m p v) p :=
  fun i (hi : i < p ∨ p + 12 ≤ i) => store_of_outside (by omega)

end Fields

/-- The memory, with the heap in it, and the variables of `mem.c`. `heap_end` is set once
and stays `heap_ptr` and the whole size behind it. -/
structure Heap where
  memory : Memory
  heapPtr : ℕ
  lfree : ℕ
  memSizeAligned : ℕ
  usedMem : ℕ
  maxMem : ℕ

/-- `heap_end`. -/
def Heap.heapEnd (h : Heap) : ℕ := h.heapPtr + (h.memSizeAligned + sizeofStructMem)

/-- The header at an address. -/
def Heap.header (h : Heap) (p : ℕ) : HeapMem := heapMem h.memory p

namespace Heap

/-- `rt_system_heap_init`, run once at boot, when `used_mem` and `max_mem` are zero; `none`
when the region is refused. -/
def rtSystemHeapInit (m : Memory) (beginAddr endAddr : UInt32) : Option Heap :=
  let beginAlign := (rtAlign beginAddr).toNat
  let endAlign := (rtAlignDown endAddr).toNat
  if 2 * sizeofStructMem < endAlign ∧ beginAlign ≤ endAlign - 2 * sizeofStructMem then
    let memSizeAligned := endAlign - beginAlign - 2 * sizeofStructMem
    let mem := beginAlign
    let m := setMagic m mem heapMagic
    let m := setNext m mem (memSizeAligned + sizeofStructMem)
    let m := setPrev m mem 0
    let m := setUsed m mem 0
    let heapEnd := beginAlign + (heapMem m mem).next
    let m := setMagic m heapEnd heapMagic
    let m := setUsed m heapEnd 1
    let m := setNext m heapEnd (memSizeAligned + sizeofStructMem)
    let m := setPrev m heapEnd (memSizeAligned + sizeofStructMem)
    some
      { memory := m, heapPtr := beginAlign, lfree := beginAlign, memSizeAligned
        usedMem := 0, maxMem := 0 }
  else none

/-- The forward half of `plug_holes`. -/
def plugForward (h : Heap) (mem : ℕ) : Heap :=
  let nmem := h.heapPtr + (h.header mem).next
  if mem ≠ nmem ∧ (h.header nmem).used = 0 ∧ nmem ≠ h.heapEnd then
    let m := setNext h.memory mem (h.header nmem).next
    { h with
      lfree := if h.lfree = nmem then mem else h.lfree
      memory := setPrev m (h.heapPtr + (heapMem m nmem).next) (mem - h.heapPtr) }
  else h

theorem plugForward_of_stop {h : Heap} {mem nmem : ℕ}
    (hn : h.heapPtr + (h.header mem).next = nmem)
    (hstop : (h.header nmem).used ≠ 0 ∨ nmem = h.heapEnd) : h.plugForward mem = h := by
  subst hn
  exact if_neg fun hc => hstop.elim (fun hu => hu hc.2.1) hc.2.2

theorem plugForward_of_free {h : Heap} {mem nmem : ℕ}
    (hn : h.heapPtr + (h.header mem).next = nmem) (hne : mem ≠ nmem)
    (hfree : (h.header nmem).used = 0) (hend : nmem ≠ h.heapEnd) :
    h.plugForward mem =
      { h with
        lfree := if h.lfree = nmem then mem else h.lfree
        memory := setPrev (setNext h.memory mem (h.header nmem).next)
          (h.heapPtr + (heapMem (setNext h.memory mem (h.header nmem).next) nmem).next)
          (mem - h.heapPtr) } := by
  subst hn
  exact if_pos ⟨hne, hfree, hend⟩

/-- The backward half of `plug_holes`. -/
def plugBackward (h : Heap) (mem : ℕ) : Heap :=
  let pmem := h.heapPtr + (h.header mem).prev
  if pmem ≠ mem ∧ (h.header pmem).used = 0 then
    let m := setNext h.memory pmem (h.header mem).next
    { h with
      lfree := if h.lfree = mem then pmem else h.lfree
      memory := setPrev m (h.heapPtr + (heapMem m mem).next) (pmem - h.heapPtr) }
  else h

theorem plugBackward_of_stop {h : Heap} {mem pmem : ℕ}
    (hp : h.heapPtr + (h.header mem).prev = pmem)
    (hstop : pmem = mem ∨ (h.header pmem).used ≠ 0) : h.plugBackward mem = h := by
  subst hp
  exact if_neg fun hc => hstop.elim hc.1 fun hu => hu hc.2

theorem plugBackward_of_free {h : Heap} {mem pmem : ℕ}
    (hp : h.heapPtr + (h.header mem).prev = pmem) (hne : pmem ≠ mem)
    (hfree : (h.header pmem).used = 0) :
    h.plugBackward mem =
      { h with
        lfree := if h.lfree = mem then pmem else h.lfree
        memory := setPrev (setNext h.memory pmem (h.header mem).next)
          (h.heapPtr + (heapMem (setNext h.memory pmem (h.header mem).next) mem).next)
          (pmem - h.heapPtr) } := by
  subst hp
  exact if_pos ⟨hne, hfree⟩

/-- `plug_holes`. -/
def plugHoles (h : Heap) (mem : ℕ) : Option Heap :=
  if h.heapPtr ≤ mem ∧ mem < h.heapEnd ∧ (h.header mem).used = 0 then
    some ((h.plugForward mem).plugBackward mem)
  else none

/-- `used_mem += n` and the update of `max_mem`. -/
def account (h : Heap) (n : ℕ) : Heap :=
  let usedMem := addSize h.usedMem n
  { h with usedMem, maxMem := if h.maxMem < usedMem then usedMem else h.maxMem }

/-- The header `mem2` of a free block, created and inserted behind `mem`. -/
def insertMem2 (m : Memory) (mem mem2 ptr ptr2 : ℕ) : Memory :=
  let m := setMagic m mem2 heapMagic
  let m := setUsed m mem2 0
  let m := setNext m mem2 (heapMem m mem).next
  let m := setPrev m mem2 ptr
  setNext m mem ptr2

/-- The header behind `mem2`, unless it is `heap_end`, points back to `mem2`. -/
def linkBack (h : Heap) (m : Memory) (mem2 ptr2 : ℕ) : Memory :=
  let next := (heapMem m mem2).next
  if next ≠ h.memSizeAligned + sizeofStructMem then setPrev m (h.heapPtr + next) ptr2 else m

/-- The block at offset `ptr` is put to use: split, or taken whole. -/
def allot (h : Heap) (size ptr : ℕ) : Heap :=
  let mem := h.heapPtr + ptr
  if size + sizeofStructMem + minSizeAligned ≤
      subSize (h.header mem).next (ptr + sizeofStructMem) then
    let ptr2 := ptr + sizeofStructMem + size
    let mem2 := h.heapPtr + ptr2
    let m := setUsed (insertMem2 h.memory mem mem2 ptr ptr2) mem 1
    { h with memory := h.linkBack m mem2 ptr2 }.account (size + sizeofStructMem)
  else
    { h with memory := setUsed h.memory mem 1 }.account (subSize (h.header mem).next ptr)

/-- `while (lfree->used && lfree != heap_end) lfree = &heap_ptr[lfree->next]`. -/
def nextFree (h : Heap) : ℕ → ℕ → Option ℕ
  | 0, _ => none
  | fuel + 1, p =>
    if (h.header p).used ≠ 0 ∧ p ≠ h.heapEnd then
      h.nextFree fuel (h.heapPtr + (h.header p).next)
    else some p

/-- Passes that the loops over the blocks can make: every block has a header. -/
def passes (h : Heap) : ℕ := h.memSizeAligned + 2 * sizeofStructMem

/-- The rest of `rt_malloc` once a block is found at offset `ptr`. -/
def mallocAt (h : Heap) (size ptr : ℕ) : Option (ℕ × Heap) :=
  let mem := h.heapPtr + ptr
  let h := h.allot size ptr
  let h := { h with memory := setMagic h.memory mem heapMagic }
  (if mem = h.lfree then h.nextFree h.passes h.lfree else some h.lfree).bind fun lfree =>
    if mem + sizeofStructMem + size ≤ h.heapEnd ∧ (mem + sizeofStructMem) % 4 = 0 ∧
        mem % 4 = 0 then
      some (mem + sizeofStructMem, { h with lfree })
    else none

/-- The loop of `rt_malloc`. -/
def mallocLoop (h : Heap) (size : ℕ) : ℕ → ℕ → Option (ℕ × Heap)
  | 0, _ => none
  | fuel + 1, ptr =>
    if ptr < subSize h.memSizeAligned size then
      let mem := h.heapPtr + ptr
      if (h.header mem).used = 0 ∧
          size ≤ subSize (h.header mem).next (ptr + sizeofStructMem) then
        h.mallocAt size ptr
      else h.mallocLoop size fuel (h.header mem).next
    else some (rtNull, h)

/-- `rt_malloc`. -/
def rtMalloc (h : Heap) (size : UInt32) : Option (ℕ × Heap) :=
  if size = 0 then some (rtNull, h)
  else
    let size := (rtAlign size).toNat
    if h.memSizeAligned < size then some (rtNull, h)
    else
      let size := if size < minSizeAligned then minSizeAligned else size
      h.mallocLoop size h.passes (h.lfree - h.heapPtr)

/-- `rt_free`. -/
def rtFree (h : Heap) (rmem : ℕ) : Option Heap :=
  if rmem = rtNull then some h
  else if rmem % 4 = 0 ∧ h.heapPtr ≤ rmem ∧ rmem < h.heapEnd then
    let mem := rmem - sizeofStructMem
    if (h.header mem).used ≠ 0 ∧ (h.header mem).magic = heapMagic then
      let m := setMagic (setUsed h.memory mem 0) mem heapMagic
      let h : Heap :=
        { h with memory := m, lfree := if mem < h.lfree then mem else h.lfree }
      let h : Heap :=
        { h with usedMem := subSize h.usedMem (subSize (h.header mem).next (mem - h.heapPtr)) }
      h.plugHoles mem
    else none
  else none

/-- The branch of `rt_realloc` that splits the block at offset `ptr`. -/
def shrink (h : Heap) (ptr size newsize : ℕ) : Option Heap :=
  let mem := h.heapPtr + ptr
  let ptr2 := ptr + sizeofStructMem + newsize
  let mem2 := h.heapPtr + ptr2
  let m := insertMem2 h.memory mem mem2 ptr ptr2
  { h with
    memory := h.linkBack m mem2 ptr2
    usedMem := subSize h.usedMem (subSize size newsize) }.plugHoles mem2

/-- The branch of `rt_realloc` that goes through a new block. -/
def expand (h : Heap) (rmem size : ℕ) (newsize : UInt32) : Option (ℕ × Heap) :=
  (h.rtMalloc newsize).bind fun r =>
    if r.1 ≠ rtNull then
      let n := if size < newsize.toNat then size else newsize.toNat
      ({ r.2 with memory := copy r.2.memory r.1 rmem n }.rtFree rmem).map fun h => (r.1, h)
    else some r

/-- `rt_realloc`. -/
def rtRealloc (h : Heap) (rmem : ℕ) (newsize : UInt32) : Option (ℕ × Heap) :=
  let newsize := rtAlign newsize
  if h.memSizeAligned < newsize.toNat then some (rtNull, h)
  else if newsize = 0 then (h.rtFree rmem).map fun h => (rtNull, h)
  else if rmem = rtNull then h.rtMalloc newsize
  else if rmem < h.heapPtr ∨ h.heapEnd ≤ rmem then some (rmem, h)
  else
    let mem := rmem - sizeofStructMem
    let ptr := mem - h.heapPtr
    let size := subSize (subSize (h.header mem).next ptr) sizeofStructMem
    if size = newsize.toNat then some (rmem, h)
    else if newsize.toNat + sizeofStructMem + minSizeAligned < size then
      (h.shrink ptr size newsize.toNat).map fun h => (rmem, h)
    else h.expand rmem size newsize

/-- `rt_calloc`. -/
def rtCalloc (h : Heap) (count size : UInt32) : Option (ℕ × Heap) :=
  (h.rtMalloc (count * size)).map fun r =>
    if r.1 ≠ rtNull then
      (r.1, { r.2 with memory := fill r.2.memory r.1 (count * size).toNat 0 })
    else r

end Heap

end NanoAt
