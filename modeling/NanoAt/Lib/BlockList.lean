import Mathlib

/-!
# Lists of memory blocks

A region cut into blocks that lie one behind the other, each a header of `w` bytes
and its data. A block is in use or free; a free block can be carved, and two free
neighbours can be fused into one.

## Main definitions

- `extent` — the bytes a list of blocks takes
- `inUse` — the bytes of the blocks in use
- `usedFrom`, `freeFrom` — where the blocks in use and the free ones start
- `Coalesced` — no two neighbours are free
- `carve` — `n` bytes taken from a free block, the rest left as a block when it can be one
- `mergeNext`, `mergePrev` — a free block fused with a free neighbour
-/

namespace BlockList

/-- A block: whether it is in use, and its bytes of data. -/
structure Block where
  used : Bool
  size : ℕ
  deriving DecidableEq, Repr

variable (w : ℕ)

/-- The bytes the blocks take, headers included. -/
def extent : List Block → ℕ
  | [] => 0
  | b :: bs => w + b.size + extent bs

/-- The bytes the blocks in use take. -/
def inUse : List Block → ℕ
  | [] => 0
  | b :: bs => (if b.used then w + b.size else 0) + inUse bs

/-- Start and size of each block in use, the first block of the list starting at `p`. -/
def usedFrom : ℕ → List Block → List (ℕ × ℕ)
  | _, [] => []
  | p, b :: bs =>
    (if b.used then [(p, b.size)] else []) ++ usedFrom (p + (w + b.size)) bs

/-- Start of each free block, the first block of the list starting at `p`. -/
def freeFrom : ℕ → List Block → List ℕ
  | _, [] => []
  | p, b :: bs => (if b.used then [] else [p]) ++ freeFrom (p + (w + b.size)) bs

/-- No two neighbours are free. -/
def Coalesced (bs : List Block) : Prop :=
  bs.IsChain fun a b => a.used = true ∨ b.used = true

/-- Two neighbours as one free block. -/
def fuse (a b : Block) : Block := ⟨false, a.size + w + b.size⟩

/-- `n` bytes of a block put to use. What is left becomes a free block when it has
room for a header and `k` bytes. -/
def carve (k n : ℕ) (b : Block) : List Block :=
  if n + w + k ≤ b.size then [⟨true, n⟩, ⟨false, b.size - n - w⟩] else [⟨true, b.size⟩]

/-- A free block fused with the one behind it if that is free. -/
def mergeNext (b : Block) : List Block → List Block
  | [] => [b]
  | c :: r => if c.used then b :: c :: r else fuse w b c :: r

/-- The first of the blocks `bs`, a free one, fused with the last of the blocks `l` in
front of it if that is free. -/
def mergePrev (l bs : List Block) : List Block :=
  match l.getLast?, bs with
  | some a, b :: r => if a.used then l ++ b :: r else l.dropLast ++ fuse w a b :: r
  | _, _ => l ++ bs

/-- A block of `n` bytes, between the blocks `l` and `r`, becomes free. -/
def release (l : List Block) (n : ℕ) (r : List Block) : List Block :=
  mergePrev w l (mergeNext w ⟨false, n⟩ r)

variable {w} {bs l r : List Block} {a b c : Block} {p q n s k : ℕ}

section Lengths

@[simp] theorem extent_nil : extent w [] = 0 := rfl

@[simp] theorem extent_cons : extent w (b :: bs) = w + b.size + extent w bs := rfl

@[simp] theorem extent_append : extent w (l ++ r) = extent w l + extent w r := by
  induction l with
  | nil => simp
  | cons b l ih => simp [ih]; omega

/-- Every block takes at least its header. -/
theorem length_mul_le_extent : bs.length * w ≤ extent w bs := by
  induction bs with
  | nil => simp
  | cons b bs ih => simp only [List.length_cons, extent_cons, Nat.add_mul]; omega

@[simp] theorem fuse_used : (fuse w a b).used = false := rfl

@[simp] theorem fuse_size : (fuse w a b).size = a.size + w + b.size := rfl

theorem carve_of_le (h : n + w + k ≤ b.size) :
    carve w k n b = [⟨true, n⟩, ⟨false, b.size - n - w⟩] :=
  if_pos h

theorem carve_of_lt (h : b.size < n + w + k) : carve w k n b = [⟨true, b.size⟩] :=
  if_neg (by omega)

theorem extent_carve : extent w (carve w k n b) = w + b.size := by
  unfold carve
  split
  · simp; omega
  · simp

@[simp] theorem extent_mergeNext : extent w (mergeNext w b r) = w + b.size + extent w r := by
  cases r with
  | nil => rfl
  | cons c r =>
    cases hc : c.used
    · simp [mergeNext, hc]; omega
    · simp [mergeNext, hc]

theorem mergeNext_cons_used (hc : c.used = true) :
    mergeNext w b (c :: r) = b :: c :: r :=
  if_pos hc

theorem mergeNext_cons_free (hc : c.used = false) :
    mergeNext w b (c :: r) = fuse w b c :: r := by
  simp [mergeNext, hc]

@[simp] theorem mergePrev_nil : mergePrev w [] bs = bs := rfl

theorem mergePrev_concat_used (ha : a.used = true) :
    mergePrev w (l ++ [a]) (b :: r) = l ++ a :: b :: r := by
  simp [mergePrev, ha]

theorem mergePrev_concat_free (ha : a.used = false) :
    mergePrev w (l ++ [a]) (b :: r) = l ++ fuse w a b :: r := by
  simp [mergePrev, ha]

@[simp] theorem inUse_nil : inUse w [] = 0 := rfl

@[simp] theorem inUse_append : inUse w (l ++ r) = inUse w l + inUse w r := by
  induction l with
  | nil => simp
  | cons b l ih => simp [inUse, ih]; omega

theorem inUse_cons_free (hb : b.used = false) : inUse w (b :: r) = inUse w r := by
  simp [inUse, hb]

theorem inUse_cons_used (hb : b.used = true) :
    inUse w (b :: r) = w + b.size + inUse w r := by
  simp [inUse, hb]

theorem inUse_le_extent : inUse w bs ≤ extent w bs := by
  induction bs with
  | nil => simp
  | cons b bs ih =>
    rw [inUse, extent_cons]
    split <;> omega

@[simp] theorem inUse_mergeNext (hb : b.used = false) :
    inUse w (mergeNext w b r) = inUse w r := by
  cases r with
  | nil => simp [mergeNext, inUse, hb]
  | cons c r => cases hc : c.used <;> simp [mergeNext, inUse, hb, hc]

theorem inUse_mergePrev (hb : b.used = false) :
    inUse w (mergePrev w l (b :: r)) = inUse w l + inUse w r := by
  rcases List.eq_nil_or_concat l with rfl | ⟨l, a, rfl⟩
  · simp [inUse, hb]
  · rw [List.concat_eq_append]
    cases ha : a.used with
    | true => simp [mergePrev_concat_used ha, inUse, ha, hb, Nat.add_assoc]
    | false => simp [mergePrev_concat_free ha, inUse, ha]

theorem extent_mergePrev : extent w (mergePrev w l (b :: r)) = extent w (l ++ b :: r) := by
  rcases List.eq_nil_or_concat l with rfl | ⟨l, a, rfl⟩
  · rfl
  · rw [List.concat_eq_append]
    cases ha : a.used with
    | true => simp [mergePrev_concat_used ha]
    | false => simp [mergePrev_concat_free ha]; omega

/-- What fusing keeps, merging with the next block keeps. -/
theorem forall_mem_mergeNext {P : Block → Prop} (hfuse : ∀ a b, P a → P b → P (fuse w a b))
    (hb : P b) (hr : ∀ c ∈ r, P c) : ∀ c ∈ mergeNext w b r, P c := by
  cases r with
  | nil => simpa [mergeNext] using hb
  | cons c r =>
    rw [List.forall_mem_cons] at hr
    cases hc : c.used with
    | true => simpa [mergeNext_cons_used hc] using ⟨hb, hr⟩
    | false => simpa [mergeNext_cons_free hc] using ⟨hfuse _ _ hb hr.1, hr.2⟩

/-- What fusing keeps, releasing keeps. -/
theorem forall_mem_release {P : Block → Prop} (hfuse : ∀ a b, P a → P b → P (fuse w a b))
    (hl : ∀ b ∈ l, P b) (hn : P ⟨false, n⟩) (hr : ∀ b ∈ r, P b) :
    ∀ b ∈ release w l n r, P b := by
  have hnext := forall_mem_mergeNext hfuse hn hr
  unfold release
  generalize mergeNext w ⟨false, n⟩ r = bs at hnext ⊢
  rcases List.eq_nil_or_concat l with rfl | ⟨l, a, rfl⟩
  · exact hnext
  · rw [List.concat_eq_append] at hl ⊢
    simp only [List.mem_append, List.mem_singleton] at hl
    have hla : ∀ b ∈ l, P b := fun b hb => hl b (.inl hb)
    cases bs with
    | nil =>
      simp only [mergePrev, List.append_nil]
      simpa using hl
    | cons c bs =>
      rw [List.forall_mem_cons] at hnext
      have ha := hl a (.inr rfl)
      cases hau : a.used with
      | true =>
        simp only [mergePrev_concat_used hau, List.mem_append, List.mem_cons]
        rintro b (hb | rfl | rfl | hb)
        exacts [hla b hb, ha, hnext.1, hnext.2 b hb]
      | false =>
        simp only [mergePrev_concat_free hau, List.mem_append, List.mem_cons]
        rintro b (hb | rfl | hb)
        exacts [hla b hb, hfuse _ _ ha hnext.1, hnext.2 b hb]

end Lengths

section Starts

@[simp] theorem usedFrom_nil : usedFrom w p [] = [] := rfl

@[simp] theorem freeFrom_nil : freeFrom w p [] = [] := rfl

theorem usedFrom_append :
    usedFrom w p (l ++ r) = usedFrom w p l ++ usedFrom w (p + extent w l) r := by
  induction l generalizing p with
  | nil => simp
  | cons b l ih => simp [usedFrom, ih, Nat.add_assoc]

theorem freeFrom_append :
    freeFrom w p (l ++ r) = freeFrom w p l ++ freeFrom w (p + extent w l) r := by
  induction l generalizing p with
  | nil => simp
  | cons b l ih => simp [freeFrom, ih, Nat.add_assoc]

theorem usedFrom_cons_used (hb : b.used = true) :
    usedFrom w p (b :: r) = (p, b.size) :: usedFrom w (p + (w + b.size)) r := by
  simp [usedFrom, hb]

theorem usedFrom_cons_free (hb : b.used = false) :
    usedFrom w p (b :: r) = usedFrom w (p + (w + b.size)) r := by
  simp [usedFrom, hb]

theorem freeFrom_cons_used (hb : b.used = true) :
    freeFrom w p (b :: r) = freeFrom w (p + (w + b.size)) r := by
  simp [freeFrom, hb]

theorem freeFrom_cons_free (hb : b.used = false) :
    freeFrom w p (b :: r) = p :: freeFrom w (p + (w + b.size)) r := by
  simp [freeFrom, hb]

/-- Fusing free blocks moves no block in use. -/
theorem usedFrom_fuse (ha : a.used = false) (hb : b.used = false) :
    usedFrom w p (fuse w a b :: r) = usedFrom w p (a :: b :: r) := by
  rw [usedFrom_cons_free rfl, usedFrom_cons_free ha, usedFrom_cons_free hb, fuse_size]
  congr 1
  omega

/-- Fusing free blocks removes the start of the second. -/
theorem freeFrom_fuse : freeFrom w p (fuse w a b :: r) =
    p :: freeFrom w (p + (w + a.size) + (w + b.size)) r := by
  rw [freeFrom_cons_free rfl, fuse_size]
  congr 2
  omega

theorem usedFrom_mergeNext (hb : b.used = false) :
    usedFrom w p (mergeNext w b r) = usedFrom w (p + (w + b.size)) r := by
  cases r with
  | nil => simp [mergeNext, usedFrom, hb]
  | cons c r =>
    cases hc : c.used with
    | true => simp [mergeNext, hc, usedFrom_cons_free hb]
    | false =>
      rw [← usedFrom_cons_free (r := c :: r) hb, ← usedFrom_fuse hb hc]
      simp [mergeNext, hc]

theorem usedFrom_mergePrev (hb : b.used = false) :
    usedFrom w p (mergePrev w l (b :: r)) = usedFrom w p (l ++ b :: r) := by
  rcases List.eq_nil_or_concat l with rfl | ⟨l, a, rfl⟩
  · rfl
  · cases ha : a.used with
    | true => simp [mergePrev_concat_used ha]
    | false =>
      simp only [List.concat_eq_append, mergePrev_concat_free ha, List.append_assoc,
        List.singleton_append, usedFrom_append]
      rw [usedFrom_fuse ha hb]

/-- A merge with the next block leaves a free block in front. -/
theorem mergeNext_eq_cons (hb : b.used = false) :
    ∃ b' r', mergeNext w b r = b' :: r' ∧ b'.used = false := by
  cases r with
  | nil => exact ⟨b, [], rfl, hb⟩
  | cons c r =>
    cases hc : c.used with
    | true => exact ⟨b, c :: r, by simp [mergeNext, hc], hb⟩
    | false => exact ⟨fuse w b c, r, by simp [mergeNext, hc], rfl⟩

@[simp] theorem extent_release : extent w (release w l n r) = extent w (l ++ ⟨true, n⟩ :: r) := by
  obtain ⟨b', r', hm, hb'⟩ := mergeNext_eq_cons (w := w) (r := r) (b := ⟨false, n⟩) rfl
  rw [release, hm, extent_mergePrev, ← hm, extent_append, extent_mergeNext]
  simp

theorem inUse_release : inUse w (release w l n r) = inUse w l + inUse w r := by
  obtain ⟨b', r', hm, hb'⟩ := mergeNext_eq_cons (w := w) (r := r) (b := ⟨false, n⟩) rfl
  have hr : inUse w (b' :: r') = inUse w r := by rw [← hm, inUse_mergeNext rfl]
  rw [inUse_cons_free hb'] at hr
  rw [release, hm, inUse_mergePrev hb', hr]

/-- Releasing a block removes it from the blocks in use and moves no other. -/
theorem usedFrom_release :
    usedFrom w p (release w l n r) =
      usedFrom w p l ++ usedFrom w (p + extent w l + (w + n)) r := by
  obtain ⟨b', r', hm, hb'⟩ := mergeNext_eq_cons (w := w) (r := r) (b := ⟨false, n⟩) rfl
  rw [release, hm, usedFrom_mergePrev hb', ← hm, usedFrom_append, usedFrom_mergeNext rfl]

/-- Carving puts one block to use, at the start of the free one and large enough. -/
theorem usedFrom_carve (hn : n ≤ b.size) :
    ∃ s, n ≤ s ∧ usedFrom w p (carve w k n b) = [(p, s)] := by
  unfold carve
  split
  · exact ⟨n, le_rfl, by simp [usedFrom]⟩
  · exact ⟨b.size, hn, by simp [usedFrom]⟩

/-- The blocks in use lie one behind the other between the start and the end. -/
theorem usedFrom_bounds {x : ℕ × ℕ} (hx : x ∈ usedFrom w p bs) :
    p ≤ x.1 ∧ x.1 + w + x.2 ≤ p + extent w bs := by
  induction bs generalizing p with
  | nil => simp at hx
  | cons b bs ih =>
    rw [extent_cons]
    rcases List.mem_append.mp hx with hx | hx
    · cases hb : b.used
      · simp [hb] at hx
      · simp only [hb, if_true, List.mem_singleton] at hx
        subst hx
        simp only
        omega
    · have h := ih hx
      omega

/-- Two blocks in use do not overlap. -/
theorem usedFrom_pairwise : (usedFrom w p bs).Pairwise fun x y => x.1 + w + x.2 ≤ y.1 := by
  induction bs generalizing p with
  | nil => simp
  | cons b bs ih =>
    cases hb : b.used with
    | false => rw [usedFrom_cons_free hb]; exact ih
    | true =>
      rw [usedFrom_cons_used hb]
      refine List.pairwise_cons.mpr ⟨fun y hy => ?_, ih⟩
      have h := (usedFrom_bounds hy).1
      simp only
      omega

/-- Shortening a block in use changes its size in the list of those in use. -/
theorem mem_usedFrom_shorten {x : ℕ × ℕ} (hhd : 0 < w) (hn : n + w ≤ s) :
    x ∈ usedFrom w 0 (l ++ ⟨true, n⟩ :: mergeNext w ⟨false, s - n - w⟩ r) ↔
      x = (extent w l, n) ∨
        x ∈ usedFrom w 0 (l ++ ⟨true, s⟩ :: r) ∧ x.1 ≠ extent w l := by
  have hpos : extent w l + (w + n) + (w + (s - n - w)) = extent w l + (w + s) := by omega
  rw [usedFrom_append, usedFrom_append, usedFrom_cons_used (b := ⟨true, n⟩) rfl,
    usedFrom_cons_used (b := ⟨true, s⟩) rfl, usedFrom_mergeNext rfl]
  simp only [Nat.zero_add, hpos, List.mem_append, List.mem_cons]
  constructor
  · rintro (hx | hx | hx)
    · have hb := usedFrom_bounds hx
      exact .inr ⟨.inl hx, by omega⟩
    · exact .inl hx
    · have hb := usedFrom_bounds hx
      exact .inr ⟨.inr (.inr hx), by omega⟩
  · rintro (hx | ⟨hx | rfl | hx, hne⟩)
    exacts [.inr (.inl hx), .inl hx, absurd rfl hne, .inr (.inr hx)]

/-- Different blocks in use lie apart. -/
theorem usedFrom_apart {x y : ℕ × ℕ} (hx : x ∈ usedFrom w p bs) (hy : y ∈ usedFrom w p bs)
    (hne : x ≠ y) : x.1 + w + x.2 ≤ y.1 ∨ y.1 + w + y.2 ≤ x.1 := by
  let R : ℕ × ℕ → ℕ × ℕ → Prop := fun x y => x.1 + w + x.2 ≤ y.1 ∨ y.1 + w + y.2 ≤ x.1
  have hsymm : Std.Symm R := ⟨fun _ _ h => h.symm⟩
  have hpair : (usedFrom w p bs).Pairwise R := usedFrom_pairwise.imp Or.inl
  exact hpair.forall hx hy hne

/-- The released block is the only one no longer in use. -/
theorem mem_usedFrom_release {x : ℕ × ℕ} (hhd : 0 < w) :
    x ∈ usedFrom w 0 (release w l n r) ↔
      x ∈ usedFrom w 0 (l ++ ⟨true, n⟩ :: r) ∧ x.1 ≠ extent w l := by
  rw [usedFrom_release, usedFrom_append, usedFrom_cons_used rfl]
  simp only [Nat.zero_add, List.mem_append, List.mem_cons]
  constructor
  · rintro (hx | hx)
    · have hb := usedFrom_bounds hx
      exact ⟨.inl hx, by omega⟩
    · have hb := usedFrom_bounds hx
      exact ⟨.inr (.inr hx), by omega⟩
  · rintro ⟨hx | rfl | hx, hne⟩
    exacts [.inl hx, absurd rfl hne, .inr hx]

/-- A block in use is one of the list, with the blocks in front of it taking all bytes up
to its start. -/
theorem exists_split_of_mem_usedFrom {x : ℕ × ℕ} (hx : x ∈ usedFrom w p bs) :
    ∃ l r, bs = l ++ ⟨true, x.2⟩ :: r ∧ x.1 = p + extent w l := by
  induction bs generalizing p with
  | nil => simp at hx
  | cons b bs ih =>
    rcases List.mem_append.mp hx with hx | hx
    · cases hb : b.used
      · simp [hb] at hx
      · simp only [hb, if_true, List.mem_singleton] at hx
        subst hx
        exact ⟨[], bs, by rw [← hb]; rfl, by simp⟩
    · obtain ⟨l, r, rfl, hpos⟩ := ih hx
      exact ⟨b :: l, r, rfl, by rw [hpos, extent_cons]; omega⟩

/-- Free blocks start inside the region. -/
theorem freeFrom_bounds (hx : q ∈ freeFrom w p bs) : p ≤ q ∧ q + w ≤ p + extent w bs := by
  induction bs generalizing p with
  | nil => simp at hx
  | cons b bs ih =>
    rw [extent_cons]
    rcases List.mem_append.mp hx with hx | hx
    · cases hb : b.used
      · simp only [hb, Bool.false_eq_true, if_false, List.mem_singleton] at hx
        omega
      · simp [hb] at hx
    · have h := ih hx
      omega

theorem exists_split_of_mem_freeFrom (hq : q ∈ freeFrom w p bs) :
    ∃ l r, bs = l ++ r ∧ q = p + extent w l := by
  induction bs generalizing p with
  | nil => simp at hq
  | cons b bs ih =>
    rcases List.mem_append.mp hq with hq | hq
    · cases hb : b.used
      · simp only [hb, Bool.false_eq_true, if_false, List.mem_singleton] at hq
        exact ⟨[], b :: bs, rfl, by simpa using hq⟩
      · simp [hb] at hq
    · obtain ⟨l, r, rfl, hpos⟩ := ih hq
      exact ⟨b :: l, r, rfl, by rw [hpos, extent_cons]; omega⟩

/-- A block that starts at or behind the end of `l₀` comes after `l₀`. -/
theorem exists_append_of_extent_le {l₀ r₀ : List Block} (hhd : 0 < w)
    (h : l ++ b :: r = l₀ ++ r₀) (hle : extent w l₀ ≤ extent w l) :
    ∃ s, l = l₀ ++ s ∧ r₀ = s ++ b :: r := by
  rcases List.append_eq_append_iff.mp h with ⟨s, hs, hs'⟩ | ⟨s, hs, hs'⟩
  · cases s with
    | nil => exact ⟨[], by simpa using hs.symm, by simpa using hs'.symm⟩
    | cons c s =>
      rw [hs, extent_append, extent_cons] at hle
      omega
  · exact ⟨s, hs, hs'⟩

/-- The first free block lies in front of every other. -/
theorem headD_freeFrom_le {e : ℕ} (hq : q ∈ freeFrom w p bs) : (freeFrom w p bs).headD e ≤ q := by
  induction bs generalizing p with
  | nil => simp at hq
  | cons b bs ih =>
    cases hb : b.used with
    | true =>
      rw [freeFrom_cons_used hb] at hq ⊢
      exact ih hq
    | false =>
      have hp := (freeFrom_bounds hq).1
      rw [freeFrom_cons_free hb]
      exact hp

end Starts

section Coalescing

theorem coalesced_cons :
    Coalesced (b :: bs) ↔ (∀ c ∈ bs.head?, b.used = true ∨ c.used = true) ∧ Coalesced bs :=
  List.isChain_cons

theorem coalesced_append_cons : Coalesced (l ++ a :: r) ↔
    Coalesced (l ++ [a]) ∧ Coalesced (a :: r) :=
  List.isChain_split

theorem Coalesced.of_append_right (h : Coalesced (l ++ r)) : Coalesced r :=
  List.IsChain.right_of_append h

theorem Coalesced.of_append_left (h : Coalesced (l ++ r)) : Coalesced l :=
  List.IsChain.left_of_append h

/-- A block in use fits between any two lists of blocks. -/
theorem Coalesced.insert_used (hl : Coalesced l) (hr : Coalesced r) (hb : b.used = true) :
    Coalesced (l ++ b :: r) := by
  refine List.IsChain.append hl (coalesced_cons.mpr ⟨fun _ _ => .inl hb, hr⟩) ?_
  intro x _ y hy
  simp only [List.head?_cons, Option.mem_def, Option.some.injEq] at hy
  exact .inr (hy ▸ hb)

theorem coalesced_carve (h : Coalesced (l ++ b :: r)) (hb : b.used = false) :
    Coalesced (l ++ carve w k n b ++ r) := by
  obtain ⟨hl, hr⟩ := coalesced_append_cons.mp h
  obtain ⟨hnext, hr⟩ := coalesced_cons.mp hr
  unfold carve
  split
  · have hrest : Coalesced (⟨false, b.size - n - w⟩ :: r) :=
      coalesced_cons.mpr ⟨fun c hc => .inr (by simpa [hb] using hnext c hc), hr⟩
    simpa using hl.of_append_left.insert_used (b := ⟨true, n⟩) hrest rfl
  · simpa using hl.of_append_left.insert_used (b := ⟨true, b.size⟩) hr rfl

theorem coalesced_mergeNext (h : Coalesced r) : Coalesced (mergeNext w b r) := by
  cases r with
  | nil => exact List.isChain_singleton b
  | cons c r =>
    obtain ⟨hnext, hr⟩ := coalesced_cons.mp h
    cases hc : c.used with
    | true =>
      simp only [mergeNext, hc, if_true]
      exact coalesced_cons.mpr ⟨fun d w' => .inr (by simp at w'; exact w' ▸ hc), h⟩
    | false =>
      simp only [mergeNext, hc, Bool.false_eq_true, if_false]
      exact coalesced_cons.mpr ⟨fun d w' => .inr (by simpa [hc] using hnext d w'), hr⟩

theorem coalesced_mergePrev (hl : Coalesced l) (h : Coalesced (b :: r)) (hb : b.used = false) :
    Coalesced (mergePrev w l (b :: r)) := by
  rcases List.eq_nil_or_concat l with rfl | ⟨l, a, rfl⟩
  · exact h
  · obtain ⟨hnext, hr⟩ := coalesced_cons.mp h
    rw [List.concat_eq_append] at hl ⊢
    cases ha : a.used with
    | true =>
      rw [mergePrev_concat_used ha]
      exact hl.of_append_left.insert_used h ha
    | false =>
      rw [mergePrev_concat_free ha, coalesced_append_cons]
      refine ⟨?_, coalesced_cons.mpr ⟨fun c hc => .inr (by simpa [hb] using hnext c hc), hr⟩⟩
      refine List.IsChain.append hl.of_append_left (List.isChain_singleton _) ?_
      intro x hx y hy
      simp only [List.head?_cons, Option.mem_def, Option.some.injEq] at hy
      have hlast := (List.isChain_append.mp hl).2.2 x hx a rfl
      exact .inl (by simpa [ha] using hlast)

theorem coalesced_release (hl : Coalesced l) (hr : Coalesced r) :
    Coalesced (release w l n r) := by
  obtain ⟨b', r', hm, hb'⟩ := mergeNext_eq_cons (w := w) (r := r) (b := ⟨false, n⟩) rfl
  have hnext : Coalesced (mergeNext w ⟨false, n⟩ r) := coalesced_mergeNext hr
  rw [release, hm] at *
  exact coalesced_mergePrev hl hnext hb'

/-- A coalesced region without a block in use is one free block. -/
theorem Coalesced.eq_singleton (h : Coalesced bs) (hne : bs ≠ []) (hu : usedFrom w p bs = []) :
    bs = [⟨false, extent w bs - w⟩] := by
  match bs, hne with
  | b :: bs, _ =>
    have hb : b.used = false := by
      by_contra hb
      simp [usedFrom, hb] at hu
    rw [usedFrom_cons_free hb] at hu
    obtain ⟨hnext, -⟩ := coalesced_cons.mp h
    cases bs with
    | nil => cases b; simp_all
    | cons c bs =>
      have hc := hnext c rfl
      simp_all [usedFrom]

end Coalescing

end BlockList
