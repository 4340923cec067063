import Mathlib

/-!
# Lists ordered by deadline

A list kept in the order of a key, a new element going behind those of equal key, so that
of two elements with one deadline the one that came first stays in front.

## Main definitions

- `insertLate` — an element put in front of the first one with a later deadline
- `InOrder` — no element comes in front of one with an earlier deadline
-/

namespace DeadlineList

variable {α K : Type*} [LinearOrder K]

/-- `x` put in front of the first element with a later deadline. -/
def insertLate (key : α → K) (x : α) : List α → List α
  | [] => [x]
  | y :: l => if key x < key y then x :: y :: l else y :: insertLate key x l

/-- No element comes in front of one with an earlier deadline. -/
def InOrder (key : α → K) (l : List α) : Prop := l.Pairwise fun x y => key x ≤ key y

variable {key key' : α → K} {x y : α} {l l₁ : List α}

theorem insertLate_perm : (insertLate key x l).Perm (x :: l) := by
  induction l with
  | nil => exact .refl _
  | cons y l ih =>
    unfold insertLate
    split
    · exact .refl _
    · exact (ih.cons y).trans (.swap x y l)

@[simp] theorem mem_insertLate : y ∈ insertLate key x l ↔ y = x ∨ y ∈ l := by
  rw [insertLate_perm.mem_iff, List.mem_cons]

theorem nodup_insertLate (hl : l.Nodup) (hx : x ∉ l) : (insertLate key x l).Nodup :=
  insertLate_perm.nodup_iff.mpr (List.nodup_cons.mpr ⟨hx, hl⟩)

/-- Inserting keeps any order that the deadlines decide between the new element and the old
ones, the new one counting as later where the deadlines are equal. -/
theorem pairwise_insertLate {r : α → α → Prop} (ho : InOrder key l) (hl : l.Pairwise r)
    (hbefore : ∀ y ∈ l, key x < key y → r x y) (hafter : ∀ y ∈ l, key y ≤ key x → r y x) :
    (insertLate key x l).Pairwise r := by
  induction l with
  | nil => exact List.pairwise_singleton _ _
  | cons y l ih =>
    obtain ⟨hy, ho'⟩ := List.pairwise_cons.mp ho
    obtain ⟨hr, hl'⟩ := List.pairwise_cons.mp hl
    rw [List.forall_mem_cons] at hbefore hafter
    unfold insertLate
    split
    · next hlt =>
      refine List.pairwise_cons.mpr ⟨fun z hz => ?_, hl⟩
      rcases List.mem_cons.mp hz with rfl | hz
      · exact hbefore.1 hlt
      · exact hbefore.2 z hz (hlt.trans_le (hy z hz))
    · next hge =>
      refine List.pairwise_cons.mpr ⟨fun z hz => ?_, ih ho' hl' hbefore.2 hafter.2⟩
      rcases mem_insertLate.mp hz with rfl | hz
      · exact hafter.1 (not_lt.mp hge)
      · exact hr z hz

/-- Inserting keeps the order. -/
theorem inOrder_insertLate (h : InOrder key l) : InOrder key (insertLate key x l) :=
  pairwise_insertLate h h (fun _ _ => le_of_lt) (fun _ _ => id)

theorem InOrder.sublist (h : InOrder key l) (hs : l₁.Sublist l) : InOrder key l₁ :=
  List.Pairwise.sublist hs h

theorem InOrder.congr (h : InOrder key l) (hk : ∀ y ∈ l, key' y = key y) : InOrder key' l := by
  refine h.imp_of_mem fun {x y} hx hy hle => ?_
  rw [hk x hx, hk y hy]
  exact hle

/-- The first element is the earliest. -/
theorem InOrder.head_le (h : InOrder key (x :: l)) (hy : y ∈ x :: l) : key x ≤ key y := by
  rcases List.mem_cons.mp hy with rfl | hy
  · exact le_rfl
  · exact (List.pairwise_cons.mp h).1 y hy

end DeadlineList
