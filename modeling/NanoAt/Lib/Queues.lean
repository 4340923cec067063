import Mathlib

/-!
# Queues of linked elements

A family of queues over elements that have one link each, so that an element stands in at
most one queue, and once. Unlinking takes an element out of whichever queue it is in; an
element that is in none may be put into one, at any place.

## Main definitions

- `Linked` — every element stands in at most one queue, and once
- `unlink`, `put` — an element taken out, and a queue replaced
-/

namespace Queues

variable {Q α : Type*} {q : Q → List α} {i j : Q} {x y : α} {l : List α}

/-- Every element stands in at most one queue, and once. -/
structure Linked (q : Q → List α) : Prop where
  nodup : ∀ i, (q i).Nodup
  single : ∀ {i j x}, x ∈ q i → x ∈ q j → i = j

section Unlinking

variable [DecidableEq α]

/-- `x` taken out of its queue. -/
def unlink (q : Q → List α) (x : α) : Q → List α := fun i => (q i).erase x

theorem mem_unlink (h : Linked q) : y ∈ unlink q x j ↔ y ≠ x ∧ y ∈ q j :=
  (h.nodup j).mem_erase_iff

theorem not_mem_unlink (h : Linked q) : x ∉ unlink q x j := by
  rw [mem_unlink h]
  exact fun hx => hx.1 rfl

theorem unlink_of_not_mem (h : x ∉ q j) : unlink q x j = q j := List.erase_of_not_mem h

theorem linked_unlink (h : Linked q) : Linked (unlink q x) := by
  constructor
  · intro i
    exact (h.nodup i).sublist List.erase_sublist
  · intro i j y hi hj
    exact h.single (List.mem_of_mem_erase hi) (List.mem_of_mem_erase hj)

end Unlinking

section Putting

variable [DecidableEq Q]

/-- Queue `i` replaced by `l`. -/
def put (q : Q → List α) (i : Q) (l : List α) : Q → List α := Function.update q i l

theorem put_self : put q i l i = l := Function.update_self ..

theorem put_of_ne (h : j ≠ i) : put q i l j = q j := Function.update_of_ne h ..

theorem mem_put (hl : l.Perm (x :: q i)) : y ∈ put q i l j ↔ y = x ∧ j = i ∨ y ∈ q j := by
  by_cases hj : j = i
  · subst hj
    rw [put_self, hl.mem_iff, List.mem_cons]
    simp
  · rw [put_of_ne hj]
    simp [hj]

/-- An element that is in no queue may be put into one. -/
theorem linked_put (h : Linked q) (hx : ∀ j, x ∉ q j) (hl : l.Perm (x :: q i)) :
    Linked (put q i l) := by
  constructor
  · intro j
    by_cases hj : j = i
    · subst hj
      rw [put_self, hl.nodup_iff, List.nodup_cons]
      exact ⟨hx j, h.nodup j⟩
    · rw [put_of_ne hj]
      exact h.nodup j
  · intro j k y hyj hyk
    rw [mem_put hl] at hyj hyk
    obtain ⟨rfl, rfl⟩ | hyj := hyj
    · obtain ⟨-, rfl⟩ | hyk := hyk
      · rfl
      · exact absurd hyk (hx k)
    · obtain ⟨rfl, -⟩ | hyk := hyk
      · exact absurd hyj (hx j)
      · exact h.single hyj hyk

end Putting

end Queues
