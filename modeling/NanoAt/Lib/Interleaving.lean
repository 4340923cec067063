import Mathlib

/-!
# Interleavings

Several parties append to one list; each has its own stream, and the list keeps the order
of every stream.

## Main definitions

- `Interleaving` — a list is an interleaving of a family of streams
-/

namespace Interleave

variable {ι α : Type*} [DecidableEq ι]

/-- The list is made of the streams, each whole and in its order. -/
inductive Interleaving : (ι → List α) → List α → Prop
  | nil : Interleaving (fun _ => []) []
  | snoc {f : ι → List α} {l : List α} (w : ι) (x : α) : Interleaving f l →
      Interleaving (Function.update f w (f w ++ [x])) (l ++ [x])

namespace Interleaving

variable {f : ι → List α} {l : List α}

/-- A party appends several elements. -/
theorem append (h : Interleaving f l) (w : ι) (xs : List α) :
    Interleaving (Function.update f w (f w ++ xs)) (l ++ xs) := by
  induction xs using List.reverseRecOn with
  | nil => simpa using h
  | append_singleton xs x ih =>
    have hx := ih.snoc w x
    simpa using hx

/-- An interleaving has the elements of its streams and no others. -/
theorem mem_iff (h : Interleaving f l) {x : α} : x ∈ l ↔ ∃ w, x ∈ f w := by
  induction h with
  | nil => simp
  | @snoc f l w y _ ih =>
    simp only [List.mem_append, List.mem_singleton, ih]
    constructor
    · rintro (⟨v, hv⟩ | rfl)
      · by_cases hvw : v = w
        · subst hvw
          exact ⟨v, by simp [hv]⟩
        · exact ⟨v, by simp [hvw, hv]⟩
      · exact ⟨w, by simp⟩
    · rintro ⟨v, hv⟩
      by_cases hvw : v = w
      · subst hvw
        have hv : x ∈ f v ∨ x = y := by simpa using hv
        exact hv.imp_left fun hv => ⟨v, hv⟩
      · rw [Function.update_of_ne hvw] at hv
        exact .inl ⟨v, hv⟩

end Interleaving

end Interleave
