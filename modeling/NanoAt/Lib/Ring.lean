import NanoAt.Lib.CString

/-!
# Ring buffers

A list of bytes stored in a buffer from some index on, wrapping at the end of the
buffer, with the two moves of a queue: a byte is stored behind the list, a byte is
taken from its front.
-/

namespace Ring
open CString

variable {n : ℕ}

/-- Two positions less than `n` apart have one index only when they are equal. -/
theorem mod_eq_iff {a b : ℕ} (hab : a ≤ b) (hb : b < a + n) : b % n = a % n ↔ b = a := by
  constructor
  · intro h
    have hd : n ∣ b - a := (Nat.modEq_iff_dvd' hab).mp h.symm
    have := Nat.eq_zero_of_dvd_of_lt hd (by omega)
    omega
  · rintro rfl; rfl

/-- The buffer holds the bytes `r` from index `i` on. -/
def Holds (buf : Buffer n) (i : ℕ) (r : List UInt8) : Prop :=
  ∀ k, k < r.length → buf.read ((i + k) % n) = r.getD k 0

variable {buf : Buffer n} {i : ℕ} {r : List UInt8} {b : UInt8}

@[simp] theorem holds_nil : Holds buf i [] := by simp [Holds]

/-- Storing a byte behind less than `n` bytes overwrites none of them. -/
theorem Holds.push (h : Holds buf i r) (hr : r.length < n) (b : UInt8) :
    Holds (buf.write ((i + r.length) % n) b) i (r ++ [b]) := by
  intro k hk
  have hk : k < r.length + 1 := by simpa using hk
  rcases Nat.lt_succ_iff_lt_or_eq.mp hk with hlt | rfl
  · have hne : (i + r.length) % n ≠ (i + k) % n := by
      rw [Ne, mod_eq_iff (by omega) (by omega)]
      omega
    rw [Buffer.read_write_ne _ _ hne, h k hlt]
    simp [List.getElem?_append_left hlt]
  · rw [Buffer.read_write_self _ _ (Nat.mod_lt _ (by omega))]
    simp

theorem Holds.head (h : Holds buf i (b :: r)) (hi : i < n) : buf.read i = b := by
  simpa [Nat.mod_eq_of_lt hi] using h 0 (by simp)

theorem Holds.tail (h : Holds buf i (b :: r)) : Holds buf ((i + 1) % n) r := by
  intro k hk
  have hk := h (k + 1) (by simpa using hk)
  rw [Nat.mod_add_mod, show i + 1 + k = i + (k + 1) by omega, hk]
  simp

end Ring
