import Mathlib

/-!
# Serial time

Points in time counted modulo 2^32. How far one point is ahead of another is a signed
number; as long as all points of interest lie within half the circle of the present, it
orders them as the unbounded count would.

## Main definitions

- `ahead` — the signed distance from one point to another
-/

namespace SerialTime

/-- How far `a` is ahead of `b`, negative when it is behind. -/
def ahead (a b : UInt32) : ℤ :=
  if (a - b).toNat < 2 ^ 31 then (a - b).toNat else (a - b).toNat - 2 ^ 32

variable {a b c : UInt32} {n : ℕ}

theorem toNat_sub_eq (a b : UInt32) :
    (a - b).toNat = (2 ^ 32 - b.toNat + a.toNat) % 2 ^ 32 :=
  UInt32.toNat_sub a b

theorem ahead_bounds (a b : UInt32) : -2 ^ 31 ≤ ahead a b ∧ ahead a b < 2 ^ 31 := by
  have hlt := (a - b).toNat_lt
  unfold ahead
  split <;> omega

@[simp] theorem ahead_self (a : UInt32) : ahead a a = 0 := by simp [ahead]

/-- The distance is the difference of the counts, up to whole turns. -/
theorem exists_ahead_eq (a b : UInt32) :
    ∃ k : ℤ, ahead a b = (a.toNat : ℤ) - b.toNat + 2 ^ 32 * k := by
  have ha := a.toNat_lt
  have hb := b.toNat_lt
  have hsub := toNat_sub_eq a b
  unfold ahead
  split
  · by_cases hle : b.toNat ≤ a.toNat
    · exact ⟨0, by omega⟩
    · exact ⟨1, by omega⟩
  · by_cases hle : b.toNat ≤ a.toNat
    · exact ⟨-1, by omega⟩
    · exact ⟨0, by omega⟩

/-- A difference of distances is a distance if it is small enough. -/
theorem ahead_eq_sub (hlo : -2 ^ 31 ≤ ahead a c - ahead b c) (hhi : ahead a c - ahead b c < 2 ^ 31) :
    ahead a b = ahead a c - ahead b c := by
  obtain ⟨k, hk⟩ := exists_ahead_eq a b
  obtain ⟨k₁, hk₁⟩ := exists_ahead_eq a c
  obtain ⟨k₂, hk₂⟩ := exists_ahead_eq b c
  have hab := ahead_bounds a b
  omega

theorem ahead_swap (h : -2 ^ 31 < ahead a b) : ahead b a = - ahead a b := by
  obtain ⟨k, hk⟩ := exists_ahead_eq a b
  obtain ⟨k₁, hk₁⟩ := exists_ahead_eq b a
  have hab := ahead_bounds a b
  have hba := ahead_bounds b a
  omega

/-- One step on the present brings every point one step closer. -/
theorem ahead_succ (h : -2 ^ 31 < ahead a b) : ahead a (b + 1) = ahead a b - 1 := by
  obtain ⟨k, hk⟩ := exists_ahead_eq a (b + 1)
  obtain ⟨k₁, hk₁⟩ := exists_ahead_eq a b
  have hab := ahead_bounds a b
  have hab' := ahead_bounds a (b + 1)
  have hsucc : (b + 1).toNat = (b.toNat + 1) % 2 ^ 32 := by
    rw [UInt32.toNat_add]
    rfl
  omega

/-- A point set `n` steps ahead is `n` steps ahead. -/
theorem ahead_add (hn : n < 2 ^ 31) (hc : c.toNat = n) : ahead (b + c) b = n := by
  have hsub : b + c - b = c := by
    rw [UInt32.add_comm]
    exact UInt32.add_sub_cancel c b
  rw [ahead, hsub, hc, if_pos hn]

/-- An unsigned difference below a bound up to half the circle is a distance from zero up to
that bound. -/
theorem toNat_sub_lt_iff (hn : n ≤ 2 ^ 31) :
    (a - b).toNat < n ↔ 0 ≤ ahead a b ∧ ahead a b < n := by
  have hlt := (a - b).toNat_lt
  unfold ahead
  split <;> omega

theorem sub_eq_zero_iff : (a - b).toNat = 0 ↔ ahead a b = 0 := by
  have hlt := (a - b).toNat_lt
  unfold ahead
  split <;> omega

end SerialTime
