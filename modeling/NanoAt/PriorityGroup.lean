import NanoAt.Scheduler

/-!
# The lowest bit of the priority group

`__rt_ffs` goes through a word byte by byte and looks up the lowest bit of the first byte
that is not zero.

## Main results

- `rtFfs_spec` — `__rt_ffs` finds the lowest bit
-/

namespace NanoAt

/-- The table has the lowest bit of every byte. -/
theorem lowestBitBitmap_spec (b : ℕ) (hb : b < 256) (hpos : b ≠ 0) :
    b.testBit (lowestBitBitmap.getD b 0) = true ∧ lowestBitBitmap.getD b 0 < 8 ∧
      ∀ j < lowestBitBitmap.getD b 0, b.testBit j = false := by
  have hall : ∀ b : Fin 256, b.val ≠ 0 →
      b.val.testBit (lowestBitBitmap.getD b 0) = true ∧ lowestBitBitmap.getD b 0 < 8 ∧
        ∀ j : Fin 8, j.val < lowestBitBitmap.getD b 0 → b.val.testBit j = false := by
    decide +kernel
  obtain ⟨hbit, hlt, hlow⟩ := hall ⟨b, hb⟩ hpos
  exact ⟨hbit, hlt, fun j hj => hlow ⟨j, by simp only at hlt; omega⟩ hj⟩

/-- A byte of a word, cut out. -/
theorem testBit_byte {v : BitVec 32} {k j : ℕ} (hk : k + 8 ≤ 32) :
    ((v &&& (0xff#32 <<< k)) >>> k).toNat.testBit j = (decide (j < 8) && v.getLsbD (k + j)) := by
  rw [BitVec.testBit_toNat, BitVec.getLsbD_ushiftRight, BitVec.getLsbD_and,
    BitVec.getLsbD_shiftLeft]
  by_cases hj : j < 8
  · have hff : (0xff#32).getLsbD j = true := by
      have hall : ∀ i : Fin 8, (0xff#32).getLsbD i = true := by decide
      exact hall ⟨j, hj⟩
    have hin : k + j < 32 := by omega
    simp [hj, hff, hin]
  · have hff : (0xff#32).getLsbD j = false := by
      have hlt : (0xff#32).toNat < 2 ^ j := by
        have hle : 2 ^ 8 ≤ 2 ^ j := Nat.pow_le_pow_right (by norm_num) (by omega)
        exact lt_of_lt_of_le (by decide) hle
      rw [← BitVec.testBit_toNat]
      exact Nat.testBit_lt_two_pow hlt
    simp [hj, hff]

/-- One byte of `__rt_ffs`. -/
theorem ffs_byte {v : BitVec 32} {k : ℕ} (hk : k + 8 ≤ 32)
    (hlow : ∀ j < k, v.getLsbD j = false) (hne : v &&& (0xff#32 <<< k) ≠ 0) :
    let p := lowestBitBitmap.getD ((v &&& (0xff#32 <<< k)) >>> k).toNat 0 + k
    v.getLsbD p = true ∧ p < 32 ∧ ∀ j < p, v.getLsbD j = false := by
  intro p
  have hb : ((v &&& (0xff#32 <<< k)) >>> k).toNat < 256 := by
    refine Nat.lt_pow_two_of_testBit (n := 8) _ fun i hi => ?_
    rw [testBit_byte hk]
    simp [Nat.not_lt.mpr hi]
  have hpos : ((v &&& (0xff#32 <<< k)) >>> k).toNat ≠ 0 := by
    intro hzero
    apply hne
    ext i hi
    rw [← BitVec.getLsbD_eq_getElem, ← BitVec.getLsbD_eq_getElem]
    have hbit := fun j => testBit_byte (v := v) (j := j) hk
    simp only [hzero, Nat.zero_testBit] at hbit
    by_cases hki : k ≤ i
    · by_cases hi8 : i < k + 8
      · have hj := hbit (i - k)
        rw [Nat.add_sub_cancel' hki] at hj
        have hlt : i - k < 8 := by omega
        simp only [hlt, decide_true, Bool.true_and] at hj
        simp [BitVec.getLsbD_and, ← hj]
      · have hff : (0xff#32 <<< k).getLsbD i = false := by
          have hout := testBit_byte (v := 0xff#32 <<< k) (k := k) (j := i - k) hk
          rw [BitVec.and_self, BitVec.testBit_toNat, BitVec.getLsbD_ushiftRight,
            Nat.add_sub_cancel' hki] at hout
          rw [hout]
          have hge : ¬ i - k < 8 := by omega
          simp [hge]
        simp [BitVec.getLsbD_and, hff]
    · have hout := hlow i (by omega)
      simp [BitVec.getLsbD_and, hout]
  obtain ⟨hbit, hlt, hrest⟩ := lowestBitBitmap_spec _ hb hpos
  rw [testBit_byte hk] at hbit
  simp only [hlt, decide_true, Bool.true_and] at hbit
  rw [Nat.add_comm] at hbit
  refine ⟨hbit, by omega, fun j hj => ?_⟩
  by_cases hjk : j < k
  · exact hlow j hjk
  · have hj' := hrest (j - k) (by omega)
    have hlt' : j - k < 8 := by omega
    rw [testBit_byte hk, Nat.add_sub_cancel' (by omega)] at hj'
    simpa [hlt'] using hj'

/-- Bits of a byte that is zero. -/
theorem low_of_byte_eq_zero {v : BitVec 32} {k : ℕ} (hk : k + 8 ≤ 32)
    (hlow : ∀ j < k, v.getLsbD j = false) (hzero : v &&& (0xff#32 <<< k) = 0) :
    ∀ j < k + 8, v.getLsbD j = false := by
  intro j hj
  by_cases hjk : j < k
  · exact hlow j hjk
  · have hbit := testBit_byte (v := v) (j := j - k) hk
    have hlt : j - k < 8 := by omega
    rw [hzero, Nat.add_sub_cancel' (by omega)] at hbit
    simpa [hlt] using hbit.symm

/-- `__rt_ffs` finds the lowest bit. -/
theorem rtFfs_spec {v : BitVec 32} (hv : v ≠ 0) :
    ∃ p < 32, rtFfs v = p + 1 ∧ v.getLsbD p = true ∧ ∀ j < p, v.getLsbD j = false := by
  have h0 : (0xff : BitVec 32) = 0xff#32 <<< 0 := by decide
  have h8 : (0xff00 : BitVec 32) = 0xff#32 <<< 8 := by decide
  have h16 : (0xff0000 : BitVec 32) = 0xff#32 <<< 16 := by decide
  have h24 : (0xff000000 : BitVec 32) = 0xff#32 <<< 24 := by decide
  rw [rtFfs, if_neg hv]
  by_cases hb0 : v &&& 0xff#32 <<< 0 = 0
  · have hlow8 := low_of_byte_eq_zero (by norm_num) (by simp) hb0
    rw [if_neg (by rw [h0]; exact not_not.mpr hb0)]
    by_cases hb8 : v &&& 0xff#32 <<< 8 = 0
    · have hlow16 := low_of_byte_eq_zero (by norm_num) hlow8 hb8
      rw [if_neg (by rw [h8]; exact not_not.mpr hb8)]
      by_cases hb16 : v &&& 0xff#32 <<< 16 = 0
      · have hlow24 := low_of_byte_eq_zero (by norm_num) hlow16 hb16
        have hb24 : v &&& 0xff#32 <<< 24 ≠ 0 := by
          intro hzero
          apply hv
          have hall := low_of_byte_eq_zero (by norm_num) hlow24 hzero
          ext i hi
          rw [← BitVec.getLsbD_eq_getElem, ← BitVec.getLsbD_eq_getElem, hall i hi]
          simp
        obtain ⟨hbit, hlt, hrest⟩ := ffs_byte (by norm_num) hlow24 hb24
        rw [if_neg (by rw [h16]; exact not_not.mpr hb16), h24]
        exact ⟨_, hlt, rfl, hbit, hrest⟩
      · obtain ⟨hbit, hlt, hrest⟩ := ffs_byte (by norm_num) hlow16 hb16
        rw [if_pos (by rw [h16]; exact hb16), h16]
        exact ⟨_, hlt, rfl, hbit, hrest⟩
    · obtain ⟨hbit, hlt, hrest⟩ := ffs_byte (by norm_num) hlow8 hb8
      rw [if_pos (by rw [h8]; exact hb8), h8]
      exact ⟨_, hlt, rfl, hbit, hrest⟩
  · obtain ⟨hbit, hlt, hrest⟩ := ffs_byte (by norm_num) (by simp) hb0
    rw [if_pos (by rw [h0]; exact hb0), h0]
    refine ⟨_, hlt, ?_, hbit, hrest⟩
    simp

end NanoAt
