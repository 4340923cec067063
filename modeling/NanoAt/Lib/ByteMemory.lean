import Mathlib

/-!
# Byte-addressed memory

A memory gives a byte at every address. Words lie in it with their low byte first.

## Main definitions

- `load`, `store` — the value of some consecutive bytes
- `fill` — every byte of a region set to one value
- `copy` — a region copied to another, all bytes read before the first is written
- `SameOn` — two memories agree on a region
-/

namespace ByteMemory

/-- The byte at each address. -/
abbrev Memory := ℕ → UInt8

/-- The value of the `n` bytes from `a` on, low byte first. -/
def load (m : Memory) (a : ℕ) : ℕ → ℕ
  | 0 => 0
  | n + 1 => (m a).toNat + 256 * load m (a + 1) n

/-- The low `n` bytes of `v` stored from `a` on, low byte first. -/
def store (m : Memory) (a n v : ℕ) : Memory := fun i =>
  if a ≤ i ∧ i < a + n then UInt8.ofNat (v / 256 ^ (i - a)) else m i

/-- The `n` bytes from `a` on set to `b`. -/
def fill (m : Memory) (a n : ℕ) (b : UInt8) : Memory := fun i =>
  if a ≤ i ∧ i < a + n then b else m i

/-- The `n` bytes from `src` on copied to `dst`. -/
def copy (m : Memory) (dst src n : ℕ) : Memory := fun i =>
  if dst ≤ i ∧ i < dst + n then m (src + (i - dst)) else m i

/-- The memories agree on the `n` bytes from `a` on. -/
def SameOn (m m' : Memory) (a n : ℕ) : Prop := ∀ i, a ≤ i → i < a + n → m i = m' i

variable {m m' m'' : Memory} {a b n k v : ℕ}

section Regions

theorem store_of_outside {i : ℕ} (h : i < a ∨ a + n ≤ i) : store m a n v i = m i :=
  if_neg (by omega)

theorem fill_of_outside {i : ℕ} {x : UInt8} (h : i < a ∨ a + n ≤ i) : fill m a n x i = m i :=
  if_neg (by omega)

theorem copy_of_outside {i src : ℕ} (h : i < a ∨ a + n ≤ i) : copy m a src n i = m i :=
  if_neg (by omega)

theorem fill_of_inside {i : ℕ} {x : UInt8} (h : a ≤ i) (h' : i < a + n) :
    fill m a n x i = x :=
  if_pos ⟨h, h'⟩

theorem copy_of_inside {i src : ℕ} (h : a ≤ i) (h' : i < a + n) :
    copy m a src n i = m (src + (i - a)) :=
  if_pos ⟨h, h'⟩

theorem SameOn.refl : SameOn m m a n := fun _ _ _ => rfl

theorem SameOn.symm (h : SameOn m m' a n) : SameOn m' m a n :=
  fun i hi hn => (h i hi hn).symm

theorem SameOn.trans (h : SameOn m m' a n) (h' : SameOn m' m'' a n) : SameOn m m'' a n :=
  fun i hi hn => (h i hi hn).trans (h' i hi hn)

/-- Memories that agree on a region agree on its parts. -/
theorem SameOn.mono (h : SameOn m m' a n) (hb : a ≤ b) (hk : b + k ≤ a + n) :
    SameOn m m' b k :=
  fun i hi hn => h i (by omega) (by omega)

/-- A store keeps every region apart from the one it writes. -/
theorem sameOn_store (h : b + k ≤ a ∨ a + n ≤ b) : SameOn (store m a n v) m b k :=
  fun _ _ _ => store_of_outside (by omega)

end Regions

section Words

theorem load_lt (m : Memory) (a n : ℕ) : load m a n < 256 ^ n := by
  induction n generalizing a with
  | zero => simp [load]
  | succ n ih =>
    have hbyte : (m a).toNat < 256 := (m a).toNat_lt
    have hrest := ih (a + 1)
    simp only [load, pow_succ]
    omega

theorem load_congr (h : SameOn m m' a n) : load m a n = load m' a n := by
  induction n generalizing a with
  | zero => rfl
  | succ n ih =>
    simp only [load]
    rw [h a (by omega) (by omega), ih (h.mono (by omega) (by omega))]

/-- A load apart from the bytes a store writes does not see the store. -/
theorem load_store_of_disjoint (h : b + k ≤ a ∨ a + n ≤ b) :
    load (store m a n v) b k = load m b k :=
  load_congr (sameOn_store h)

/-- The last `k` bytes of a stored value. -/
theorem load_store_suffix (j : ℕ) :
    load (store m a (j + k) v) (a + j) k = v / 256 ^ j % 256 ^ k := by
  induction k generalizing j with
  | zero => simp [load, Nat.mod_one]
  | succ k ih =>
    have hbyte : (store m a (j + (k + 1)) v (a + j)).toNat = v / 256 ^ j % 256 := by
      rw [store, if_pos ⟨by omega, by omega⟩, Nat.add_sub_cancel_left, UInt8.toNat_ofNat']
    have hrest := ih (j + 1)
    rw [show j + 1 + k = j + (k + 1) by omega, show a + (j + 1) = a + j + 1 by omega,
      pow_succ, ← Nat.div_div_eq_div_mul] at hrest
    rw [load, hbyte, hrest, pow_succ', Nat.mod_mul]

/-- What is stored is loaded again, up to the width of the word. -/
theorem load_store_self : load (store m a n v) a n = v % 256 ^ n := by
  simpa using load_store_suffix (m := m) (a := a) (k := n) (v := v) 0

end Words

end ByteMemory
