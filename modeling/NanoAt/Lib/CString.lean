import Mathlib

/-!
# Byte buffers and C strings

A string in memory ends at its first zero byte, which need not stand in the array in which
the string begins: `Ram` is the memory behind an array. Substring search is given as the loop
that compares one byte at a time, so that it can be interleaved with writers; `Scanned` is its
invariant and `infix_cstr_iff` its specification.

## Main definitions

- `Buffer` — a byte array of fixed size with checked writes
- `Ram` — what stands in the memory behind an array
- `cstr` — the C string at the front of a byte list
- `probe` — one comparison of the substring search
- `Scanned` — what the comparisons made so far have established
-/

namespace CString

/-- The bytes of a string literal. -/
def ascii (s : String) : List UInt8 := s.toList.map fun c => UInt8.ofNat c.toNat

/-- A byte array of `n` elements. -/
abbrev Buffer (n : ℕ) := Vector UInt8 n

namespace Buffer

variable {n : ℕ}

/-- The byte at an index `i` of the array; elsewhere nothing is read, and the value is zero. -/
def read (b : Buffer n) (i : ℕ) : UInt8 := b.toList.getD i 0

/-- Store a byte at index `i`; past the end the model stores nothing. -/
def write (b : Buffer n) (i : ℕ) (x : UInt8) : Buffer n := b.setIfInBounds i x

theorem toList_write (b : Buffer n) (i : ℕ) (x : UInt8) :
    (b.write i x).toList = b.toList.set i x := by
  simp [write, Vector.toList_setIfInBounds]

theorem read_write (b : Buffer n) (i k : ℕ) (x : UInt8) :
    (b.write i x).read k = if i = k ∧ k < n then x else b.read k := by
  simp only [read, toList_write, List.getD_eq_getElem?_getD, List.getElem?_set,
    Vector.length_toList]
  split_ifs <;> simp_all

@[simp] theorem read_write_self (b : Buffer n) {i : ℕ} (x : UInt8) (h : i < n) :
    (b.write i x).read i = x := by simp [read_write, h]

@[simp] theorem read_write_ne (b : Buffer n) {i k : ℕ} (x : UInt8) (h : i ≠ k) :
    (b.write i x).read k = b.read k := by simp [read_write, h]

/-- The bytes before index `m`. -/
def front (b : Buffer n) (m : ℕ) : List UInt8 := b.toList.take m

@[simp] theorem front_zero (b : Buffer n) : b.front 0 = [] := rfl

theorem length_front (b : Buffer n) {m : ℕ} (h : m ≤ n) : (b.front m).length = m := by
  simp [front, h]

/-- Writing right behind the first `m` bytes extends them. -/
theorem front_write_succ (b : Buffer n) {m : ℕ} (x : UInt8) (h : m < n) :
    (b.write m x).front (m + 1) = b.front m ++ [x] := by
  have hm : m < b.toList.length := by simpa using h
  rw [front, toList_write, List.take_add_one, List.take_set_of_le (le_refl m)]
  simp [front, h]

/-- Writing behind the first `m` bytes leaves them as they are. -/
theorem front_write_of_le (b : Buffer n) {m i : ℕ} (x : UInt8) (h : m ≤ i) :
    (b.write i x).front m = b.front m := by
  rw [front, toList_write, List.take_set_of_le h, front]

end Buffer

/-- The memory behind an array, up to any length. The variables that stand there are no part
of a model; some zero byte among them ends every string. -/
structure Ram where
  bytes : List UInt8
  zero : 0 ∈ bytes

/-- The memory from the first byte of an array on. -/
def Buffer.memory {n : ℕ} (b : Buffer n) (behind : Ram) : List UInt8 := b.toList ++ behind.bytes

theorem Buffer.getD_memory {n k : ℕ} (b : Buffer n) (behind : Ram) (h : k < n) :
    (b.memory behind).getD k 0 = b.read k := by
  rw [memory, read, List.getD_append _ _ _ _ (by simpa using h)]

/-- Every string ends in the memory. -/
theorem Buffer.exists_zero {n : ℕ} (b : Buffer n) (behind : Ram) :
    ∃ k < n + behind.bytes.length, (b.memory behind).getD k 0 = 0 := by
  obtain ⟨k, hk, hz⟩ := List.getElem_of_mem behind.zero
  refine ⟨n + k, by omega, ?_⟩
  rw [memory, List.getD_append_right _ _ _ _ (by simp), Vector.length_toList,
    Nat.add_sub_cancel_left, List.getD_eq_getElem _ _ hk, hz]

/-- The C string at the front of a byte list. -/
def cstr (l : List UInt8) : List UInt8 := l.takeWhile (· ≠ 0)

@[simp] theorem cstr_nil : cstr [] = [] := rfl

@[simp] theorem cstr_cons (x : UInt8) (l : List UInt8) :
    cstr (x :: l) = if x = 0 then [] else x :: cstr l := by
  by_cases hx : x = 0 <;> simp [cstr, hx]

/-- A zero-free list is the C string of itself and whatever stands behind it adds to it. -/
theorem cstr_append {l : List UInt8} (h : 0 ∉ l) (l' : List UInt8) :
    cstr (l ++ l') = l ++ cstr l' := by
  induction l with
  | nil => rfl
  | cons x l ih =>
    simp only [List.mem_cons, not_or] at h
    simp [Ne.symm h.1, ih h.2]

/-- What stands behind a zero byte adds nothing. -/
theorem cstr_append_of_mem {l : List UInt8} (h : 0 ∈ l) (l' : List UInt8) :
    cstr (l ++ l') = cstr l := by
  induction l with
  | nil => simp at h
  | cons x l ih =>
    by_cases hx : x = 0
    · simp [hx]
    · have hl : 0 ∈ l := by simpa [Ne.symm hx] using h
      simp [hx, ih hl]

/-- The memory from an array on is what stands in front of an index and what stands behind. -/
theorem Buffer.memory_eq {n m : ℕ} (b : Buffer n) (behind : Ram) (h : m ≤ n) :
    b.memory behind = b.front m ++ (b.memory behind).drop m := by
  have htake : (b.memory behind).take m = b.front m := by
    rw [memory, front, List.take_append_of_le_length (by simpa using h)]
  rw [← htake, List.take_append_drop]

/-- A zero-free list in front of an array is the beginning of the string there. -/
theorem Buffer.cstr_memory {n m : ℕ} {b : Buffer n} (behind : Ram) (h : m ≤ n)
    (hfront : 0 ∉ b.front m) :
    cstr (b.memory behind) = b.front m ++ cstr ((b.memory behind).drop m) := by
  rw [← cstr_append hfront, ← Buffer.memory_eq b behind h]

theorem prefix_cstr_iff {kw l : List UInt8} (hkw : 0 ∉ kw) :
    kw <+: cstr l ↔ ∀ t, t < kw.length → l.getD t 0 = kw.getD t 0 := by
  induction kw generalizing l with
  | nil => simp
  | cons k kw ih =>
    simp only [List.mem_cons, not_or] at hkw
    cases l with
    | nil =>
      simp only [cstr_nil, List.prefix_nil, reduceCtorEq, false_iff, not_forall]
      exact ⟨0, by simp, by simpa using hkw.1⟩
    | cons x l =>
      by_cases hx : x = 0
      · simp only [cstr_cons, hx, if_true, List.prefix_nil, reduceCtorEq, false_iff, not_forall]
        exact ⟨0, by simp, by simpa using hkw.1⟩
      · simp only [cstr_cons, hx, if_false, List.cons_prefix_cons, ih hkw.2, List.length_cons]
        constructor
        · rintro ⟨rfl, h⟩ t ht
          cases t with
          | zero => rfl
          | succ t => simpa using h t (by omega)
        · intro h
          refine ⟨by simpa using (h 0 (by omega)).symm, ?_⟩
          intro t ht
          simpa using h (t + 1) (by omega)

/-- A zero-free word occurs in the C string exactly when it stands at an index that
no zero byte precedes. -/
theorem infix_cstr_iff {kw l : List UInt8} (hkw : 0 ∉ kw) :
    kw <:+: cstr l ↔ ∃ i, (∀ k, k < i → l.getD k 0 ≠ 0) ∧
      ∀ t, t < kw.length → l.getD (i + t) 0 = kw.getD t 0 := by
  induction l with
  | nil =>
    simp only [cstr_nil, List.infix_nil, List.getD_nil]
    constructor
    · rintro rfl; exact ⟨0, by simp⟩
    · rintro ⟨i, _, h⟩
      by_contra hne
      have hpos : 0 < kw.length := List.length_pos_iff.mpr hne
      have h0 := h 0 hpos
      rw [List.getD_eq_getElem _ _ hpos] at h0
      exact hkw (h0 ▸ List.getElem_mem hpos)
  | cons x l ih =>
    have hpre := prefix_cstr_iff (l := x :: l) hkw
    have hsplit : kw <:+: cstr (x :: l) ↔
        kw <+: cstr (x :: l) ∨ (x ≠ 0 ∧ kw <:+: cstr l) := by
      by_cases hx : x = 0
      · simp [hx]
      · simp [hx, List.infix_cons_iff]
    rw [hsplit, hpre, ih]
    constructor
    · rintro (h | ⟨hx, i, hi, h⟩)
      · exact ⟨0, by simp, by simpa using h⟩
      · refine ⟨i + 1, ?_, fun t ht => by simpa [Nat.add_right_comm] using h t ht⟩
        intro k hk
        cases k with
        | zero => simpa using hx
        | succ k => simpa using hi k (by omega)
    · rintro ⟨i, hi, h⟩
      cases i with
      | zero => exact .inl (by simpa using h)
      | succ i =>
        refine .inr ⟨by simpa using hi 0 (by omega), i, ?_, ?_⟩
        · intro k hk
          simpa using hi (k + 1) (by omega)
        · intro t ht
          simpa [Nat.add_right_comm] using h t ht

section Search

/-- The outcome of one comparison of the substring search. -/
inductive Probe where
  | found
  | absent
  | next (i j : ℕ)
  deriving DecidableEq, Repr

/-- One comparison of the search for `kw` at index `i`, whose first `j` bytes agreed. -/
def probe (l kw : List UInt8) (i j : ℕ) : Probe :=
  if j = kw.length then .found
  else if l.getD (i + j) 0 = kw.getD j 0 then .next i (j + 1)
  else if l.getD i 0 = 0 then .absent
  else .next (i + 1) 0

theorem probe_next {l kw : List UInt8} {i j i' j' : ℕ}
    (hp : probe l kw i j = .next i' j') : i' = i ∧ j' = j + 1 ∨ i' = i + 1 ∧ j' = 0 := by
  unfold probe at hp
  split_ifs at hp <;> simp_all

/-- A comparison that does not end the search has stepped over no zero byte. -/
theorem probe_next_le {l kw : List UInt8} {i j i' j' k : ℕ} (hkw : 0 ∉ kw)
    (hj : j ≤ kw.length) (hp : probe l kw i j = .next i' j') (hk : i + j ≤ k)
    (hz : l.getD k 0 = 0) : j' ≤ kw.length ∧ i' + j' ≤ k := by
  unfold probe at hp
  split_ifs at hp with hend hread hzero
  · obtain ⟨rfl, rfl⟩ : i = i' ∧ j + 1 = j' := by simpa using hp
    have hlt : j < kw.length := by omega
    have hne : k ≠ i + j := by
      rintro rfl
      rw [hz, List.getD_eq_getElem _ _ hlt] at hread
      exact hkw (hread ▸ List.getElem_mem hlt)
    omega
  · obtain ⟨rfl, rfl⟩ : i + 1 = i' ∧ 0 = j' := by simpa using hp
    have hne : k ≠ i := by
      rintro rfl
      exact hzero hz
    omega

/-- What the comparisons made before index `i` and offset `j` have established. -/
structure Scanned (l kw : List UInt8) (i j : ℕ) : Prop where
  nonzero : ∀ k, k < i → l.getD k 0 ≠ 0
  absent : ∀ k, k < i → ∃ t, t < kw.length ∧ l.getD (k + t) 0 ≠ kw.getD t 0
  agree : ∀ t, t < j → l.getD (i + t) 0 = kw.getD t 0
  bound : j ≤ kw.length

variable {l kw : List UInt8} {i j : ℕ}

theorem scanned_start : Scanned l kw 0 0 :=
  ⟨by simp, by simp, by simp, Nat.zero_le _⟩

theorem Scanned.probe {i' j' : ℕ} (h : Scanned l kw i j)
    (hp : probe l kw i j = .next i' j') : Scanned l kw i' j' := by
  unfold CString.probe at hp
  split_ifs at hp with hj hread hzero
  · obtain ⟨rfl, rfl⟩ : i = i' ∧ j + 1 = j' := by simpa using hp
    refine ⟨h.nonzero, h.absent, ?_, by have := h.bound; omega⟩
    intro t ht
    rcases Nat.lt_succ_iff_lt_or_eq.mp ht with ht | rfl
    · exact h.agree t ht
    · exact hread
  · obtain ⟨rfl, rfl⟩ : i + 1 = i' ∧ 0 = j' := by simpa using hp
    have hlt : j < kw.length := by have := h.bound; omega
    refine ⟨?_, ?_, by simp, Nat.zero_le _⟩
    · intro k hk
      rcases Nat.lt_succ_iff_lt_or_eq.mp hk with hk | rfl
      · exact h.nonzero k hk
      · exact hzero
    · intro k hk
      rcases Nat.lt_succ_iff_lt_or_eq.mp hk with hk | rfl
      · exact h.absent k hk
      · exact ⟨j, hlt, hread⟩

/-- A search has not gone beyond the end of the string. -/
theorem Scanned.le {k : ℕ} (h : Scanned l kw i j) (hz : l.getD k 0 = 0) : i ≤ k :=
  le_of_not_gt fun hk => h.nonzero k hk hz

/-- A search that ends with a match has found the word in the C string. -/
theorem Scanned.found (hkw : 0 ∉ kw) (h : Scanned l kw i j)
    (hp : CString.probe l kw i j = .found) : kw <:+: cstr l := by
  have hj : j = kw.length := by
    unfold CString.probe at hp
    split_ifs at hp with hj
    exact hj
  exact (infix_cstr_iff hkw).mpr ⟨i, h.nonzero, fun t ht => h.agree t (hj ▸ ht)⟩

/-- A search that gives up has seen the whole C string. -/
theorem Scanned.not_infix (hkw : 0 ∉ kw) (h : Scanned l kw i j)
    (hp : CString.probe l kw i j = .absent) : ¬ kw <:+: cstr l := by
  unfold CString.probe at hp
  split_ifs at hp with hj hread hzero
  have hlt : j < kw.length := by have := h.bound; omega
  rw [infix_cstr_iff hkw]
  rintro ⟨k, hk, hocc⟩
  rcases Nat.lt_trichotomy k i with hki | rfl | hki
  · obtain ⟨t, ht, hne⟩ := h.absent k hki
    exact hne (hocc t ht)
  · exact hread (hocc j hlt)
  · exact hk i hki hzero

end Search

end CString
