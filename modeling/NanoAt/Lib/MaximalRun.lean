import Mathlib

/-!
# Maximal runs and ranks

An infinite run of a relation may rest only where no step changes the state. Under an
invariant indexed by a rank that every state-changing step lowers, such a run reaches
every goal short of which some step is possible.

## Main definitions

- `MaximalRun` — infinite runs that rest only where no step changes the state
- `MaximalRun.reaches` — the ranking rule
-/

namespace MaximalRuns

variable {σ ρ : Type*}

/-- Infinite runs of a relation that rest only where no step changes the state. -/
def MaximalRun (R : σ → σ → Prop) (f : ℕ → σ) : Prop :=
  ∀ n, (R (f n) (f (n + 1)) ∧ f (n + 1) ≠ f n) ∨
    (f (n + 1) = f n ∧ ∀ t, R (f n) t → t = f n)

variable {R : σ → σ → Prop} {Goal : σ → Prop} {f : ℕ → σ}

/-- A maximal run stays in a state that no step changes. -/
theorem MaximalRun.stays (hf : MaximalRun R f) {n : ℕ} (hrest : ∀ t, R (f n) t → t = f n)
    {m : ℕ} (hm : n ≤ m) : f m = f n := by
  induction m, hm using Nat.le_induction with
  | base => rfl
  | succ m _ ih =>
    rcases hf m with ⟨hr, hne⟩ | ⟨he, _⟩
    · rw [ih] at hr hne
      exact absurd (hrest _ hr) hne
    · exact he.trans ih

section Ranking

variable [Preorder ρ] {Inv : ρ → σ → Prop}

/-- Every state of a maximal run satisfies the invariant at some rank. -/
theorem MaximalRun.invariant (hf : MaximalRun R f) {r : ρ} (h0 : Inv r (f 0))
    (hstep : ∀ r s t, Inv r s → R s t → t ≠ s → ∃ r' < r, Inv r' t) (n : ℕ) :
    ∃ r, Inv r (f n) := by
  induction n with
  | zero => exact ⟨r, h0⟩
  | succ n ih =>
    obtain ⟨r, hr⟩ := ih
    rcases hf n with ⟨hs, hne⟩ | ⟨he, _⟩
    · obtain ⟨r', _, hr'⟩ := hstep _ _ _ hr hs hne
      exact ⟨r', hr'⟩
    · exact ⟨r, he ▸ hr⟩

/-- Ranking rule: every state-changing step lowers the rank, and a state short of the
goal has one; then every maximal run meets the goal. -/
theorem MaximalRun.reaches [WellFoundedLT ρ] (hf : MaximalRun R f) {r : ρ} (h0 : Inv r (f 0))
    (hstep : ∀ r s t, Inv r s → R s t → t ≠ s → ∃ r' < r, Inv r' t)
    (hprogress : ∀ r s, Inv r s → ¬ Goal s → ∃ t, R s t ∧ t ≠ s) :
    ∃ n, Goal (f n) := by
  have hmeets : ∀ r n, Inv r (f n) → ∃ m, Goal (f m) := by
    intro r
    induction r using WellFoundedLT.induction with
    | ind r ih =>
      intro n hr
      by_cases hg : Goal (f n)
      · exact ⟨n, hg⟩
      · rcases hf n with ⟨hs, hne⟩ | ⟨_, hrest⟩
        · obtain ⟨r', hlt, hr'⟩ := hstep _ _ _ hr hs hne
          exact ih r' hlt (n + 1) hr'
        · obtain ⟨t, ht, hne⟩ := hprogress _ _ hr hg
          exact absurd (hrest t ht) hne
  exact hmeets r 0 h0

end Ranking

/-- From every state there is a maximal run. -/
theorem exists_maximalRun (R : σ → σ → Prop) (s : σ) : ∃ f, f 0 = s ∧ MaximalRun R f := by
  classical
  let next (s : σ) : σ := if h : ∃ t, R s t ∧ t ≠ s then h.choose else s
  refine ⟨fun n => next^[n] s, rfl, ?_⟩
  intro n
  simp only [Function.iterate_succ_apply']
  generalize next^[n] s = u
  by_cases h : ∃ t, R u t ∧ t ≠ u
  · have hnext : next u = h.choose := dif_pos h
    rw [hnext]
    exact .inl h.choose_spec
  · have hnext : next u = u := dif_neg h
    refine .inr ⟨hnext, ?_⟩
    intro t ht
    by_contra hne
    exact h ⟨t, ht, hne⟩

end MaximalRuns
