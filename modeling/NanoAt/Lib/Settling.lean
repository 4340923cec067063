import NanoAt.Lib.GuardedRun

/-!
# Systems that settle

Before a system is set up its steps are often forced: every action either changes nothing or
takes the one next step. Such a system is followed by computing, until a final condition
that no step undoes.

## Main definitions

- `settles` — following the next steps meets only quiet states up to a final one
-/

namespace GuardedRun

variable {σ α : Type*} {step : α → σ → Option σ} {guard : History σ α → σ → α → Prop}
  {start : σ → Prop} {next : σ → Option σ} {quiet final : σ → Prop}
  [DecidablePred quiet] [DecidablePred final]

/-- Within `n` steps of `next` the system is final, and it is quiet until then. -/
def settles (next : σ → Option σ) (quiet final : σ → Prop) [DecidablePred quiet]
    [DecidablePred final] : ℕ → σ → Bool
  | 0, s => final s
  | n + 1, s => final s || (quiet s && (next s).any (settles next quiet final n))

theorem settles_or {n : ℕ} {s : σ} (h : settles next quiet final n s = true) :
    final s ∨ quiet s := by
  cases n with
  | zero => exact .inl (by simpa [settles] using h)
  | succ n =>
    simp only [settles, Bool.or_eq_true, Bool.and_eq_true, decide_eq_true_eq] at h
    exact h.imp_right (·.1)

/-- Where quiet states can only stutter or take the next step and final states stay final,
a system that settles from its start is final or quiet in every state of a run. -/
theorem Run.final_or_quiet (n : ℕ)
    (hfinal : ∀ s a s', final s → step a s = some s' → final s')
    (hquiet : ∀ s a s', quiet s → step a s = some s' → s' = s ∨ next s = some s')
    (hstart : ∀ s, start s → settles next quiet final n s = true)
    {h : History σ α} {s : σ} (hr : Run step guard start h s) : final s ∨ quiet s := by
  suffices hall : ∃ n, settles next quiet final n s = true from settles_or hall.choose_spec
  refine hr.stateInvariant (P := fun s => ∃ n, settles next quiet final n s = true) ?_ ?_
  · exact fun s hs => ⟨n, hstart s hs⟩
  · rintro s a s' ⟨n, hn⟩ hs
    rcases settles_or hn with hf | hq
    · have hf' := hfinal s a s' hf hs
      exact ⟨0, by simpa [settles] using hf'⟩
    · rcases hquiet s a s' hq hs with rfl | hnext
      · exact ⟨n, hn⟩
      · cases n with
        | zero =>
          have hf : final s := by simpa [settles] using hn
          exact ⟨0, by simpa [settles] using hfinal s a s' hf hs⟩
        | succ n =>
          by_cases hf : final s
          · exact ⟨0, by simpa [settles] using hfinal s a s' hf hs⟩
          · refine ⟨n, ?_⟩
            simpa [settles, hf, hnext, hq] using hn

end GuardedRun
