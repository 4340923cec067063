import Mathlib

/-!
# Guarded runs with history

A system is a partial step function `step : α → σ → Option σ` over actions `α`.
A run records every state it left together with the action taken there, newest
first, so that a temporal statement is a statement about a list. The guard sees
the history, the state and the action: a property of every run all of whose steps
meet a condition is a property of the runs under that guard.

## Main definitions

- `History` — the states left and the actions taken, newest first
- `Run` — the runs of a step function under a guard
- `exec` — the runs of a list of actions, computed
- `since` — the part of a history after the last step of a kind
-/

namespace GuardedRun

variable {σ α : Type*}

/-- The states a run has left and the actions it took there, newest first. -/
abbrev History (σ α : Type*) := List (σ × α)

/-- Runs from `start` whose steps all meet `guard`. -/
inductive Run (step : α → σ → Option σ) (guard : History σ α → σ → α → Prop)
    (start : σ → Prop) : History σ α → σ → Prop
  | start {s : σ} : start s → Run step guard start [] s
  | step {h : History σ α} {s s' : σ} {a : α} :
      Run step guard start h s → guard h s a → step a s = some s' →
      Run step guard start ((s, a) :: h) s'

/-- The guard that admits every step. -/
def free : History σ α → σ → α → Prop := fun _ _ _ => True

instance (h : History σ α) (s : σ) (a : α) : Decidable (free h s a) :=
  inferInstanceAs (Decidable True)

section Invariants

variable {step : α → σ → Option σ} {guard : History σ α → σ → α → Prop}
  {start : σ → Prop}

/-- Invariant rule: what holds at the start and is kept by each admitted step of a
run holds along the run. -/
theorem Run.invariant {P : History σ α → σ → Prop}
    (hstart : ∀ s, start s → P [] s)
    (hstep : ∀ h s a s', Run step guard start h s → P h s → guard h s a →
      step a s = some s' → P ((s, a) :: h) s')
    {h : History σ α} {s : σ} (hr : Run step guard start h s) : P h s := by
  induction hr with
  | start hs => exact hstart _ hs
  | step hr hg hs ih => exact hstep _ _ _ _ hr ih hg hs

/-- Invariant rule for properties of the present state. -/
theorem Run.stateInvariant {P : σ → Prop} (hstart : ∀ s, start s → P s)
    (hstep : ∀ s a s', P s → step a s = some s' → P s')
    {h : History σ α} {s : σ} (hr : Run step guard start h s) : P s :=
  hr.invariant (P := fun _ s => P s) hstart (fun _ _ _ _ _ hp _ hs => hstep _ _ _ hp hs)

/-- A run is a run up to each of its steps. -/
theorem Run.prior {h₁ h₂ : History σ α} {s₀ s : σ} {a : α}
    (hr : Run step guard start (h₁ ++ (s₀, a) :: h₂) s) :
    Run step guard start h₂ s₀ ∧ guard h₂ s₀ a ∧ ∃ s₁, step a s₀ = some s₁ := by
  induction h₁ generalizing s with
  | nil =>
    cases hr with
    | step hr hg hs => exact ⟨hr, hg, _, hs⟩
  | cons x h₁ ih =>
    cases hr with
    | step hr _ _ => exact ih hr

end Invariants

section Execution

variable (step : α → σ → Option σ) (guard : History σ α → σ → α → Prop)
  [∀ h s a, Decidable (guard h s a)]

/-- Perform the actions in turn, or fail at the first one that the guard refuses or
that is not enabled. -/
def exec : List α → History σ α → σ → Option (History σ α × σ)
  | [], h, s => some (h, s)
  | a :: as, h, s =>
    if guard h s a then
      match step a s with
      | some s' => exec as ((s, a) :: h) s'
      | none => none
    else none

variable {step guard} {start : σ → Prop}

theorem Run.exec {as : List α} {h : History σ α} {s : σ} (hr : Run step guard start h s)
    {r : History σ α × σ} (he : exec step guard as h s = some r) :
    Run step guard start r.1 r.2 := by
  induction as generalizing h s with
  | nil => simp only [GuardedRun.exec, Option.some.injEq] at he; exact he ▸ hr
  | cons a as ih =>
    simp only [GuardedRun.exec] at he
    split at he
    · next hg =>
      split at he
      · next s' hs => exact ih (.step hr hg hs) he
      · simp at he
    · simp at he

/-- A computed run whose outcome passes a test is a run whose outcome passes the test. -/
theorem exists_run_of_exec {s₀ : σ} (h₀ : start s₀) (as : List α)
    (test : History σ α → σ → Bool)
    (he : (exec step guard as [] s₀).any (fun r => test r.1 r.2) = true) :
    ∃ h s, Run step guard start h s ∧ test h s = true := by
  cases hr : exec step guard as [] s₀ with
  | none => simp [hr] at he
  | some r => exact ⟨r.1, r.2, (Run.start h₀).exec hr, by simpa [hr] using he⟩

end Execution

section Since

variable {p : σ × α → Bool} {x : σ × α} {h : History σ α}

/-- The steps after the last one of kind `p`. -/
def since (p : σ × α → Bool) (h : History σ α) : History σ α := h.takeWhile (fun x => !p x)

@[simp] theorem since_nil : since p [] = [] := rfl

@[simp] theorem since_cons : since p (x :: h) = if p x then [] else x :: since p h := by
  cases hp : p x <;> simp [since, hp]

theorem since_append_cons {l : History σ α} (hl : ∀ y ∈ l, p y = false) (hx : p x = true) :
    since p (l ++ x :: h) = l := by
  induction l with
  | nil => simp [hx]
  | cons y l ih =>
    have hy := hl y List.mem_cons_self
    simp [hy, ih fun z hz => hl z (List.mem_cons_of_mem _ hz)]

end Since

end GuardedRun
