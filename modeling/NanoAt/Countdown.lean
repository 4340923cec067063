import NanoAt.Requests

/-!
# The countdown of the timeout

Every arming stores 500 in `at_timeout_cnt`, whatever the command's `TimeOut`, and the
callbacks that come between this store and the end of `rt_timer_start` count as well. So
`AT_TIMEOUT_EVENT` is posted at the 500th callback after the store, and `withinTimeout` says
of which armings that is what the command list asks for.

## Main definitions

- `ticksSinceStore`, `ticksSinceStart` — the callbacks since the last arming
- `dueNext` — the next callback is the one at which the command list has the timeout
- `CountsDown` — since the last arming the event was posted as the command list has it
- `withinTimeout` — the condition on the arming
-/

namespace NanoAt
open CString GuardedRun Rx1Event

/-- The step ends `rt_timer_start(&timer2)`. -/
def Event.starts (x : Event) : Bool :=
  Event.shellAt (.atSend .insert) x || Event.processAt (.atSend .insert) x ||
    Event.processAt .insert x

/-- The step is a callback of `timer2`. -/
def Event.ticks (x : Event) : Bool := x.2 = .timer2

/-- `Rec_WaitAT` clears the count after a match. -/
def Event.disarms : Event → Bool := Event.processAt .disarm

/-- The callbacks since the count was stored last. -/
def ticksSinceStore (h : History Sys Action) : ℕ := (since Event.arms h).countP Event.ticks

/-- Since the count was stored last, `timer2` has been started. -/
def startedSince (h : History Sys Action) : Prop :=
  ∃ x ∈ since Event.arms h, Event.starts x = true

instance (h : History Sys Action) : Decidable (startedSince h) := by
  unfold startedSince; infer_instance

/-- The callbacks since the last arming was complete, when `rt_timer_start` ended first after
the store. -/
def ticksSinceStart : History Sys Action → ℕ
  | [] => 0
  | x :: h =>
    if Event.arms x then 0
    else ticksSinceStart h + if startedSince h ∧ Event.ticks x = true then 1 else 0

/-- Since the count was stored last, a packet has matched. -/
def matchedSince (h : History Sys Action) : Prop :=
  ∃ x ∈ since Event.arms h, Event.disarms x = true

/-- No packet has matched since the last arming, and the next callback is the one at which
the command list has the timeout. -/
def dueNext (h : History Sys Action) : Prop :=
  ∃ c ∈ armedFor h, ¬ matchedSince h ∧ startedSince h ∧
    ticksSinceStart h + 1 = (atCmds c).timeOut

instance (h : History Sys Action) : Decidable (matchedSince h) := by
  unfold matchedSince; infer_instance

instance (h : History Sys Action) : Decidable (dueNext h) := by
  unfold dueNext; infer_instance

/-- Since the last arming `AT_TIMEOUT_EVENT` was posted exactly at the callbacks at which the
timeout was due. -/
def CountsDown (h : History Sys Action) : Prop :=
  ∀ h₁ s₀ h₂, h = h₁ ++ (s₀, .timer2) :: h₂ → (∀ y ∈ h₁, Event.arms y = false) →
    (Event.expires (s₀, .timer2) = true ↔ dueNext h₂)

/-- The callbacks since the last arming are fewer than the timeout of the command list and,
from the store on, fewer than 500; or those between the store and the end of `rt_timer_start`
make up for the difference. -/
def withinTimeout (c : TeATCmdNum) (h : History Sys Action) : Prop :=
  (ticksSinceStart h < (atCmds c).timeOut ∧ ticksSinceStore h < 500) ∨
    ticksSinceStore h + (atCmds c).timeOut = ticksSinceStart h + 500

instance (c : TeATCmdNum) (h : History Sys Action) : Decidable (withinTimeout c h) := by
  unfold withinTimeout; infer_instance

section Invariants

variable {h : History Sys Action} {s s' : Sys} {a : Action}

@[simp] theorem ticksSinceStore_cons : ticksSinceStore ((s, a) :: h) =
    if Event.arms (s, a) then 0 else ticksSinceStore h + if a = .timer2 then 1 else 0 := by
  by_cases harm : Event.arms (s, a) = true <;>
    simp [ticksSinceStore, harm, Event.ticks, List.countP_cons]

@[simp] theorem startedSince_cons : startedSince ((s, a) :: h) ↔
    ¬ Event.arms (s, a) ∧ (Event.starts (s, a) ∨ startedSince h) := by
  by_cases harm : Event.arms (s, a) = true <;> simp [startedSince, harm]

@[simp] theorem ticksSinceStart_cons : ticksSinceStart ((s, a) :: h) =
    if Event.arms (s, a) then 0
    else ticksSinceStart h + if startedSince h ∧ a = .timer2 then 1 else 0 := by
  simp [ticksSinceStart, Event.ticks]

/-- Before `rt_timer_start` ends, no callback counts. -/
theorem ticksSinceStart_eq_zero (hn : ¬ startedSince h) : ticksSinceStart h = 0 := by
  induction h with
  | nil => rfl
  | cons x h ih =>
    obtain ⟨s, a⟩ := x
    rw [ticksSinceStart_cons]
    split_ifs with harm hstarted
    · rfl
    · simp [harm, hstarted.1] at hn
    · exact ih fun hs => hn (by simp [harm, hs])

/-- Each command has a timeout. -/
theorem timeOut_pos (c : TeATCmdNum) : 0 < (atCmds c).timeOut := by
  cases c <;> decide

/-- What a step adds to the countdown: a callback, or the start of a new one. -/
theorem countsDown_cons : CountsDown ((s, a) :: h) ↔
    (a = .timer2 → (Event.expires (s, a) = true ↔ dueNext h)) ∧
      (Event.arms (s, a) = false → CountsDown h) := by
  constructor
  · intro hc
    refine ⟨?_, ?_⟩
    · rintro rfl
      exact hc [] s h rfl (by simp)
    · intro harm h₁ s₀ h₂ hh hno
      exact hc ((s, a) :: h₁) s₀ h₂ (by rw [hh]; rfl) (by simpa [harm] using hno)
  · rintro ⟨hfirst, hrest⟩ h₁ s₀ h₂ hh hno
    cases h₁ with
    | nil =>
      obtain ⟨⟨rfl, rfl⟩, rfl⟩ : (s = s₀ ∧ a = .timer2) ∧ h = h₂ := by simpa using hh
      exact hfirst rfl
    | cons y h₁ =>
      obtain ⟨rfl, rfl⟩ : (s, a) = y ∧ h = h₁ ++ (s₀, .timer2) :: h₂ := by simpa using hh
      exact hrest (hno _ List.mem_cons_self) h₁ s₀ h₂ rfl
        fun y hy => hno y (List.mem_cons_of_mem _ hy)

@[simp] theorem matchedSince_cons : matchedSince ((s, a) :: h) ↔
    ¬ Event.arms (s, a) ∧ ((a = .run .atProcess ∧ s.atProcess = .disarm) ∨ matchedSince h) := by
  by_cases harm : Event.arms (s, a) = true <;>
    simp [matchedSince, harm, Event.disarms, Event.processAt]

/-- The count is what is left of the 500 callbacks since it was stored, and zero after a
match. -/
def Counted (h : History Sys Action) (s : Sys) : Prop :=
  s.atTimeoutCnt = if (armedFor h).isSome ∧ ¬ matchedSince h then 500 - ticksSinceStore h else 0

namespace Counted

theorem init {behind : Ram} : Counted [] (Sys.init behind) := rfl

/-- A step that neither stores the count nor is a callback. -/
theorem frame (hc : Counted h s) (harm : Event.arms (s, a) = false) (ha : a ≠ .timer2)
    (hdis : ¬ (a = .run .atProcess ∧ s.atProcess = .disarm))
    (hcnt : s'.atTimeoutCnt = s.atTimeoutCnt) : Counted ((s, a) :: h) s' := by
  rw [Counted, hcnt, hc]
  simp [harm, ha, hdis]

theorem tick (hc : Counted h s) (hcnt : s'.atTimeoutCnt = s.atTimeoutCnt - 1) :
    Counted ((s, .timer2) :: h) s' := by
  have harm : Event.arms (s, .timer2) = false := by
    simp [Event.arms, Event.shellAt, Event.processAt]
  rw [Counted, hcnt, hc]
  simp only [armedFor_cons, matchedSince_cons, ticksSinceStore_cons, harm]
  split <;> simp_all [Nat.sub_sub]

theorem trans (hc : Counted h s) (ht : Trans s a s') : Counted ((s, a) :: h) s' := by
  cases ht
  case tickIdle _ h0 => exact hc.tick (by simp [h0])
  case tick => exact hc.tick rfl
  case expireWake _ h1 _ | expirePost _ h1 _ => exact hc.tick (by simp [h1])
  case disarm hpc => simp [Counted, hpc, Event.arms, Event.shellAt, Event.processAt]
  case retryArm hpc | callArm hpc | resetArm hpc =>
    simp [Counted, hpc, Event.arms, Event.shellAt, Event.processAt]
  all_goals
    exact hc.frame (by simp [Event.arms, Event.shellAt, Event.processAt, *]) (by simp)
      (by simp [*]) rfl

/-- `AT_TIMEOUT_EVENT` is posted at the 500th callback after the store, unless a packet has
matched. -/
theorem expires_iff (hc : Counted h s) : Event.expires (s, .timer2) = true ↔
    (armedFor h).isSome ∧ ¬ matchedSince h ∧ ticksSinceStore h + 1 = 500 := by
  have hexp : Event.expires (s, .timer2) = true ↔ s.atTimeoutCnt = 1 := by simp [Event.expires]
  rw [hexp, hc]
  split_ifs with harmed
  · simp only [harmed, not_false_eq_true, true_and]
    omega
  · simp only [false_iff]
    tauto

/-- While an arming lives, its countdown has gone as the command list asks exactly if its
callbacks are within the timeout. -/
theorem countsDown_step {c : TeATCmdNum} (hc : Counted h s) (hfor : c ∈ armedFor ((s, a) :: h))
    (hlive : ¬ matchedSince ((s, a) :: h))
    (ih : c ∈ armedFor h → ¬ matchedSince h → (CountsDown h ↔ withinTimeout c h)) :
    CountsDown ((s, a) :: h) ↔ withinTimeout c ((s, a) :: h) := by
  have hpos := timeOut_pos c
  cases harm : Event.arms (s, a) with
  | true =>
    have ha : a ≠ .timer2 := by
      rintro rfl
      simp [Event.arms, Event.shellAt, Event.processAt] at harm
    simp [countsDown_cons, withinTimeout, harm, ha, hpos]
  | false =>
    replace hfor : armedFor h = some c := by simpa [harm] using hfor
    replace hlive : ¬ matchedSince h := fun hm => hlive (by simp [harm, hm])
    replace ih := ih hfor hlive
    by_cases ha : a = .timer2
    · subst ha
      have hexp := hc.expires_iff
      simp only [hfor, hlive, Option.isSome_some, not_false_eq_true, true_and] at hexp
      simp only [countsDown_cons, harm, forall_const, ih, hexp, dueNext, hfor, hlive,
        Option.mem_def, Option.some.injEq, exists_eq_left', not_false_eq_true, true_and]
      simp only [withinTimeout, ticksSinceStart_cons, ticksSinceStore_cons, harm, and_true,
        Bool.false_eq_true, if_false, if_true]
      -- at this callback the two counts are due together or neither is
      by_cases hstarted : startedSince h
      · simp only [hstarted, if_true, true_and]
        omega
      · have hzero := ticksSinceStart_eq_zero hstarted
        simp only [hstarted, if_false, false_and, hzero, iff_false]
        omega
    · simp [countsDown_cons, withinTimeout, harm, ha, ih]

end Counted

theorem Run.counted {guard : History Sys Action → Sys → Action → Prop} (hr : SysRun guard h s) :
    Counted h s :=
  hr.invariant (P := Counted) (fun _ => .init) fun _ _ _ _ _ hc _ hm => hc.trans hm.trans

theorem Run.countsDown_iff {guard : History Sys Action → Sys → Action → Prop} {c : TeATCmdNum}
    (hr : SysRun guard h s) (hfor : c ∈ armedFor h) (hlive : ¬ matchedSince h) :
    CountsDown h ↔ withinTimeout c h := by
  induction hr with
  | start => simp [armedFor] at hfor
  | step hr _ _ ih => exact (Run.counted hr).countsDown_step hfor hlive ih

/-- The callback that posts `AT_TIMEOUT_EVENT` stops `timer2`. -/
theorem timer2_of_expires (hexp : Event.expires (s, .timer2) = true)
    (hs : step .timer2 s = some s') : s'.timer2 = false := by
  have h1 : s.atTimeoutCnt = 1 := by simpa [Event.expires] using hexp
  simp only [step] at hs
  split at hs
  · obtain rfl : s.timeout2 = s' := by simpa using hs
    simp [Sys.timeout2, Sys.rtTimerStop, h1]
  · simp at hs

end Invariants

end NanoAt
