import NanoAt.TimerSchedule

/-!
# The flag of a timer

`rt_timer_stop` trusts `RT_TIMER_FLAG_ACTIVATED`. The flag tells whether a timer is listed
as long as no timeout function starts the one-shot timer it is called for: `rt_timer_check`
takes the flag from such a timer while it is listed.

## Main results

- `TimerSystem.flagged_run` — the flags tell which timers are listed
- `TimerSystem.stopped_not_fired` — a stopped timer is not called until it is started
-/

namespace NanoAt

open SerialTime DeadlineList GuardedRun

namespace Timers

variable {T : Type} [DecidableEq T] {s s' s₁ s₂ : Timers T} {t u : T} {lo : ℤ}
  {c : TimerCall T} {cs cs' : List (TimerCall T)} {script : List (List (TimerCall T))}
  {fired : List T}

section Flags

/-- The flag `RT_TIMER_FLAG_ACTIVATED` tells whether `u` is listed. -/
def Flagged (s : Timers T) (u : T) : Prop := (s.timer u).activated = true ↔ u ∈ s.timerList

omit [DecidableEq T] in
theorem Untouched.flagged (h : Untouched s s' u) (hf : s.Flagged u) : s'.Flagged u := by
  rw [Flagged, h.record, h.listed]
  exact hf

theorem Started.flagged (h : Started s s' t) (ha : s.Armed lo) (hlo : -1 ≤ lo) : s'.Flagged t := by
  rw [Flagged, h.self, h.mem_iff ha hlo]
  simp

theorem flagged_call (ha : s.Armed lo) (hlo : -1 ≤ lo) (hf : s.Flagged u)
    (hs : s.call c = some s') : s'.Flagged u := by
  by_cases hu : c.timer = u
  · subst hu
    cases c with
    | start t => exact (started_of_start hs).flagged ha hlo
    | stop t =>
      rw [Timers.call, Option.some.injEq] at hs
      subst hs
      unfold rtTimerStop
      split
      · simp [Flagged, ha.nodup.not_mem_erase, TimerCall.timer]
      · exact hf
    | control t ctrl =>
      rw [Timers.call, Option.some.injEq] at hs
      subst hs
      cases ctrl <;> simpa [Flagged, rtTimerControl, TimerCall.timer] using hf
  · exact (Untouched.call ha hlo hu hs).flagged hf

theorem flagged_calls (ha : s.Armed lo) (hlo : -1 ≤ lo) (hlo' : lo ≤ 0) (hf : s.Flagged u)
    (hs : s.calls cs = some s') : s'.Flagged u := by
  induction cs generalizing s with
  | nil =>
    rw [Timers.calls, Option.some.injEq] at hs
    exact hs ▸ hf
  | cons c cs ih =>
    rw [Timers.calls, Option.bind_eq_some_iff] at hs
    obtain ⟨s₁, hs₁, hs⟩ := hs
    exact ih (ha.call hlo hlo' hs₁).1 (flagged_call ha hlo hf hs₁) hs

/-- Only `rt_timer_start` lists a timer. -/
theorem call_not_mem (ha : s.Armed lo) (hlo : -1 ≤ lo) (hc : c ≠ .start u)
    (hu : u ∉ s.timerList) (hs : s.call c = some s') : u ∉ s'.timerList := by
  cases c with
  | start t =>
    have hne : u ≠ t := by
      rintro rfl
      exact hc rfl
    rwa [((started_of_start hs).untouched ha hlo hne).listed]
  | stop t =>
    rw [Timers.call, Option.some.injEq] at hs
    subst hs
    unfold rtTimerStop
    split
    · exact fun hm => hu (List.mem_of_mem_erase hm)
    · exact hu
  | control t ctrl =>
    rw [Timers.call, Option.some.injEq] at hs
    subst hs
    cases ctrl <;> exact hu

theorem calls_not_mem (ha : s.Armed lo) (hlo : -1 ≤ lo) (hlo' : lo ≤ 0)
    (hcs : TimerCall.start u ∉ cs) (hu : u ∉ s.timerList) (hs : s.calls cs = some s') :
    u ∉ s'.timerList := by
  induction cs generalizing s with
  | nil =>
    rw [Timers.calls, Option.some.injEq] at hs
    exact hs ▸ hu
  | cons c cs ih =>
    rw [List.mem_cons, not_or] at hcs
    rw [Timers.calls, Option.bind_eq_some_iff] at hs
    obtain ⟨s₁, hs₁, hs⟩ := hs
    exact ih (ha.call hlo hlo' hs₁).1 hcs.2 (call_not_mem ha hlo (Ne.symm hcs.1) hu hs₁) hs

/-- A listed timer is marked as activated. -/
def Marked (s : Timers T) (u : T) : Prop := u ∈ s.timerList → (s.timer u).activated = true

theorem marked_call (ha : s.Armed lo) (hlo : -1 ≤ lo) (hm : s.Marked u)
    (hs : s.call c = some s') : s'.Marked u := by
  by_cases hu : c.timer = u
  · subst hu
    cases c with
    | start t => exact fun _ => by rw [TimerCall.timer, (started_of_start hs).self]
    | stop t =>
      rw [Timers.call, Option.some.injEq] at hs
      subst hs
      unfold rtTimerStop
      split
      · exact fun hmem => absurd hmem ha.nodup.not_mem_erase
      · exact hm
    | control t ctrl =>
      rw [Timers.call, Option.some.injEq] at hs
      subst hs
      cases ctrl <;> simpa [Marked, rtTimerControl, TimerCall.timer] using hm
  · have hun := Untouched.call ha hlo hu hs
    intro hmem
    rw [hun.record]
    exact hm (hun.listed.mp hmem)

theorem marked_calls (ha : s.Armed lo) (hlo : -1 ≤ lo) (hlo' : lo ≤ 0) (hm : s.Marked u)
    (hs : s.calls cs = some s') : s'.Marked u := by
  induction cs generalizing s with
  | nil =>
    rw [Timers.calls, Option.some.injEq] at hs
    exact hs ▸ hm
  | cons c cs ih =>
    rw [Timers.calls, Option.bind_eq_some_iff] at hs
    obtain ⟨s₁, hs₁, hs⟩ := hs
    exact ih (ha.call hlo hlo' hs₁).1 (marked_call ha hlo hm hs₁) hs

/-- A timer that is neither listed nor marked. -/
structure Idle (s : Timers T) (u : T) : Prop where
  unmarked : (s.timer u).activated = false
  unlisted : u ∉ s.timerList

omit [DecidableEq T] in
theorem Untouched.idle (h : Untouched s s' u) (hi : s.Idle u) : s'.Idle u :=
  ⟨by rw [h.record, hi.unmarked], fun hmem => hi.unlisted (h.listed.mp hmem)⟩

/-- `rt_timer_stop` trusts the mark, and it may. -/
theorem idle_stop (ha : s.Armed lo) (hm : s.Marked u) : (s.rtTimerStop u).2.Idle u := by
  unfold rtTimerStop
  split
  · exact ⟨by simp, ha.nodup.not_mem_erase⟩
  · next hclear => exact ⟨by simpa using hclear, fun hmem => hclear (hm hmem)⟩

theorem idle_call (ha : s.Armed lo) (hlo : -1 ≤ lo) (hc : c ≠ .start u) (hi : s.Idle u)
    (hs : s.call c = some s') : s'.Idle u := by
  refine ⟨?_, call_not_mem ha hlo hc hi.unlisted hs⟩
  by_cases hu : c.timer = u
  · subst hu
    cases c with
    | start t => exact absurd rfl hc
    | stop t =>
      rw [Timers.call, Option.some.injEq] at hs
      exact hs ▸ (idle_stop ha fun hmem => absurd hmem hi.unlisted).unmarked
    | control t ctrl =>
      rw [Timers.call, Option.some.injEq] at hs
      subst hs
      cases ctrl <;> simpa [rtTimerControl, TimerCall.timer] using hi.unmarked
  · exact ((Untouched.call ha hlo hu hs).idle hi).unmarked

theorem idle_calls (ha : s.Armed lo) (hlo : -1 ≤ lo) (hlo' : lo ≤ 0)
    (hcs : TimerCall.start u ∉ cs) (hi : s.Idle u) (hs : s.calls cs = some s') : s'.Idle u := by
  induction cs generalizing s with
  | nil =>
    rw [Timers.calls, Option.some.injEq] at hs
    exact hs ▸ hi
  | cons c cs ih =>
    rw [List.mem_cons, not_or] at hcs
    rw [Timers.calls, Option.bind_eq_some_iff] at hs
    obtain ⟨s₁, hs₁, hs⟩ := hs
    exact ih (ha.call hlo hlo' hs₁).1 hcs.2 (idle_call ha hlo (Ne.symm hcs.1) hi hs₁) hs

/-- `rt_timer_check` starts the timer again only if its function has left it marked. -/
theorem idle_afterTimeout (ha : s.Armed lo) (hlo : -1 ≤ lo) (hi : s.Idle u)
    (hs : s.afterTimeout t = some s') : s'.Idle u := by
  by_cases hut : u = t
  · subst hut
    unfold Timers.afterTimeout at hs
    rw [if_neg (by simp [hi.unmarked]), Option.some.injEq] at hs
    subst hs
    exact ⟨by simp, hi.unlisted⟩
  · exact (Untouched.afterTimeout ha hlo hut hs).idle hi

theorem calls_append {cs' : List (TimerCall T)} :
    s.calls (cs ++ cs') = (s.calls cs).bind fun s => s.calls cs' := by
  induction cs generalizing s with
  | nil => rfl
  | cons c cs ih => simp only [List.cons_append, Timers.calls, ih, Option.bind_assoc]

/-- A timeout function that does not start its own timer leaves every flag right. -/
theorem Pass.flagged (h : Pass s s' t cs) (ha : s.Armed (-1)) (hf : ∀ u, s.Flagged u)
    (hown : TimerCall.start t ∉ cs) : s'.Flagged u := by
  obtain ⟨s₁, hs₁, hs'⟩ := h.run
  have ha₁ := (ha.remove.calls le_rfl (by norm_num) hs₁).1
  by_cases hut : u = t
  · subst hut
    have hgone := calls_not_mem ha.remove le_rfl (by norm_num) hown ha.nodup.not_mem_erase hs₁
    unfold Timers.afterTimeout at hs'
    split at hs'
    · exact (started_of_start hs').flagged (ha₁.setTimer rfl) le_rfl
    · rw [Option.some.injEq] at hs'
      subst hs'
      simpa [Flagged] using hgone
  · have hrem : (s.remove t).Flagged u := (untouched_remove hut).flagged (hf u)
    have hrun := flagged_calls ha.remove le_rfl (by norm_num) hrem hs₁
    exact (Untouched.afterTimeout ha₁ le_rfl hut hs').flagged hrun

theorem Check.flagged (hc : Check s script fired s') (ha : s.Armed (-1)) (hf : ∀ u, s.Flagged u)
    (hown : ∀ p ∈ fired.zip script, TimerCall.start p.1 ∉ p.2) : ∀ u, s'.Flagged u := by
  induction hc with
  | done _ => exact hf
  | @pass s s₁ s' t script fired hpass hrest ih =>
    cases script with
    | nil => exact ih (hpass.armed ha).1 (fun u => hpass.flagged ha hf (by simp)) (by simp)
    | cons cs script =>
      rw [List.zip_cons_cons, List.forall_mem_cons] at hown
      exact ih (hpass.armed ha).1 (fun u => hpass.flagged ha hf hown.1) hown.2

/-- A timer that is not listed is not called. -/
theorem Check.not_mem (hc : Check s script fired s') (ha : s.Armed (-1))
    (hcs : ∀ cs ∈ script, TimerCall.start u ∉ cs) (hu : u ∉ s.timerList) :
    u ∉ fired ∧ u ∉ s'.timerList := by
  induction hc with
  | done _ => exact ⟨by simp, hu⟩
  | @pass s s₁ s' t script fired hpass hrest ih =>
    have hne : u ≠ t := by
      rintro rfl
      exact hu hpass.mem
    have hcs₀ : TimerCall.start u ∉ script.headD [] := by
      cases script with
      | nil => simp
      | cons cs script => exact hcs cs (by simp)
    obtain ⟨s₀, hs₀, hs₁⟩ := hpass.run
    have hrem : u ∉ (s.remove t).timerList := fun hm => hu (List.mem_of_mem_erase hm)
    have hrun := calls_not_mem ha.remove le_rfl (by norm_num) hcs₀ hrem hs₀
    have ha₀ := (ha.remove.calls le_rfl (by norm_num) hs₀).1
    have hun := Untouched.afterTimeout ha₀ le_rfl hne hs₁
    obtain ⟨hfired, hlist⟩ := ih (hpass.armed ha).1 (fun cs hm => hcs cs (List.mem_of_mem_tail hm))
      (by rwa [hun.listed])
    exact ⟨by simp [hne, hfired], hlist⟩

/-- A timer that a timeout function stops is idle when the pass is over, be it the timer the
function is called for or another. -/
theorem Pass.stopped (h : Pass s s' t (cs ++ .stop u :: cs')) (ha : s.Armed (-1))
    (hf : s.Flagged u) (hcs' : TimerCall.start u ∉ cs') : s'.Idle u := by
  obtain ⟨s₁, hs₁, hs'⟩ := h.run
  rw [calls_append, Option.bind_eq_some_iff] at hs₁
  obtain ⟨s₀, hs₀, hs₁⟩ := hs₁
  rw [Timers.calls, Timers.call, Option.bind_some] at hs₁
  have ha₀ := (ha.remove.calls le_rfl (by norm_num) hs₀).1
  have hmarked : (s.remove t).Marked u := fun hmem => hf.mpr (List.mem_of_mem_erase hmem)
  have hidle := idle_stop ha₀ (marked_calls ha.remove le_rfl (by norm_num) hmarked hs₀)
  have ha₁ := (ha₀.call (c := .stop u) le_rfl (by norm_num) rfl).1
  have hidle₁ := idle_calls ha₁ le_rfl (by norm_num) hcs' hidle hs₁
  exact idle_afterTimeout (ha₁.calls le_rfl (by norm_num) hs₁).1 le_rfl hidle₁ hs'

/-- The function called as number `k` stops `u`, and none of the calls after it starts `u`. -/
def StopsAt (script : List (List (TimerCall T))) (k : ℕ) (u : T) : Prop :=
  (∃ cs cs', script[k]? = some (cs ++ .stop u :: cs') ∧ TimerCall.start u ∉ cs') ∧
    ∀ cs ∈ script.drop (k + 1), TimerCall.start u ∉ cs

theorem Check.stopped {k : ℕ} (hc : Check s script fired s') (ha : s.Armed (-1))
    (hf : ∀ u, s.Flagged u) (hown : ∀ p ∈ fired.zip script, TimerCall.start p.1 ∉ p.2)
    (hk : k < fired.length) (hstop : StopsAt script k u) :
    u ∉ fired.drop (k + 1) ∧ u ∉ s'.timerList := by
  induction hc generalizing k with
  | done _ => simp at hk
  | @pass s s₁ s' t script fired hpass hrest ih =>
    obtain ⟨⟨cs, cs', hget, hcs'⟩, hlater⟩ := hstop
    cases script with
    | nil => simp at hget
    | cons cs₀ script =>
      rw [List.zip_cons_cons, List.forall_mem_cons] at hown
      have ha₁ := (hpass.armed ha).1
      cases k with
      | zero =>
        rw [List.getElem?_cons_zero, Option.some.injEq] at hget
        subst hget
        exact hrest.not_mem ha₁ hlater (hpass.stopped ha (hf u) hcs').unlisted
      | succ k =>
        rw [List.getElem?_cons_succ] at hget
        exact ih ha₁ (fun v => hpass.flagged ha hf hown.1) hown.2 (by simpa using hk)
          ⟨⟨cs, cs', hget, hcs'⟩, hlater⟩

end Flags

end Timers

namespace TimerSystem

variable {T : Type} [DecidableEq T] {s s' s₀ s₁ : TimerSystem T} {t : T}
  {h h₁ h₂ : History (TimerSystem T) (TimerAction T)} {a : TimerAction T}

/-- No timeout function starts the timer it is called for. -/
def NoSelfStart (s : TimerSystem T) (a : TimerAction T) : Prop :=
  ∀ script, a = .tick script → ∀ s', step a s = some s' →
    ∀ p ∈ s'.fired.zip script, TimerCall.start p.1 ∉ p.2

/-- While no timeout function starts its own timer, the flags tell which timers are listed. -/
theorem flagged_run (hr : Run step (fun _ s a => NoSelfStart s a) Initial h s) :
    ∀ t, s.timers.Flagged t := by
  induction hr with
  | start hs =>
    intro t
    simp [Timers.Flagged, hs.1, hs.2 t]
  | step hr hown hs ih =>
    have ha := armed_run (fun _ => id) hr
    obtain ⟨c, rfl, hcall, -⟩ | ⟨script, rfl, htick⟩ := step_cases hs
    · exact fun t => Timers.flagged_call ha (by norm_num) (ih t) hcall
    · exact (ha.rtTickIncrease htick).1.flagged ha.advance ih (hown script rfl _ hs)

/-- Whether an action starts `t`. -/
def Starts (t : T) : TimerAction T → Prop
  | .call c => c = .start t
  | .tick script => ∃ cs ∈ script, TimerCall.start t ∈ cs

/-- Whether an action stops `t` and does not start it after that: a call of `rt_timer_stop`,
or a tick whose timeout function number `k` makes the call. -/
def Stops (t : T) (k : ℕ) (s : TimerSystem T) : TimerAction T → Prop
  | .call c => c = .stop t
  | .tick script =>
    (∀ s', step (.tick script) s = some s' → k < s'.fired.length) ∧ Timers.StopsAt script k t

/-- A timer that is stopped, by a timeout function or outside the tick, is not called again
until it is started, if no timeout function starts the timer it is called for: not in the rest
of the tick it is stopped in, and not in any later one. -/
theorem stopped_not_fired {k : ℕ} (hr : Run step (fun _ s a => NoSelfStart s a) Initial
      (h₁ ++ (s₀, a) :: h₂) s)
    (hstop : Stops t k s₀ a) (hquiet : ∀ x ∈ h₁, ¬ Starts t x.2) :
    (h₁ = [] → t ∉ s.fired.drop (k + 1)) ∧ (h₁ ≠ [] → t ∉ s.fired) ∧
      t ∉ s.timers.timerList := by
  induction h₁ generalizing s with
  | nil =>
    cases hr with
    | step hr hown hs =>
      have ha := armed_run (fun _ => id) hr
      have hflag := flagged_run hr
      obtain ⟨c, rfl, hcall, hnone⟩ | ⟨script, rfl, htick⟩ := step_cases hs
      · cases hstop
        rw [Timers.call, Option.some.injEq] at hcall
        have hidle := Timers.idle_stop ha (hflag t).mpr
        rw [hcall] at hidle
        exact ⟨fun _ => by simp [hnone], fun hne => absurd rfl hne, hidle.unlisted⟩
      · have hstopped := (ha.rtTickIncrease htick).1.stopped ha.advance hflag
          (hown script rfl _ hs) (hstop.1 _ hs) hstop.2
        exact ⟨fun _ => hstopped.1, fun hne => absurd rfl hne, hstopped.2⟩
  | cons x h₁ ih =>
    rw [List.forall_mem_cons] at hquiet
    cases hr with
    | @step _ s₁ _ a hr _ hs =>
      have ha := armed_run (fun _ => id) hr
      have hlist := (ih hr hquiet.2).2.2
      refine ⟨fun hnil => absurd hnil (List.cons_ne_nil _ _), ?_⟩
      obtain ⟨c, rfl, hcall, hnone⟩ | ⟨script, rfl, htick⟩ := step_cases hs
      · exact ⟨fun _ => by simp [hnone],
          Timers.call_not_mem ha (by norm_num) hquiet.1 hlist hcall⟩
      · have hrest := (ha.rtTickIncrease htick).1.not_mem ha.advance
          (fun cs hm hstart => hquiet.1 ⟨cs, hm, hstart⟩) hlist
        exact ⟨fun _ => hrest.1, hrest.2⟩

/-- A periodic timer whose function stops it, and the two ticks after that. -/
theorem stopped_not_fired_ownFunction :
    ∃ s : TimerSystem Unit, s.timers.rtTick = 2 ∧ () ∉ s.fired ∧ () ∉ s.timers.timerList := by
  have hcall : ∀ (s : TimerSystem Unit) c, NoSelfStart s (.call c) := by
    rintro s c script ⟨⟩
  have htick : ∀ s : TimerSystem Unit, NoSelfStart s (.tick [[.stop ()]]) := by
    rintro s script ⟨⟩ s' - ⟨t, cs⟩ hp
    have hcs := (List.of_mem_zip hp).2
    rw [List.mem_singleton] at hcs
    simp [hcs]
  have hidle : ∀ s : TimerSystem Unit, NoSelfStart s (.tick []) := by
    rintro s script ⟨⟩ s' -
    simp
  have h₀ : Run step (fun _ s a => NoSelfStart s a) Initial [] nearWrap := .start nearWrap_initial
  have h₁ := h₀.step (a := .call (.start ())) (hcall _ _) rfl
  have h₂ := h₁.step (a := .tick []) (hidle _) rfl
  have h₃ := h₂.step (a := .tick [[.stop ()]]) (htick _) rfl
  have h₄ := h₃.step (a := .tick []) (hidle _) rfl
  have h₅ := h₄.step (a := .tick []) (hidle _) rfl
  have hr : Run step (fun _ s a => NoSelfStart s a) Initial
      ([_, _] ++ (_, .tick [[.stop ()]]) :: [_, _]) _ := h₅
  have hquiet := stopped_not_fired (t := ()) (k := 0) hr
    ⟨by rintro s' ⟨⟩; decide, ⟨[], [], rfl, by simp⟩, by simp⟩ (by simp [Starts])
  exact ⟨_, rfl, hquiet.2.1 (List.cons_ne_nil _ _), hquiet.2.2⟩

end TimerSystem

end NanoAt
