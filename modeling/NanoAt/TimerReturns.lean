import NanoAt.TimerSchedule

/-!
# When the tick interrupt comes back

The loop of `rt_timer_check` ends when no timer is due. A timer started with a positive time
is not due, so only a periodic timer with time zero can keep it going for ever.

## Main results

- `Timers.rtTimerCheck_eq_none_iff` — the bound on the passes of the model is none of the code's
- `TimerSystem.action_returns` — with times in range every action returns
- `TimerSystem.tick_returns_iff` — when a tick returns whose timeout functions call nothing
-/

namespace NanoAt

open SerialTime DeadlineList GuardedRun

namespace Timers

variable {T : Type} [DecidableEq T] {s s' s₁ s₂ : Timers T} {t u : T} {lo : ℤ}
  {c : TimerCall T} {cs : List (TimerCall T)} {script : List (List (TimerCall T))}
  {fired : List T}

section Returns

/-- The times that `rt_timer_start` accepts, zero excepted. -/
def InRange (time : UInt32) : Prop := 0 < time.toNat ∧ time.toNat < 2 ^ 31 - 1

instance (time : UInt32) : Decidable (InRange time) := by
  unfold InRange
  infer_instance

/-- Every timer has a time in range. -/
def TimesInRange (s : Timers T) : Prop := ∀ t, InRange (s.timer t).initTick

/-- No timer has become due. -/
def NoneAdded (s s' : Timers T) : Prop :=
  ∀ t ∈ s'.timerList, s'.left t ≤ 0 → t ∈ s.timerList ∧ s.left t ≤ 0

omit [DecidableEq T] in
theorem NoneAdded.trans (h : NoneAdded s s₁) (h' : NoneAdded s₁ s') : NoneAdded s s' :=
  fun t ht hdue => h t (h' t ht hdue).1 (h' t ht hdue).2

theorem noneAdded_setTimer {x : Timer} (hx : x.timeoutTick = (s.timer t).timeoutTick) :
    NoneAdded s (s.setTimer t x) :=
  fun _ hu hdue => ⟨hu, left_setTimer hx ▸ hdue⟩

theorem noneAdded_remove : NoneAdded s (s.remove t) :=
  fun _ hu hdue => ⟨List.mem_of_mem_erase hu, hdue⟩

/-- A timer started with a positive time is not due. -/
theorem Started.noneAdded (h : Started s s' t) (ha : s.Armed lo) (hlo : -1 ≤ lo)
    (hpos : 0 < (s.timer t).initTick.toNat) : NoneAdded s s' := by
  intro u hu hdue
  have hne : u ≠ t := by
    rintro rfl
    rw [h.left_self] at hdue
    omega
  rw [h.mem_iff ha hlo] at hu
  exact ⟨hu.resolve_left hne, by rwa [← h.left_others hne]⟩

theorem Started.timesInRange (h : Started s s' t) (hr : s.TimesInRange) : s'.TimesInRange := by
  intro u
  by_cases hu : u = t
  · subst hu
    rw [h.self]
    exact hr u
  · rw [h.others u hu]
    exact hr u

theorem timesInRange_setTimer {x : Timer} (hr : s.TimesInRange) (hx : InRange x.initTick) :
    (s.setTimer t x).TimesInRange := by
  intro u
  by_cases hu : u = t
  · subst hu
    rwa [setTimer_timer_self]
  · rw [setTimer_timer_of_ne hu]
    exact hr u

/-- Whether a call gives a time in range, if it gives one. -/
def CallInRange : TimerCall T → Prop
  | .control _ (.setTime time) => InRange time
  | _ => True

/-- A call returns, and makes no timer due. -/
theorem call_returns (hr : s.TimesInRange) (ha : s.Armed lo) (hlo : -1 ≤ lo)
    (hc : CallInRange c) : ∃ s', s.call c = some s' ∧ s'.TimesInRange ∧ NoneAdded s s' := by
  cases c with
  | start t =>
    obtain ⟨s', hs'⟩ := start_enabled (hr t).2
    have hst := started_of_start hs'
    exact ⟨s', hs', hst.timesInRange hr, hst.noneAdded ha hlo (hr t).1⟩
  | stop t =>
    refine ⟨_, rfl, ?_⟩
    unfold rtTimerStop
    split
    · exact ⟨timesInRange_setTimer hr (hr t), noneAdded_remove.trans (noneAdded_setTimer rfl)⟩
    · exact ⟨hr, fun u hu hdue => ⟨hu, hdue⟩⟩
  | control t ctrl =>
    refine ⟨_, rfl, ?_⟩
    cases ctrl with
    | setTime time => exact ⟨timesInRange_setTimer hr hc, noneAdded_setTimer rfl⟩
    | setOneshot => exact ⟨timesInRange_setTimer hr (hr t), noneAdded_setTimer rfl⟩
    | setPeriodic => exact ⟨timesInRange_setTimer hr (hr t), noneAdded_setTimer rfl⟩

theorem calls_return (hr : s.TimesInRange) (ha : s.Armed lo) (hlo : -1 ≤ lo) (hlo' : lo ≤ 0)
    (hc : ∀ c ∈ cs, CallInRange c) :
    ∃ s', s.calls cs = some s' ∧ s'.TimesInRange ∧ NoneAdded s s' := by
  induction cs generalizing s with
  | nil => exact ⟨s, rfl, hr, fun u hu hdue => ⟨hu, hdue⟩⟩
  | cons c cs ih =>
    rw [List.forall_mem_cons] at hc
    obtain ⟨s₁, hs₁, hr₁, hn₁⟩ := call_returns hr ha hlo hc.1
    obtain ⟨s', hs', hr', hn'⟩ := ih hr₁ (ha.call hlo hlo' hs₁).1 hc.2
    exact ⟨s', by rw [Timers.calls, hs₁, Option.bind_some, hs'], hr', hn₁.trans hn'⟩

/-- Restarting a periodic timer needs a time in range of that timer only. -/
theorem afterTimeout_returns (ha : s.Armed lo) (hlo : -1 ≤ lo)
    (ht : (s.timer t).periodic = true → (s.timer t).activated = true →
      InRange (s.timer t).initTick) :
    ∃ s', s.afterTimeout t = some s' ∧ (s.TimesInRange → s'.TimesInRange) ∧ NoneAdded s s' := by
  unfold Timers.afterTimeout
  split
  · next hper =>
    have hrange := ht hper.1 hper.2
    obtain ⟨s', hs'⟩ := start_enabled (s := s.setTimer t { s.timer t with activated := false })
      (t := t) (by rw [setTimer_timer_self]; exact hrange.2)
    have hst := started_of_start hs'
    have hadd := hst.noneAdded (ha.setTimer rfl) hlo (by rw [setTimer_timer_self]; exact hrange.1)
    have hset : NoneAdded s (s.setTimer t { s.timer t with activated := false }) :=
      noneAdded_setTimer rfl
    exact ⟨s', hs', fun hr => hst.timesInRange (timesInRange_setTimer hr (hr t)), hset.trans hadd⟩
  · exact ⟨_, rfl, fun hr => timesInRange_setTimer hr (hr t), noneAdded_setTimer rfl⟩

/-- The timers that are due. -/
def overdue (s : Timers T) : Finset T := s.timerList.toFinset.filter fun t => s.left t ≤ 0

theorem mem_overdue : t ∈ s.overdue ↔ t ∈ s.timerList ∧ s.left t ≤ 0 := by
  simp [overdue]

theorem card_overdue_le : s.overdue.card ≤ s.timerList.length :=
  (Finset.card_filter_le _ _).trans s.timerList.toFinset_card_le

/-- With no timer due added and one of them gone, fewer are due. -/
theorem card_overdue_lt (h : NoneAdded s s') (ht : t ∈ s.timerList) (hdue : s.left t ≤ 0)
    (hgone : t ∈ s'.timerList → 0 < s'.left t) : s'.overdue.card < s.overdue.card := by
  refine Finset.card_lt_card ((Finset.ssubset_iff_of_subset fun u hu => ?_).mpr
    ⟨t, mem_overdue.mpr ⟨ht, hdue⟩, fun hm => ?_⟩)
  · rw [mem_overdue] at hu ⊢
    exact h u hu.1 hu.2
  · rw [mem_overdue] at hm
    have hlate := hgone hm.1
    omega

omit [DecidableEq T] in
/-- The first timer, if it is due. -/
theorem exists_due (ha : s.Armed lo) :
    (∀ t ∈ s.timerList, 0 < s.left t) ∨
      ∃ t, s.timerList.head? = some t ∧ t ∈ s.timerList ∧ s.left t ≤ 0 := by
  cases hlist : s.timerList with
  | nil => exact .inl (by simp)
  | cons t l =>
    by_cases hdue : s.left t ≤ 0
    · exact .inr ⟨t, rfl, by simp, hdue⟩
    · refine .inl fun u hu => ?_
      have hord := ha.ordered
      rw [hlist] at hord
      have hle := hord.head_le hu
      omega

/-- With times in range the loop ends, after at most one pass for every timer that is due. -/
theorem check_returns (hr : s.TimesInRange) (ha : s.Armed (-1))
    (hc : ∀ cs ∈ script, ∀ c ∈ cs, CallInRange c) :
    ∃ fired s', Check s script fired s' ∧ s'.TimesInRange ∧ fired.length ≤ s.overdue.card := by
  induction hn : s.overdue.card using Nat.strong_induction_on generalizing s script with
  | _ n ih =>
    rcases exists_due ha with hidle | ⟨t, hhead, hmem, hdue⟩
    · exact ⟨[], s, .done hidle, hr, by simp⟩
    · have hcs : ∀ c ∈ script.headD [], CallInRange c := by
        cases script with
        | nil => simp
        | cons cs script => exact hc cs (by simp)
      obtain ⟨s₁, hs₁, hr₁, hn₁⟩ := calls_return (s := s.remove t) hr ha.remove le_rfl
        (by norm_num) hcs
      have ha₁ := (ha.remove.calls le_rfl (by norm_num) hs₁).1
      obtain ⟨s₂, hs₂, hr₂, hn₂⟩ := afterTimeout_returns (t := t) ha₁ le_rfl fun _ _ => hr₁ t
      have hpass : Pass s s₂ t (script.headD []) := ⟨hhead, hdue, s₁, hs₁, hs₂⟩
      have hnone := hn₁.trans hn₂
      have hlt := card_overdue_lt (noneAdded_remove.trans hnone) hmem hdue fun hm => by
        by_contra hle
        exact ha.nodup.not_mem_erase (hnone t hm (by omega)).1
      obtain ⟨fired, s', hcheck, hr', hlen⟩ := ih _ (hn ▸ hlt) (hr₂ hr₁) (hpass.armed ha).1
        (fun cs hmem => hc cs (List.mem_of_mem_tail hmem)) rfl
      exact ⟨t :: fired, s', .pass hpass hcheck, hr', by simp only [List.length_cons]; omega⟩

/-- A loop that ends with functions that call nothing has restarted due timers with times in
range only. -/
theorem Check.inRange (hc : Check s script fired s') (ha : s.Armed (-1)) (hnil : script = [])
    (hmem : u ∈ s.timerList) (hdue : s.left u ≤ 0) (hper : (s.timer u).periodic = true)
    (hact : (s.timer u).activated = true) : InRange (s.timer u).initTick := by
  induction hc with
  | done hidle =>
    have hlate := hidle u hmem
    omega
  | @pass s s₁ s' t script fired hpass hrest ih =>
    subst hnil
    have ha₁ := (hpass.armed ha).1
    by_cases hut : u = t
    · subst hut
      obtain ⟨hmem₁, hleft₁, hrec₁⟩ := (hpass.timedOut ha (by simp)).periodic hper hact
      have hwin := (ha₁.window u hmem₁).2
      rw [hleft₁] at hwin
      by_cases hzero : 0 < (s.timer u).initTick.toNat
      · exact ⟨hzero, by omega⟩
      · -- it is due again at once
        have hrange := ih ha₁ rfl hmem₁ (by omega) (by rw [hrec₁]; exact hper)
          (by rw [hrec₁]; exact hact)
        rwa [hrec₁] at hrange
    · have hun := hpass.untouched ha (by simp) hut
      have hrange := ih ha₁ rfl (hun.listed.mpr hmem) (hun.left ▸ hdue) (by rwa [hun.record])
        (by rwa [hun.record])
      rwa [hun.record] at hrange

/-- Functions that call nothing let the loop end when every due periodic timer has a time in
range. -/
theorem check_silent (ha : s.Armed (-1))
    (hok : ∀ t ∈ s.timerList, s.left t ≤ 0 → (s.timer t).periodic = true →
      (s.timer t).activated = true → InRange (s.timer t).initTick) :
    ∃ fired s', Check s [] fired s' := by
  induction hn : s.overdue.card using Nat.strong_induction_on generalizing s with
  | _ n ih =>
    rcases exists_due ha with hidle | ⟨t, hhead, hmem, hdue⟩
    · exact ⟨[], s, .done hidle⟩
    · obtain ⟨s₁, hs₁, -, hn₁⟩ := afterTimeout_returns (s := s.remove t) (t := t) ha.remove le_rfl
        (hok t hmem hdue)
      have hpass : Pass s s₁ t [] := ⟨hhead, hdue, _, rfl, hs₁⟩
      have hlt := card_overdue_lt (noneAdded_remove.trans hn₁) hmem hdue fun hm => by
        by_contra hle
        exact ha.nodup.not_mem_erase (hn₁ t hm (by omega)).1
      have hok₁ : ∀ u ∈ s₁.timerList, s₁.left u ≤ 0 → (s₁.timer u).periodic = true →
          (s₁.timer u).activated = true → InRange (s₁.timer u).initTick := by
        intro u hu hdue₁
        obtain ⟨hu₀, hdue₀⟩ := hn₁ u hu hdue₁
        have hne : u ≠ t := by
          rintro rfl
          exact ha.nodup.not_mem_erase hu₀
        have hun := hpass.untouched ha (by simp) hne
        rw [hun.record]
        exact hok u (List.mem_of_mem_erase hu₀) hdue₀
      obtain ⟨fired, s', hc⟩ := ih _ (hn ▸ hlt) (hpass.armed ha).1 hok₁ rfl
      exact ⟨t :: fired, s', .pass hpass hc⟩

/-- Functions that call nothing are called at most once each. -/
theorem Check.length_le_overdue (hc : Check s script fired s') (ha : s.Armed (-1))
    (hnil : script = []) : fired.length ≤ s.overdue.card := by
  induction hc with
  | done _ => simp
  | @pass s s₁ s' t script fired hpass hrest ih =>
    have hrange := (Check.pass hpass hrest).inRange ha hnil hpass.mem hpass.due
    subst hnil
    have ha₁ := (hpass.armed ha).1
    have hout := hpass.timedOut ha (by simp)
    have hnone : NoneAdded s s₁ := by
      intro u hu hdue
      by_cases hut : u = t
      · exact hut ▸ ⟨hpass.mem, hpass.due⟩
      · have hun := hpass.untouched ha (by simp) hut
        exact ⟨hun.listed.mp hu, hun.left ▸ hdue⟩
    have hlt := card_overdue_lt hnone hpass.mem hpass.due fun hm => by
      cases hper : (s.timer t).periodic with
      | false => exact absurd hm (hout.oneshot hper).1
      | true =>
        cases hact : (s.timer t).activated with
        | true =>
          rw [(hout.periodic hper hact).2.1]
          have hpos := (hrange hper hact).1
          omega
        | false =>
          obtain ⟨s₀, hs₀, hs₁⟩ := hpass.run
          rw [List.headD_nil, Timers.calls, Option.some.injEq] at hs₀
          subst hs₀
          rw [Timers.afterTimeout, if_neg (by simp [hact]), Option.some.injEq] at hs₁
          subst hs₁
          exact absurd hm ha.nodup.not_mem_erase
    have hlen := ih ha₁ rfl
    simp only [List.length_cons]
    omega

theorem call_length_le (ha : s.Armed lo) (hlo : -1 ≤ lo) (hs : s.call c = some s') :
    s'.timerList.length ≤ s.timerList.length + 1 := by
  have herase : ∀ t, (s.timerList.erase t).length ≤ s.timerList.length := fun t =>
    List.erase_sublist.length_le
  cases c with
  | start t =>
    have hlist := (started_of_start hs).list_eq ha hlo
    rw [hlist, insertLate_perm.length_eq, List.length_cons]
    have hle := herase t
    omega
  | stop t =>
    rw [Timers.call, Option.some.injEq] at hs
    subst hs
    unfold rtTimerStop
    split
    · exact (herase t).trans (by omega)
    · exact Nat.le_succ _
  | control t ctrl =>
    rw [Timers.call, Option.some.injEq] at hs
    subst hs
    cases ctrl <;> exact Nat.le_succ _

theorem calls_length_le (ha : s.Armed lo) (hlo : -1 ≤ lo) (hlo' : lo ≤ 0)
    (hs : s.calls cs = some s') : s'.timerList.length ≤ s.timerList.length + cs.length := by
  induction cs generalizing s with
  | nil =>
    rw [Timers.calls, Option.some.injEq] at hs
    exact hs ▸ le_rfl
  | cons c cs ih =>
    rw [Timers.calls, Option.bind_eq_some_iff] at hs
    obtain ⟨s₁, hs₁, hs⟩ := hs
    have hone := call_length_le ha hlo hs₁
    have hrest := ih (ha.call hlo hlo' hs₁).1 hs
    rw [List.length_cons]
    omega

/-- A pass takes one timer out and may put it back. -/
theorem Pass.length_le (h : Pass s s' t cs) (ha : s.Armed (-1)) :
    s'.timerList.length ≤ s.timerList.length + cs.length := by
  obtain ⟨s₁, hs₁, hs'⟩ := h.run
  have ha₁ := (ha.remove.calls le_rfl (by norm_num) hs₁).1
  have hrun := calls_length_le ha.remove le_rfl (by norm_num) hs₁
  have herase := List.length_erase_of_mem h.mem
  have hpos := List.length_pos_of_mem h.mem
  rw [remove_timerList] at hrun
  unfold Timers.afterTimeout at hs'
  split at hs'
  · have hone := call_length_le (c := .start t)
      (s := s₁.setTimer t { s₁.timer t with activated := false }) (ha₁.setTimer rfl) le_rfl hs'
    rw [setTimer_timerList] at hone
    omega
  · rw [Option.some.injEq] at hs'
    subst hs'
    rw [setTimer_timerList]
    omega

theorem Check.length_le (hc : Check s script fired s') (ha : s.Armed (-1)) :
    fired.length < s.passes script := by
  induction hc with
  | done _ => simp [passes]
  | @pass s s₁ s' t script fired hpass hrest ih =>
    have hlen := ih (hpass.armed ha).1
    cases script with
    | nil =>
      have hall := (Check.pass hpass hrest).length_le_overdue ha rfl
      exact Nat.lt_succ_of_le (hall.trans card_overdue_le)
    | cons cs script =>
      have hlist := hpass.length_le ha
      simp only [passes, List.headD_cons, List.tail_cons, List.length_cons, List.map_cons,
        List.sum_cons] at hlen hlist ⊢
      omega

/-- `rt_timer_check` fails in the model only if its loop does not come to an end, or an
assertion fails in it. -/
theorem rtTimerCheck_eq_none_iff (ha : s.Armed (-1)) :
    s.rtTimerCheck script = none ↔ ∀ fuel, s.checkLoop fuel script = none := by
  refine ⟨fun hnone fuel => ?_, fun hall => hall _⟩
  by_contra hsome
  obtain ⟨⟨fired, s'⟩, hr⟩ := Option.ne_none_iff_exists'.mp hsome
  have hc := check_of_checkLoop ha hr
  rw [rtTimerCheck, checkLoop_of_check ha hc _ (hc.length_le ha)] at hnone
  cases hnone

end Returns

end Timers

/-- Whether the times an action gives are in range. -/
def TimerAction.InRange {T : Type} : TimerAction T → Prop
  | .call c => Timers.CallInRange c
  | .tick script => ∀ cs ∈ script, ∀ c ∈ cs, Timers.CallInRange c

namespace TimerSystem

variable {T : Type} [DecidableEq T] {s s' s₀ s₁ : TimerSystem T} {t : T}
  {h h₁ h₂ : History (TimerSystem T) (TimerAction T)} {a : TimerAction T}

theorem timesInRange_run (hr : Run step (fun _ _ a => a.InRange)
    (fun s => s.Initial ∧ s.timers.TimesInRange) h s) : s.timers.TimesInRange := by
  induction hr with
  | start hs => exact hs.2
  | step hr hrange hs ih =>
    have ha := armed_run (fun s => And.left) hr
    obtain ⟨c, rfl, hcall, -⟩ | ⟨script, rfl, htick⟩ := step_cases hs
    · obtain ⟨timers, hcall', hr', -⟩ := Timers.call_returns ih ha (by norm_num) hrange
      rw [hcall, Option.some.injEq] at hcall'
      rwa [hcall']
    · have hc := (ha.rtTickIncrease htick).1
      obtain ⟨fired, timers, hc', hr', -⟩ := Timers.check_returns
        (s := Timers.advance _) ih ha.advance hrange
      obtain ⟨-, rfl⟩ := hc.unique ha.advance hc'
      exact hr'

/-- With times in range every call and every tick returns, whatever the timeout functions do,
and a tick calls no more of them than there are timers listed. -/
theorem action_returns (hr : Run step (fun _ _ a => a.InRange)
    (fun s => s.Initial ∧ s.timers.TimesInRange) h s) (hrange : a.InRange) :
    ∃ s', step a s = some s' ∧ s'.fired.length ≤ s.timers.timerList.length := by
  have ha := armed_run (fun s => And.left) hr
  have hr' := timesInRange_run hr
  cases a with
  | call c =>
    obtain ⟨timers, hcall, -⟩ := Timers.call_returns hr' ha (by norm_num) hrange
    exact ⟨⟨timers, []⟩, by simp [step, hcall], by simp⟩
  | tick script =>
    obtain ⟨fired, timers, hc, -, hlen⟩ := Timers.check_returns
      (s := s.timers.advance) hr' ha.advance hrange
    have htick := Timers.checkLoop_of_check ha.advance hc _ (hc.length_le ha.advance)
    refine ⟨⟨timers, fired⟩, ?_, hlen.trans Timers.card_overdue_le⟩
    have hinc : s.timers.rtTickIncrease script = some (fired, timers) := htick
    simp [step, hinc]

theorem action_returns_setTime :
    ∃ s s' : TimerSystem Unit, step (.tick [[.control () (.setTime 5)]]) s = some s' ∧
      s'.fired.length ≤ s.timers.timerList.length := by
  have htwo : Timers.InRange 2 := by decide
  have hfive : Timers.InRange 5 := by decide
  have h₀ : Run step (fun _ _ a => a.InRange) (fun s => s.Initial ∧ s.timers.TimesInRange) []
      nearWrap := .start ⟨nearWrap_initial, fun _ => htwo⟩
  have h₁ := h₀.step (a := .call (.start ()))
    (show TimerAction.InRange (.call (.start ())) from trivial) rfl
  have h₂ := h₁.step (a := .tick []) (by simp [TimerAction.InRange]) rfl
  exact ⟨_, action_returns (a := .tick [[.control () (.setTime 5)]]) h₂ (by
    simpa [TimerAction.InRange, Timers.CallInRange] using hfive)⟩

/-- A tick whose timeout functions call nothing returns just when every periodic timer that
becomes due has a time in range. -/
theorem tick_returns_iff (hr : Run step free Initial h s) :
    (∃ s', step (.tick []) s = some s') ↔
      ∀ t ∈ s.timers.timerList, s.timers.left t ≤ 1 → (s.timers.timer t).periodic = true →
        (s.timers.timer t).activated = true → Timers.InRange (s.timers.timer t).initTick := by
  have ha := armed_run (fun _ => id) hr
  constructor
  · rintro ⟨s', hs⟩ t ht hleft hper hact
    obtain ⟨c, hc, -⟩ | ⟨script, hc, htick⟩ := step_cases hs
    · cases hc
    · cases hc
      have hdue : s.timers.advance.left t ≤ 0 := by
        rw [Timers.left_advance ha ht]
        omega
      exact (ha.rtTickIncrease htick).1.inRange ha.advance rfl ht hdue hper hact
  · intro hall
    obtain ⟨fired, timers, hc⟩ := Timers.check_silent ha.advance fun t ht hdue => by
      rw [Timers.left_advance ha ht] at hdue
      exact hall t ht (by omega)
    have htick := Timers.checkLoop_of_check ha.advance hc _ (hc.length_le ha.advance)
    have hinc : s.timers.rtTickIncrease [] = some (fired, timers) := htick
    exact ⟨⟨timers, fired⟩, by simp [step, hinc]⟩

theorem tick_returns_iff_zero :
    ∃ s : TimerSystem Unit, (¬ ∃ s', step (.tick []) s = some s') ∧ s.timers.timerList = [()] := by
  have h₀ : Run step free Initial []
      (⟨⟨0, [], fun _ => ⟨false, true, 0, 0⟩⟩, []⟩ : TimerSystem Unit) := .start ⟨rfl, fun _ => rfl⟩
  have h₁ := h₀.step (a := .call (.start ())) trivial rfl
  have hstuck := mt (tick_returns_iff h₁).mp fun hall =>
    absurd (hall () (by decide) (by decide) rfl rfl) (by decide)
  exact ⟨_, hstuck, rfl⟩

end TimerSystem

end NanoAt
