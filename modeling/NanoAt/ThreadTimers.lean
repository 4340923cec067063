import NanoAt.TimerFlags
import NanoAt.TimerReturns

/-!
# The timers of threads

Every thread has a one-shot timer that `rt_thread_suspend` and `rt_thread_resume` stop and a
wait for a limited time starts. Its function calls the timer interface for no timer.

## Main definitions

- `Timed` — the timers of threads between two critical sections

## Main results

- `Timed.stop`, `Timed.start`, `Timed.tick` — which timers run afterwards
- `Timed.tick_returns` — every tick returns
-/

namespace NanoAt.Timers

variable {T : Type} [DecidableEq T] {timers timers' : Timers T} {t : T} {time : UInt32}
  {fired : List T}

/-- The timers of threads: one-shot ones, whose flags are right. -/
structure Timed (timers : Timers T) : Prop where
  armed : timers.Armed 0
  oneshot : ∀ t, (timers.timer t).periodic = false
  flagged : ∀ t, timers.Flagged t

/-- After `rt_timer_stop` the timer of a thread is not running. -/
theorem Timed.stop (h : Timed timers) : Timed (timers.rtTimerStop t).2 ∧
    ∀ u, u ∈ (timers.rtTimerStop t).2.timerList ↔ u ≠ t ∧ u ∈ timers.timerList := by
  have hcall : timers.call (.stop t) = some (timers.rtTimerStop t).2 := rfl
  refine ⟨⟨(h.armed.call (by norm_num) le_rfl hcall).1, fun u => ?_, fun u => ?_⟩, fun u => ?_⟩
  · rw [rtTimerStop]
    split
    · by_cases hu : u = t
      · subst hu
        simpa using h.oneshot u
      · simpa [setTimer_timer_of_ne hu] using h.oneshot u
    · exact h.oneshot u
  · exact flagged_call h.armed (by norm_num) (h.flagged u) hcall
  · rw [rtTimerStop]
    split
    · simp [h.armed.nodup.mem_erase_iff]
    · next hidle =>
      have hout : t ∉ timers.timerList := fun hm => hidle ((h.flagged t).mpr hm)
      refine ⟨fun hu => ⟨?_, hu⟩, And.right⟩
      rintro rfl
      exact hout hu

/-- Setting and starting the timer of a thread. -/
theorem Timed.start (h : Timed timers)
    (hs : (timers.rtTimerControl t (.setTime time)).rtTimerStart t = some timers') :
    Timed timers' ∧ ∀ u, u ∈ timers'.timerList ↔ u = t ∨ u ∈ timers.timerList := by
  have hcontrol : timers.call (.control t (.setTime time)) =
      some (timers.rtTimerControl t (.setTime time)) := rfl
  have ha := (h.armed.call (by norm_num) le_rfl hcontrol).1
  have hst := started_of_start hs
  have hone : ∀ u, ((timers.rtTimerControl t (.setTime time)).timer u).periodic = false := by
    intro u
    rw [rtTimerControl]
    by_cases hu : u = t
    · subst hu
      simpa using h.oneshot u
    · simpa [setTimer_timer_of_ne hu] using h.oneshot u
  refine ⟨⟨hst.armed ha (by norm_num) le_rfl, fun u => ?_, fun u => ?_⟩, fun u => ?_⟩
  · by_cases hu : u = t
    · subst hu
      rw [hst.self]
      exact hone u
    · rw [hst.others u hu]
      exact hone u
  · by_cases hu : u = t
    · subst hu
      exact hst.flagged ha (by norm_num)
    · have hflag := flagged_call h.armed (by norm_num) (h.flagged u) hcontrol
      exact (hst.untouched ha (by norm_num) hu).flagged hflag
  · rw [hst.mem_iff ha (by norm_num)]
    rfl

theorem start_returns (htime : time.toNat < 2 ^ 31 - 1) :
    ∃ timers', (timers.rtTimerControl t (.setTime time)).rtTimerStart t = some timers' := by
  apply start_enabled
  simpa [rtTimerControl] using htime

/-- A tick calls the timers that are due, once each, and takes them off the list. -/
theorem Timed.tick (h : Timed timers) (hs : timers.rtTickIncrease [] = some (fired, timers')) :
    Timed timers' ∧ fired.Nodup ∧ (∀ u ∈ fired, u ∈ timers.timerList) ∧
      ∀ u, u ∈ timers'.timerList ↔ u ∉ fired ∧ u ∈ timers.timerList := by
  obtain ⟨hc, ha'⟩ := h.armed.rtTickIncrease hs
  have ha := h.armed.advance
  have hquiet : ∀ u, Quiet (T := T) [] u := fun u cs hcs => by cases hcs
  have hcase : ∀ u, (fired.count u = 1 ∧ u ∈ timers.timerList ∧ u ∉ timers'.timerList ∧
        (timers'.timer u).periodic = false) ∨
      (fired.count u = 0 ∧ (u ∈ timers'.timerList ↔ u ∈ timers.timerList) ∧
        (timers'.timer u).periodic = false) := by
    intro u
    by_cases hdue : u ∈ timers.timerList ∧ timers.advance.left u ≤ 0
    · left
      obtain ⟨hcount, hout⟩ := hc.timedOut ha (hquiet u) hdue.1 hdue.2 fun hp => by
        have hone : (timers.advance.timer u).periodic = false := h.oneshot u
        rw [hone] at hp
        cases hp
      obtain ⟨hgone, hrec⟩ := hout.oneshot (h.oneshot u)
      refine ⟨hcount, hdue.1, hgone, ?_⟩
      rw [hrec]
      exact h.oneshot u
    · right
      obtain ⟨hcount, hun⟩ := hc.untouched ha (hquiet u) fun hm => by
        by_contra hle
        exact hdue ⟨hm, by omega⟩
      refine ⟨hcount, hun.listed, ?_⟩
      rw [hun.record]
      exact h.oneshot u
  refine ⟨⟨ha'.mono (by norm_num), fun u => ?_, ?_⟩, ?_, fun u hu => ?_, fun u => ?_⟩
  · obtain ⟨-, -, -, hone⟩ | ⟨-, -, hone⟩ := hcase u
    · exact hone
    · exact hone
  · exact hc.flagged ha h.flagged (by simp)
  · rw [List.nodup_iff_count_le_one]
    intro u
    obtain ⟨hone, -⟩ | ⟨hzero, -⟩ := hcase u <;> omega
  · obtain ⟨-, hm, -⟩ | ⟨hzero, -⟩ := hcase u
    · exact hm
    · exact absurd hu (List.count_eq_zero.mp hzero)
  · obtain ⟨hone, hm, hgone, -⟩ | ⟨hzero, hiff, -⟩ := hcase u
    · have hin : u ∈ fired := List.count_pos_iff.mp (by omega)
      simp [hin, hgone]
    · rw [hiff]
      simp [List.count_eq_zero.mp hzero]

theorem Timed.tick_returns (h : Timed timers) :
    ∃ fired timers', timers.rtTickIncrease [] = some (fired, timers') := by
  have ha := h.armed.advance
  obtain ⟨fired, timers', hc⟩ := check_silent ha fun t _ _ hper => by
    have hone : (timers.advance.timer t).periodic = false := h.oneshot t
    rw [hone] at hper
    cases hper
  exact ⟨fired, timers', checkLoop_of_check ha hc _ (hc.length_le ha)⟩

end NanoAt.Timers
