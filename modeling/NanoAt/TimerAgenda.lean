import NanoAt.TimerSchedule

/-!
# The timers as an agenda

What the timer list is for: a clock that never wraps around, and for each running timer its
deadline and the number of its start. A tick calls the timer of the earliest deadline, and
of those with one deadline the one started first, until none is due. The list of `timer.c`
with its tick modulo 2^32 does the same in every run.

## Main definitions

- `Agenda`, `Agenda.Step` — the timers as an agenda, and one action on it
- `Shows` — the timer list shows an agenda

## Main results

- `TimerSystem.refines_agenda` — every run of the timer list is a run of the agenda
-/

namespace NanoAt

open SerialTime DeadlineList GuardedRun

/-- A timer of the agenda. A running one has a deadline and the number of its start. -/
structure AgendaTimer where
  active : Bool
  periodic : Bool
  time : ℕ
  due : Option (ℕ × ℕ)

/-- The time, the number of starts so far, and the timers. -/
structure Agenda (T : Type) where
  now : ℕ
  starts : ℕ
  timer : T → AgendaTimer

namespace Agenda

variable {T : Type} [DecidableEq T]

def set (a : Agenda T) (t : T) (x : AgendaTimer) : Agenda T :=
  { a with timer := Function.update a.timer t x }

def start (a : Agenda T) (t : T) : Agenda T where
  now := a.now
  starts := a.starts + 1
  timer := Function.update a.timer t { a.timer t with
    active := true
    due := some (a.now + (a.timer t).time, a.starts) }

/-- The timer is off the agenda. -/
def cancel (a : Agenda T) (t : T) : Agenda T := a.set t { a.timer t with due := none }

def stop (a : Agenda T) (t : T) : Agenda T :=
  if (a.timer t).active then (a.cancel t).set t { (a.cancel t).timer t with active := false }
  else a

def control (a : Agenda T) (t : T) : TimerCtrl → Agenda T
  | .setTime time => a.set t { a.timer t with time := time.toNat }
  | .setOneshot => a.set t { a.timer t with periodic := false }
  | .setPeriodic => a.set t { a.timer t with periodic := true }

def call (a : Agenda T) : TimerCall T → Agenda T
  | .start t => a.start t
  | .stop t => a.stop t
  | .control t ctrl => a.control t ctrl

def calls (a : Agenda T) (cs : List (TimerCall T)) : Agenda T := cs.foldl call a

/-- After its function a periodic timer starts again, unless it was stopped. -/
def afterTimeout (a : Agenda T) (t : T) : Agenda T :=
  if (a.timer t).periodic ∧ (a.timer t).active then a.start t
  else a.set t { a.timer t with active := false }

/-- The earliest deadline, of the earliest start among equals. -/
def Next (a : Agenda T) (t : T) (d : ℕ) : Prop :=
  ∃ q, (a.timer t).due = some (d, q) ∧
    ∀ u d' q', (a.timer u).due = some (d', q') → d < d' ∨ d = d' ∧ q ≤ q'

/-- The timeout functions of a tick, which make the calls of the script in turn. -/
inductive Check : Agenda T → List (List (TimerCall T)) → List T → Agenda T → Prop
  | done {a : Agenda T} {script : List (List (TimerCall T))} :
      (∀ t d q, (a.timer t).due = some (d, q) → a.now < d) → Check a script [] a
  | pass {a a' : Agenda T} {t : T} {d : ℕ} {script : List (List (TimerCall T))}
      {fired : List T} :
      a.Next t d → d ≤ a.now →
      Check (((a.cancel t).calls (script.headD [])).afterTimeout t) script.tail fired a' →
      Check a script (t :: fired) a'

/-- One action, and the timers whose functions it calls. -/
inductive Step : TimerAction T → Agenda T → List T → Agenda T → Prop
  | call {a : Agenda T} {c : TimerCall T} : Step (.call c) a [] (a.call c)
  | tick {a a' : Agenda T} {script : List (List (TimerCall T))} {fired : List T} :
      Check { a with now := a.now + 1 } script fired a' → Step (.tick script) a fired a'

/-- The runs from `a₀`, each action with the timers it calls, newest first. -/
inductive Runs (a₀ : Agenda T) : List (TimerAction T × List T) → Agenda T → Prop
  | start : Runs a₀ [] a₀
  | step {trace : List (TimerAction T × List T)} {a a' : Agenda T} {act : TimerAction T}
      {fired : List T} :
      Runs a₀ trace a → Step act a fired a' → Runs a₀ ((act, fired) :: trace) a'

end Agenda

namespace Timers

variable {T : Type} [DecidableEq T] {s s' : Timers T} {a : Agenda T} {t u : T} {lo : ℤ}
  {c : TimerCall T} {cs : List (TimerCall T)} {script : List (List (TimerCall T))}
  {fired : List T}

/-- `u` comes after `t` on the agenda. -/
def Before (a : Agenda T) (t u : T) : Prop :=
  ∀ d q d' q', (a.timer t).due = some (d, q) → (a.timer u).due = some (d', q') →
    d < d' ∨ d = d' ∧ q < q'

/-- The timer list shows an agenda. -/
structure Shows (s : Timers T) (a : Agenda T) : Prop where
  now : s.rtTick = UInt32.ofNat a.now
  active : ∀ t, (a.timer t).active = (s.timer t).activated
  periodic : ∀ t, (a.timer t).periodic = (s.timer t).periodic
  time : ∀ t, (a.timer t).time = (s.timer t).initTick.toNat
  listed : ∀ t, t ∈ s.timerList ↔ ∃ d q, (a.timer t).due = some (d, q)
  left : ∀ t d q, (a.timer t).due = some (d, q) → s.left t = (d : ℤ) - a.now
  fresh : ∀ t d q, (a.timer t).due = some (d, q) → q < a.starts
  ordered : s.timerList.Pairwise (Before a)

@[simp] theorem set_timer_self {x : AgendaTimer} : (a.set t x).timer t = x :=
  Function.update_self ..

theorem set_timer_of_ne {x : AgendaTimer} (h : u ≠ t) : (a.set t x).timer u = a.timer u :=
  Function.update_of_ne h ..

theorem start_timer_of_ne (h : u ≠ t) : (a.start t).timer u = a.timer u :=
  Function.update_of_ne h ..

theorem start_timer_self : (a.start t).timer t = { a.timer t with
    active := true
    due := some (a.now + (a.timer t).time, a.starts) } :=
  Function.update_self ..

/-- Writing the flags and the time of a timer, on both sides. -/
theorem Shows.setTimer {x : Timer} {y : AgendaTimer} (h : Shows s a)
    (hx : x.timeoutTick = (s.timer t).timeoutTick) (hy : y.due = (a.timer t).due)
    (hactive : y.active = x.activated) (hperiodic : y.periodic = x.periodic)
    (htime : y.time = x.initTick.toNat) : Shows (s.setTimer t x) (a.set t y) := by
  have hdue : ∀ u, ((a.set t y).timer u).due = (a.timer u).due := by
    intro u
    by_cases hu : u = t
    · subst hu
      rw [set_timer_self, hy]
    · rw [set_timer_of_ne hu]
  have hrec : ∀ u, ((a.set t y).timer u).active = ((s.setTimer t x).timer u).activated ∧
      ((a.set t y).timer u).periodic = ((s.setTimer t x).timer u).periodic ∧
      ((a.set t y).timer u).time = ((s.setTimer t x).timer u).initTick.toNat := by
    intro u
    by_cases hu : u = t
    · subst hu
      rw [set_timer_self, setTimer_timer_self]
      exact ⟨hactive, hperiodic, htime⟩
    · rw [set_timer_of_ne hu, setTimer_timer_of_ne hu]
      exact ⟨h.active u, h.periodic u, h.time u⟩
  refine ⟨h.now, fun u => (hrec u).1, fun u => (hrec u).2.1, fun u => (hrec u).2.2,
    fun u => ?_, fun u d q hd => ?_, fun u d q hd => ?_, ?_⟩
  · rw [hdue]
    exact h.listed u
  · rw [left_setTimer hx]
    exact h.left u d q (by rwa [← hdue])
  · exact h.fresh u d q (by rwa [← hdue])
  · have hbefore : Before (a.set t y) = Before a := by
      funext u v
      simp only [Before, hdue]
    rw [hbefore]
    exact h.ordered

/-- Taking a timer off the list takes it off the agenda. -/
theorem Shows.remove (h : Shows s a) (ha : s.Armed lo) : Shows (s.remove t) (a.cancel t) := by
  have hself : ((a.cancel t).timer t).due = none := by simp [Agenda.cancel]
  have hne : ∀ u, u ≠ t → (a.cancel t).timer u = a.timer u := fun u hu => set_timer_of_ne hu
  have hdue : ∀ u d q, ((a.cancel t).timer u).due = some (d, q) →
      (a.timer u).due = some (d, q) := by
    intro u d q hd
    by_cases hu : u = t
    · rw [hu, hself] at hd
      cases hd
    · rwa [hne u hu] at hd
  have hrec : ∀ u, ((a.cancel t).timer u).active = (a.timer u).active ∧
      ((a.cancel t).timer u).periodic = (a.timer u).periodic ∧
      ((a.cancel t).timer u).time = (a.timer u).time := by
    intro u
    by_cases hu : u = t
    · simp [hu, Agenda.cancel]
    · simp [hne u hu]
  refine ⟨h.now, fun u => (hrec u).1.trans (h.active u), fun u => (hrec u).2.1.trans (h.periodic u),
    fun u => (hrec u).2.2.trans (h.time u), fun u => ?_, fun u d q hd => h.left u d q (hdue u d q hd),
    fun u d q hd => h.fresh u d q (hdue u d q hd), ?_⟩
  · by_cases hu : u = t
    · simp [hu, hself, ha.nodup.not_mem_erase]
    · rw [remove_timerList, List.mem_erase_of_ne hu, hne u hu]
      exact h.listed u
  · refine (h.ordered.sublist List.erase_sublist).imp fun {v w} hb d q d' q' hd hd' => ?_
    exact hb d q d' q' (hdue v d q hd) (hdue w d' q' hd')

/-- Starting a timer puts it on the agenda, behind those with its deadline. -/
theorem Shows.start (h : Shows s a) (hst : Started s s' t) (ha : s.Armed lo) (hlo : -1 ≤ lo) :
    Shows s' (a.start t) := by
  have hself := hst.left_self
  have hnow : (a.start t).now = a.now := rfl
  have hdue : ∀ u d q, ((a.start t).timer u).due = some (d, q) →
      u = t ∧ d = a.now + (s.timer t).initTick.toNat ∧ q = a.starts ∨
        u ≠ t ∧ (a.timer u).due = some (d, q) := by
    intro u d q hd
    by_cases hu : u = t
    · subst hu
      rw [start_timer_self, Option.some.injEq, Prod.mk.injEq, h.time] at hd
      exact .inl ⟨rfl, hd.1.symm, hd.2.symm⟩
    · rw [start_timer_of_ne hu] at hd
      exact .inr ⟨hu, hd⟩
  have hleft : ∀ u d q, ((a.start t).timer u).due = some (d, q) →
      s'.left u = (d : ℤ) - a.now := by
    intro u d q hd
    rcases hdue u d q hd with ⟨rfl, rfl, -⟩ | ⟨hu, hd⟩
    · rw [hself]
      omega
    · rw [hst.left_others hu]
      exact h.left u d q hd
  have hrec : ∀ u, ((a.start t).timer u).active = (s'.timer u).activated ∧
      ((a.start t).timer u).periodic = (s'.timer u).periodic ∧
      ((a.start t).timer u).time = (s'.timer u).initTick.toNat := by
    intro u
    by_cases hu : u = t
    · subst hu
      rw [start_timer_self, hst.self]
      exact ⟨rfl, h.periodic u, h.time u⟩
    · rw [start_timer_of_ne hu, hst.others u hu]
      exact ⟨h.active u, h.periodic u, h.time u⟩
  refine ⟨by rw [hst.rtTick, h.now, hnow], fun u => (hrec u).1, fun u => (hrec u).2.1,
    fun u => (hrec u).2.2, fun u => ?_, hleft, fun u d q hd => ?_, ?_⟩
  · rw [hst.mem_iff ha hlo]
    by_cases hu : u = t
    · simp [hu, start_timer_self]
    · rw [start_timer_of_ne hu, h.listed u]
      simp [hu]
  · rcases hdue u d q hd with ⟨-, -, rfl⟩ | ⟨-, hd⟩
    · exact Nat.lt_succ_self _
    · exact (h.fresh u d q hd).trans (Nat.lt_succ_self _)
  · have hne : ∀ u ∈ s.timerList.erase t, u ≠ t := by
      rintro u hu rfl
      exact ha.nodup.not_mem_erase hu
    have hord : InOrder s'.left (s.timerList.erase t) :=
      (ha.ordered.sublist List.erase_sublist).congr fun u hu => hst.left_others (hne u hu)
    rw [hst.list_eq ha hlo]
    refine pairwise_insertLate hord ?_ (fun u hu hlt => ?_) fun u hu hle => ?_
    · refine (h.ordered.sublist List.erase_sublist).imp_of_mem fun {v w} hv hw hb => ?_
      intro d q d' q' hd hd'
      rw [start_timer_of_ne (hne v hv)] at hd
      rw [start_timer_of_ne (hne w hw)] at hd'
      exact hb d q d' q' hd hd'
    · intro d q d' q' hd hd'
      rw [hleft t d q hd, hleft u d' q' hd'] at hlt
      omega
    · intro d q d' q' hd hd'
      rw [hleft u d q hd, hleft t d' q' hd'] at hle
      obtain ⟨-, -, rfl⟩ | ⟨htt, -⟩ := hdue t d' q' hd'
      · obtain ⟨hut, -⟩ | ⟨-, hold⟩ := hdue u d q hd
        · exact absurd hut (hne u hu)
        · have hfresh := h.fresh u d q hold
          omega
      · exact absurd rfl htt

theorem Shows.call (h : Shows s a) (ha : s.Armed lo) (hlo : -1 ≤ lo)
    (hs : s.call c = some s') : Shows s' (a.call c) := by
  cases c with
  | start t => exact h.start (started_of_start hs) ha hlo
  | stop t =>
    rw [Timers.call, Option.some.injEq] at hs
    subst hs
    rw [rtTimerStop, Agenda.call, Agenda.stop, h.active t]
    split
    · have hrem : Shows (s.remove t) (a.cancel t) := h.remove ha
      exact hrem.setTimer rfl rfl rfl (hrem.periodic t) (hrem.time t)
    · exact h
  | control t ctrl =>
    rw [Timers.call, Option.some.injEq] at hs
    subst hs
    cases ctrl with
    | setTime time => exact h.setTimer rfl rfl (h.active t) (h.periodic t) rfl
    | setOneshot => exact h.setTimer rfl rfl (h.active t) rfl (h.time t)
    | setPeriodic => exact h.setTimer rfl rfl (h.active t) rfl (h.time t)

theorem Shows.calls (h : Shows s a) (ha : s.Armed lo) (hlo : -1 ≤ lo) (hlo' : lo ≤ 0)
    (hs : s.calls cs = some s') : Shows s' (a.calls cs) := by
  induction cs generalizing s a with
  | nil =>
    rw [Timers.calls, Option.some.injEq] at hs
    exact hs ▸ h
  | cons c cs ih =>
    rw [Timers.calls, Option.bind_eq_some_iff] at hs
    obtain ⟨s₁, hs₁, hs⟩ := hs
    exact ih (h.call ha hlo hs₁) (ha.call hlo hlo' hs₁).1 hs

theorem Shows.afterTimeout (h : Shows s a) (ha : s.Armed lo) (hlo : -1 ≤ lo)
    (hs : s.afterTimeout t = some s') : Shows s' (a.afterTimeout t) := by
  rw [Timers.afterTimeout] at hs
  rw [Agenda.afterTimeout, h.active t, h.periodic t]
  have hoff : Shows (s.setTimer t { s.timer t with activated := false })
      (a.set t { a.timer t with active := false }) :=
    h.setTimer rfl rfl rfl (h.periodic t) (h.time t)
  split at hs
  · next hper =>
    have hst := started_of_start hs
    have hstart := hoff.start hst (ha.setTimer rfl) hlo
    -- the start sets the flag again
    have heq : (a.set t { a.timer t with active := false }).start t = a.start t := by
      rw [Agenda.start, Agenda.start, set_timer_self]
      simp only [Agenda.set, Function.update_idem]
    rw [if_pos hper, ← heq]
    exact hstart
  · next hper =>
    rw [Option.some.injEq] at hs
    subst hs
    rw [if_neg hper]
    exact hoff

omit [DecidableEq T] in
/-- The first timer of the list is the next one of the agenda. -/
theorem Shows.next (h : Shows s a) (hhead : s.timerList.head? = some t) :
    ∃ d, a.Next t d ∧ s.left t = (d : ℤ) - a.now := by
  obtain ⟨l, hlist⟩ := List.head?_eq_some_iff.mp hhead
  obtain ⟨d, q, hd⟩ := (h.listed t).mp (by simp [hlist])
  refine ⟨d, ⟨q, hd, fun u d' q' hd' => ?_⟩, h.left t d q hd⟩
  have hu : u ∈ s.timerList := (h.listed u).mpr ⟨d', q', hd'⟩
  have hord := h.ordered
  rw [hlist] at hu hord
  rcases List.mem_cons.mp hu with rfl | hu
  · rw [hd, Option.some.injEq, Prod.mk.injEq] at hd'
    exact .inr ⟨hd'.1, hd'.2.le⟩
  · have hb := (List.pairwise_cons.mp hord).1 u hu d q d' q' hd hd'
    omega

/-- The passes of `rt_timer_check` are those of the agenda. -/
theorem Shows.check (h : Shows s a) (ha : s.Armed (-1)) (hc : Check s script fired s') :
    ∃ a', Agenda.Check a script fired a' ∧ Shows s' a' := by
  induction hc generalizing a with
  | @done s script hidle =>
    refine ⟨a, .done fun t d q hd => ?_, h⟩
    have hlate := hidle t ((h.listed t).mpr ⟨d, q, hd⟩)
    rw [h.left t d q hd] at hlate
    omega
  | @pass s s₁ s' t script fired hpass hrest ih =>
    obtain ⟨d, hnext, hleft⟩ := h.next hpass.head
    have hdue := hpass.due
    obtain ⟨s₀, hs₀, hs₁⟩ := hpass.run
    have hrem : Shows (s.remove t) (a.cancel t) := h.remove ha
    have hrun := hrem.calls ha.remove le_rfl (by norm_num) hs₀
    have ha₀ := (ha.remove.calls le_rfl (by norm_num) hs₀).1
    obtain ⟨a', hcheck, hshows⟩ := ih (hrun.afterTimeout ha₀ le_rfl hs₁) (hpass.armed ha).1
    exact ⟨a', .pass hnext (by omega) hcheck, hshows⟩

omit [DecidableEq T] in
/-- The tick goes on, whether it wraps around or not. -/
theorem Shows.advance (h : Shows s a) (ha : s.Armed 0) :
    Shows s.advance { a with now := a.now + 1 } := by
  refine ⟨?_, h.active, h.periodic, h.time, h.listed, fun t d q hd => ?_, h.fresh, h.ordered⟩
  · show s.rtTick + 1 = UInt32.ofNat (a.now + 1)
    rw [h.now, UInt32.ofNat_add]
    rfl
  · rw [left_advance ha ((h.listed t).mpr ⟨d, q, hd⟩), h.left t d q hd]
    show (d : ℤ) - a.now - 1 = d - (a.now + 1 : ℕ)
    omega

/-- The agenda of timers of which none is running. -/
def agenda (s : Timers T) : Agenda T where
  now := s.rtTick.toNat
  starts := 0
  timer t := ⟨(s.timer t).activated, (s.timer t).periodic, (s.timer t).initTick.toNat, none⟩

omit [DecidableEq T] in
theorem shows_agenda (hnil : s.timerList = []) : Shows s s.agenda :=
  ⟨UInt32.ofNat_toNat.symm, fun _ => rfl, fun _ => rfl, fun _ => rfl, by simp [hnil, agenda],
    by simp [agenda], by simp [agenda], by simp [hnil]⟩

end Timers

namespace TimerSystem

variable {T : Type} [DecidableEq T] {s s' s₀ : TimerSystem T} {act : TimerAction T}
  {h : History (TimerSystem T) (TimerAction T)} {a : Agenda T}

/-- The actions of a run, each with the timers whose functions it called. -/
def trace : History (TimerSystem T) (TimerAction T) → TimerSystem T →
    List (TimerAction T × List T)
  | [], _ => []
  | (s₀, act) :: h, s => (act, s.fired) :: trace h s₀

/-- An action on the timer list is the action on the agenda. -/
theorem step_shows (hshows : s.timers.Shows a) (ha : s.timers.Armed 0)
    (hs : step act s = some s') :
    ∃ a', Agenda.Step act a s'.fired a' ∧ s'.timers.Shows a' := by
  obtain ⟨c, rfl, hcall, hnone⟩ | ⟨script, rfl, htick⟩ := step_cases hs
  · rw [hnone]
    exact ⟨a.call c, .call, hshows.call ha (by norm_num) hcall⟩
  · have hc := (ha.rtTickIncrease htick).1
    obtain ⟨a', hcheck, hshows'⟩ := (hshows.advance ha).check ha.advance hc
    exact ⟨a', .tick hcheck, hshows'⟩

/-- Every run of the timer list is a run of the agenda: the same timers are called at the same
ticks in the same order, however often the tick wraps around. -/
theorem refines_agenda (h₀ : s₀.Initial) (hr : Run step free (fun s => s = s₀) h s) :
    ∃ a, Agenda.Runs s₀.timers.agenda (trace h s) a ∧ s.timers.Shows a := by
  induction hr with
  | start hs =>
    subst hs
    exact ⟨_, .start, Timers.shows_agenda h₀.1⟩
  | step hr _ hs ih =>
    obtain ⟨a, hruns, hshows⟩ := ih
    have ha := armed_run (fun s hs => hs ▸ h₀) hr
    obtain ⟨a', hstep, hshows'⟩ := step_shows hshows ha hs
    exact ⟨a', hruns.step hstep, hshows'⟩

theorem refines_agenda_wrapped :
    ∃ a : Agenda Unit, Agenda.Runs nearWrap.timers.agenda
      [(.tick [], [()]), (.tick [], []), (.call (.start ()), [])] a := by
  have h₀ : Run step free (fun s => s = nearWrap) [] nearWrap := .start rfl
  have h₁ := h₀.step (a := .call (.start ())) trivial rfl
  have h₂ := h₁.step (a := .tick []) trivial rfl
  have h₃ := h₂.step (a := .tick []) trivial rfl
  obtain ⟨a, hruns, -⟩ := refines_agenda nearWrap_initial h₃
  exact ⟨a, hruns⟩

end TimerSystem

end NanoAt
