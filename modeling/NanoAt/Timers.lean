import NanoAt.Lib.SerialTime
import NanoAt.Lib.DeadlineList
import NanoAt.Lib.GuardedRun

/-!
# Hard timers

`timer.c` and the tick of `clock.c` for timers of the hard list. With
`RT_TIMER_SKIP_LIST_LEVEL` at one the list has one row. Timers are named by an arbitrary
type; a timeout function is whatever calls of the timer interface it makes.

Each call is one step. `rt_timer_start` and `rt_timer_stop` enable interrupts between taking
the timer off the list and the rest of their work; no tick comes in between here.

## Main definitions

- `Timer`, `Timers` — `struct rt_timer`, the timer list and `rt_tick`
- `rtTimerStart`, `rtTimerStop`, `rtTimerControl` — the timer interface
- `rtTimerCheck`, `rtTickIncrease` — the tick interrupt
- `TimerAction` — a call of the interface, or a tick with what its timeout functions do
-/

namespace NanoAt

open SerialTime DeadlineList GuardedRun

/-- `RT_TICK_MAX / 2`. -/
abbrev rtTickHalf : UInt32 := 0x7FFFFFFF

/-- `struct rt_timer`: its flags and its ticks. -/
structure Timer where
  activated : Bool
  periodic : Bool
  timeoutTick : UInt32
  initTick : UInt32
  deriving DecidableEq, Repr

/-- `rt_tick`, `rt_timer_list` and the timers. -/
structure Timers (T : Type) where
  rtTick : UInt32
  timerList : List T
  timer : T → Timer

/-- `cmd` and `arg` of `rt_timer_control`. -/
inductive TimerCtrl where
  | setTime (time : UInt32)
  | setOneshot
  | setPeriodic
  deriving DecidableEq, Repr

namespace Timers

variable {T : Type} [DecidableEq T]

/-- A timer is written. -/
def setTimer (s : Timers T) (t : T) (x : Timer) : Timers T :=
  { s with timer := Function.update s.timer t x }

/-- The place in the list that `rt_timer_start` finds for `t`. -/
def rowInsert (timer : T → Timer) (t : T) : List T → List T
  | [] => [t]
  | p :: l =>
    if (timer p).timeoutTick - (timer t).timeoutTick = 0 then p :: rowInsert timer t l
    else if (timer p).timeoutTick - (timer t).timeoutTick < rtTickHalf then t :: p :: l
    else p :: rowInsert timer t l

/-- `_rt_timer_remove`. -/
def remove (s : Timers T) (t : T) : Timers T := { s with timerList := s.timerList.erase t }

/-- `rt_timer_start`; `none` when the assertion on the time fails. -/
def rtTimerStart (s : Timers T) (t : T) : Option (Timers T) :=
  let s := s.remove t
  let s := s.setTimer t { s.timer t with activated := false }
  if (s.timer t).initTick < rtTickHalf then
    let s := s.setTimer t { s.timer t with timeoutTick := s.rtTick + (s.timer t).initTick }
    let s := { s with timerList := rowInsert s.timer t s.timerList }
    some (s.setTimer t { s.timer t with activated := true })
  else none

/-- `rt_timer_stop`; `false` stands for `-RT_ERROR`. -/
def rtTimerStop (s : Timers T) (t : T) : Bool × Timers T :=
  if (s.timer t).activated then
    let s := s.remove t
    (true, s.setTimer t { s.timer t with activated := false })
  else (false, s)

/-- The setting commands of `rt_timer_control`. -/
def rtTimerControl (s : Timers T) (t : T) : TimerCtrl → Timers T
  | .setTime time => s.setTimer t { s.timer t with initTick := time }
  | .setOneshot => s.setTimer t { s.timer t with periodic := false }
  | .setPeriodic => s.setTimer t { s.timer t with periodic := true }

end Timers

/-- A call of the timer interface. -/
inductive TimerCall (T : Type) where
  | start (t : T)
  | stop (t : T)
  | control (t : T) (ctrl : TimerCtrl)
  deriving DecidableEq

/-- The timer a call is about. -/
def TimerCall.timer {T : Type} : TimerCall T → T
  | .start t | .stop t | .control t _ => t

namespace Timers

variable {T : Type} [DecidableEq T]

def call (s : Timers T) : TimerCall T → Option (Timers T)
  | .start t => s.rtTimerStart t
  | .stop t => some (s.rtTimerStop t).2
  | .control t ctrl => some (s.rtTimerControl t ctrl)

/-- The calls of one timeout function. -/
def calls (s : Timers T) : List (TimerCall T) → Option (Timers T)
  | [] => some s
  | c :: cs => (s.call c).bind fun s => s.calls cs

/-- What `rt_timer_check` does after a timeout function. -/
def afterTimeout (s : Timers T) (t : T) : Option (Timers T) :=
  if (s.timer t).periodic ∧ (s.timer t).activated then
    (s.setTimer t { s.timer t with activated := false }).rtTimerStart t
  else some (s.setTimer t { s.timer t with activated := false })

/-- The loop of `rt_timer_check`, the timeout functions it calls making the calls of
`script` in turn: the timers whose function is called, and the timers afterwards. -/
def checkLoop (s : Timers T) : ℕ → List (List (TimerCall T)) → Option (List T × Timers T)
  | 0, _ => none
  | fuel + 1, script =>
    match s.timerList with
    | [] => some ([], s)
    | t :: _ =>
      if s.rtTick - (s.timer t).timeoutTick < rtTickHalf then
        ((s.remove t).calls (script.headD [])).bind fun s =>
          (s.afterTimeout t).bind fun s =>
            (s.checkLoop fuel script.tail).map fun r => (t :: r.1, r.2)
      else some ([], s)

/-- Passes of the loop when no timer is due again in the tick it was called in, but for
those that the timeout functions start. -/
def passes (s : Timers T) (script : List (List (TimerCall T))) : ℕ :=
  s.timerList.length + script.length + (script.map List.length).sum + 1

/-- `rt_timer_check`. -/
def rtTimerCheck (s : Timers T) (script : List (List (TimerCall T))) :
    Option (List T × Timers T) :=
  s.checkLoop (s.passes script) script

/-- The part of `rt_tick_increase` that is about time. -/
def rtTickIncrease (s : Timers T) (script : List (List (TimerCall T))) :
    Option (List T × Timers T) :=
  { s with rtTick := s.rtTick + 1 }.rtTimerCheck script

end Timers

/-- A call of the interface outside the tick interrupt, or a tick and what the timeout
functions do that it calls. -/
inductive TimerAction (T : Type) where
  | call (c : TimerCall T)
  | tick (script : List (List (TimerCall T)))
  deriving DecidableEq

/-- The timers, and those whose function the last action called. -/
structure TimerSystem (T : Type) where
  timers : Timers T
  fired : List T

/-- One action on the timers. -/
def TimerSystem.step {T : Type} [DecidableEq T] (a : TimerAction T) (s : TimerSystem T) :
    Option (TimerSystem T) :=
  match a with
  | .call c => (s.timers.call c).map fun timers => ⟨timers, []⟩
  | .tick script => (s.timers.rtTickIncrease script).map fun r => ⟨r.2, r.1⟩

end NanoAt
