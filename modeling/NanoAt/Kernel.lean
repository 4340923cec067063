import NanoAt.State

/-!
# Kernel services

`rt_event_send`, `rt_event_recv`, the scheduler lock and the software timer as they
act on the firmware. They run with interrupts disabled, so each is one step; only
`rt_timer_start` opens a window between its two critical sections.
-/

namespace NanoAt.Sys
open Rx1Event

/-- What a thread's call of `rt_event_recv` waits for. -/
def waiterOf : Thread → Waiter Rx1Event
  | .serial => ⟨{rx1RecEvent}, .and⟩
  | .atProcess => ⟨{rx1ProcessEvent, atTimeoutEvent}, .or⟩
  | .atSendThread => ⟨{atstatusSendEvent}, .and⟩
  | .shell => ⟨{atcmdSendAckOkEvent}, .and⟩

/-- Whether a thread is suspended in `rt_event_recv`. -/
def suspended (s : Sys) : Thread → Prop
  | .serial => s.serial = .suspended
  | .atProcess => s.atProcess = .suspended
  | .atSendThread => s.atSendThread = .suspended
  | .shell => s.shell = .suspended

instance (s : Sys) (t : Thread) : Decidable (s.suspended t) := by
  cases t <;> unfold suspended <;> infer_instance

/-- Whether a thread is ready to run. At the prompt the shell has nothing to run. -/
def ready (s : Sys) (t : Thread) : Prop := ¬ s.suspended t ∧ (t = .shell → s.shell ≠ .prompt)

instance (s : Sys) (t : Thread) : Decidable (s.ready t) := by
  unfold ready; infer_instance

/-- Return from `rt_event_recv` with the received bits: the statement a thread goes on with. -/
def resume (s : Sys) (received : Finset Rx1Event) : Thread → Sys
  | .serial => { s with serial := .loop }
  | .atProcess => { s with atProcess := .dispatch, e := received }
  | .atSendThread => { s with atSendThread := .compare }
  | .shell => { s with shell := .advance }

/-- Suspension in `rt_event_recv`. -/
def suspend (s : Sys) : Thread → Sys
  | .serial => { s with serial := .suspended }
  | .atProcess => { s with atProcess := .suspended }
  | .atSendThread => { s with atSendThread := .suspended }
  | .shell => { s with shell := .suspended }

/-- One round of the loop of `rt_event_send` over the suspended threads. -/
def wake (s : Sys) (t : Thread) : Sys :=
  if s.suspended t then
    match (waiterOf t).take s.rx1Event with
    | some (received, rest) => { s with rx1Event := rest }.resume received t
    | none => s
  else s

/-- `rt_event_send(&rx1_event, set)`. No two threads wait for one bit, so the order of
the suspended threads does not matter. -/
def rtEventSend (s : Sys) (set : Finset Rx1Event) : Sys :=
  [Thread.serial, .atProcess, .atSendThread, .shell].foldl wake
    { s with rx1Event := s.rx1Event ∪ set }

/-- A thread's call of `rt_event_recv(&rx1_event, ..)`, waiting forever. -/
def rtEventRecv (s : Sys) (t : Thread) : Sys :=
  match eventRecv (waiterOf t).eventInfo (waiterOf t).eventSet s.rx1Event with
  | some (received, rest) => { s with rx1Event := rest }.resume received t
  | none => s.suspend t

/-- `rt_enter_critical`. -/
def rtEnterCritical (s : Sys) : Sys :=
  { s with rtSchedulerLockNest := s.rtSchedulerLockNest + 1 }

/-- `rt_exit_critical`. -/
def rtExitCritical (s : Sys) : Sys :=
  { s with rtSchedulerLockNest := s.rtSchedulerLockNest - 1 }

/-- The first critical section of `rt_timer_start(&timer2)`, which takes the timer off
the timer list. -/
def rtTimerRemove (s : Sys) : Sys := { s with timer2 := false }

/-- The second critical section of `rt_timer_start(&timer2)`, which puts the timer back
and marks it active. -/
def rtTimerInsert (s : Sys) : Sys := { s with timer2 := true }

/-- `rt_timer_stop(&timer2)`. -/
def rtTimerStop (s : Sys) : Sys := { s with timer2 := false }

/-- The scheduler's choice: the ready thread of highest priority runs, or, while the
scheduler is locked, the thread that holds the processor. -/
def scheduled (s : Sys) (t : Thread) : Prop :=
  s.ready t ∧
    if s.rtSchedulerLockNest = 0 then ∀ u : Thread, u.priority < t.priority → ¬ s.ready u
    else s.rtCurrentThread = t

instance (s : Sys) (t : Thread) : Decidable (s.scheduled t) := by
  unfold scheduled; infer_instance

end NanoAt.Sys
