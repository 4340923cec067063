import NanoAt.Scheduler

/-!
# Events, semaphores and mutexes

The part of `ipc.c` that this configuration uses, over the scheduler. Each function is one
critical section; the call of `rt_schedule` behind it is a step of its own. A function that
suspends its caller has no result yet: the caller finds it in `error` and `event_set` when
it runs again.

## Main definitions

- `RtMutex`, `Rtos` — `struct rt_mutex`, and the scheduler with the IPC objects
- `rtEventSend`, `rtEventRecv`, `rtSemTake`, `rtSemRelease`, `rtMutexTake`, `rtMutexRelease`
- `RtCall`, `RtAction`, `Rtos.step` — the calls of threads and interrupts, `rt_schedule`, and the tick
-/

namespace NanoAt

open DeadlineList

/-- `RT_IPC_FLAG_FIFO` or `RT_IPC_FLAG_PRIO`. -/
inductive IpcFlag where
  | fifo
  | prio
  deriving DecidableEq, Repr

/-- `struct rt_mutex`; no `originalPriority` is 0xff. -/
structure RtMutex (T : Type) where
  value : UInt16
  originalPriority : Option (Fin 32)
  hold : UInt8
  owner : Option T

/-- The scheduler and the IPC objects. -/
structure Rtos (T B : Type) where
  scheduler : Scheduler T B
  ipcFlag : IpcName → IpcFlag
  event : ℕ → Finset B
  sem : ℕ → UInt16
  mutex : ℕ → RtMutex T

section Waiting

variable {T B : Type} [DecidableEq T]

/-- `rt_ipc_list_suspend`. -/
def rtIpcListSuspend (s : Scheduler T B) (i : IpcName) (t : T) (flag : IpcFlag) :
    Scheduler T B :=
  let s := (s.rtThreadSuspend t).2
  match flag with
  | .fifo => s.append (.suspend i) t
  | .prio =>
    let list := insertLate (fun u => (s.thread u).currentPriority) t (s.list (.suspend i))
    { s with list := Queues.put s.list (.suspend i) list }

/-- Suspension with a waiting time; the timer runs if the time is positive. -/
def wait (s : Scheduler T B) (i : IpcName) (t : T) (flag : IpcFlag) (time : ℤ) :
    Option (Scheduler T B) :=
  let s := rtIpcListSuspend s i t flag
  if 0 < time then s.startTimer t (UInt32.ofNat time.toNat) else some s

/-- One round of `rt_ipc_list_resume_all`. -/
def resumeWithError (s : Scheduler T B) (t : T) : Scheduler T B :=
  ((s.setThread t { s.thread t with error := .error }).rtThreadResume t).2

/-- `rt_ipc_list_resume_all`. -/
def rtIpcListResumeAll (s : Scheduler T B) (i : IpcName) : Scheduler T B :=
  (s.list (.suspend i)).foldl resumeWithError s

end Waiting

namespace Rtos

variable {T B : Type} [DecidableEq T] [DecidableEq B]

/-- The running thread. -/
abbrev current (s : Rtos T B) : T := s.scheduler.rtCurrentThread

/-- `error` of a thread is written. -/
def setError (s : Rtos T B) (t : T) (err : RtErr) : Rtos T B :=
  { s with scheduler := s.scheduler.setThread t { s.scheduler.thread t with error := err } }

/-- One round of the loop of `rt_event_send`. -/
def eventWake (n : ℕ) (s : Rtos T B) (t : T) : Rtos T B :=
  let x := s.scheduler.thread t
  if x.eventInfo.flag.satisfied x.eventSet (s.event n) then
    let received := match x.eventInfo.flag with
      | .and => x.eventSet
      | .or => x.eventSet ∩ s.event n
    let event := if x.eventInfo.clear then s.event n \ received else s.event n
    { s with
      scheduler := ((s.scheduler.setThread t { x with eventSet := received }).rtThreadResume t).2
      event := Function.update s.event n event }
  else s

/-- `rt_event_send`. The loop reads the next thread before it resumes one, so it goes through
the list as it stood. -/
def rtEventSend (s : Rtos T B) (n : ℕ) (set : Finset B) : RtErr × Rtos T B :=
  if set = ∅ then (.error, s)
  else
    let s := { s with event := Function.update s.event n (s.event n ∪ set) }
    (.eok, (s.scheduler.list (.suspend (.event n))).foldl (eventWake n) s)

/-- `rt_event_recv`, with the bits received. -/
def rtEventRecv (s : Rtos T B) (n : ℕ) (set : Finset B) (option : EventInfo) (timeout : ℤ) :
    Option (Option (RtErr × Finset B) × Rtos T B) :=
  if set = ∅ then some (some (.error, ∅), s)
  else
    let t := s.current
    let s := s.setError t .eok
    if option.flag.satisfied set (s.event n) then
      let event := if option.clear then s.event n \ set else s.event n
      some (some (.eok, s.event n ∩ set), { s with event := Function.update s.event n event })
    else if timeout = 0 then some (some (.etimeout, ∅), s.setError t .etimeout)
    else
      let x := s.scheduler.thread t
      let scheduler := s.scheduler.setThread t { x with eventSet := set, eventInfo := option }
      (wait scheduler (.event n) t (s.ipcFlag (.event n)) timeout).map fun scheduler =>
        (none, { s with scheduler := scheduler })

/-- `rt_event_control` with `RT_IPC_CMD_RESET`. -/
def rtEventControl (s : Rtos T B) (n : ℕ) : Rtos T B :=
  { s with
    scheduler := rtIpcListResumeAll s.scheduler (.event n)
    event := Function.update s.event n ∅ }

/-- `rt_sem_take`. -/
def rtSemTake (s : Rtos T B) (n : ℕ) (time : ℤ) : Option (Option RtErr × Rtos T B) :=
  if 0 < s.sem n then
    some (some .eok, { s with sem := Function.update s.sem n (s.sem n - 1) })
  else if time = 0 then some (some .etimeout, s)
  else
    let t := s.current
    let s := s.setError t .eok
    (wait s.scheduler (.sem n) t (s.ipcFlag (.sem n)) time).map fun scheduler =>
      (none, { s with scheduler := scheduler })

/-- `rt_sem_release`. -/
def rtSemRelease (s : Rtos T B) (n : ℕ) : Rtos T B :=
  match s.scheduler.list (.suspend (.sem n)) with
  | t :: _ => { s with scheduler := (s.scheduler.rtThreadResume t).2 }
  | [] => { s with sem := Function.update s.sem n (s.sem n + 1) }

/-- `rt_sem_control` with `RT_IPC_CMD_RESET`. -/
def rtSemControl (s : Rtos T B) (n : ℕ) (value : UInt16) : Rtos T B :=
  { s with
    scheduler := rtIpcListResumeAll s.scheduler (.sem n)
    sem := Function.update s.sem n value }

/-- A mutex is written. -/
def setMutex (s : Rtos T B) (n : ℕ) (m : RtMutex T) : Rtos T B :=
  { s with mutex := Function.update s.mutex n m }

/-- The owner of a mutex gets the priority of a thread that waits for it, if that is higher. -/
def raisePriority (s : Scheduler T B) (owner : T) (priority : Fin 32) : Scheduler T B :=
  if priority < (s.thread owner).currentPriority then s.rtThreadControl owner priority else s

/-- `rt_mutex_take`; `none` when it reads the owner of a mutex that has none. -/
def rtMutexTake (s : Rtos T B) (n : ℕ) (time : ℤ) : Option (Option RtErr × Rtos T B) :=
  let t := s.current
  let s := s.setError t .eok
  let m := s.mutex n
  if m.owner = some t then some (some .eok, s.setMutex n { m with hold := m.hold + 1 })
  else if 0 < m.value then
    let m := { m with
      value := m.value - 1
      owner := some t
      originalPriority := some (s.scheduler.thread t).currentPriority
      hold := m.hold + 1 }
    some (some .eok, s.setMutex n m)
  else if time = 0 then some (some .etimeout, s.setError t .etimeout)
  else
    m.owner.bind fun owner =>
      let scheduler := raisePriority s.scheduler owner (s.scheduler.thread t).currentPriority
      (wait scheduler (.mutex n) t (s.ipcFlag (.mutex n)) time).map fun scheduler =>
        (none, { s with scheduler := scheduler })

/-- The owner of a mutex gets its priority back. -/
def restorePriority (s : Scheduler T B) (owner : T) (originalPriority : Option (Fin 32)) :
    Scheduler T B :=
  match originalPriority with
  | some p => if p ≠ (s.thread owner).currentPriority then s.rtThreadControl owner p else s
  | none => s

/-- `rt_mutex_release` when the owner holds the mutex no more. -/
def handOver (s : Rtos T B) (n : ℕ) : Rtos T B :=
  let m := s.mutex n
  match s.scheduler.list (.suspend (.mutex n)) with
  | w :: _ =>
    let m := { m with
      owner := some w
      originalPriority := some (s.scheduler.thread w).currentPriority
      hold := m.hold + 1 }
    { s with scheduler := (s.scheduler.rtThreadResume w).2 }.setMutex n m
  | [] => s.setMutex n { m with value := m.value + 1, owner := none, originalPriority := none }

/-- `rt_mutex_release`. -/
def rtMutexRelease (s : Rtos T B) (n : ℕ) : RtErr × Rtos T B :=
  let t := s.current
  let m := s.mutex n
  if m.owner = some t then
    let s := s.setMutex n { m with hold := m.hold - 1 }
    if (s.mutex n).hold = 0 then
      let scheduler := restorePriority s.scheduler t m.originalPriority
      (.eok, { s with scheduler := scheduler }.handOver n)
    else (.eok, s)
  else (.error, s.setError t .error)

end Rtos

/-- The calls of the kernel. -/
inductive RtCall (T B : Type) where
  | startup (t : T)
  | yield
  | sleep (tick : UInt32)
  | suspend (t : T)
  | resume (t : T)
  | control (t : T) (priority : Fin 32)
  | exit
  | enterCritical
  | exitCritical
  | eventSend (n : ℕ) (set : Finset B)
  | eventRecv (n : ℕ) (set : Finset B) (option : EventInfo) (timeout : ℤ)
  | eventControl (n : ℕ)
  | semTake (n : ℕ) (time : ℤ)
  | semRelease (n : ℕ)
  | semControl (n : ℕ) (value : UInt16)
  | mutexTake (n : ℕ) (time : ℤ)
  | mutexRelease (n : ℕ)

/-- A call of a thread or an interrupt, `rt_schedule`, or a tick. -/
inductive RtAction (T B : Type) where
  | call (c : RtCall T B)
  | schedule
  | tick

/-- The calls that a thread makes for itself. -/
def RtCall.OfCurrent {T B : Type} : RtCall T B → Prop
  | .yield | .sleep _ | .exit | .eventRecv .. | .semTake .. | .mutexTake .. | .mutexRelease _ => True
  | _ => False

instance {T B : Type} : DecidablePred (RtCall.OfCurrent (T := T) (B := B))
  | .yield | .sleep _ | .exit | .eventRecv .. | .semTake .. | .mutexTake .. | .mutexRelease _ =>
    isTrue trivial
  | .startup _ | .suspend _ | .resume _ | .control .. | .enterCritical | .exitCritical |
    .eventSend .. | .eventControl _ | .semRelease _ | .semControl .. => isFalse id

namespace Rtos

variable {T B : Type} [DecidableEq T] [DecidableEq B]

/-- One call; `none` when an assertion other than those on the type of a thread fails. -/
def call (s : Rtos T B) : RtCall T B → Option (Rtos T B)
  | .startup t => (s.scheduler.rtThreadStartup t).map fun scheduler =>
      { s with scheduler := scheduler }
  | .yield => some { s with scheduler := s.scheduler.rtThreadYield }
  | .sleep tick => (s.scheduler.rtThreadSleep tick).map fun scheduler =>
      { s with scheduler := scheduler }
  | .suspend t => some { s with scheduler := (s.scheduler.rtThreadSuspend t).2 }
  | .resume t => some { s with scheduler := (s.scheduler.rtThreadResume t).2 }
  | .control t priority => some { s with scheduler := s.scheduler.rtThreadControl t priority }
  | .exit => some { s with scheduler := s.scheduler.rtThreadExit }
  | .enterCritical => some { s with scheduler := s.scheduler.rtEnterCritical }
  | .exitCritical => some { s with scheduler := s.scheduler.rtExitCritical }
  | .eventSend n set => some (s.rtEventSend n set).2
  | .eventRecv n set option timeout => (s.rtEventRecv n set option timeout).map Prod.snd
  | .eventControl n => some (s.rtEventControl n)
  | .semTake n time => (s.rtSemTake n time).map Prod.snd
  | .semRelease n => some (s.rtSemRelease n)
  | .semControl n value => some (s.rtSemControl n value)
  | .mutexTake n time => (s.rtMutexTake n time).map Prod.snd
  | .mutexRelease n => some (s.rtMutexRelease n).2

/-- One action up to the assertions on the type of a thread. The calls a thread makes for itself
need it ready: once it is suspended it makes none until `rt_schedule` has run another thread. -/
def act (s : Rtos T B) : RtAction T B → Option (Rtos T B)
  | .call c =>
    if c.OfCurrent → (s.scheduler.thread s.current).stat = .ready then s.call c else none
  | .schedule => s.scheduler.rtSchedule.map fun scheduler => { s with scheduler := scheduler }
  | .tick => s.scheduler.rtTickIncrease.map fun scheduler => { s with scheduler := scheduler }

/-- One action; `none` when an assertion fails. -/
def step (a : RtAction T B) (s : Rtos T B) : Option (Rtos T B) :=
  (s.act a).filter fun s => !s.scheduler.halted

end Rtos

end NanoAt
