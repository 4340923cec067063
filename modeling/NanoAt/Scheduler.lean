import NanoAt.Event
import NanoAt.Timers
import NanoAt.Lib.Queues

/-!
# Threads and the scheduler

`scheduler.c`, `thread.c` and the time slice of `clock.c`, with `__rt_ffs` of `kservice.c`.
The threads are those of `rt_thread_init`. A thread has one list node, `tlist`, which links it
into the ready list of a priority or into the suspend list of an IPC object.

Each function is one step; where the source enables interrupts before it calls `rt_schedule`,
that call is a step of its own. The source has windows inside three of the steps:
`rt_thread_suspend` and `rt_thread_resume` test the state of the thread before they disable
interrupts, `rt_thread_resume` enables them between taking the thread from its list and
inserting it into the ready list, and `rt_thread_startup` sets the state before it resumes the
thread. No interrupt comes in these windows here.

## Main definitions

- `RtThread`, `Scheduler` — `struct rt_thread`, and the threads with their lists
- `rtFfs` — `__rt_ffs`
- `rtScheduleInsertThread`, `rtScheduleRemoveThread`, `rtSchedule` — the scheduler
- `rtThreadSuspend`, `rtThreadResume`, `rtThreadTimeout`, ... — the thread interface
-/

namespace NanoAt

open DeadlineList

/-- `type` of a thread object: `RT_Object_Class_Thread`, or zero. -/
inductive ObjectType where
  | null
  | thread
  deriving DecidableEq, Repr

/-- `RT_THREAD_STAT_MASK` of `stat`. -/
inductive ThreadStat where
  | init
  | ready
  | suspend
  | close
  deriving DecidableEq, Repr

/-- The error codes that the modelled functions return. -/
inductive RtErr where
  | eok
  | error
  | etimeout
  deriving DecidableEq, Repr

/-- `event_info`: the condition, and `RT_EVENT_FLAG_CLEAR`. -/
structure EventInfo where
  flag : EventFlag
  clear : Bool
  deriving DecidableEq, Repr

/-- `struct rt_thread`. A priority is below `RT_THREAD_PRIORITY_MAX`. -/
structure RtThread (B : Type) where
  type : ObjectType
  stat : ThreadStat
  initPriority : Fin 32
  currentPriority : Fin 32
  numberMask : BitVec 32
  initTick : UInt32
  remainingTick : UInt32
  error : RtErr
  eventSet : Finset B
  eventInfo : EventInfo

/-- The IPC objects. -/
inductive IpcName where
  | event (n : ℕ)
  | sem (n : ℕ)
  | mutex (n : ℕ)
  deriving DecidableEq, Repr

/-- The lists that `tlist` may be in: `rt_thread_priority_table[p]`, or the `suspend_thread`
of an IPC object. -/
inductive ThreadList where
  | ready (p : Fin 32)
  | suspend (i : IpcName)
  deriving DecidableEq, Repr

/-- The threads, the lists they are in, the scheduler and the thread timers. `halted` tells that
an assertion on the type of a thread has failed, and `rt_assert_handler` runs forever. -/
structure Scheduler (T B : Type) where
  thread : T → RtThread B
  list : ThreadList → List T
  rtThreadReadyPriorityGroup : BitVec 32
  rtCurrentThread : T
  rtSchedulerLockNest : Int16
  threadTimers : Timers T
  halted : Bool

/-- `__lowest_bit_bitmap`. -/
def lowestBitBitmap : List ℕ :=
  [0, 0, 1, 0, 2, 0, 1, 0, 3, 0, 1, 0, 2, 0, 1, 0,
   4, 0, 1, 0, 2, 0, 1, 0, 3, 0, 1, 0, 2, 0, 1, 0,
   5, 0, 1, 0, 2, 0, 1, 0, 3, 0, 1, 0, 2, 0, 1, 0,
   4, 0, 1, 0, 2, 0, 1, 0, 3, 0, 1, 0, 2, 0, 1, 0,
   6, 0, 1, 0, 2, 0, 1, 0, 3, 0, 1, 0, 2, 0, 1, 0,
   4, 0, 1, 0, 2, 0, 1, 0, 3, 0, 1, 0, 2, 0, 1, 0,
   5, 0, 1, 0, 2, 0, 1, 0, 3, 0, 1, 0, 2, 0, 1, 0,
   4, 0, 1, 0, 2, 0, 1, 0, 3, 0, 1, 0, 2, 0, 1, 0,
   7, 0, 1, 0, 2, 0, 1, 0, 3, 0, 1, 0, 2, 0, 1, 0,
   4, 0, 1, 0, 2, 0, 1, 0, 3, 0, 1, 0, 2, 0, 1, 0,
   5, 0, 1, 0, 2, 0, 1, 0, 3, 0, 1, 0, 2, 0, 1, 0,
   4, 0, 1, 0, 2, 0, 1, 0, 3, 0, 1, 0, 2, 0, 1, 0,
   6, 0, 1, 0, 2, 0, 1, 0, 3, 0, 1, 0, 2, 0, 1, 0,
   4, 0, 1, 0, 2, 0, 1, 0, 3, 0, 1, 0, 2, 0, 1, 0,
   5, 0, 1, 0, 2, 0, 1, 0, 3, 0, 1, 0, 2, 0, 1, 0,
   4, 0, 1, 0, 2, 0, 1, 0, 3, 0, 1, 0, 2, 0, 1, 0]

/-- `__rt_ffs`. -/
def rtFfs (value : BitVec 32) : ℕ :=
  if value = 0 then 0
  else if value &&& 0xff ≠ 0 then lowestBitBitmap.getD (value &&& 0xff).toNat 0 + 1
  else if value &&& 0xff00 ≠ 0 then
    lowestBitBitmap.getD ((value &&& 0xff00) >>> 8).toNat 0 + 9
  else if value &&& 0xff0000 ≠ 0 then
    lowestBitBitmap.getD ((value &&& 0xff0000) >>> 16).toNat 0 + 17
  else lowestBitBitmap.getD ((value &&& 0xff000000) >>> 24).toNat 0 + 25

namespace Scheduler

variable {T B : Type} [DecidableEq T]

/-- A thread is written. -/
def setThread (s : Scheduler T B) (t : T) (x : RtThread B) : Scheduler T B :=
  { s with thread := Function.update s.thread t x }

/-- `RT_ASSERT(rt_object_get_type((rt_object_t)thread) == RT_Object_Class_Thread)`. -/
def assertType (s : Scheduler T B) (t : T) : Scheduler T B :=
  { s with halted := s.halted || (s.thread t).type != .thread }

/-- `rt_object_detach`. -/
def rtObjectDetach (s : Scheduler T B) (t : T) : Scheduler T B :=
  s.setThread t { s.thread t with type := .null }

/-- `rt_list_remove(&(thread->tlist))`. -/
def unlink (s : Scheduler T B) (t : T) : Scheduler T B := { s with list := Queues.unlink s.list t }

/-- `rt_list_insert_before` the head of a list. -/
def append (s : Scheduler T B) (i : ThreadList) (t : T) : Scheduler T B :=
  { s with list := Queues.put s.list i (s.list i ++ [t]) }

/-- `rt_schedule_insert_thread`. -/
def rtScheduleInsertThread (s : Scheduler T B) (t : T) : Scheduler T B :=
  let s := s.setThread t { s.thread t with stat := .ready }
  let s := s.append (.ready (s.thread t).currentPriority) t
  { s with rtThreadReadyPriorityGroup := s.rtThreadReadyPriorityGroup ||| (s.thread t).numberMask }

/-- `rt_schedule_remove_thread`. -/
def rtScheduleRemoveThread (s : Scheduler T B) (t : T) : Scheduler T B :=
  let s := s.unlink t
  if s.list (.ready (s.thread t).currentPriority) = [] then
    { s with
      rtThreadReadyPriorityGroup := s.rtThreadReadyPriorityGroup &&& ~~~ (s.thread t).numberMask }
  else s

/-- `rt_schedule`; `none` when it reads past its table or takes a list head for a thread. -/
def rtSchedule (s : Scheduler T B) : Option (Scheduler T B) :=
  if s.rtSchedulerLockNest = 0 then
    match rtFfs s.rtThreadReadyPriorityGroup with
    | 0 => none
    | p + 1 =>
      if h : p < 32 then
        (s.list (.ready ⟨p, h⟩)).head?.map fun t => { s with rtCurrentThread := t }
      else none
  else some s

/-- `rt_enter_critical`. -/
def rtEnterCritical (s : Scheduler T B) : Scheduler T B :=
  { s with rtSchedulerLockNest := s.rtSchedulerLockNest + 1 }

/-- `rt_exit_critical` as far as its call of `rt_schedule`. -/
def rtExitCritical (s : Scheduler T B) : Scheduler T B :=
  let nest := s.rtSchedulerLockNest - 1
  { s with rtSchedulerLockNest := if nest ≤ 0 then 0 else nest }

/-- `rt_timer_stop(&(thread->thread_timer))`. -/
def stopTimer (s : Scheduler T B) (t : T) : Scheduler T B :=
  { s with threadTimers := (s.threadTimers.rtTimerStop t).2 }

/-- `rt_timer_control(&(thread->thread_timer), RT_TIMER_CTRL_SET_TIME, &time)` and
`rt_timer_start(&(thread->thread_timer))`. -/
def startTimer (s : Scheduler T B) (t : T) (time : UInt32) : Option (Scheduler T B) :=
  ((s.threadTimers.rtTimerControl t (.setTime time)).rtTimerStart t).map fun timers =>
    { s with threadTimers := timers }

/-- `rt_thread_suspend`. -/
def rtThreadSuspend (s : Scheduler T B) (t : T) : RtErr × Scheduler T B :=
  let s := s.assertType t
  if (s.thread t).stat = .ready then
    let s := s.setThread t { s.thread t with stat := .suspend }
    (.eok, (s.rtScheduleRemoveThread t).stopTimer t)
  else (.error, s)

/-- `rt_thread_resume`. -/
def rtThreadResume (s : Scheduler T B) (t : T) : RtErr × Scheduler T B :=
  let s := s.assertType t
  if (s.thread t).stat = .suspend then
    (.eok, ((s.unlink t).stopTimer t).rtScheduleInsertThread t)
  else (.error, s)

/-- `rt_thread_startup`; `none` when the assertion on the state fails. -/
def rtThreadStartup (s : Scheduler T B) (t : T) : Option (Scheduler T B) :=
  if (s.thread t).stat = .init then
    let s := s.assertType t
    let s := s.setThread t { s.thread t with
      currentPriority := (s.thread t).initPriority
      numberMask := BitVec.twoPow 32 (s.thread t).initPriority
      stat := .suspend }
    some (s.rtThreadResume t).2
  else none

/-- `rt_thread_exit` as far as its call of `rt_schedule`. -/
def rtThreadExit (s : Scheduler T B) : Scheduler T B :=
  let t := s.rtCurrentThread
  let s := s.rtScheduleRemoveThread t
  let s := s.setThread t { s.thread t with stat := .close }
  let s := { s with threadTimers := s.threadTimers.remove t }
  s.rtObjectDetach t

/-- The test of `rt_thread_yield`: the nodes next to a ready thread's differ when another
thread is in its list. -/
def Yields (s : Scheduler T B) : Prop :=
  (s.thread s.rtCurrentThread).stat = .ready ∧
    1 < (s.list (.ready (s.thread s.rtCurrentThread).currentPriority)).length

instance (s : Scheduler T B) : Decidable s.Yields := inferInstanceAs (Decidable (_ ∧ _))

/-- `rt_thread_yield`; without its test nothing happens, else it calls `rt_schedule`. -/
def rtThreadYield (s : Scheduler T B) : Scheduler T B :=
  let t := s.rtCurrentThread
  if s.Yields then (s.unlink t).append (.ready (s.thread t).currentPriority) t else s

/-- `rt_thread_sleep` as far as its call of `rt_schedule`. -/
def rtThreadSleep (s : Scheduler T B) (tick : UInt32) : Option (Scheduler T B) :=
  let t := s.rtCurrentThread
  let s := s.assertType t
  (s.rtThreadSuspend t).2.startTimer t tick

/-- `rt_thread_control` with `RT_THREAD_CTRL_CHANGE_PRIORITY`. -/
def rtThreadControl (s : Scheduler T B) (t : T) (priority : Fin 32) : Scheduler T B :=
  let s := s.assertType t
  if (s.thread t).stat = .ready then
    let s := s.rtScheduleRemoveThread t
    let s := s.setThread t { s.thread t with
      currentPriority := priority
      numberMask := BitVec.twoPow 32 priority }
    s.rtScheduleInsertThread t
  else
    s.setThread t { s.thread t with
      currentPriority := priority
      numberMask := BitVec.twoPow 32 priority }

/-- `rt_thread_timeout` as far as its call of `rt_schedule`; `none` when the assertion on the
state fails. -/
def timeOut (s : Scheduler T B) (t : T) : Option (Scheduler T B) :=
  if (s.thread t).stat = .suspend then
    let s := s.assertType t
    let s := s.setThread t { s.thread t with error := .etimeout }
    some ((s.unlink t).rtScheduleInsertThread t)
  else none

/-- `rt_thread_timeout`. -/
def rtThreadTimeout (s : Scheduler T B) (t : T) : Option (Scheduler T B) :=
  (s.timeOut t).bind rtSchedule

/-- `-- thread->remaining_tick` for the running thread. -/
def countDown (s : Scheduler T B) : Scheduler T B :=
  s.setThread s.rtCurrentThread { s.thread s.rtCurrentThread with
    remainingTick := (s.thread s.rtCurrentThread).remainingTick - 1 }

/-- `thread->remaining_tick = thread->init_tick` for the running thread. -/
def refill (s : Scheduler T B) : Scheduler T B :=
  s.setThread s.rtCurrentThread { s.thread s.rtCurrentThread with
    remainingTick := (s.thread s.rtCurrentThread).initTick }

/-- The time slice in `rt_tick_increase`. -/
def timeSlice (s : Scheduler T B) : Option (Scheduler T B) :=
  let s := s.countDown
  if (s.thread s.rtCurrentThread).remainingTick = 0 then
    let s := s.refill
    if s.Yields then s.rtThreadYield.rtSchedule else some s
  else some s

/-- The thread timeouts of one tick, in turn. -/
def timeouts (s : Scheduler T B) : List T → Option (Scheduler T B)
  | [] => some s
  | t :: ts => (s.rtThreadTimeout t).bind fun s => s.timeouts ts

/-- `rt_tick_increase`: the time slice, then `rt_timer_check` on the thread timers. -/
def rtTickIncrease (s : Scheduler T B) : Option (Scheduler T B) :=
  s.timeSlice.bind fun s =>
    (s.threadTimers.rtTickIncrease []).bind fun r =>
      { s with threadTimers := r.2 }.timeouts r.1

end Scheduler

end NanoAt
