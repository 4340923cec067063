import NanoAt.State
import NanoAt.Lib.Settling

/-!
# The boot

From reset to the end of `my_app_init`: the statements of the startup code and of the main
thread that touch PRIMASK, the scheduler, a timer or `rx1_event`, executed one by one, with
the interrupts and the PendSV context switch between any two of them that PRIMASK admits.
Statements that touch none of these are left out.

## Main definitions

- `Stmt` — the statements
- `Boot` — PRIMASK, the scheduler, the pending context switch and the code of each thread
- `Boot.step` — one statement, interrupt or context switch
- `rtthreadStartup`, `mainThreadEntry`, `myAppInit` — the code
- `Access` — the accesses to `rx1_event` and to `timer2`
- `Boot.quiet` — only the code goes on, and it uses neither
-/

namespace NanoAt
open GuardedRun

/-- The threads of the firmware, the main thread, and the timer and idle threads of the
kernel. -/
inductive BootThread where
  | app (t : Thread) | main | timer | tidle
  deriving DecidableEq, Repr

/-- Priorities: RT_TIMER_THREAD_PRIO, RT_MAIN_THREAD_PRIORITY, RT_THREAD_PRIORITY_MAX - 1. -/
def BootThread.priority : BootThread → ℕ
  | .app t => t.priority
  | .timer => 8
  | .main => 10
  | .tidle => 31

/-- `rt_thread_priority_table`; no two threads have one priority. -/
def rtThreadPriorityTable : List BootThread :=
  [.app .serial, .app .atProcess, .app .atSendThread, .timer, .main, .app .shell, .tidle]

example : rtThreadPriorityTable.Pairwise (·.priority < ·.priority) := by decide

/-- The timers: of the threads, and of `my_timer.c`. -/
inductive BootTimer where
  | thread (t : BootThread) | timer1 | timer2
  deriving DecidableEq, Repr

/-- Statements; a timer `none` is the `thread_timer` of `rt_current_thread`. -/
inductive Stmt where
  /-- `__set_PRIMASK` -/
  | setPrimask (mask : Bool)
  /-- `level = rt_hw_interrupt_disable()` and the `rt_hw_interrupt_enable(level)` that closes it -/
  | disable | enable
  /-- `rt_scheduler_lock_nest ++` and `--` -/
  | lock | unlock
  /-- `rt_schedule` between its disabling and its enabling -/
  | switch
  /-- `if (rt_current_thread) rt_schedule()` -/
  | scheduleIfStarted
  /-- `t` enters the ready list; `rt_current_thread` leaves it -/
  | insertThread (t : BootThread) | removeThread
  | timerInit (t : BootTimer)
  /-- `rt_timer_start`: out of the timer list, and into it -/
  | timerRemove (t : Option BootTimer) | timerInsert (t : Option BootTimer)
  /-- `rt_timer_stop`, whose critical section is closed in itself -/
  | timerStop (t : Option BootTimer)
  /-- `rt_event_init(&rx1_event)` behind its `rt_object_init` -/
  | eventInit
  /-- `HAL_NVIC_EnableIRQ(USART1_IRQn)`; `HAL_SYSTICK_Config`; the enable bits of USART1 -/
  | nvicEnable | sysTickConfig | usart1EnableIt
  /-- `rt_system_scheduler_start` -/
  | schedulerStart

/-- What a thread of the firmware does to `rx1_event` and `timer2`: it starts the timer,
sends, which may wake a thread, or receives, which may block. -/
inductive Call where
  | timerStart | eventSend (woken : Option Thread) | eventRecv (blocks : Bool)
  deriving DecidableEq, Repr

/-- The calls that the code of a thread contains; the shell runs `at_comtest`. -/
def Thread.makes : Thread → Call → Prop
  | .serial, .timerStart => False
  | .atSendThread, .timerStart | .atSendThread, .eventSend _ => False
  | _, _ => True

instance (t : Thread) (c : Call) : Decidable (t.makes c) := by
  unfold Thread.makes
  apply @Thread.casesOn _ t <;> apply @Call.casesOn _ c <;> intros <;> infer_instance

/-- A stack: the statements to be executed with the levels of the open critical sections, or
a thread of the firmware, which makes its calls in any order and number. -/
inductive Frame where
  | code (stmts : List Stmt) (levels : List Bool)
  | calls (t : Thread)

structure Boot where
  primask : Bool
  /-- interrupts: enable bits of USART1, its line in the NVIC, and SysTick -/
  usart1It : Bool
  nvicUsart1 : Bool
  sysTick : Bool
  rx1EventInit : Bool
  timer2Init : Bool
  /-- the activated timers -/
  timers : Finset BootTimer
  ready : Finset BootThread
  rtCurrentThread : Option BootThread
  rtSchedulerLockNest : ℕ
  /-- the context switch requested: `rt_interrupt_from_thread`, `rt_interrupt_to_thread` -/
  pendSV : Option (Option BootThread × BootThread)
  cpu : Frame
  /-- the stacks of the threads that are not running -/
  frames : BootThread → Frame

namespace Boot

/-- `rt_schedule` with interrupts disabled: the thread of highest priority becomes
`rt_current_thread`, and `rt_hw_context_switch` requests the switch; of requests that meet
before PendSV is taken the first gives the thread to switch from. -/
def schedule (s : Boot) : Boot :=
  if s.rtSchedulerLockNest = 0 then
    match rtThreadPriorityTable.find? (· ∈ s.ready) with
    | some t =>
      if some t ≠ s.rtCurrentThread then
        { s with
          rtCurrentThread := some t
          pendSV := some ((s.pendSV.map (·.1)).getD s.rtCurrentThread, t) }
      else s
    | none => s
  else s

/-- The timer that a statement names. -/
def timer (s : Boot) (t : Option BootTimer) : Finset BootTimer :=
  match t with
  | some t => {t}
  | none => (s.rtCurrentThread.map fun t => {.thread t}).getD ∅

/-- `rt_event_send` wakes the thread that waits for the bits sent. -/
def wake (s : Boot) (woken : Option Thread) : Boot :=
  match woken with
  | some t => { s with ready := insert (BootThread.app t) s.ready }.schedule
  | none => s

/-- PendSV: the CPU leaves its stack to the thread switched from and takes the other one. -/
def contextSwitch (s : Boot) (src : Option BootThread) (dst : BootThread) : Boot :=
  { s with
    pendSV := none
    cpu := s.frames dst
    frames := match src with
      | some t => Function.update s.frames t s.cpu
      | none => s.frames }

end Boot

def rtSchedule : List Stmt := [.disable, .switch, .enable]

def rtEnterCritical : List Stmt := [.disable, .lock, .enable]

def rtExitCritical : List Stmt := [.disable, .unlock, .enable, .scheduleIfStarted]

def rtObjectInit : List Stmt := rtEnterCritical ++ rtExitCritical ++ [.disable, .enable]

/-- `RT_DEBUG_NOT_IN_INTERRUPT`. -/
def rtDebugNotInInterrupt : List Stmt := [.disable, .enable]

/-- `rt_sem_take` of a semaphore that is available. -/
def rtSemTake : List Stmt := [.disable, .enable]

/-- `rt_sem_release` of a semaphore that no thread waits for. -/
def rtSemRelease : List Stmt := [.disable, .enable]

def rtMalloc : List Stmt := rtDebugNotInInterrupt ++ rtSemTake ++ rtSemRelease

def rtObjectAllocate : List Stmt := rtDebugNotInInterrupt ++ rtMalloc ++ [.disable, .enable]

def rtTimerInit (t : BootTimer) : List Stmt := rtObjectInit ++ [.timerInit t]

def rtTimerStart (t : Option BootTimer) : List Stmt :=
  [.disable, .timerRemove t, .enable, .disable, .timerInsert t, .enable]

def rtScheduleInsertThread (t : BootThread) : List Stmt := [.disable, .insertThread t, .enable]

def rtScheduleRemoveThread : List Stmt := [.disable, .removeThread, .enable]

def rtThreadInit (t : BootThread) : List Stmt := rtObjectInit ++ rtTimerInit (.thread t)

def rtThreadCreate (t : BootThread) : List Stmt :=
  rtObjectAllocate ++ rtMalloc ++ rtTimerInit (.thread t)

def rtThreadResume (t : BootThread) : List Stmt :=
  [.disable, .timerStop (some (.thread t)), .enable] ++ rtScheduleInsertThread t

def rtThreadStartup (t : BootThread) : List Stmt := rtThreadResume t ++ [.scheduleIfStarted]

/-- `rt_thread_suspend(rt_current_thread)`. -/
def rtThreadSuspend : List Stmt :=
  [.disable] ++ rtScheduleRemoveThread ++ [.timerStop none, .enable]

def rtThreadSleep : List Stmt :=
  [.disable] ++ rtThreadSuspend ++ rtTimerStart none ++ [.enable] ++ rtSchedule

def rtThreadMdelay : List Stmt := rtThreadSleep

def rtEventInit : List Stmt := rtObjectInit ++ [.eventInit]

/-- `MX_USART1_UART_Init`, which calls `HAL_UART_MspInit`. -/
def mxUsart1UartInit : List Stmt := [.nvicEnable]

def myBoardInit : List Stmt := mxUsart1UartInit

def hwBoardInit : List Stmt :=
  [.setPrimask false] ++ myBoardInit ++ [.setPrimask true] ++ [.sysTickConfig]

/-- `rt_system_heap_init`, which initialises its semaphore. -/
def rtSystemHeapInit : List Stmt := rtDebugNotInInterrupt ++ rtObjectInit

def rtHwBoardInit : List Stmt := rtSystemHeapInit ++ hwBoardInit

def rtApplicationInit : List Stmt := rtThreadCreate .main ++ rtThreadStartup .main

def rtSystemTimerThreadInit : List Stmt := rtThreadInit .timer ++ rtThreadStartup .timer

def rtThreadIdleInit : List Stmt := rtThreadInit .tidle ++ rtThreadStartup .tidle

/-- `rtthread_startup`, the code after reset. -/
def rtthreadStartup : List Stmt :=
  [.disable] ++ rtHwBoardInit ++ rtApplicationInit ++ rtSystemTimerThreadInit ++
    rtThreadIdleInit ++ [.schedulerStart]

/-- `finsh_system_init`, the one function that `rt_components_init` calls. -/
def finshSystemInit : List Stmt :=
  rtMalloc ++ rtThreadCreate (.app .shell) ++ rtObjectInit ++ rtThreadStartup (.app .shell)

def atCmdMode : List Stmt := rtThreadMdelay

def atInit : List Stmt := atCmdMode

def serialThreadInit : List Stmt :=
  rtEventInit ++ rtThreadInit (.app .serial) ++ rtThreadStartup (.app .serial)

def atProcessTaskInit : List Stmt :=
  rtThreadInit (.app .atProcess) ++ rtThreadStartup (.app .atProcess) ++
    rtThreadInit (.app .atSendThread) ++ rtThreadStartup (.app .atSendThread)

def timerSofInit : List Stmt :=
  rtTimerInit .timer1 ++ rtTimerStart (some .timer1) ++
    rtTimerInit .timer2 ++ [.timerStop (some .timer2)]

def enableUsartIT : List Stmt := [.usart1EnableIt]

def myAppInit : List Stmt :=
  [.disable] ++ atInit ++ serialThreadInit ++ atProcessTaskInit ++ timerSofInit ++
    enableUsartIT ++ [.enable]

def mainThreadEntry : List Stmt := finshSystemInit ++ myAppInit

/-- `rt_thread_timer_entry` up to its first `rt_schedule`; no timer is a soft one, so that
nothing resumes the thread. -/
def rtThreadTimerEntry : List Stmt := rtThreadSuspend ++ rtSchedule

/-- After reset. -/
def Boot.init : Boot where
  primask := false
  usart1It := false
  nvicUsart1 := false
  sysTick := false
  rx1EventInit := false
  timer2Init := false
  timers := ∅
  ready := ∅
  rtCurrentThread := none
  rtSchedulerLockNest := 0
  pendSV := none
  cpu := .code rtthreadStartup []
  frames := fun
    | .main => .code mainThreadEntry []
    | .timer => .code rtThreadTimerEntry []
    | .tidle => .code [] []
    | .app t => .calls t

/-- One statement, with the statements behind it and the levels of the open critical
sections. -/
def Boot.execute (s : Boot) (rest : List Stmt) (levels : List Bool) : Stmt → Option Boot
  | .setPrimask mask => some { s with primask := mask, cpu := .code rest levels }
  | .disable => some { s with primask := true, cpu := .code rest (s.primask :: levels) }
  | .enable =>
    match levels with
    | level :: levels => some { s with primask := level, cpu := .code rest levels }
    | [] => none
  | .lock =>
    some { s with rtSchedulerLockNest := s.rtSchedulerLockNest + 1, cpu := .code rest levels }
  | .unlock =>
    some { s with rtSchedulerLockNest := s.rtSchedulerLockNest - 1, cpu := .code rest levels }
  | .switch => some { s with cpu := .code rest levels }.schedule
  | .scheduleIfStarted =>
    some { s with
      cpu := .code (if s.rtCurrentThread.isSome then rtSchedule ++ rest else rest) levels }
  | .insertThread t => some { s with ready := insert t s.ready, cpu := .code rest levels }
  | .removeThread =>
    some { s with
      ready := s.ready.filter fun t => s.rtCurrentThread ≠ some t
      cpu := .code rest levels }
  | .timerInit t =>
    some { s with timer2Init := s.timer2Init || t = .timer2, cpu := .code rest levels }
  | .timerRemove t | .timerStop t =>
    some { s with timers := s.timers \ s.timer t, cpu := .code rest levels }
  | .timerInsert t =>
    some { s with timers := s.timers ∪ s.timer t, cpu := .code rest levels }
  | .eventInit => some { s with rx1EventInit := true, cpu := .code rest levels }
  | .nvicEnable => some { s with nvicUsart1 := true, cpu := .code rest levels }
  | .sysTickConfig => some { s with sysTick := true, cpu := .code rest levels }
  | .usart1EnableIt => some { s with usart1It := true, cpu := .code rest levels }
  | .schedulerStart =>
    match rtThreadPriorityTable.find? (· ∈ s.ready) with
    | some t =>
      some { s with
        primask := false, rtCurrentThread := some t, pendSV := some (none, t)
        cpu := .code rest levels }
    | none => none

/-- A call of the running thread. -/
def Boot.call (s : Boot) : Call → Boot
  | .timerStart => { s with timers := insert .timer2 s.timers }
  | .eventSend woken => s.wake woken
  | .eventRecv blocks =>
    if blocks then
      { s with ready := s.ready.filter fun t => s.rtCurrentThread ≠ some t }.schedule
    else s

/-- A tick of SysTick at which no timer, or the timer `expired`, is due: `rt_thread_timeout`
makes a thread ready, `timeout1` prints, and `timeout2` posts its event. No thread yields to
another one of its priority. -/
def Boot.tick (s : Boot) (expired : Option BootTimer) (woken : Option Thread) : Boot :=
  match expired with
  | none | some .timer1 => s
  | some (.thread t) =>
    { s with timers := s.timers.erase (.thread t), ready := insert t s.ready }.schedule
  | some .timer2 => { s with timers := s.timers.erase .timer2 }.wake woken

/-- The CPU executes the next statement of its stack or the call of a thread of the firmware,
takes the context switch, or takes an interrupt, of USART1 with the idle flag set. -/
inductive BootAction where
  | execute | call (c : Call) | pendSV
  | sysTick (expired : Option BootTimer) (woken : Option Thread) | usart1 (woken : Option Thread)
  deriving DecidableEq, Repr

def Boot.step : BootAction → Boot → Option Boot
  | .execute, s =>
    match s.cpu with
    | .code (stmt :: rest) levels => s.execute rest levels stmt
    | _ => none
  | .call c, s =>
    match s.cpu with
    | .calls t => if t.makes c then some (s.call c) else none
    | _ => none
  | .pendSV, s =>
    if s.primask then none
    else s.pendSV.map fun (src, dst) => s.contextSwitch src dst
  | .sysTick expired woken, s =>
    if s.primask = false ∧ s.sysTick = true ∧ ∀ t ∈ expired, t ∈ s.timers then
      some (s.tick expired woken)
    else none
  | .usart1 woken, s =>
    if s.primask = false ∧ s.usart1It = true ∧ s.nvicUsart1 = true then some (s.wake woken)
    else none

/-- Accesses to `rx1_event` and to `timer2`. -/
inductive Access where
  | eventInit | eventSend | eventRecv | timerInit | timerStart | timerStop
  deriving DecidableEq, Repr

/-- The initialisation that an access needs. -/
def Access.needs : Access → Option Access
  | .eventSend | .eventRecv => some .eventInit
  | .timerStart | .timerStop => some .timerInit
  | .eventInit | .timerInit => none

def Stmt.accesses : Stmt → List Access
  | .eventInit => [.eventInit]
  | .timerInit .timer2 => [.timerInit]
  | .timerRemove (some .timer2) | .timerInsert (some .timer2) => [.timerStart]
  | .timerStop (some .timer2) => [.timerStop]
  | _ => []

def Call.accesses : Call → List Access
  | .timerStart => [.timerStart]
  | .eventSend _ => [.eventSend]
  | .eventRecv _ => [.eventRecv]

/-- The accesses that a step makes. -/
def accesses (x : Boot × BootAction) : List Access :=
  match x.2 with
  | .execute =>
    match x.1.cpu with
    | .code (stmt :: _) _ => stmt.accesses
    | _ => []
  | .call c => c.accesses
  | .sysTick (some .timer2) _ => [.eventSend, .timerStop]
  | .usart1 _ => [.eventSend]
  | _ => []

namespace Boot

/-- The CPU executes code, whose next statement uses neither object and does not compete
with a context switch. -/
def codeQuiet (s : Boot) : Prop :=
  match s.cpu with
  | .code stmts _ =>
    (stmts = [] ∨ s.primask = true ∨ s.pendSV = none) ∧
      ∀ stmt ∈ stmts.head?, ∀ u ∈ stmt.accesses, u.needs = none
  | .calls _ => False

instance (s : Boot) : Decidable s.codeQuiet := by
  unfold codeQuiet
  generalize s.cpu = cpu
  apply @Frame.casesOn _ cpu <;> intros <;> infer_instance

/-- Only the code goes on, and it uses neither object: interrupts are masked, or none can
occur that does anything. -/
def quiet (s : Boot) : Prop :=
  (s.primask = true ∨ (s.timers = ∅ ∧ s.usart1It = false)) ∧ s.codeQuiet

instance (s : Boot) : Decidable s.quiet := by
  unfold quiet; infer_instance

/-- Both objects are initialised. -/
def complete (s : Boot) : Prop := s.rx1EventInit = true ∧ s.timer2Init = true

instance (s : Boot) : Decidable s.complete := by
  unfold complete; infer_instance

/-- The step that a quiet state takes. -/
def next (s : Boot) : Option Boot :=
  match s.cpu with
  | .code (_ :: _) _ => step .execute s
  | _ => step .pendSV s

end Boot

section Steps

variable {s s' : Boot} {a : BootAction}

namespace Boot

/-- The scheduler chooses a thread and requests the switch. -/
theorem exists_schedule_eq (s : Boot) :
    ∃ t p, s.schedule = { s with rtCurrentThread := t, pendSV := p } := by
  unfold schedule
  split
  · split
    · split
      · exact ⟨_, _, rfl⟩
      · exact ⟨s.rtCurrentThread, s.pendSV, rfl⟩
    · exact ⟨s.rtCurrentThread, s.pendSV, rfl⟩
  · exact ⟨s.rtCurrentThread, s.pendSV, rfl⟩

@[simp] theorem schedule_rx1EventInit : s.schedule.rx1EventInit = s.rx1EventInit := by
  obtain ⟨t, p, hs⟩ := exists_schedule_eq s
  rw [hs]

@[simp] theorem schedule_timer2Init : s.schedule.timer2Init = s.timer2Init := by
  obtain ⟨t, p, hs⟩ := exists_schedule_eq s
  rw [hs]

@[simp] theorem wake_rx1EventInit (woken : Option Thread) :
    (s.wake woken).rx1EventInit = s.rx1EventInit := by
  cases woken <;> simp [wake]

@[simp] theorem wake_timer2Init (woken : Option Thread) :
    (s.wake woken).timer2Init = s.timer2Init := by
  cases woken <;> simp [wake]

/-- An object is initialised by the statements that initialise it and by nothing else. -/
theorem execute_inits {stmt : Stmt} {rest : List Stmt} {levels : List Bool}
    (hs : s.execute rest levels stmt = some s') :
    s'.rx1EventInit = (s.rx1EventInit || decide (.eventInit ∈ stmt.accesses)) ∧
      s'.timer2Init = (s.timer2Init || decide (.timerInit ∈ stmt.accesses)) := by
  cases stmt with
  | enable =>
    cases levels with
    | nil => simp [execute] at hs
    | cons level levels =>
      obtain rfl := Option.some.inj hs
      simp [Stmt.accesses]
  | schedulerStart =>
    simp only [execute] at hs
    split at hs
    · obtain rfl := Option.some.inj hs
      simp [Stmt.accesses]
    · simp at hs
  | timerInit t =>
    obtain rfl := Option.some.inj hs
    cases t <;> simp [Stmt.accesses]
  | timerRemove t | timerInsert t | timerStop t =>
    obtain rfl := Option.some.inj hs
    rcases t with - | ⟨- | - | -⟩ <;> simp [Stmt.accesses]
  | _ =>
    obtain rfl := Option.some.inj hs
    simp [Stmt.accesses]

theorem step_inits (hs : step a s = some s') :
    s'.rx1EventInit = (s.rx1EventInit || decide (.eventInit ∈ accesses (s, a))) ∧
      s'.timer2Init = (s.timer2Init || decide (.timerInit ∈ accesses (s, a))) := by
  cases a with
  | execute =>
    simp only [step] at hs
    split at hs
    · next stmt rest levels hcpu =>
      simpa [accesses, hcpu] using execute_inits hs
    · simp at hs
  | call c =>
    simp only [step] at hs
    split at hs
    · split_ifs at hs
      obtain rfl := Option.some.inj hs
      cases c with
      | eventRecv blocks => cases blocks <;> simp [call, accesses, Call.accesses]
      | _ => simp [call, accesses, Call.accesses]
    · simp at hs
  | pendSV =>
    simp only [step] at hs
    split_ifs at hs
    obtain ⟨p, -, rfl⟩ := Option.map_eq_some_iff.mp hs
    simp [contextSwitch, accesses]
  | sysTick expired woken =>
    simp only [step] at hs
    split_ifs at hs
    obtain rfl := Option.some.inj hs
    rcases expired with - | ⟨- | - | -⟩ <;> simp [tick, accesses]
  | usart1 woken =>
    simp only [step] at hs
    split_ifs at hs
    obtain rfl := Option.some.inj hs
    simp [accesses]

/-- What is initialised stays so. -/
theorem complete.mono (hc : s.complete) (hs : step a s = some s') : s'.complete := by
  obtain ⟨hevent, htimer⟩ := step_inits hs
  exact ⟨by simp [hevent, hc.1], by simp [htimer, hc.2]⟩

/-- In a quiet state a tick finds no timer due, or the code goes on, or the CPU has no more
code and leaves its stack. -/
theorem quiet.cases (hq : s.quiet) (hs : step a s = some s') :
    (∃ woken, a = .sysTick none woken) ∨
      (∃ stmt rest levels, a = .execute ∧ s.cpu = .code (stmt :: rest) levels) ∨
      (∃ levels, a = .pendSV ∧ s.cpu = .code [] levels) := by
  obtain ⟨hmask, hcode⟩ := hq
  unfold codeQuiet at hcode
  cases hcpu : s.cpu with
  | calls t => simp [hcpu] at hcode
  | code stmts levels =>
    rw [hcpu] at hcode
    cases a with
    | execute =>
      cases stmts with
      | nil => simp [step, hcpu] at hs
      | cons stmt rest => exact .inr (.inl ⟨stmt, rest, levels, rfl, rfl⟩)
    | call c => simp [step, hcpu] at hs
    | pendSV =>
      cases stmts with
      | nil => exact .inr (.inr ⟨levels, rfl, rfl⟩)
      | cons stmt rest =>
        simp only [step] at hs
        split_ifs at hs with hprimask
        have hpend : s.pendSV = none := by simpa [hprimask] using hcode.1
        simp [hpend] at hs
    | sysTick expired woken =>
      simp only [step] at hs
      split_ifs at hs with hon
      have htimers : s.timers = ∅ := by
        simp only [hon.1, Bool.false_eq_true, false_or] at hmask
        exact hmask.1
      cases expired with
      | none => exact .inl ⟨woken, rfl⟩
      | some t => simp [htimers] at hon
    | usart1 woken =>
      simp only [step] at hs
      split_ifs at hs with hon
      simp [hon.1, hon.2.1] at hmask

/-- A quiet state changes nothing or takes its next step. -/
theorem quiet.stutter_or_next (hq : s.quiet) (hs : step a s = some s') :
    s' = s ∨ s.next = some s' := by
  rcases hq.cases hs with ⟨woken, rfl⟩ | ⟨stmt, rest, levels, rfl, hcpu⟩ | ⟨levels, rfl, hcpu⟩
  · left
    simp only [step] at hs
    split_ifs at hs
    exact (Option.some.inj hs).symm
  · exact .inr (by rw [next, hcpu, hs])
  · exact .inr (by rw [next, hcpu, hs])

/-- In a quiet state no step makes an access that needs an initialisation. -/
theorem quiet.needs (hq : s.quiet) (hs : step a s = some s') {u : Access}
    (hu : u ∈ accesses (s, a)) : u.needs = none := by
  rcases hq.cases hs with ⟨woken, rfl⟩ | ⟨stmt, rest, levels, rfl, hcpu⟩ | ⟨levels, rfl, hcpu⟩
  · simp [accesses] at hu
  · have hcode := hq.2
    rw [codeQuiet, hcpu] at hcode
    exact hcode.2 stmt rfl u (by simpa [accesses, hcpu] using hu)
  · simp [accesses] at hu

end Boot

/-- The runs from reset. -/
abbrev BootRun := Run Boot.step free (· = Boot.init)

/-- The code of the boot, followed from reset: no statement uses `rx1_event` or `timer2`, and
no interrupt that uses one can be taken, until both are initialised. -/
theorem Boot.init_settles : settles next quiet complete 400 Boot.init = true := by
  decide +kernel

variable {h : History Boot BootAction}

theorem BootRun.complete_or_quiet (hr : BootRun h s) : s.complete ∨ s.quiet := by
  have hsettles : ∀ s, s = Boot.init → settles Boot.next Boot.quiet Boot.complete 400 s = true := by
    rintro s rfl
    exact Boot.init_settles
  exact Run.final_or_quiet 400 (fun _ _ _ => Boot.complete.mono)
    (fun _ _ _ => Boot.quiet.stutter_or_next) hsettles hr

/-- A flag that only one kind of access sets has been set by an earlier step. -/
theorem BootRun.exists_access {flag : Boot → Bool} {u : Access} (hinit : flag Boot.init = false)
    (hstep : ∀ s a s', Boot.step a s = some s' →
      flag s' = (flag s || decide (u ∈ accesses (s, a))))
    (hr : BootRun h s) (hflag : flag s = true) : ∃ y ∈ h, u ∈ accesses y := by
  revert hflag
  refine hr.invariant (P := fun h s => flag s = true → ∃ y ∈ h, u ∈ accesses y) ?_ ?_
  · rintro s rfl
    simp [hinit]
  · intro h s a s' _ ih _ hs hset
    simp only [hstep s a s' hs, Bool.or_eq_true, decide_eq_true_eq] at hset
    rcases hset with hset | hset
    · obtain ⟨y, hy, hacc⟩ := ih hset
      exact ⟨y, List.mem_cons_of_mem _ hy, hacc⟩
    · exact ⟨(s, a), List.mem_cons_self, hset⟩

theorem BootRun.eventInit (hr : BootRun h s) (he : s.rx1EventInit = true) :
    ∃ y ∈ h, .eventInit ∈ accesses y :=
  BootRun.exists_access rfl (fun _ _ _ hs => (Boot.step_inits hs).1) hr he

theorem BootRun.timerInit (hr : BootRun h s) (ht : s.timer2Init = true) :
    ∃ y ∈ h, .timerInit ∈ accesses y :=
  BootRun.exists_access rfl (fun _ _ _ hs => (Boot.step_inits hs).2) hr ht

end Steps

/-- In every run from reset each send and receive on `rx1_event` comes after
`rt_event_init(&rx1_event)`, and each start and stop of `timer2` after
`rt_timer_init(&timer2)`. -/
theorem boot_initialises_before_use {h₁ h₂ : History Boot BootAction} {s : Boot}
    {x : Boot × BootAction} {u i : Access} (hr : BootRun (h₁ ++ x :: h₂) s)
    (hu : u ∈ accesses x) (hi : u.needs = some i) : ∃ y ∈ h₂, i ∈ accesses y := by
  obtain ⟨s₀, a⟩ := x
  obtain ⟨hprior, -, s₁, hs⟩ := hr.prior
  rcases BootRun.complete_or_quiet hprior with hcomplete | hquiet
  · cases u with
    | eventSend | eventRecv =>
      obtain rfl : Access.eventInit = i := by simpa [Access.needs] using hi
      exact BootRun.eventInit hprior hcomplete.1
    | timerStart | timerStop =>
      obtain rfl : Access.timerInit = i := by simpa [Access.needs] using hi
      exact BootRun.timerInit hprior hcomplete.2
    | eventInit | timerInit => simp [Access.needs] at hi
  · simp [hquiet.needs hs hu] at hi

theorem BootRun.exists_of_exec (as : List BootAction) (test : History Boot BootAction → Boot → Bool)
    (he : (exec Boot.step free as [] Boot.init).any (fun r => test r.1 r.2) = true) :
    ∃ h s, BootRun h s ∧ test h s = true :=
  @exists_run_of_exec _ _ Boot.step free _ (· = Boot.init) _ rfl as test he

/-- `n` statements. -/
def executed (n : ℕ) : List BootAction := List.replicate n .execute

/-- The first thread that runs after `my_app_init` is `serial`, which receives. -/
theorem boot_initialises_before_use_first_receive :
    ∃ h₁ x h₂ s, BootRun (h₁ ++ x :: h₂) s ∧ .eventRecv ∈ accesses x ∧
      ∃ y ∈ h₂, .eventInit ∈ accesses y := by
  obtain ⟨h, s, hr, ht⟩ := BootRun.exists_of_exec
    (executed 102 ++ [.pendSV] ++ executed 9 ++ [.pendSV] ++ executed 228 ++
      [.pendSV, .call (.eventRecv true)])
    (fun h _ => ∃ x ∈ h.head?, x.2 = .call (.eventRecv true)) (by decide +kernel)
  obtain ⟨⟨s₀, a⟩, hx, rfl⟩ : ∃ x ∈ h.head?, x.2 = .call (.eventRecv true) := by simpa using ht
  obtain ⟨h₂, rfl⟩ : ∃ h₂, h = (s₀, .call (.eventRecv true)) :: h₂ :=
    List.head?_eq_some_iff.mp hx
  have hu : .eventRecv ∈ accesses (s₀, .call (.eventRecv true)) := List.mem_singleton_self _
  exact ⟨[], _, h₂, s, hr, hu, @boot_initialises_before_use [] h₂ s _ _ _ hr hu rfl⟩

end NanoAt
