import NanoAt.Commands
import NanoAt.Event

/-!
# State of the firmware

The globals shared by the USART1 interrupt, the timer2 callback and the threads, and
the program counter and locals of each thread. Of the statements that print to the console
only those have steps of their own that read the shared globals: `rt_strlen` over
`process_buff`.

## Main definitions

- `Rx1Event` — the bits of `rx1_event`
- `Thread` — the four threads, with their priorities
- `SerialPc`, `ProcessPc`, `SendPc`, `ShellPc` — where each thread stands
- `Sys` — the state
-/

namespace NanoAt
open CString

/-- `USART1_DMA_REC_SIZE`. -/
abbrev usart1DmaRecSize : ℕ := 512

/-- `USART1_PRO_SIZE`. -/
abbrev usart1ProSize : ℕ := 196

/-- The bits of `rx1_event`: bits 0, 1, 2, 4 and 5 of the event word. -/
inductive Rx1Event where
  | rx1RecEvent | rx1ProcessEvent | atTimeoutEvent | atstatusSendEvent | atcmdSendAckOkEvent
  deriving DecidableEq, Repr

/-- The threads: `serial`, `at_process`, `at_send_thread`, and the shell, which runs
`at_comtest`. -/
inductive Thread where
  | serial | atProcess | atSendThread | shell
  deriving DecidableEq, Repr

instance : Fintype Thread :=
  ⟨{.serial, .atProcess, .atSendThread, .shell}, fun t => by cases t <;> simp⟩

/-- Thread priorities; the smaller number is scheduled first. -/
def Thread.priority : Thread → ℕ
  | .serial => 3 | .atProcess => 4 | .atSendThread => 5 | .shell => 20

/-- Statements of `serial_entry`. -/
inductive SerialPc where
  | recv | suspended | loop | copy | advance | full | record | announce | echo
  deriving DecidableEq, Repr

/-- Statements of `ATSend`; `remove` and `insert` are the two critical sections of
`rt_timer_start`. -/
inductive ATSendPc where
  | setCurrent | setNext | setRec | arm | remove | insert | enter | post | exit
  deriving DecidableEq, Repr

/-- Statements of `at_process_entry` and of `Rec_WaitAT`, which it calls: `recWait`
loads the keyword, `search` is `strstr`, `print` the `rt_strlen` of `rt_kprintf` for the `%s`
of `process_buff` and `clear` is `rt_memset`, byte by byte. Whether the case of the switch
clears the buffer afterwards is the flag of `print`. -/
inductive ProcessPc where
  | recv | suspended | dispatch
  | recWait | search (c : TeATCmdNum) (i j : ℕ) | disarm | select | print (clears : Bool) (k : ℕ)
  | clear (k : ℕ) | ack
  | retry | decrement | mark | arm | remove | insert | resend
  | atSend (p : ATSendPc)
  deriving DecidableEq, Repr

/-- Statements of `at_send_thread_entry`. -/
inductive SendPc where
  | recv | suspended | compare | refill | enter | transmit | print | exit
  deriving DecidableEq, Repr

/-- Statements of `at_comtest`; `prompt` is the shell outside it. -/
inductive ShellPc where
  | prompt | loop | atSend (p : ATSendPc) | recv | suspended | advance
  deriving DecidableEq, Repr

/-- The shared globals, the DMA down-counter, the scheduler and the threads. -/
structure Sys where
  /-- posted bits of `rx1_event` -/
  rx1Event : Finset Rx1Event
  usartDMARecQFront : ℕ
  usartDMARecQRear : ℕ
  processBuffP : ℕ
  dmaRecBuffer : Buffer usart1DmaRecSize
  processBuff : Buffer usart1ProSize
  /-- the memory behind `process_buff`, which no statement of the model writes -/
  behind : Ram
  /-- `CNDTR` of the receive channel -/
  cndtr : ℕ
  currentRty : ℕ
  atRecCmdNum : TeATCmdNum
  atNextCmdNum : TeATCmdNum
  atCurrentCmdNum : TeATCmdNum
  atTimeoutCnt : ℕ
  /-- `RT_TIMER_FLAG_ACTIVATED` of `timer2` -/
  timer2 : Bool
  rtSchedulerLockNest : ℕ
  rtCurrentThread : Thread
  serial : SerialPc
  /-- `process_p` of `serial_entry` -/
  processP : ℕ
  atProcess : ProcessPc
  /-- `e` of `at_process_entry` -/
  e : Finset Rx1Event
  atSendThread : SendPc
  shell : ShellPc
  /-- `kk` and `AT_SEND_CMD_NUM` of `at_comtest` -/
  kk : ℕ
  atSendCmdNum : TeATCmdNum

/-- The memory from `process_buff[0]` on. -/
def Sys.memory (s : Sys) : List UInt8 := s.processBuff.memory s.behind

/-- The state in which `my_app_init` leaves the firmware: buffers cleared, the event
set empty, `timer2` stopped, the threads started and about to run. -/
def Sys.init (behind : Ram) : Sys where
  rx1Event := ∅
  usartDMARecQFront := 0
  usartDMARecQRear := 0
  processBuffP := 0
  dmaRecBuffer := Vector.replicate usart1DmaRecSize 0
  processBuff := Vector.replicate usart1ProSize 0
  behind := behind
  cndtr := usart1DmaRecSize
  currentRty := 0
  atRecCmdNum := .atRole
  atNextCmdNum := .atTnocmd1
  atCurrentCmdNum := .atRole
  atTimeoutCnt := 0
  timer2 := false
  rtSchedulerLockNest := 0
  rtCurrentThread := .shell
  serial := .recv
  processP := 0
  atProcess := .recv
  e := ∅
  atSendThread := .recv
  shell := .prompt
  kk := 0
  atSendCmdNum := .atRole

end NanoAt
