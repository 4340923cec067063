import NanoAt.Scheduling

/-!
# What a run did

Observations on the history of a run: the bytes received and announced, the packets
published and examined, the calls of `ATSend` and the commands transmitted.
-/

namespace NanoAt
open CString GuardedRun Rx1Event

/-- A step of a run: the state it was taken in and the action. -/
abbrev Event := Sys × Action

namespace Event

/-- `serial` executes the statement `pc`. -/
def serialAt (pc : SerialPc) (x : Event) : Bool := x.2 = .run .serial ∧ x.1.serial = pc

/-- `at_process` executes the statement `pc`. -/
def processAt (pc : ProcessPc) (x : Event) : Bool :=
  x.2 = .run .atProcess ∧ x.1.atProcess = pc

/-- `at_send_thread` executes the statement `pc`. -/
def sendAt (pc : SendPc) (x : Event) : Bool :=
  x.2 = .run .atSendThread ∧ x.1.atSendThread = pc

/-- `at_comtest` executes the statement `pc`. -/
def shellAt (pc : ShellPc) (x : Event) : Bool := x.2 = .run .shell ∧ x.1.shell = pc

/-- `at_comtest` calls `ATSend`. -/
def isCall : Event → Bool := shellAt (.atSend .setCurrent)

/-- `at_process` calls `ATSend(AT_REST)`. -/
def isReset : Event → Bool := processAt (.atSend .setCurrent)

/-- `Rec_WaitAT` posts `ATCMD_SEND_ACK_OK_EVENT`. -/
def isAck : Event → Bool := processAt .ack

/-- `at_send_thread` hands the current command to `HAL_UART_Transmit`. -/
def isTransmit : Event → Bool := sendAt .transmit

end Event

/-- `ATSend` has stored the command number and not yet the keyword's. -/
def ATSendPc.storing : ATSendPc → Prop
  | .setNext | .setRec => True
  | _ => False

/-- `ATSend` has stored the command number and not yet the count. -/
def ATSendPc.unarmed : ATSendPc → Prop
  | .setNext | .setRec | .arm => True
  | _ => False

/-- `ATSend` has stored the command number and not yet posted the request. -/
def ATSendPc.unposted : ATSendPc → Prop
  | .setCurrent | .exit => False
  | _ => True

instance : DecidablePred ATSendPc.storing := fun p => by
  unfold ATSendPc.storing; cases p <;> infer_instance

instance : DecidablePred ATSendPc.unarmed := fun p => by
  unfold ATSendPc.unarmed; cases p <;> infer_instance

instance : DecidablePred ATSendPc.unposted := fun p => by
  unfold ATSendPc.unposted; cases p <;> infer_instance

namespace Sys

/-- `at_comtest` is inside `ATSend`, at a statement with property `P`. -/
def callIn (P : ATSendPc → Prop) (s : Sys) : Prop :=
  match s.shell with
  | .atSend p => P p
  | _ => False

/-- `at_process` is inside `ATSend(AT_REST)`, at a statement with property `P`. -/
def resetIn (P : ATSendPc → Prop) (s : Sys) : Prop :=
  match s.atProcess with
  | .atSend p => P p
  | _ => False

instance (P : ATSendPc → Prop) [DecidablePred P] (s : Sys) : Decidable (s.callIn P) := by
  unfold callIn
  generalize s.shell = pc
  apply @ShellPc.casesOn _ pc <;> intros <;> infer_instance

instance (P : ATSendPc → Prop) [DecidablePred P] (s : Sys) : Decidable (s.resetIn P) := by
  unfold resetIn
  generalize s.atProcess = pc
  apply @ProcessPc.casesOn _ pc <;> intros <;> infer_instance

end Sys

/-- The bytes published with `RX1_PROCESS_EVENT`: `process_buff[0..process_buff_p)`. -/
def Sys.packet (s : Sys) : List UInt8 := s.processBuff.front s.processBuffP

/-- The bytes the DMA has received. -/
def received : History Sys Action → List UInt8
  | [] => []
  | (_, .receive b) :: h => received h ++ [b]
  | _ :: h => received h

/-- The bytes received before the last IDLE interrupt. -/
def announced : History Sys Action → List UInt8
  | [] => []
  | (_, .usart1) :: h => received h
  | _ :: h => announced h

/-- How often `serial` has moved `UsartDMARec_q_rear`. -/
def consumed (h : History Sys Action) : ℕ := h.countP (Event.serialAt .advance)

/-- The packets that `serial` has published, oldest first. -/
def published : History Sys Action → List (List UInt8)
  | [] => []
  | x :: h => published h ++ if Event.serialAt .announce x then [x.1.packet] else []

/-- The packets with which `Rec_WaitAT` has been entered, oldest first. -/
def examined : History Sys Action → List (List UInt8)
  | [] => []
  | x :: h => examined h ++ if Event.processAt .recWait x then [x.1.packet] else []

/-- How often the copy loop has run since `serial` last called `rt_event_recv`. -/
def copies (h : History Sys Action) : ℕ :=
  (since (Event.serialAt .recv) h).countP (Event.serialAt .copy)

/-- How many statements of the copy loop `serial` has executed since it last called
`rt_event_recv`. -/
def loopStatements (h : History Sys Action) : ℕ :=
  (since (Event.serialAt .recv) h).countP fun x => Event.serialAt .loop x ||
    Event.serialAt .copy x || Event.serialAt .advance x || Event.serialAt .full x

section Cons

variable (s : Sys) (a : Action) (h : History Sys Action)

@[simp] theorem received_receive (b : UInt8) :
    received ((s, .receive b) :: h) = received h ++ [b] := rfl

@[simp] theorem received_usart1 : received ((s, .usart1) :: h) = received h := rfl

@[simp] theorem received_run (t : Thread) : received ((s, .run t) :: h) = received h := rfl

@[simp] theorem announced_usart1 : announced ((s, .usart1) :: h) = received h := rfl

@[simp] theorem announced_run (t : Thread) : announced ((s, .run t) :: h) = announced h := rfl

@[simp] theorem announced_receive (b : UInt8) :
    announced ((s, .receive b) :: h) = announced h := rfl

@[simp] theorem consumed_nil : consumed [] = 0 := rfl

@[simp] theorem consumed_cons : consumed ((s, a) :: h) =
    consumed h + if a = .run .serial ∧ s.serial = .advance then 1 else 0 := by
  simp [consumed, Event.serialAt, List.countP_cons]

@[simp] theorem published_cons : published ((s, a) :: h) =
    published h ++ if a = .run .serial ∧ s.serial = .announce then [s.packet] else [] := by
  simp [published, Event.serialAt]

@[simp] theorem examined_cons : examined ((s, a) :: h) =
    examined h ++ if a = .run .atProcess ∧ s.atProcess = .recWait then [s.packet] else [] := by
  simp [examined, Event.processAt]

@[simp] theorem copies_nil : copies [] = 0 := rfl

@[simp] theorem copies_cons : copies ((s, a) :: h) =
    if a = .run .serial ∧ s.serial = .recv then 0
    else copies h + if a = .run .serial ∧ s.serial = .copy then 1 else 0 := by
  by_cases hr : a = .run .serial ∧ s.serial = .recv
  · simp [copies, Event.serialAt, hr]
  · by_cases hc : a = .run .serial ∧ s.serial = .copy <;>
      simp [copies, Event.serialAt, hr, hc]

@[simp] theorem loopStatements_nil : loopStatements [] = 0 := rfl

@[simp] theorem loopStatements_cons : loopStatements ((s, a) :: h) =
    if a = .run .serial ∧ s.serial = .recv then 0
    else loopStatements h + if a = .run .serial ∧ (s.serial = .loop ∨ s.serial = .copy ∨
      s.serial = .advance ∨ s.serial = .full) then 1 else 0 := by
  by_cases hr : a = .run .serial ∧ s.serial = .recv
  · simp [loopStatements, Event.serialAt, hr]
  · by_cases ha : a = .run .serial
    · have hr : ¬ s.serial = .recv := fun hs => hr ⟨ha, hs⟩
      cases hs : s.serial <;> simp_all [loopStatements, Event.serialAt]
    · simp [loopStatements, Event.serialAt, ha]

end Cons

section Scenarios

/-- `n` statements of a thread. -/
def runs (t : Thread) (n : ℕ) : List Action := List.replicate n (.run t)

/-- The threads start up and suspend themselves. -/
def startUp : List Action := [.run .serial, .run .atProcess, .run .atSendThread]

/-- A packet arrives, an IDLE interrupt follows and `serial` hands it over. -/
def packetIn (bytes : List UInt8) : List Action :=
  bytes.map .receive ++ [.usart1] ++ runs .serial (4 * bytes.length + 5)

/-- `at_comtest` issues its first command, it is transmitted, and all threads wait. -/
def firstCommand : List Action :=
  startUp ++ [.comtest] ++ runs .shell 10 ++ runs .atSendThread 7 ++ runs .shell 1

end Scenarios

end NanoAt
