import NanoAt.Kernel

/-!
# Interrupts and threads

`USART1_IRQHandler`, `timeout2`, `serial_entry`, `at_process_entry` with `Rec_WaitAT`,
`at_send_thread_entry`, `ATSend` and `at_comtest`, one statement at a time, and the
system they form: any interrupt between any two statements, and the thread the
scheduler chooses.

## Main definitions

- `Action` — a received byte, an interrupt, a user's command or a statement of a thread
- `step` — the system
-/

namespace NanoAt
open CString Rx1Event

/-- The statement of `ATSend` after `p`, or the return to the caller. -/
def ATSendPc.following : ATSendPc → Option ATSendPc
  | .setCurrent => some .setNext
  | .setNext => some .setRec
  | .setRec => some .arm
  | .arm => some .remove
  | .remove => some .insert
  | .insert => some .enter
  | .enter => some .post
  | .post => some .exit
  | .exit => none

namespace Sys

/-- The DMA channel stores a received byte and counts down; in circular mode it reloads
the counter when it reaches zero. -/
def dmaReceive (b : UInt8) (s : Sys) : Sys :=
  { s with
    dmaRecBuffer := s.dmaRecBuffer.write (usart1DmaRecSize - s.cndtr) b
    cndtr := if s.cndtr - 1 = 0 then usart1DmaRecSize else s.cndtr - 1 }

/-- `USART1_IRQHandler` with the IDLE flag set. -/
def usart1IRQHandler (s : Sys) : Sys :=
  { s with usartDMARecQFront := usart1DmaRecSize - s.cndtr }.rtEventSend {rx1RecEvent}

/-- `timeout2`, the callback of `timer2`. -/
def timeout2 (s : Sys) : Sys :=
  if s.atTimeoutCnt ≠ 0 then
    let s := { s with atTimeoutCnt := s.atTimeoutCnt - 1 }
    if s.atTimeoutCnt = 0 then (s.rtEventSend {atTimeoutEvent}).rtTimerStop else s
  else s

/-- `serial_entry`. -/
def serialEntry (s : Sys) : Sys :=
  match s.serial with
  | .recv => s.rtEventRecv .serial
  | .suspended => s
  | .loop =>
    if s.usartDMARecQFront ≠ s.usartDMARecQRear then { s with serial := .copy }
    else { s with serial := .record }
  | .copy =>
    { s with
      processBuff := s.processBuff.write s.processP (s.dmaRecBuffer.read s.usartDMARecQRear)
      processP := s.processP + 1
      serial := .advance }
  | .advance =>
    { s with
      usartDMARecQRear := (s.usartDMARecQRear + 1) % usart1DmaRecSize
      serial := .full }
  | .full => if s.processP = usart1ProSize then { s with serial := .record }
    else { s with serial := .loop }
  | .record => { s with processBuffP := s.processP, processP := 0, serial := .announce }
  | .announce => { s with serial := .echo }.rtEventSend {rx1ProcessEvent}
  | .echo => { s with serial := .recv }

/-- The statements of `ATSend(ATCmdNum)`. -/
def atSend (atCmdNum : TeATCmdNum) (p : ATSendPc) (s : Sys) : Sys :=
  match p with
  | .setCurrent => { s with atCurrentCmdNum := atCmdNum }
  | .setNext => { s with atNextCmdNum := .atTnocmd }
  | .setRec => { s with atRecCmdNum := atCmdNum }
  | .arm => { s with atTimeoutCnt := 500 }
  | .remove => s.rtTimerRemove
  | .insert => s.rtTimerInsert
  | .enter => s.rtEnterCritical
  | .post => s.rtEventSend {atstatusSendEvent}
  | .exit => s.rtExitCritical

/-- The cases of the switch of `Rec_WaitAT` that clear `process_buff`. -/
def clearsProcessBuff : TeATCmdNum → Bool
  | .atRole | .atVers | .atGnam | .atGurt | .atGsta | .atGpwd | .atRest | .atAdvl | .atAdvb => true
  | .atTnocmd | .atConb | .atTnocmd1 => false

/-- `at_process_entry` and `Rec_WaitAT`. -/
def atProcessEntry (s : Sys) : Sys :=
  match s.atProcess with
  | .recv => s.rtEventRecv .atProcess
  | .suspended => s
  | .dispatch =>
    if rx1ProcessEvent ∈ s.e then { s with atProcess := .recWait }
    else if atTimeoutEvent ∈ s.e then { s with atProcess := .retry }
    else { s with atProcess := .recv }
  | .recWait => { s with atProcess := .search s.atRecCmdNum 0 0 }
  | .search c i j =>
    match probe s.memory (atCmds c).atRecStr i j with
    | .found => { s with atProcess := .disarm }
    | .absent => { s with atProcess := .recv }
    | .next i j => { s with atProcess := .search c i j }
  | .disarm => { s with atTimeoutCnt := 0, atProcess := .select }
  | .select =>
    { s with atProcess := .print (clearsProcessBuff s.atCurrentCmdNum) 0 }
  | .print clears k =>
    if s.memory.getD k 0 ≠ 0 then { s with atProcess := .print clears (k + 1) }
    else if clears then { s with atProcess := .clear 0 }
    else { s with atProcess := .ack }
  | .clear k =>
    if k < usart1ProSize then
      { s with processBuff := s.processBuff.write k 0, atProcess := .clear (k + 1) }
    else { s with atProcess := .ack }
  | .ack => { s with atProcess := .recv }.rtEventSend {atcmdSendAckOkEvent}
  | .retry =>
    if s.currentRty > 0 then { s with atProcess := .decrement }
    else { s with atProcess := .atSend .setCurrent }
  -- `CurrentRty` is a `uint8_t`
  | .decrement => { s with currentRty := (s.currentRty + 255) % 256, atProcess := .mark }
  | .mark => { s with atNextCmdNum := s.atCurrentCmdNum, atProcess := .arm }
  | .arm => { s with atTimeoutCnt := 500, atProcess := .remove }
  | .remove => { s with atProcess := .insert }.rtTimerRemove
  | .insert => { s with atProcess := .resend }.rtTimerInsert
  | .resend => { s with atProcess := .recv }.rtEventSend {atstatusSendEvent}
  | .atSend p =>
    match p.following with
    | some q => { s with atProcess := .atSend q }.atSend .atRest p
    | none => { s with atProcess := .recv }.atSend .atRest p

/-- `at_send_thread_entry`. -/
def atSendThreadEntry (s : Sys) : Sys :=
  match s.atSendThread with
  | .recv => s.rtEventRecv .atSendThread
  | .suspended => s
  | .compare =>
    if s.atCurrentCmdNum ≠ s.atNextCmdNum then { s with atSendThread := .refill }
    else { s with atSendThread := .enter }
  | .refill =>
    { s with currentRty := (atCmds s.atCurrentCmdNum).rtyNum, atSendThread := .enter }
  | .enter => { s with atSendThread := .transmit }.rtEnterCritical
  | .transmit => { s with atSendThread := .print }
  | .print => { s with atSendThread := .exit }
  | .exit => { s with atSendThread := .recv }.rtExitCritical

/-- `at_comtest`. -/
def atComtest (s : Sys) : Sys :=
  match s.shell with
  | .prompt => s
  | .loop =>
    if s.kk < TeATCmdNum.atTnocmd.val - 1 then { s with shell := .atSend .setCurrent }
    else { s with shell := .prompt }
  | .atSend p =>
    match p.following with
    | some q => { s with shell := .atSend q }.atSend s.atSendCmdNum p
    | none => { s with shell := .recv }.atSend s.atSendCmdNum p
  | .recv => s.rtEventRecv .shell
  | .suspended => s
  | .advance => { s with atSendCmdNum := s.atSendCmdNum.succ, kk := s.kk + 1, shell := .loop }

/-- One statement of a thread. -/
def runThread : Thread → Sys → Sys
  | .serial => serialEntry
  | .atProcess => atProcessEntry
  | .atSendThread => atSendThreadEntry
  | .shell => atComtest

end Sys

/-- What can happen next: the DMA receives a byte, the USART1 IDLE interrupt, the
timer2 callback, the command `at_comtest` typed at the prompt, or a thread's next
statement. -/
inductive Action where
  | receive (b : UInt8)
  | usart1
  | timer2
  | comtest
  | run (t : Thread)
  deriving DecidableEq, Repr

/-- The system. -/
def step (a : Action) (s : Sys) : Option Sys :=
  match a with
  | .receive b => some (s.dmaReceive b)
  | .usart1 => some s.usart1IRQHandler
  | .timer2 => if s.timer2 then some s.timeout2 else none
  | .comtest =>
    if s.shell = .prompt then some { s with shell := .loop, kk := 0, atSendCmdNum := .atRole }
    else none
  | .run t => if s.scheduled t then some { Sys.runThread t s with rtCurrentThread := t } else none

end NanoAt
