import NanoAt.Firmware

/-!
# The transitions of the system

In every reachable state a suspended thread waits for bits that are not posted. Under
that invariant a posted bit either resumes the one thread that waits for it or stays
in the set, and `Trans` lists what each step does, guards included. The proofs about
runs go by cases on `Trans` and never unfold the firmware.

## Main definitions

- `EventInv` — a suspended thread waits for bits that are not posted
- `Trans` — the transitions
- `step_trans` — every step of a state with `EventInv` is one of them
-/

namespace NanoAt
open CString Rx1Event

/-- A suspended thread waits for bits that are not posted. -/
def EventInv (s : Sys) : Prop :=
  ∀ t, s.suspended t → Disjoint (Sys.waiterOf t).eventSet s.rx1Event

namespace EventInv

variable {s : Sys}

theorem serial (h : EventInv s) (hs : s.serial = .suspended) : rx1RecEvent ∉ s.rx1Event := by
  simpa [Sys.waiterOf] using h .serial hs

theorem process (h : EventInv s) (hs : s.atProcess = .suspended) :
    rx1ProcessEvent ∉ s.rx1Event := by
  have := h .atProcess hs
  simp [Sys.waiterOf] at this
  exact this.1

theorem timeout (h : EventInv s) (hs : s.atProcess = .suspended) : atTimeoutEvent ∉ s.rx1Event := by
  have := h .atProcess hs
  simp [Sys.waiterOf] at this
  exact this.2

theorem send (h : EventInv s) (hs : s.atSendThread = .suspended) :
    atstatusSendEvent ∉ s.rx1Event := by
  simpa [Sys.waiterOf] using h .atSendThread hs

theorem shell (h : EventInv s) (hs : s.shell = .suspended) :
    atcmdSendAckOkEvent ∉ s.rx1Event := by
  simpa [Sys.waiterOf] using h .shell hs

end EventInv

namespace Sys

variable {s : Sys}

/-- The thread that waits for a bit. -/
def receiver : Rx1Event → Thread
  | .rx1RecEvent => .serial
  | .rx1ProcessEvent | .atTimeoutEvent => .atProcess
  | .atstatusSendEvent => .atSendThread
  | .atcmdSendAckOkEvent => .shell

theorem mem_waiterOf {b : Rx1Event} {t : Thread} :
    b ∈ (waiterOf t).eventSet ↔ receiver b = t := by
  cases b <;> cases t <;> simp [waiterOf, receiver]

theorem waiterOf_option (t : Thread) :
    (waiterOf t).eventInfo = .or ∨ (waiterOf t).eventSet.card = 1 := by
  cases t <;> simp [waiterOf]

/-- A posted bit wakes no thread but its receiver. -/
theorem wake_of_ne {b : Rx1Event} {t : Thread} (ht : receiver b ≠ t)
    (hs : s.suspended t → Disjoint (waiterOf t).eventSet s.rx1Event) :
    wake { s with rx1Event := insert b s.rx1Event } t =
      { s with rx1Event := insert b s.rx1Event } := by
  unfold wake
  split
  · next hsus =>
    have hd : Disjoint (waiterOf t).eventSet s.rx1Event := hs (by cases t <;> exact hsus)
    simp only [Waiter.take_insert (waiterOf_option t) hd, mem_waiterOf, ht, if_false]
  · rfl

theorem wake_receiver {b : Rx1Event} (hi : EventInv s) :
    wake { s with rx1Event := insert b s.rx1Event } (receiver b) =
      if s.suspended (receiver b) then s.resume {b} (receiver b)
      else { s with rx1Event := insert b s.rx1Event } := by
  have hsus : ({ s with rx1Event := insert b s.rx1Event } : Sys).suspended (receiver b) ↔
      s.suspended (receiver b) := by cases b <;> rfl
  by_cases hs : s.suspended (receiver b)
  · have hd := hi _ hs
    have hb : b ∉ s.rx1Event := fun hmem =>
      Finset.disjoint_left.mp hd (mem_waiterOf.mpr rfl) hmem
    have herase : insert b s.rx1Event \ {b} = s.rx1Event := by
      rw [Finset.sdiff_singleton_eq_erase, Finset.erase_insert hb]
    unfold wake
    rw [if_pos (hsus.mpr hs), if_pos hs]
    simp only [Waiter.take_insert (waiterOf_option _) hd, mem_waiterOf, if_true, herase]
  · unfold wake
    rw [if_neg (fun h => hs (hsus.mp h)), if_neg hs]

/-- A resumed thread takes its bit with it: the rest of the loop of `rt_event_send`
finds the set as it was. -/
theorem wake_resume {b : Rx1Event} {t : Thread} (hi : EventInv s) (ht : receiver b ≠ t) :
    wake (s.resume {b} (receiver b)) t = s.resume {b} (receiver b) := by
  have hset : (s.resume {b} (receiver b)).rx1Event = s.rx1Event := by cases b <;> rfl
  unfold wake
  split
  · next hsus =>
    have hs : s.suspended t := by
      cases b <;> cases t <;> first | exact absurd rfl ht | exact hsus
    rw [hset, Waiter.take_of_disjoint (waiterOf_option t) (hi t hs)]
  · rfl

/-- `rt_event_send` of one bit resumes the thread that waits for it, or posts the bit. -/
theorem rtEventSend_singleton (hi : EventInv s) (b : Rx1Event) :
    s.rtEventSend {b} = if s.suspended (receiver b) then s.resume {b} (receiver b)
      else { s with rx1Event := insert b s.rx1Event } := by
  have hunion : s.rx1Event ∪ {b} = insert b s.rx1Event := by
    rw [Finset.union_comm]; rfl
  have hr := wake_receiver (b := b) hi
  have hne : ∀ t, receiver b ≠ t → wake { s with rx1Event := insert b s.rx1Event } t =
      { s with rx1Event := insert b s.rx1Event } := fun t ht => wake_of_ne ht (hi t)
  have hafter : ∀ t, receiver b ≠ t →
      wake (if s.suspended (receiver b) then s.resume {b} (receiver b)
        else { s with rx1Event := insert b s.rx1Event }) t =
      if s.suspended (receiver b) then s.resume {b} (receiver b)
        else { s with rx1Event := insert b s.rx1Event } := by
    intro t ht
    split
    · exact wake_resume hi ht
    · exact hne t ht
  unfold rtEventSend
  rw [hunion]
  simp only [List.foldl_cons, List.foldl_nil]
  cases hb : receiver b <;> rw [hb] at hr hne hafter <;>
    simp only [hne, hr, hafter, ne_eq, reduceCtorEq, not_false_eq_true]

end Sys

/-- The transitions. The step of a thread is one of these where the scheduler chose it. -/
inductive Trans (s : Sys) : Action → Sys → Prop
  | receive (b : UInt8) :
      Trans s (.receive b)
        { s with
          dmaRecBuffer := s.dmaRecBuffer.write (usart1DmaRecSize - s.cndtr) b,
          cndtr := if s.cndtr - 1 = 0 then usart1DmaRecSize else s.cndtr - 1 }
  | idleWake :
      s.serial = .suspended →
      Trans s .usart1
        { s with usartDMARecQFront := usart1DmaRecSize - s.cndtr, serial := .loop }
  | idlePost :
      s.serial ≠ .suspended →
      Trans s .usart1
        { s with
          usartDMARecQFront := usart1DmaRecSize - s.cndtr,
          rx1Event := insert rx1RecEvent s.rx1Event }
  | tickIdle :
      s.timer2 = true → s.atTimeoutCnt = 0 → Trans s .timer2 s
  | tick :
      s.timer2 = true → 1 < s.atTimeoutCnt →
      Trans s .timer2 { s with atTimeoutCnt := s.atTimeoutCnt - 1 }
  | expireWake :
      s.timer2 = true → s.atTimeoutCnt = 1 → s.atProcess = .suspended →
      Trans s .timer2
        { s with
          atTimeoutCnt := 0, timer2 := false, atProcess := .dispatch, e := {atTimeoutEvent} }
  | expirePost :
      s.timer2 = true → s.atTimeoutCnt = 1 → s.atProcess ≠ .suspended →
      Trans s .timer2
        { s with
          atTimeoutCnt := 0, timer2 := false, rx1Event := insert atTimeoutEvent s.rx1Event }
  | comtest :
      s.shell = .prompt →
      Trans s .comtest { s with shell := .loop, kk := 0, atSendCmdNum := .atRole }
  -- serial_entry
  | serialRecv :
      s.serial = .recv → rx1RecEvent ∈ s.rx1Event →
      Trans s (.run .serial)
        { s with
          rx1Event := s.rx1Event \ {rx1RecEvent}, serial := .loop, rtCurrentThread := .serial }
  | serialWait :
      s.serial = .recv → rx1RecEvent ∉ s.rx1Event →
      Trans s (.run .serial) { s with serial := .suspended, rtCurrentThread := .serial }
  | serialUnread :
      s.serial = .loop → s.usartDMARecQFront ≠ s.usartDMARecQRear →
      Trans s (.run .serial) { s with serial := .copy, rtCurrentThread := .serial }
  | serialDrained :
      s.serial = .loop → s.usartDMARecQFront = s.usartDMARecQRear →
      Trans s (.run .serial) { s with serial := .record, rtCurrentThread := .serial }
  | serialCopy :
      s.serial = .copy →
      Trans s (.run .serial)
        { s with

          processBuff := s.processBuff.write s.processP (s.dmaRecBuffer.read s.usartDMARecQRear),
          processP := s.processP + 1, serial := .advance, rtCurrentThread := .serial }
  | serialAdvance :
      s.serial = .advance →
      Trans s (.run .serial)
        { s with
          usartDMARecQRear := (s.usartDMARecQRear + 1) % usart1DmaRecSize, serial := .full,
          rtCurrentThread := .serial }
  | serialFull :
      s.serial = .full → s.processP = usart1ProSize →
      Trans s (.run .serial) { s with serial := .record, rtCurrentThread := .serial }
  | serialMore :
      s.serial = .full → s.processP ≠ usart1ProSize →
      Trans s (.run .serial) { s with serial := .loop, rtCurrentThread := .serial }
  | serialRecord :
      s.serial = .record →
      Trans s (.run .serial)
        { s with
          processBuffP := s.processP, processP := 0, serial := .announce,
          rtCurrentThread := .serial }
  | announceWake :
      s.serial = .announce → s.atProcess = .suspended →
      Trans s (.run .serial)
        { s with
          serial := .echo, atProcess := .dispatch, e := {rx1ProcessEvent},
          rtCurrentThread := .serial }
  | announcePost :
      s.serial = .announce → s.atProcess ≠ .suspended →
      Trans s (.run .serial)
        { s with
          serial := .echo, rx1Event := insert rx1ProcessEvent s.rx1Event,
          rtCurrentThread := .serial }
  | serialEcho :
      s.serial = .echo →
      Trans s (.run .serial) { s with serial := .recv, rtCurrentThread := .serial }
  -- at_process_entry
  | processRecv :
      s.atProcess = .recv → rx1ProcessEvent ∈ s.rx1Event ∨ atTimeoutEvent ∈ s.rx1Event →
      Trans s (.run .atProcess)
        { s with
          rx1Event := s.rx1Event \ {rx1ProcessEvent, atTimeoutEvent}, atProcess := .dispatch,
          e := s.rx1Event ∩ {rx1ProcessEvent, atTimeoutEvent}, rtCurrentThread := .atProcess }
  | processWait :
      s.atProcess = .recv → rx1ProcessEvent ∉ s.rx1Event → atTimeoutEvent ∉ s.rx1Event →
      Trans s (.run .atProcess)
        { s with atProcess := .suspended, rtCurrentThread := .atProcess }
  | dispatchPacket :
      s.atProcess = .dispatch → rx1ProcessEvent ∈ s.e →
      Trans s (.run .atProcess) { s with atProcess := .recWait, rtCurrentThread := .atProcess }
  | dispatchTimeout :
      s.atProcess = .dispatch → rx1ProcessEvent ∉ s.e → atTimeoutEvent ∈ s.e →
      Trans s (.run .atProcess) { s with atProcess := .retry, rtCurrentThread := .atProcess }
  | dispatchNone :
      s.atProcess = .dispatch → rx1ProcessEvent ∉ s.e → atTimeoutEvent ∉ s.e →
      Trans s (.run .atProcess) { s with atProcess := .recv, rtCurrentThread := .atProcess }
  | recWait :
      s.atProcess = .recWait →
      Trans s (.run .atProcess)
        { s with atProcess := .search s.atRecCmdNum 0 0, rtCurrentThread := .atProcess }
  | searchFound {c i j} :
      s.atProcess = .search c i j → probe s.memory (atCmds c).atRecStr i j = .found →
      Trans s (.run .atProcess) { s with atProcess := .disarm, rtCurrentThread := .atProcess }
  | searchAbsent {c i j} :
      s.atProcess = .search c i j → probe s.memory (atCmds c).atRecStr i j = .absent →
      Trans s (.run .atProcess) { s with atProcess := .recv, rtCurrentThread := .atProcess }
  | searchNext {c i j i' j'} :
      s.atProcess = .search c i j → probe s.memory (atCmds c).atRecStr i j = .next i' j' →
      Trans s (.run .atProcess)
        { s with atProcess := .search c i' j', rtCurrentThread := .atProcess }
  | disarm :
      s.atProcess = .disarm →
      Trans s (.run .atProcess)
        { s with atTimeoutCnt := 0, atProcess := .select, rtCurrentThread := .atProcess }
  | select :
      s.atProcess = .select →
      Trans s (.run .atProcess)
        { s with
          atProcess := .print (Sys.clearsProcessBuff s.atCurrentCmdNum) 0,
          rtCurrentThread := .atProcess }
  | printByte {clears k} :
      s.atProcess = .print clears k → s.memory.getD k 0 ≠ 0 →
      Trans s (.run .atProcess)
        { s with atProcess := .print clears (k + 1), rtCurrentThread := .atProcess }
  | printClear {k} :
      s.atProcess = .print true k → s.memory.getD k 0 = 0 →
      Trans s (.run .atProcess) { s with atProcess := .clear 0, rtCurrentThread := .atProcess }
  | printKeep {k} :
      s.atProcess = .print false k → s.memory.getD k 0 = 0 →
      Trans s (.run .atProcess) { s with atProcess := .ack, rtCurrentThread := .atProcess }
  | clearByte {k} :
      s.atProcess = .clear k → k < usart1ProSize →
      Trans s (.run .atProcess)
        { s with
          processBuff := s.processBuff.write k 0, atProcess := .clear (k + 1),
          rtCurrentThread := .atProcess }
  | clearDone {k} :
      s.atProcess = .clear k → usart1ProSize ≤ k →
      Trans s (.run .atProcess) { s with atProcess := .ack, rtCurrentThread := .atProcess }
  | ackWake :
      s.atProcess = .ack → s.shell = .suspended →
      Trans s (.run .atProcess)
        { s with atProcess := .recv, shell := .advance, rtCurrentThread := .atProcess }
  | ackPost :
      s.atProcess = .ack → s.shell ≠ .suspended →
      Trans s (.run .atProcess)
        { s with
          atProcess := .recv, rx1Event := insert atcmdSendAckOkEvent s.rx1Event,
          rtCurrentThread := .atProcess }
  | retryAgain :
      s.atProcess = .retry → 0 < s.currentRty →
      Trans s (.run .atProcess)
        { s with atProcess := .decrement, rtCurrentThread := .atProcess }
  | retryReset :
      s.atProcess = .retry → s.currentRty = 0 →
      Trans s (.run .atProcess)
        { s with atProcess := .atSend .setCurrent, rtCurrentThread := .atProcess }
  | retryDecrement :
      s.atProcess = .decrement →
      Trans s (.run .atProcess)
        { s with
          currentRty := (s.currentRty + 255) % 256, atProcess := .mark,
          rtCurrentThread := .atProcess }
  | retryMark :
      s.atProcess = .mark →
      Trans s (.run .atProcess)
        { s with
          atNextCmdNum := s.atCurrentCmdNum, atProcess := .arm, rtCurrentThread := .atProcess }
  | retryArm :
      s.atProcess = .arm →
      Trans s (.run .atProcess)
        { s with atTimeoutCnt := 500, atProcess := .remove, rtCurrentThread := .atProcess }
  | retryRemove :
      s.atProcess = .remove →
      Trans s (.run .atProcess)
        { s with timer2 := false, atProcess := .insert, rtCurrentThread := .atProcess }
  | retryInsert :
      s.atProcess = .insert →
      Trans s (.run .atProcess)
        { s with timer2 := true, atProcess := .resend, rtCurrentThread := .atProcess }
  | resendWake :
      s.atProcess = .resend → s.atSendThread = .suspended →
      Trans s (.run .atProcess)
        { s with atProcess := .recv, atSendThread := .compare, rtCurrentThread := .atProcess }
  | resendPost :
      s.atProcess = .resend → s.atSendThread ≠ .suspended →
      Trans s (.run .atProcess)
        { s with
          atProcess := .recv, rx1Event := insert atstatusSendEvent s.rx1Event,
          rtCurrentThread := .atProcess }
  -- `ATSend(AT_REST)` in at_process_entry
  | resetSetCurrent :
      s.atProcess = .atSend .setCurrent →
      Trans s (.run .atProcess)
        { s with
          atCurrentCmdNum := .atRest, atProcess := .atSend .setNext,
          rtCurrentThread := .atProcess }
  | resetSetNext :
      s.atProcess = .atSend .setNext →
      Trans s (.run .atProcess)
        { s with
          atNextCmdNum := .atTnocmd, atProcess := .atSend .setRec,
          rtCurrentThread := .atProcess }
  | resetSetRec :
      s.atProcess = .atSend .setRec →
      Trans s (.run .atProcess)
        { s with
          atRecCmdNum := .atRest, atProcess := .atSend .arm, rtCurrentThread := .atProcess }
  | resetArm :
      s.atProcess = .atSend .arm →
      Trans s (.run .atProcess)
        { s with
          atTimeoutCnt := 500, atProcess := .atSend .remove, rtCurrentThread := .atProcess }
  | resetRemove :
      s.atProcess = .atSend .remove →
      Trans s (.run .atProcess)
        { s with timer2 := false, atProcess := .atSend .insert, rtCurrentThread := .atProcess }
  | resetInsert :
      s.atProcess = .atSend .insert →
      Trans s (.run .atProcess)
        { s with timer2 := true, atProcess := .atSend .enter, rtCurrentThread := .atProcess }
  | resetEnter :
      s.atProcess = .atSend .enter →
      Trans s (.run .atProcess)
        { s with
          rtSchedulerLockNest := s.rtSchedulerLockNest + 1, atProcess := .atSend .post,
          rtCurrentThread := .atProcess }
  | resetPostWake :
      s.atProcess = .atSend .post → s.atSendThread = .suspended →
      Trans s (.run .atProcess)
        { s with
          atSendThread := .compare, atProcess := .atSend .exit, rtCurrentThread := .atProcess }
  | resetPost :
      s.atProcess = .atSend .post → s.atSendThread ≠ .suspended →
      Trans s (.run .atProcess)
        { s with
          rx1Event := insert atstatusSendEvent s.rx1Event, atProcess := .atSend .exit,
          rtCurrentThread := .atProcess }
  | resetExit :
      s.atProcess = .atSend .exit →
      Trans s (.run .atProcess)
        { s with
          rtSchedulerLockNest := s.rtSchedulerLockNest - 1, atProcess := .recv,
          rtCurrentThread := .atProcess }
  -- at_send_thread_entry
  | sendRecv :
      s.atSendThread = .recv → atstatusSendEvent ∈ s.rx1Event →
      Trans s (.run .atSendThread)
        { s with
          rx1Event := s.rx1Event \ {atstatusSendEvent}, atSendThread := .compare,
          rtCurrentThread := .atSendThread }
  | sendWait :
      s.atSendThread = .recv → atstatusSendEvent ∉ s.rx1Event →
      Trans s (.run .atSendThread)
        { s with atSendThread := .suspended, rtCurrentThread := .atSendThread }
  | compareFirst :
      s.atSendThread = .compare → s.atCurrentCmdNum ≠ s.atNextCmdNum →
      Trans s (.run .atSendThread)
        { s with atSendThread := .refill, rtCurrentThread := .atSendThread }
  | compareRetry :
      s.atSendThread = .compare → s.atCurrentCmdNum = s.atNextCmdNum →
      Trans s (.run .atSendThread)
        { s with atSendThread := .enter, rtCurrentThread := .atSendThread }
  | refill :
      s.atSendThread = .refill →
      Trans s (.run .atSendThread)
        { s with
          currentRty := (atCmds s.atCurrentCmdNum).rtyNum, atSendThread := .enter,
          rtCurrentThread := .atSendThread }
  | sendEnter :
      s.atSendThread = .enter →
      Trans s (.run .atSendThread)
        { s with
          rtSchedulerLockNest := s.rtSchedulerLockNest + 1, atSendThread := .transmit,
          rtCurrentThread := .atSendThread }
  | transmit :
      s.atSendThread = .transmit →
      Trans s (.run .atSendThread)
        { s with atSendThread := .print, rtCurrentThread := .atSendThread }
  | sendPrint :
      s.atSendThread = .print →
      Trans s (.run .atSendThread)
        { s with atSendThread := .exit, rtCurrentThread := .atSendThread }
  | sendExit :
      s.atSendThread = .exit →
      Trans s (.run .atSendThread)
        { s with
          rtSchedulerLockNest := s.rtSchedulerLockNest - 1, atSendThread := .recv,
          rtCurrentThread := .atSendThread }
  -- at_comtest
  | loopNext :
      s.shell = .loop → s.kk < 9 →
      Trans s (.run .shell) { s with shell := .atSend .setCurrent, rtCurrentThread := .shell }
  | loopReturn :
      s.shell = .loop → 9 ≤ s.kk →
      Trans s (.run .shell) { s with shell := .prompt, rtCurrentThread := .shell }
  | callSetCurrent :
      s.shell = .atSend .setCurrent →
      Trans s (.run .shell)
        { s with
          atCurrentCmdNum := s.atSendCmdNum, shell := .atSend .setNext,
          rtCurrentThread := .shell }
  | callSetNext :
      s.shell = .atSend .setNext →
      Trans s (.run .shell)
        { s with atNextCmdNum := .atTnocmd, shell := .atSend .setRec, rtCurrentThread := .shell }
  | callSetRec :
      s.shell = .atSend .setRec →
      Trans s (.run .shell)
        { s with atRecCmdNum := s.atSendCmdNum, shell := .atSend .arm, rtCurrentThread := .shell }
  | callArm :
      s.shell = .atSend .arm →
      Trans s (.run .shell)
        { s with atTimeoutCnt := 500, shell := .atSend .remove, rtCurrentThread := .shell }
  | callRemove :
      s.shell = .atSend .remove →
      Trans s (.run .shell)
        { s with timer2 := false, shell := .atSend .insert, rtCurrentThread := .shell }
  | callInsert :
      s.shell = .atSend .insert →
      Trans s (.run .shell)
        { s with timer2 := true, shell := .atSend .enter, rtCurrentThread := .shell }
  | callEnter :
      s.shell = .atSend .enter →
      Trans s (.run .shell)
        { s with
          rtSchedulerLockNest := s.rtSchedulerLockNest + 1, shell := .atSend .post,
          rtCurrentThread := .shell }
  | callPostWake :
      s.shell = .atSend .post → s.atSendThread = .suspended →
      Trans s (.run .shell)
        { s with atSendThread := .compare, shell := .atSend .exit, rtCurrentThread := .shell }
  | callPost :
      s.shell = .atSend .post → s.atSendThread ≠ .suspended →
      Trans s (.run .shell)
        { s with
          rx1Event := insert atstatusSendEvent s.rx1Event, shell := .atSend .exit,
          rtCurrentThread := .shell }
  | callExit :
      s.shell = .atSend .exit →
      Trans s (.run .shell)
        { s with
          rtSchedulerLockNest := s.rtSchedulerLockNest - 1, shell := .recv,
          rtCurrentThread := .shell }
  | shellRecv :
      s.shell = .recv → atcmdSendAckOkEvent ∈ s.rx1Event →
      Trans s (.run .shell)
        { s with
          rx1Event := s.rx1Event \ {atcmdSendAckOkEvent}, shell := .advance,
          rtCurrentThread := .shell }
  | shellWait :
      s.shell = .recv → atcmdSendAckOkEvent ∉ s.rx1Event →
      Trans s (.run .shell) { s with shell := .suspended, rtCurrentThread := .shell }
  | shellAdvance :
      s.shell = .advance →
      Trans s (.run .shell)
        { s with
          atSendCmdNum := s.atSendCmdNum.succ, kk := s.kk + 1, shell := .loop,
          rtCurrentThread := .shell }

theorem EventInv.congr {s s' : Sys} (h : EventInv s) (hset : s'.rx1Event = s.rx1Event)
    (hsus : ∀ t, s'.suspended t → s.suspended t) : EventInv s' :=
  fun t ht => hset ▸ h t (hsus t ht)

section Steps

variable {s s' : Sys}

theorem serialEntry_trans (hi : EventInv s) (hr : s.serial ≠ .suspended) :
    Trans s (.run .serial) { s.serialEntry with rtCurrentThread := .serial } := by
  unfold Sys.serialEntry
  cases hpc : s.serial with
  | recv =>
    by_cases hb : rx1RecEvent ∈ s.rx1Event
    · simpa [Sys.rtEventRecv, eventRecv, EventFlag.satisfied, Sys.waiterOf, Sys.resume, hb]
        using Trans.serialRecv hpc hb
    · simpa [Sys.rtEventRecv, eventRecv, EventFlag.satisfied, Sys.waiterOf, Sys.suspend, hb]
        using Trans.serialWait hpc hb
  | suspended => exact absurd hpc hr
  | loop =>
    by_cases hq : s.usartDMARecQFront = s.usartDMARecQRear
    · simpa [hq] using Trans.serialDrained hpc hq
    · simpa [hq] using Trans.serialUnread hpc hq
  | copy => exact .serialCopy hpc
  | advance => exact .serialAdvance hpc
  | full =>
    by_cases hp : s.processP = usart1ProSize
    · simpa [hp] using Trans.serialFull hpc hp
    · simpa [hp] using Trans.serialMore hpc hp
  | record => exact .serialRecord hpc
  | announce =>
    have hi' : EventInv { s with serial := .echo } :=
      hi.congr rfl fun t ht => by cases t <;> simp_all [Sys.suspended]
    simp only [Sys.rtEventSend_singleton hi']
    by_cases hp : s.atProcess = .suspended
    · simpa [Sys.suspended, Sys.receiver, Sys.resume, hp] using Trans.announceWake hpc hp
    · simpa [Sys.suspended, Sys.receiver, hp] using Trans.announcePost hpc hp
  | echo => exact .serialEcho hpc

theorem atProcessEntry_trans (hi : EventInv s) (hr : s.atProcess ≠ .suspended) :
    Trans s (.run .atProcess) { s.atProcessEntry with rtCurrentThread := .atProcess } := by
  have hrunning : ∀ pc, pc ≠ ProcessPc.suspended → EventInv { s with atProcess := pc } :=
    fun pc hpc => hi.congr rfl fun t ht => by cases t <;> simp_all [Sys.suspended]
  unfold Sys.atProcessEntry
  cases hpc : s.atProcess with
  | recv =>
    by_cases hb : rx1ProcessEvent ∈ s.rx1Event ∨ atTimeoutEvent ∈ s.rx1Event
    · have hne : ({rx1ProcessEvent, atTimeoutEvent} ∩ s.rx1Event).Nonempty := by
        rcases hb with hb | hb
        · exact ⟨_, Finset.mem_inter.mpr ⟨by simp, hb⟩⟩
        · exact ⟨_, Finset.mem_inter.mpr ⟨by simp, hb⟩⟩
      simpa [Sys.rtEventRecv, eventRecv, EventFlag.satisfied, Sys.waiterOf, Sys.resume, hne]
        using Trans.processRecv hpc hb
    · obtain ⟨hp, ht⟩ := not_or.mp hb
      have hne : ¬ ({rx1ProcessEvent, atTimeoutEvent} ∩ s.rx1Event).Nonempty := by
        rw [Finset.not_nonempty_iff_eq_empty, ← Finset.disjoint_iff_inter_eq_empty]
        simp [hp, ht]
      simpa [Sys.rtEventRecv, eventRecv, EventFlag.satisfied, Sys.waiterOf, Sys.suspend, hne]
        using Trans.processWait hpc hp ht
  | suspended => exact absurd hpc hr
  | dispatch =>
    by_cases hp : rx1ProcessEvent ∈ s.e
    · simpa [hp] using Trans.dispatchPacket hpc hp
    · by_cases ht : atTimeoutEvent ∈ s.e
      · simpa [hp, ht] using Trans.dispatchTimeout hpc hp ht
      · simpa [hp, ht] using Trans.dispatchNone hpc hp ht
  | recWait => exact .recWait hpc
  | search c i j =>
    cases hp : probe s.memory (atCmds c).atRecStr i j with
    | found => simpa [hp] using Trans.searchFound hpc hp
    | absent => simpa [hp] using Trans.searchAbsent hpc hp
    | next i' j' => simpa [hp] using Trans.searchNext hpc hp
  | disarm => exact .disarm hpc
  | select => exact .select hpc
  | print clears k =>
    by_cases hz : s.memory.getD k 0 = 0
    · cases clears with
      | true => simpa only [hz, ne_eq, not_true_eq_false, if_true, if_false] using
          Trans.printClear hpc hz
      | false => simpa only [hz, ne_eq, not_true_eq_false, Bool.false_eq_true, if_false] using
          Trans.printKeep hpc hz
    · simpa only [hz, ne_eq, not_false_eq_true, if_true] using Trans.printByte hpc hz
  | clear k =>
    by_cases hk : k < usart1ProSize
    · simpa [hk] using Trans.clearByte hpc hk
    · simpa [hk] using Trans.clearDone hpc (Nat.le_of_not_lt hk)
  | ack =>
    simp only [Sys.rtEventSend_singleton (hrunning .recv (by simp))]
    by_cases hs : s.shell = .suspended
    · simpa [Sys.suspended, Sys.receiver, Sys.resume, hs] using Trans.ackWake hpc hs
    · simpa [Sys.suspended, Sys.receiver, hs] using Trans.ackPost hpc hs
  | retry =>
    by_cases hc : 0 < s.currentRty
    · simpa [hc] using Trans.retryAgain hpc hc
    · simpa [hc] using Trans.retryReset hpc (by omega)
  | decrement => exact .retryDecrement hpc
  | mark => exact .retryMark hpc
  | arm => exact .retryArm hpc
  | remove => exact .retryRemove hpc
  | insert => exact .retryInsert hpc
  | resend =>
    simp only [Sys.rtEventSend_singleton (hrunning .recv (by simp))]
    by_cases hs : s.atSendThread = .suspended
    · simpa [Sys.suspended, Sys.receiver, Sys.resume, hs] using Trans.resendWake hpc hs
    · simpa [Sys.suspended, Sys.receiver, hs] using Trans.resendPost hpc hs
  | atSend p =>
    cases p with
    | post =>
      simp only [ATSendPc.following, Sys.atSend,
        Sys.rtEventSend_singleton (hrunning (.atSend .exit) (by simp))]
      by_cases hs : s.atSendThread = .suspended
      · simpa [Sys.suspended, Sys.receiver, Sys.resume, hs] using Trans.resetPostWake hpc hs
      · simpa [Sys.suspended, Sys.receiver, hs] using Trans.resetPost hpc hs
    | setCurrent => exact .resetSetCurrent hpc
    | setNext => exact .resetSetNext hpc
    | setRec => exact .resetSetRec hpc
    | arm => exact .resetArm hpc
    | remove => exact .resetRemove hpc
    | insert => exact .resetInsert hpc
    | enter => exact .resetEnter hpc
    | exit => exact .resetExit hpc

theorem atSendThreadEntry_trans (hr : s.atSendThread ≠ .suspended) :
    Trans s (.run .atSendThread)
      { s.atSendThreadEntry with rtCurrentThread := .atSendThread } := by
  unfold Sys.atSendThreadEntry
  cases hpc : s.atSendThread with
  | recv =>
    by_cases hb : atstatusSendEvent ∈ s.rx1Event
    · simpa [Sys.rtEventRecv, eventRecv, EventFlag.satisfied, Sys.waiterOf, Sys.resume, hb]
        using Trans.sendRecv hpc hb
    · simpa [Sys.rtEventRecv, eventRecv, EventFlag.satisfied, Sys.waiterOf, Sys.suspend, hb]
        using Trans.sendWait hpc hb
  | suspended => exact absurd hpc hr
  | compare =>
    by_cases hc : s.atCurrentCmdNum = s.atNextCmdNum
    · simpa [hc] using Trans.compareRetry hpc hc
    · simpa [hc] using Trans.compareFirst hpc hc
  | refill => exact .refill hpc
  | enter => exact .sendEnter hpc
  | transmit => exact .transmit hpc
  | print => exact .sendPrint hpc
  | exit => exact .sendExit hpc

theorem atComtest_trans (hi : EventInv s) (hr : s.shell ≠ .suspended) (hp : s.shell ≠ .prompt) :
    Trans s (.run .shell) { s.atComtest with rtCurrentThread := .shell } := by
  unfold Sys.atComtest
  cases hpc : s.shell with
  | prompt => exact absurd hpc hp
  | loop =>
    by_cases hk : s.kk < 9
    · simpa [TeATCmdNum.val, hk] using Trans.loopNext hpc hk
    · simpa [TeATCmdNum.val, hk] using Trans.loopReturn hpc (Nat.le_of_not_lt hk)
  | atSend p =>
    cases p with
    | post =>
      have hi' : EventInv { s with shell := .atSend .exit } :=
        hi.congr rfl fun t ht => by cases t <;> simp_all [Sys.suspended]
      simp only [ATSendPc.following, Sys.atSend, Sys.rtEventSend_singleton hi']
      by_cases hs : s.atSendThread = .suspended
      · simpa [Sys.suspended, Sys.receiver, Sys.resume, hs] using Trans.callPostWake hpc hs
      · simpa [Sys.suspended, Sys.receiver, hs] using Trans.callPost hpc hs
    | setCurrent => exact .callSetCurrent hpc
    | setNext => exact .callSetNext hpc
    | setRec => exact .callSetRec hpc
    | arm => exact .callArm hpc
    | remove => exact .callRemove hpc
    | insert => exact .callInsert hpc
    | enter => exact .callEnter hpc
    | exit => exact .callExit hpc
  | recv =>
    by_cases hb : atcmdSendAckOkEvent ∈ s.rx1Event
    · simpa [Sys.rtEventRecv, eventRecv, EventFlag.satisfied, Sys.waiterOf, Sys.resume, hb]
        using Trans.shellRecv hpc hb
    · simpa [Sys.rtEventRecv, eventRecv, EventFlag.satisfied, Sys.waiterOf, Sys.suspend, hb]
        using Trans.shellWait hpc hb
  | suspended => exact absurd hpc hr
  | advance => exact .shellAdvance hpc

theorem timeout2_trans (hi : EventInv s) (ht : s.timer2 = true) : Trans s .timer2 s.timeout2 := by
  unfold Sys.timeout2
  rcases Nat.lt_trichotomy s.atTimeoutCnt 1 with h0 | h1 | h2
  · have h0 : s.atTimeoutCnt = 0 := by omega
    simpa [h0] using Trans.tickIdle ht h0
  · have hi' : EventInv { s with atTimeoutCnt := 0 } :=
      hi.congr rfl fun t ht => by cases t <;> exact ht
    simp only [h1, ne_eq, one_ne_zero, not_false_eq_true, if_true, Nat.sub_self,
      Sys.rtEventSend_singleton hi']
    by_cases hp : s.atProcess = .suspended
    · simpa [Sys.suspended, Sys.receiver, Sys.resume, Sys.rtTimerStop, hp]
        using Trans.expireWake ht h1 hp
    · simpa [Sys.suspended, Sys.receiver, Sys.rtTimerStop, hp] using Trans.expirePost ht h1 hp
  · have hn : s.atTimeoutCnt ≠ 0 := by omega
    have hn' : s.atTimeoutCnt - 1 ≠ 0 := by omega
    simpa [hn, hn'] using Trans.tick ht h2

theorem usart1IRQHandler_trans (hi : EventInv s) : Trans s .usart1 s.usart1IRQHandler := by
  have hi' : EventInv { s with usartDMARecQFront := usart1DmaRecSize - s.cndtr } :=
    hi.congr rfl fun t ht => by cases t <;> exact ht
  unfold Sys.usart1IRQHandler
  rw [Sys.rtEventSend_singleton hi']
  by_cases hs : s.serial = .suspended
  · simpa [Sys.suspended, Sys.receiver, Sys.resume, hs] using Trans.idleWake hs
  · simpa [Sys.suspended, Sys.receiver, hs] using Trans.idlePost hs

/-- What a step of the system can do. -/
theorem step_trans {a : Action} (hi : EventInv s) (h : step a s = some s') : Trans s a s' := by
  cases a with
  | receive b =>
    obtain rfl : s.dmaReceive b = s' := by simpa [step] using h
    exact .receive b
  | usart1 =>
    obtain rfl : s.usart1IRQHandler = s' := by simpa [step] using h
    exact usart1IRQHandler_trans hi
  | timer2 =>
    obtain ⟨ht, rfl⟩ : s.timer2 = true ∧ s.timeout2 = s' := by simpa [step] using h
    exact timeout2_trans hi ht
  | comtest =>
    obtain ⟨hp, rfl⟩ : s.shell = .prompt ∧
        { s with shell := .loop, kk := 0, atSendCmdNum := .atRole } = s' := by
      simpa [step] using h
    exact .comtest hp
  | run t =>
    obtain ⟨hsch, rfl⟩ : s.scheduled t ∧
        { Sys.runThread t s with rtCurrentThread := t } = s' := by simpa [step] using h
    have hready := hsch.1
    cases t with
    | serial => exact serialEntry_trans hi hready.1
    | atProcess => exact atProcessEntry_trans hi hready.1
    | atSendThread => exact atSendThreadEntry_trans hready.1
    | shell => exact atComtest_trans hi hready.1 (hready.2 rfl)

/-- A thread steps only when the scheduler chose it. -/
theorem step_scheduled {t : Thread} (h : step (.run t) s = some s') : s.scheduled t := by
  by_contra hn
  simp [step, hn] at h

end Steps

section Preservation

variable {s s' : Sys} {a : Action}

theorem EventInv.trans (hi : EventInv s) (ht : Trans s a s') : EventInv s' := by
  intro t hs
  have h := hi t
  cases ht <;> cases t <;> simp_all [Sys.suspended, Sys.waiterOf]

theorem EventInv.init {behind : Ram} : EventInv (Sys.init behind) := by
  intro t hs
  cases t <;> simp [Sys.init, Sys.suspended] at hs

end Preservation

end NanoAt
