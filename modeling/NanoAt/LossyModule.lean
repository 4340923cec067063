import NanoAt.Lib.MaximalRun
import NanoAt.Lib.RetryLoop
import NanoAt.ReceiveQueue

/-!
# The module on the other end of the line

The module answers a transmission with one packet or not at all, and sends nothing on its
own. A `World` is the firmware, the answers still to arrive and the log of what has been
transmitted; `LossyStep` is a step of the two together.

## Main definitions

- `commands` — the commands of `at_comtest`, in order
- `ValidReply` — the packets with which the module answers a command
- `World`, `LossyStep` — the firmware connected to the module
- `TestStart` — `at_comtest` is about to run its loop
-/

namespace NanoAt
open CString GuardedRun RetryLoops Rx1Event

/-- The commands that `at_comtest` issues: the rows of the list before AT_REST. -/
def commands : List TeATCmdNum :=
  [.atRole, .atVers, .atGnam, .atGurt, .atGsta, .atGpwd, .atConb, .atAdvl, .atAdvb]

theorem commands_nodup : commands.Nodup := by decide

theorem commands_get {c : TeATCmdNum} (h : c.val < 9) : commands[c.val]? = some c := by
  cases c <;> simp_all [TeATCmdNum.val, commands]

/-- The packets with which the module answers the command `c`. -/
structure ValidReply (c : TeATCmdNum) (p : List UInt8) : Prop where
  pos : 1 ≤ p.length
  le : p.length ≤ 195
  nonzero : (0 : UInt8) ∉ p
  keyword : (atCmds c).atRecStr <:+: p

/-- The firmware and the module. -/
structure World where
  sys : Sys
  /-- what is left of the answers, in the order of their arrival; an IDLE interrupt follows
  the last byte of each -/
  line : List (List UInt8)
  /-- the transmitted commands, oldest first, and whether the module answers -/
  log : List (TeATCmdNum × Bool)

/-- All threads wait and no answer is on its way. -/
structure World.Quiet (w : World) : Prop where
  serial : w.sys.serial = .suspended
  process : w.sys.atProcess = .suspended
  send : w.sys.atSendThread = .suspended
  shell : w.sys.shell = .suspended
  line : w.line = []

/-- A step of the firmware with a module that leaves at most `RtyNum` transmissions of a
command unanswered. The count runs out only while all threads wait and no answer is on
its way. -/
inductive LossyStep (w : World) : World → Prop
  | run {t s'} :
      Event.isTransmit (w.sys, .run t) = false → step (.run t) w.sys = some s' →
      LossyStep w { w with sys := s' }
  | lost {s'} :
      w.sys.atSendThread = .transmit → step (.run .atSendThread) w.sys = some s' →
      unanswered w.log w.sys.atCurrentCmdNum < (atCmds w.sys.atCurrentCmdNum).rtyNum →
      LossyStep w { w with sys := s', log := w.log ++ [(w.sys.atCurrentCmdNum, false)] }
  | answered {s' p} :
      w.sys.atSendThread = .transmit → step (.run .atSendThread) w.sys = some s' →
      ValidReply w.sys.atCurrentCmdNum p →
      LossyStep w
        { sys := s', line := w.line ++ [p], log := w.log ++ [(w.sys.atCurrentCmdNum, true)] }
  | byte {b p line} :
      w.line = (b :: p) :: line →
      LossyStep w { w with sys := w.sys.dmaReceive b, line := p :: line }
  | idle {line s'} :
      w.line = [] :: line → step .usart1 w.sys = some s' →
      LossyStep w { w with sys := s', line := line }
  | tick {s'} :
      (w.sys.atTimeoutCnt = 1 → w.Quiet) → step .timer2 w.sys = some s' →
      LossyStep w { w with sys := s' }

/-- `at_comtest` is about to run its loop for the first time: no event bit is set, the
other threads wait, the count is zero and the queue is empty. -/
structure TestStart (w : World) : Prop where
  kernel : KernelInv w.sys
  shell : w.sys.shell = .loop
  kk : w.sys.kk = 0
  atSendCmdNum : w.sys.atSendCmdNum = .atRole
  serial : w.sys.serial = .suspended
  process : w.sys.atProcess = .suspended
  send : w.sys.atSendThread = .suspended
  rx1Event : w.sys.rx1Event = ∅
  atTimeoutCnt : w.sys.atTimeoutCnt = 0
  processP : w.sys.processP = 0
  queue : Queue w.sys [] 0
  line : w.line = []
  log : w.log = []

/-- The firmware's part of a step is a transition. -/
theorem LossyStep.moves {w w' : World} (hi : KernelInv w.sys) (h : LossyStep w w') :
    ∃ a, Moves w.sys a w'.sys := by
  cases h with
  | run _ hs => exact ⟨_, hi.moves hs⟩
  | lost _ hs _ => exact ⟨_, hi.moves hs⟩
  | answered _ hs _ => exact ⟨_, hi.moves hs⟩
  | byte _ => exact ⟨.receive _, hi.moves rfl⟩
  | idle _ hs => exact ⟨_, hi.moves hs⟩
  | tick _ hs => exact ⟨_, hi.moves hs⟩

end NanoAt
