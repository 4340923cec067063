import NanoAt.Observations

/-!
# Stranded commands

`rt_event_recv` hands `RX1_PROCESS_EVENT` and `AT_TIMEOUT_EVENT` over together, and
`at_process` then serves the packet only. If the packet does not match, nothing follows
from the timeout, and nobody is left who would wake anyone. `keepsTimeouts` excludes
that branch; under it the command that `at_comtest` waits for is always pursued.

## Main definitions

- `keepsTimeouts` — no packet is rejected in a round that has also received a timeout
- `Sys.underWay` — `at_process` has a timeout or a match in hand
- `Pursued` — the invariant
-/

namespace NanoAt
open CString GuardedRun Rx1Event

/-- `Rec_WaitAT` does not reject a packet in a round of `at_process` that has received
`AT_TIMEOUT_EVENT` as well. -/
def keepsTimeouts (_ : History Sys Action) (s : Sys) (a : Action) : Prop :=
  match a, s.atProcess with
  | .run .atProcess, .search c i j =>
    probe s.memory (atCmds c).atRecStr i j = .absent → atTimeoutEvent ∉ s.e
  | _, _ => True

instance (h : History Sys Action) (s : Sys) (a : Action) : Decidable (keepsTimeouts h s a) := by
  unfold keepsTimeouts
  generalize s.atProcess = pc
  exact match a with
    | .run .atProcess => by apply @ProcessPc.casesOn _ pc <;> intros <;> infer_instance
    | .run .serial | .run .atSendThread | .run .shell => inferInstance
    | .receive _ | .usart1 | .timer2 | .comtest => inferInstance

/-- A retry, a reset or an acknowledgement. -/
def Event.isAnswer (x : Event) : Bool :=
  Event.processAt .resend x || Event.processAt (.atSend .post) x || Event.isAck x

/-- The statements of `ATSend` from the store of the count to the start of the timer. -/
def ATSendPc.arming : ATSendPc → Prop
  | .remove | .insert => True
  | _ => False

/-- The statements of `ATSend` after the start of the timer. -/
def ATSendPc.armed : ATSendPc → Prop
  | .enter | .post | .exit => True
  | _ => False

namespace Sys

/-- `at_process` has a timeout or a match in hand and has not yet acted on it. -/
def underWay (s : Sys) : Prop :=
  match s.atProcess with
  | .recv | .suspended | .resend | .atSend .enter | .atSend .post | .atSend .exit => False
  | .dispatch | .recWait | .search .. => atTimeoutEvent ∈ s.e
  | _ => True

/-- `at_process` has stored the count and not yet started the timer. -/
def rearming (s : Sys) : Prop :=
  s.atProcess = .remove ∨ s.atProcess = .insert ∨ s.resetIn ATSendPc.arming

/-- `at_comtest` has started the timer and waits, or is about to wait, for the reply. -/
def outstanding (s : Sys) : Prop :=
  s.callIn ATSendPc.armed ∨ s.shell = .recv ∨ s.shell = .suspended

end Sys

section Invariants

variable {h : History Sys Action} {s s' : Sys} {a : Action}

/-- The command that `at_comtest` waits for is pursued: it is acknowledged, or its
timeout is armed, posted or being served. -/
structure Pursued (s : Sys) : Prop where
  rearming : s.rearming → 0 < s.atTimeoutCnt ∨ atTimeoutEvent ∈ s.rx1Event
  calling : s.callIn ATSendPc.arming → atcmdSendAckOkEvent ∈ s.rx1Event ∨ 0 < s.atTimeoutCnt ∨
    atTimeoutEvent ∈ s.rx1Event ∨ s.underWay
  outstanding : s.outstanding → atcmdSendAckOkEvent ∈ s.rx1Event ∨
    (0 < s.atTimeoutCnt ∧ s.timer2 = true) ∨ atTimeoutEvent ∈ s.rx1Event ∨ s.underWay

namespace Pursued

theorem init {behind : Ram} : Pursued (Sys.init behind) := by
  constructor <;> simp [Sys.init, Sys.rearming, Sys.resetIn, Sys.callIn, Sys.outstanding]

theorem frame (hp : Pursued s)
    (hack : atcmdSendAckOkEvent ∈ s.rx1Event → atcmdSendAckOkEvent ∈ s'.rx1Event)
    (htimeout : atTimeoutEvent ∈ s.rx1Event → atTimeoutEvent ∈ s'.rx1Event)
    (hcnt : 0 < s.atTimeoutCnt → 0 < s'.atTimeoutCnt) (htimer : s.timer2 = true → s'.timer2 = true)
    (hwork : s.underWay → s'.underWay) (hrearm : s'.rearming → s.rearming)
    (hcall : s'.callIn ATSendPc.arming → s.callIn ATSendPc.arming)
    (hout : s'.outstanding → s.outstanding) : Pursued s' where
  rearming hr := (hp.rearming (hrearm hr)).imp hcnt htimeout
  calling hc := (hp.calling (hcall hc)).imp hack (.imp hcnt (.imp htimeout hwork))
  outstanding ho := (hp.outstanding (hout ho)).imp hack
    (.imp (.imp hcnt htimer) (.imp htimeout hwork))

/-- Whatever else a step does, a timeout or a match in the hands of `at_process` is enough. -/
theorem of_underWay (hw : s'.underWay)
    (hrearm : s'.rearming → 0 < s'.atTimeoutCnt ∨ atTimeoutEvent ∈ s'.rx1Event) : Pursued s' :=
  ⟨hrearm, fun _ => .inr (.inr (.inr hw)), fun _ => .inr (.inr (.inr hw))⟩

/-- A timer started with a count still to run, or after its count has run out. -/
theorem of_started (hcnt : 0 < s'.atTimeoutCnt ∨ atTimeoutEvent ∈ s'.rx1Event)
    (htimer : s'.timer2 = true) : Pursued s' where
  rearming _ := hcnt
  calling _ := .inr (hcnt.imp_right .inl)
  outstanding _ := .inr (hcnt.imp (⟨·, htimer⟩) .inl)

theorem trans (hp : Pursued s) (hg : keepsTimeouts h s a) (ht : Trans s a s') : Pursued s' := by
  cases ht
  case tick _ hlt => exact hp.frame id id (fun _ => by simp; omega) id id id id id
  case expireWake =>
    exact .of_underWay (by simp [Sys.underWay]) (by simp [Sys.rearming, Sys.resetIn])
  case expirePost =>
    exact ⟨fun _ => .inr (by simp), fun _ => .inr (.inr (.inl (by simp))),
      fun _ => .inr (.inr (.inl (by simp)))⟩
  case processRecv hpc _ =>
    -- a posted timeout is now in hand
    have hno : ¬ s.underWay := by simp [Sys.underWay, hpc]
    refine ⟨by simp [Sys.rearming, Sys.resetIn], ?_, ?_⟩
    · intro hc
      rcases hp.calling hc with h | h | h | h
      · exact .inl (by simpa using h)
      · exact .inr (.inl h)
      · exact .inr (.inr (.inr (by simpa [Sys.underWay] using h)))
      · exact absurd h hno
    · intro ho
      rcases hp.outstanding ho with h | h | h | h
      · exact .inl (by simpa using h)
      · exact .inr (.inl h)
      · exact .inr (.inr (.inr (by simpa [Sys.underWay] using h)))
      · exact absurd h hno
  case searchAbsent hpc habsent =>
    -- a rejected packet ends the round, so no timeout may be in hand
    have hno : atTimeoutEvent ∉ s.e := by simpa [keepsTimeouts, hpc, habsent] using hg
    exact hp.frame id id id id (by simp [Sys.underWay, hpc, hno])
      (by simp [Sys.rearming, Sys.resetIn]) id id
  case disarm => exact .of_underWay (by simp [Sys.underWay]) (by simp [Sys.rearming, Sys.resetIn])
  case ackWake hpc hsus =>
    exact ⟨by simp [Sys.rearming, Sys.resetIn], by simp [Sys.callIn],
      by simp [Sys.outstanding, Sys.callIn]⟩
  case ackPost =>
    exact ⟨by simp [Sys.rearming, Sys.resetIn], fun _ => .inl (by simp), fun _ => .inl (by simp)⟩
  case retryArm | resetArm =>
    exact .of_underWay (by simp [Sys.underWay]) (fun _ => .inl (by simp))
  case retryRemove hpc | resetRemove hpc =>
    exact .of_underWay (by simp [Sys.underWay])
      (fun _ => hp.rearming (by simp [Sys.rearming, Sys.resetIn, ATSendPc.arming, hpc]))
  case retryInsert hpc | resetInsert hpc =>
    exact .of_started (hp.rearming (by simp [Sys.rearming, Sys.resetIn, ATSendPc.arming, hpc])) rfl
  case callArm =>
    exact ⟨fun _ => .inl (by simp), fun _ => .inr (.inl (by simp)),
      by simp [Sys.outstanding, Sys.callIn, ATSendPc.armed]⟩
  case callRemove hpc =>
    exact ⟨hp.rearming, fun _ => hp.calling (by simp [Sys.callIn, ATSendPc.arming, hpc]),
      by simp [Sys.outstanding, Sys.callIn, ATSendPc.armed]⟩
  case callInsert hpc =>
    -- the timer starts; the count may have run out since it was stored
    have hc := hp.calling (by simp [Sys.callIn, ATSendPc.arming, hpc])
    exact ⟨hp.rearming, by simp [Sys.callIn, ATSendPc.arming],
      fun _ => hc.imp_right (.imp_left (⟨·, rfl⟩))⟩
  case shellRecv =>
    exact ⟨by simpa [Sys.rearming, Sys.resetIn] using hp.rearming, by simp [Sys.callIn],
      by simp [Sys.outstanding, Sys.callIn]⟩
  all_goals
    exact hp.frame (by simp) (by simp) id id (by simp [Sys.underWay, *])
      (by simp [Sys.rearming, Sys.resetIn, ATSendPc.arming, *])
      (by simp [Sys.callIn, ATSendPc.arming, *])
      (by simp [Sys.outstanding, Sys.callIn, ATSendPc.armed, *])

end Pursued

/-- The present round of `at_process` has retried, reset or acknowledged. -/
def answered (h : History Sys Action) : Prop :=
  ∃ x ∈ since (Event.processAt .dispatch) h, Event.isAnswer x = true

@[simp] theorem answered_cons : answered ((s, a) :: h) ↔
    ¬ (a = .run .atProcess ∧ s.atProcess = .dispatch) ∧
      (Event.isAnswer (s, a) = true ∨ answered h) := by
  by_cases hd : a = .run .atProcess ∧ s.atProcess = .dispatch <;>
    simp [answered, Event.processAt, hd]

/-- A round that has received a timeout does not end without an answer. -/
def RoundAnswered (h : History Sys Action) (s : Sys) : Prop :=
  s.atProcess = .recv ∨ s.atProcess = .suspended ∨ s.atProcess = .atSend .exit →
    atTimeoutEvent ∈ s.e → answered h

theorem RoundAnswered.init {behind : Ram} : RoundAnswered [] (Sys.init behind) := by
  simp [RoundAnswered, Sys.init]

theorem RoundAnswered.frame (hr : RoundAnswered h s) (hpc : s'.atProcess = s.atProcess)
    (he : s'.e = s.e) (ha : a ≠ .run .atProcess) : RoundAnswered ((s, a) :: h) s' := by
  intro hidle htimeout
  rw [hpc] at hidle
  rw [he] at htimeout
  simp [ha, hr hidle htimeout]

theorem RoundAnswered.trans (hr : RoundAnswered h s) (hg : keepsTimeouts h s a)
    (ht : Trans s a s') : RoundAnswered ((s, a) :: h) s' := by
  cases ht
  case searchAbsent hpc habsent =>
    have hno : atTimeoutEvent ∉ s.e := by simpa [keepsTimeouts, hpc, habsent] using hg
    simp [RoundAnswered, hno]
  case ackWake hpc _ | ackPost hpc _ | resendWake hpc _ | resendPost hpc _ |
      resetPostWake hpc _ | resetPost hpc _ =>
    intro _ _
    simp [hpc, Event.isAnswer, Event.isAck, Event.processAt]
  case processWait hpc _ _ | resetExit hpc =>
    intro _ he
    have := hr (by simp [hpc]) he
    simp [hpc, this]
  all_goals
    first
      | exact hr.frame rfl rfl (by simp)
      | simp [RoundAnswered, *]

end Invariants

/-- Where no packet is rejected together with a timeout, no command is stranded: while
`at_comtest` waits and all threads are blocked the timeout is armed, and every timeout
received is followed in the same round by a retry, a reset or an acknowledgement. -/
theorem no_command_stranded {h : History Sys Action} {s : Sys} (hr : SysRun keepsTimeouts h s) :
    (s.shell = .suspended → s.serial = .suspended → s.atProcess = .suspended →
      s.atSendThread = .suspended → 0 < s.atTimeoutCnt ∧ s.timer2 = true) ∧
    (s.atProcess = .recv ∨ s.atProcess = .suspended → atTimeoutEvent ∈ s.e → answered h) := by
  obtain ⟨hp, ha⟩ : Pursued s ∧ RoundAnswered h s := by
    refine hr.invariant (P := fun h s => Pursued s ∧ RoundAnswered h s) (fun _ => ⟨.init, .init⟩) ?_
    rintro h s a s' _ ⟨hp, ha⟩ hg hm
    exact ⟨hp.trans hg hm.trans, ha.trans hg hm.trans⟩
  refine ⟨?_, fun hpc => ha (hpc.imp_right .inl)⟩
  intro hshell _ hprocess _
  have hi := hr.kernelInv.event
  rcases hp.outstanding (by simp [Sys.outstanding, hshell]) with hack | harmed | htimeout | hwork
  · exact absurd hack (hi.shell hshell)
  · exact harmed
  · exact absurd htimeout (hi.timeout hprocess)
  · simp [Sys.underWay, hprocess] at hwork

theorem no_command_stranded_after_retry :
    ∃ h s, SysRun keepsTimeouts h s ∧ (0 < s.atTimeoutCnt ∧ s.timer2 = true) ∧ answered h := by
  obtain ⟨h, s, hr, ht⟩ := SysRun.exists_of_exec keepsTimeouts
    (firstCommand ++ List.replicate 500 .timer2 ++ runs .atProcess 9 ++ runs .atSendThread 6)
    (fun _ s => s.shell = .suspended ∧ s.serial = .suspended ∧ s.atProcess = .suspended ∧
      s.atSendThread = .suspended ∧ atTimeoutEvent ∈ s.e) (by decide +kernel)
  obtain ⟨h1, h2, h3, h4, he⟩ : s.shell = .suspended ∧ s.serial = .suspended ∧
    s.atProcess = .suspended ∧ s.atSendThread = .suspended ∧ atTimeoutEvent ∈ s.e := by
    simpa using ht
  exact ⟨h, s, hr, (no_command_stranded hr).1 h1 h2 h3 h4, (no_command_stranded hr).2 (.inr h3) he⟩

/-- A packet that does not match and the timeout reach `at_process` together: all threads
are blocked, `at_comtest` waits, and no timeout is armed. -/
theorem rejected_packet_strands_command :
    ¬ ∀ h s, SysRun free h s → s.shell = .suspended → s.serial = .suspended →
      s.atProcess = .suspended → s.atSendThread = .suspended →
      0 < s.atTimeoutCnt ∧ s.timer2 = true := by
  intro hall
  obtain ⟨h, s, hr, ht⟩ := SysRun.exists_of_exec free
    (firstCommand ++ List.replicate 499 .timer2 ++ packetIn [65] ++ runs .atProcess 2 ++
      [.timer2] ++ packetIn [66] ++ runs .atProcess 8)
    (fun _ s => s.shell = .suspended ∧ s.serial = .suspended ∧ s.atProcess = .suspended ∧
      s.atSendThread = .suspended ∧ s.atTimeoutCnt = 0) (by decide +kernel)
  obtain ⟨h1, h2, h3, h4, h0⟩ : s.shell = .suspended ∧ s.serial = .suspended ∧
    s.atProcess = .suspended ∧ s.atSendThread = .suspended ∧ s.atTimeoutCnt = 0 := by
    simpa using ht
  have hpos := (hall h s hr h1 h2 h3 h4).1
  omega

end NanoAt
