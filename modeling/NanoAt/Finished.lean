import NanoAt.Observations

/-!
# Acknowledged commands

A match stores zero to the count, which stops a timeout to come but neither one that is
posted nor a transmission that is requested. `settled` is the condition under which
nothing more is sent once the acknowledgement is posted.
-/

namespace NanoAt
open CString GuardedRun Rx1Event

/-- No timeout is posted, no transmission is requested or begun, and `at_comtest` is not
inside `ATSend`. -/
def Sys.quiet (s : Sys) : Prop :=
  atTimeoutEvent ∉ s.rx1Event ∧ atstatusSendEvent ∉ s.rx1Event ∧
    (s.atSendThread = .recv ∨ s.atSendThread = .suspended) ∧ ¬ s.callIn (· ≠ .setCurrent)

instance (s : Sys) : Decidable s.quiet := by
  unfold Sys.quiet; infer_instance

/-- A match clears the count only where nothing is posted or under way any more. -/
def settled (_ : History Sys Action) (s : Sys) (a : Action) : Prop :=
  a = .run .atProcess → s.atProcess = .disarm → s.quiet

instance (h : History Sys Action) (s : Sys) (a : Action) : Decidable (settled h s a) := by
  unfold settled; infer_instance

/-- Since the last call of `ATSend` by `at_comtest` an acknowledgement has been posted. -/
def acknowledged (h : History Sys Action) : Prop :=
  ∃ x ∈ since Event.isCall h, Event.isAck x = true

instance (h : History Sys Action) : Decidable (acknowledged h) := by
  unfold acknowledged; infer_instance

section Invariants

variable {h : History Sys Action} {s s' : Sys} {a : Action}

@[simp] theorem acknowledged_cons : acknowledged ((s, a) :: h) ↔
    ¬ (a = .run .shell ∧ s.shell = .atSend .setCurrent) ∧
      ((a = .run .atProcess ∧ s.atProcess = .ack) ∨ acknowledged h) := by
  by_cases hc : a = .run .shell ∧ s.shell = .atSend .setCurrent <;>
    simp [acknowledged, Event.isCall, Event.shellAt, Event.isAck, Event.processAt, hc]

/-- The count is cleared and the acknowledgement still to be posted. -/
def Sys.settling (s : Sys) : Prop :=
  match s.atProcess with
  | .select | .print .. | .clear _ | .ack => True
  | _ => False

/-- `at_process` has a timeout in hand or serves one. -/
def Sys.servesTimeout (s : Sys) : Prop :=
  match s.atProcess with
  | .dispatch => atTimeoutEvent ∈ s.e
  | .retry | .decrement | .mark | .arm | .remove | .insert | .resend | .atSend _ => True
  | _ => False

/-- From the match to the next call nothing is armed, posted or sent. -/
structure Finished (h : History Sys Action) (s : Sys) : Prop where
  settling : s.settling → s.atTimeoutCnt = 0 ∧ s.quiet
  after : acknowledged h → s.atTimeoutCnt = 0 ∧ s.quiet ∧ ¬ s.servesTimeout

namespace Finished

theorem init {behind : Ram} : Finished [] (Sys.init behind) := by
  constructor <;> simp [Sys.init, Sys.settling, acknowledged]

theorem frame (hf : Finished h s) (hack : acknowledged ((s, a) :: h) → acknowledged h)
    (hsettling : s'.settling → s.settling)
    (hstep : s.atTimeoutCnt = 0 → s.quiet → ¬ s.servesTimeout →
      s'.atTimeoutCnt = 0 ∧ s'.quiet ∧ ¬ s'.servesTimeout) : Finished ((s, a) :: h) s' where
  settling hs := by
    have hs := hsettling hs
    obtain ⟨h0, hq⟩ := hf.settling hs
    have hn : ¬ s.servesTimeout := by
      unfold Sys.settling at hs
      unfold Sys.servesTimeout
      split at hs <;> simp_all
    exact ⟨(hstep h0 hq hn).1, (hstep h0 hq hn).2.1⟩
  after ha := by
    obtain ⟨h0, hq, hn⟩ := hf.after (hack ha)
    exact hstep h0 hq hn

theorem moves (hk : KernelInv s) (hf : Finished h s) (hg : settled h s a) (hm : Moves s a s') :
    Finished ((s, a) :: h) s' := by
  obtain ⟨ht, hs⟩ := hm
  cases ht
  case disarm hpc =>
    -- the count is cleared only in a quiet state
    have hq : s.quiet := hg rfl hpc
    refine ⟨fun _ => ⟨rfl, hq⟩, fun _ => ⟨rfl, hq, by simp [Sys.servesTimeout]⟩⟩
  case ackWake hpc hsus =>
    obtain ⟨h0, hq⟩ := hf.settling (by simp [Sys.settling, hpc])
    refine ⟨by simp [Sys.settling], fun _ => ⟨h0, ?_, by simp [Sys.servesTimeout]⟩⟩
    exact ⟨hq.1, hq.2.1, hq.2.2.1, by simp [Sys.callIn]⟩
  case ackPost hpc _ =>
    obtain ⟨h0, hq⟩ := hf.settling (by simp [Sys.settling, hpc])
    refine ⟨by simp [Sys.settling], fun _ => ⟨h0, ?_, by simp [Sys.servesTimeout]⟩⟩
    exact ⟨by simpa using hq.1, by simpa using hq.2.1, hq.2.2.1, hq.2.2.2⟩
  case callSetCurrent hpc =>
    -- a call starts a new period, in which nothing is acknowledged yet
    have hsus := (hk.lock.all_suspended (hs _ rfl) (by simp [Sys.critical, hpc])).2.1
    exact ⟨by simp [Sys.settling, hsus], by simp [hpc]⟩
  all_goals
    exact hf.frame (by simp [*]) (by simp [Sys.settling, *])
      (by simp +contextual [Sys.quiet, Sys.callIn, Sys.servesTimeout, *])

/-- In a quiet state no transmission and no reset begins. -/
theorem not_sends (hf : Finished h s) (hack : acknowledged h) :
    Event.isTransmit (s, a) = false ∧ Event.isReset (s, a) = false := by
  obtain ⟨_, ⟨_, _, hsend, _⟩, hserves⟩ := hf.after hack
  have hreset : s.atProcess ≠ .atSend .setCurrent := fun hpc => by
    simp [Sys.servesTimeout, hpc] at hserves
  rcases hsend with hsend | hsend <;>
    simp [Event.isTransmit, Event.isReset, Event.sendAt, Event.processAt, hsend, hreset]

end Finished

end Invariants

/-- Where every match finds nothing posted and nothing under way, a step between an
acknowledgement and the next call of `at_comtest` begins neither a transmission nor a
reset of the module. -/
theorem acknowledged_command_finished {h : History Sys Action} {x : Event} {s : Sys}
    (hr : SysRun settled (x :: h) s) (hack : acknowledged h) :
    Event.isTransmit x = false ∧ Event.isReset x = false := by
  cases hr with
  | step hr _ _ =>
    have hf : Finished h _ :=
      SysRun.invariant (fun _ => .init) (fun _ _ _ _ hk hf hg hm => hf.moves hk hg hm) hr
    exact hf.not_sends hack

theorem acknowledged_command_finished_first_reply :
    ∃ h x s, SysRun settled (x :: h) s ∧ acknowledged h ∧
      Event.isTransmit x = false ∧ Event.isReset x = false := by
  obtain ⟨h, s, hr, ht⟩ := SysRun.exists_of_exec settled
    (firstCommand ++ packetIn (ascii "ROLE:1") ++ runs .atProcess 216 ++ runs .shell 1)
    (fun h _ => h.tail ≠ [] ∧ acknowledged h.tail) (by decide +kernel)
  have ht : h.tail ≠ [] ∧ acknowledged h.tail := by simpa using ht
  cases h with
  | nil => simp at ht
  | cons x h => exact ⟨h, x, s, hr, ht.2, acknowledged_command_finished hr ht.2⟩

/-- The count runs out between the match and the store of zero: after the acknowledgement
`at_process` serves the timeout and AT_ROLE is transmitted once more. -/
theorem late_timeout_resends_acknowledged_command :
    ¬ ∀ h x s, SysRun free (x :: h) s → acknowledged h →
      Event.isTransmit x = false ∧ Event.isReset x = false := by
  intro hall
  obtain ⟨h, s, hr, ht⟩ := SysRun.exists_of_exec free
    (firstCommand ++ List.replicate 499 .timer2 ++ packetIn (ascii "ROLE:1") ++
      runs .atProcess 8 ++ [.timer2] ++ runs .atProcess 217 ++ runs .atSendThread 3)
    (fun h _ => acknowledged h.tail ∧ h.head?.any Event.isTransmit) (by decide +kernel)
  have ht : acknowledged h.tail ∧ h.head?.any Event.isTransmit = true := by simpa using ht
  cases h with
  | nil => simp at ht
  | cons x h =>
    have hno := (hall h x s hr ht.1).1
    simp [hno] at ht

end NanoAt
