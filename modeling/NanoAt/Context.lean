import NanoAt.Observations

/-!
# The command registers

`ATSend` stores the command, the retry marker and the keyword's command one after the
other and locks the scheduler only afterwards. `undivided` is the condition under which
nobody sees the registers between these stores, or stores its own command there.
-/

namespace NanoAt
open CString GuardedRun Rx1Event

/-- While `at_comtest` is between its stores to the command registers, `Rec_WaitAT` is not
entered, `at_send_thread` does not transmit and `at_process` does not call `ATSend`. -/
def undivided (_ : History Sys Action) (s : Sys) (a : Action) : Prop :=
  Event.processAt .recWait (s, a) ∨ Event.isTransmit (s, a) ∨ Event.isReset (s, a) →
    ¬ s.callIn ATSendPc.storing

instance (h : History Sys Action) (s : Sys) (a : Action) : Decidable (undivided h s a) := by
  unfold undivided; infer_instance

section Invariants

variable {h : History Sys Action} {s s' : Sys} {a : Action}

/-- `at_send_thread` locks the scheduler only while `at_process` waits, so `at_process`
stands at the start of its round until the lock is released. -/
def SendLock (s : Sys) : Prop :=
  s.critical .atSendThread → s.atProcess = .suspended ∨ s.atProcess = .dispatch

theorem SendLock.init {behind : Ram} : SendLock (Sys.init behind) := by
  simp [SendLock, Sys.critical, Sys.init]

theorem SendLock.moves (hk : KernelInv s) (hl : SendLock s) (hm : Moves s a s') : SendLock s' := by
  obtain ⟨ht, hs⟩ := hm
  have hlock : a = .run .atProcess → ¬ s.critical .atSendThread := fun ha hc =>
    absurd (hk.lock.eq_of_critical (hs _ ha) hc) (by simp)
  cases ht
  case sendEnter hpc =>
    -- the lock is free here, so `at_process`, of higher priority, is not ready
    have hsus := hk.lock.not_ready (hs _ rfl) (by simp [Sys.critical, hpc]) (u := .atProcess)
      (by decide)
    exact fun _ => .inl (by simpa [Sys.ready, Sys.suspended] using hsus)
  -- `at_process` can be resumed under the lock, but does not run
  case expireWake | announceWake => exact fun _ => .inr rfl
  case resendWake | resetPostWake | callPostWake => simp [SendLock, Sys.critical]
  case transmit hpc | sendPrint hpc => exact fun _ => hl (by simp [Sys.critical, hpc])
  case sendRecv | sendWait | compareFirst | compareRetry | refill | sendExit =>
    simp [SendLock, Sys.critical]
  all_goals
    first
      | exact hl
      | exact fun hc => absurd hc (hlock rfl)

/-- The registers differ only while a caller of `ATSend` is between its stores. -/
structure Registers (s : Sys) : Prop where
  reset : s.resetIn (· ≠ .setCurrent) → ¬ s.callIn ATSendPc.storing
  current : s.callIn ATSendPc.storing → s.atCurrentCmdNum = s.atSendCmdNum
  currentReset : s.resetIn ATSendPc.storing → s.atCurrentCmdNum = .atRest
  agree : ¬ s.callIn ATSendPc.storing → ¬ s.resetIn ATSendPc.storing →
    s.atRecCmdNum = s.atCurrentCmdNum

namespace Registers

theorem init {behind : Ram} : Registers (Sys.init behind) := by
  constructor <;> simp [Sys.init, Sys.resetIn, Sys.callIn]

theorem frame (hi : Registers s)
    (hreset : s'.resetIn (· ≠ .setCurrent) → s.resetIn (· ≠ .setCurrent))
    (hstoring : s'.resetIn ATSendPc.storing ↔ s.resetIn ATSendPc.storing)
    (hcall : s'.callIn ATSendPc.storing ↔ s.callIn ATSendPc.storing)
    (hcur : s'.atCurrentCmdNum = s.atCurrentCmdNum) (hrec : s'.atRecCmdNum = s.atRecCmdNum)
    (hnum : s.callIn ATSendPc.storing → s'.atSendCmdNum = s.atSendCmdNum) : Registers s' where
  reset h := by rw [hcall]; exact hi.reset (hreset h)
  current h := by
    have h := hcall.mp h
    rw [hcur, hnum h, hi.current h]
  currentReset h := by rw [hcur, hi.currentReset (hstoring.mp h)]
  agree hc hr := by rw [hcur, hrec, hi.agree (hc ∘ hcall.mpr) (hr ∘ hstoring.mpr)]

theorem moves (hk : KernelInv s) (hi : Registers s) (hg : undivided h s a) (hm : Moves s a s') :
    Registers s' := by
  obtain ⟨ht, hs⟩ := hm
  cases ht
  case callSetCurrent hpc =>
    have hsus := (hk.lock.all_suspended (hs _ rfl) (by simp [Sys.critical, hpc])).2.1
    exact ⟨by simp [Sys.resetIn, hsus], fun _ => rfl, by simp [Sys.resetIn, hsus],
      by simp [Sys.callIn, ATSendPc.storing]⟩
  case callSetNext hpc =>
    have hsus := (hk.lock.all_suspended (hs _ rfl) (by simp [Sys.critical, hpc])).2.1
    have hcur := hi.current (by simp [Sys.callIn, ATSendPc.storing, hpc])
    exact ⟨by simp [Sys.resetIn, hsus], fun _ => hcur, by simp [Sys.resetIn, hsus],
      by simp [Sys.callIn, ATSendPc.storing]⟩
  case callSetRec hpc =>
    have hsus := (hk.lock.all_suspended (hs _ rfl) (by simp [Sys.critical, hpc])).2.1
    have hcur := hi.current (by simp [Sys.callIn, ATSendPc.storing, hpc])
    exact ⟨by simp [Sys.resetIn, hsus], by simp [Sys.callIn, ATSendPc.storing],
      by simp [Sys.resetIn, hsus], fun _ _ => hcur.symm⟩
  -- the stores of `ATSend(AT_REST)`, none of them between those of `at_comtest`
  case resetSetCurrent hpc =>
    have hno : ¬ s.callIn ATSendPc.storing :=
      hg (.inr (.inr (by simp [Event.isReset, Event.processAt, hpc])))
    exact ⟨fun _ => hno, fun h => absurd h hno, fun _ => rfl,
      by simp [Sys.resetIn, ATSendPc.storing]⟩
  case resetSetNext hpc =>
    have hno := hi.reset (by simp [Sys.resetIn, hpc])
    have hcur := hi.currentReset (by simp [Sys.resetIn, ATSendPc.storing, hpc])
    exact ⟨fun _ => hno, fun h => absurd h hno, fun _ => hcur,
      by simp [Sys.resetIn, ATSendPc.storing]⟩
  case resetSetRec hpc =>
    have hno := hi.reset (by simp [Sys.resetIn, hpc])
    have hcur := hi.currentReset (by simp [Sys.resetIn, ATSendPc.storing, hpc])
    exact ⟨fun _ => hno, fun h => absurd h hno, by simp [Sys.resetIn, ATSendPc.storing],
      fun _ _ => hcur.symm⟩
  all_goals
    exact hi.frame (by simp [Sys.resetIn, *]) (by simp [Sys.resetIn, ATSendPc.storing, *])
      (by simp [Sys.callIn, ATSendPc.storing, *]) rfl rfl
      (by simp [Sys.callIn, ATSendPc.storing, *])

end Registers

end Invariants

/-- Where nobody reads or stores the command registers between the stores of a call by
`at_comtest`, every packet is tested and every command transmitted with `ATRecCmdNum`
equal to `ATCurrentCmdNum`. -/
theorem context_never_half_updated {h : History Sys Action} {x : Event} {s : Sys}
    (hr : SysRun undivided (x :: h) s)
    (hx : Event.processAt .recWait x = true ∨ Event.isTransmit x = true) :
    x.1.atRecCmdNum = x.1.atCurrentCmdNum := by
  cases hr with
  | @step _ s₀ _ a hr hg _ =>
    obtain ⟨hl, hi⟩ : SendLock s₀ ∧ Registers s₀ := by
      refine SysRun.invariant (P := fun _ s => SendLock s ∧ Registers s) (fun _ => ⟨.init, .init⟩) ?_ hr
      rintro h s a s' hk ⟨hl, hi⟩ hg hm
      exact ⟨hl.moves hk hm, hi.moves hk hg hm⟩
    refine hi.agree (hg (hx.imp_right .inl)) ?_
    rcases hx with hx | hx
    · have hpc : s₀.atProcess = .recWait := by
        have hx : a = .run .atProcess ∧ s₀.atProcess = .recWait := by
          simpa [Event.processAt] using hx
        exact hx.2
      simp [Sys.resetIn, hpc]
    · have hpc : s₀.atSendThread = .transmit := by
        have hx : a = .run .atSendThread ∧ s₀.atSendThread = .transmit := by
          simpa [Event.isTransmit, Event.sendAt] using hx
        exact hx.2
      rcases hl (by simp [Sys.critical, hpc]) with hpc | hpc <;> simp [Sys.resetIn, hpc]

theorem context_never_half_updated_first_packet :
    ∃ h x s, SysRun undivided (x :: h) s ∧ Event.processAt .recWait x = true ∧
      x.1.atRecCmdNum = x.1.atCurrentCmdNum := by
  obtain ⟨h, s, hr, ht⟩ := SysRun.exists_of_exec undivided
    (firstCommand ++ packetIn (ascii "ROLE:1") ++ runs .atProcess 2)
    (fun h _ => h.head?.any (Event.processAt .recWait)) (by decide +kernel)
  cases h with
  | nil => simp at ht
  | cons x h =>
    have hx : Event.processAt .recWait x = true := by simpa using ht
    exact ⟨h, x, s, hr, hx, context_never_half_updated hr (.inl hx)⟩

/-- A packet comes while `at_comtest` has stored AT_VERS as the current command and not
yet as the one whose keyword is expected: it is tested against the keyword of AT_ROLE. -/
theorem packet_between_stores_tested_for_old_command :
    ¬ ∀ h x s, SysRun free (x :: h) s →
      Event.processAt .recWait x = true ∨ Event.isTransmit x = true →
      x.1.atRecCmdNum = x.1.atCurrentCmdNum := by
  intro hall
  obtain ⟨h, s, hr, ht⟩ := SysRun.exists_of_exec free
    (firstCommand ++ packetIn (ascii "ROLE:1") ++ runs .atProcess 216 ++ runs .shell 3 ++
      packetIn (ascii "ROLE:1") ++ runs .atProcess 2)
    (fun h _ => h.head?.any fun x => Event.processAt .recWait x &&
      x.1.atRecCmdNum = .atRole && x.1.atCurrentCmdNum = .atVers) (by decide +kernel)
  cases h with
  | nil => simp at ht
  | cons x h =>
    obtain ⟨⟨hx, hrec⟩, hcur⟩ : (Event.processAt .recWait x = true ∧
        x.1.atRecCmdNum = .atRole) ∧ x.1.atCurrentCmdNum = .atVers := by simpa using ht
    have heq := hall h x s hr (.inl hx)
    rw [hrec, hcur] at heq
    simp at heq

end NanoAt
