import NanoAt.Rounds

/-!
# Rounds up to the answer

The call of `ATSend`, the request, the transmissions that go unanswered and their retries.
Every step that changes the state stays in the stage with less work left or passes to a
later one: after an unanswered transmission one retry less is left.
-/

namespace NanoAt
open GuardedRun RetryLoops Rx1Event

variable {s s' : Sys} {w w' : World} {c : TeATCmdNum} {u : ℕ}

theorem Looping.lowers (hi : Looping c w) (hs : LocalStep w w') :
    Lower (rank c 0 9 0 w.sys.atTimeoutCnt) w' := by
  cases hs with
  | @run t s' hsch ht =>
    cases t with
    | serial => exact absurd hsch (not_scheduled hi.serial)
    | atProcess => exact absurd hsch (not_scheduled hi.process)
    | atSendThread => exact absurd hsch (not_scheduled hi.send)
    | shell =>
      cases ht
      case loopNext hpc hk =>
        refine (Stage.calling (c := c) (p := .setCurrent) ?_).lower (rank_lt_stage (by omega))
        exact { hi with
          shell := rfl, before := by simp, lt := hi.kk ▸ hk
          current := by simp [ATSendPc.remaining], next := by simp [ATSendPc.remaining]
          keyword := by simp [ATSendPc.remaining], armed := by simp [ATSendPc.remaining]
          timer2 := by simp [ATSendPc.remaining], queue := hi.queue.frame rfl rfl rfl rfl }
      case loopReturn hpc hk =>
        have h9 : c.val = 9 := by have := hi.kk; have := hi.le; omega
        have hrest : TeATCmdNum.atRest.val = c.val := h9.symm
        refine (Stage.returned ?_).lower (rank_lt_iff.mpr (by omega))
        exact { hi with shell := rfl, kk := hi.kk.trans h9, log := h9 ▸ hi.log }
      all_goals simp_all [hi.shell]
  | tick hlt => exact absurd hlt (by simp [hi.disarmed])
  | expire _ h0 => exact absurd hi.disarmed h0

theorem Calling.lowers {p : ATSendPc} (hi : Calling c w p) (hs : LocalStep w w') :
    Lower (rank c 0 8 p.remaining w.sys.atTimeoutCnt) w' := by
  cases hs with
  | @run t s' hsch ht =>
    cases t with
    | serial => exact absurd hsch (not_scheduled hi.serial)
    | atProcess => exact absurd hsch (not_scheduled hi.process)
    | atSendThread => exact absurd hsch (not_scheduled hi.send)
    | shell =>
      have hcurrent := hi.current
      have hnext := hi.next
      have hkeyword := hi.keyword
      have harmed := hi.armed
      have htimer := hi.timer2
      cases ht
      case callSetCurrent hpc | callSetNext hpc | callSetRec hpc | callArm hpc | callRemove hpc |
          callInsert hpc | callEnter hpc =>
        cases hi.shell.symm.trans hpc
        simp only [ATSendPc.remaining, Nat.reduceLeDiff, forall_const, IsEmpty.forall_iff] at *
        refine Stage.lower (Stage.calling (c := c) (p := _) { hi with
          shell := rfl, before := by simp, current := ?_, next := ?_, keyword := ?_
          armed := ?_, timer2 := ?_, queue := hi.queue.frame rfl rfl rfl rfl })
          (rank_lt_work (by simp [ATSendPc.remaining])) <;>
          simp_all [ATSendPc.remaining, hi.atSendCmdNum]
      case callPostWake hpc hsus =>
        cases hi.shell.symm.trans hpc
        refine (Stage.requesting (c := c) (u := 0) ?_).lower (rank_lt_stage (by omega))
        exact { hi with
          issued := ⟨hi.kk, hi.lt, hi.atSendCmdNum, hi.current (by decide), hi.keyword (by decide)⟩
          send := .inl rfl, process := .inl hi.process, shell := .inl rfl
          armed := hi.armed (by decide), timer2 := hi.timer2 (by decide), first := by simp
          fresh := fun _ => hi.next (by decide), again := by simp, refilled := by simp
          queue := hi.queue.frame rfl rfl rfl rfl }
      case callPost hne => exact absurd hi.send hne
      case callExit hpc => exact absurd (by simpa [hi.shell] using hpc) hi.before
      all_goals simp_all [hi.shell]
  | tick hlt =>
    exact Stage.lower (Stage.calling (p := p) { hi with
      armed := fun _ => Nat.le_sub_one_of_lt hlt, queue := hi.queue.frame rfl rfl rfl rfl })
      (rank_lt_tick hlt)
  | expire hq => exact absurd hq.shell (by simp [hi.shell])

theorem Waiting.lowers (hi : Waiting c u w) (hs : LocalStep w w') :
    Lower (rank c u 7 w.sys.tail w.sys.atTimeoutCnt) w' := by
  have htail : ∀ s', TailStep w.sys s' →
      Lower (rank c u 7 w.sys.tail w.sys.atTimeoutCnt) { w with sys := s' } := by
    rintro s' ⟨⟨p, q, n, t, rfl⟩, htails, hlt⟩
    exact Stage.lower (Stage.waiting { hi with
      issued := hi.issued.frame rfl rfl rfl rfl, tails := htails
      queue := hi.queue.frame rfl rfl rfl rfl }) (rank_lt_work hlt)
  cases hs with
  | @run t s' hsch ht =>
    cases t with
    | serial => exact absurd hsch (not_scheduled hi.serial)
    | atProcess => exact absurd hsch (not_scheduled hi.process)
    | atSendThread => exact htail s' (hi.tails.sendStep hi.rx1Event ht)
    | shell => exact htail s' (hi.tails.shellStep hi.rx1Event ht)
  | tick hlt =>
    exact Stage.lower (Stage.waiting { hi with
      issued := hi.issued.frame rfl rfl rfl rfl, tails := hi.tails.frame rfl rfl
      armed := Nat.le_sub_one_of_lt hlt, queue := hi.queue.frame rfl rfl rfl rfl })
      (rank_lt_tick hlt)
  | expire hq =>
    refine Stage.lower (Stage.timingOut { hi with
      issued := hi.issued.frame rfl rfl rfl rfl, pc := .inl ⟨rfl, rfl⟩, send := hq.send
      shell := hq.shell, before := fun _ => hi.rty, after := ?_, marked := ?_, armed := ?_
      timer2 := ?_, queue := hi.queue.frame rfl rfl rfl rfl }) (rank_lt_stage (by omega)) <;>
      simp [Sys.work, ProcessPc.remaining]

theorem World.Logged.le_three (hl : w.Logged c.val u) (hc : c.val < 9) : u ≤ 3 := by
  have := RetryLoop.le_budget hl (commands_get hc)
  rwa [rtyNum_eq] at this

theorem TimingOut.lowers (hi : TimingOut c u w) (hs : LocalStep w w') :
    Lower (rank c u 6 w.sys.work w.sys.atTimeoutCnt) w' := by
  have hle := hi.log.le_three hi.issued.lt
  have hpc := hi.pc
  have hpos := hi.pos
  cases hs with
  | @run t s' hsch ht =>
    cases t with
    | serial => exact absurd hsch (not_scheduled hi.serial)
    | atSendThread => exact absurd hsch (not_scheduled hi.send)
    | shell => exact absurd hsch (not_scheduled hi.shell)
    | atProcess =>
      have hbefore := hi.before
      have hafter := hi.after
      have hmarked := hi.marked
      have harmed := hi.armed
      have htimer := hi.timer2
      cases ht
      case dispatchTimeout h _ _ | retryAgain h _ | retryDecrement h | retryMark h | retryArm h |
          retryRemove h | retryInsert h =>
        simp only [h, Sys.work, ProcessPc.remaining] at hbefore hafter hmarked harmed htimer
        refine Stage.lower (Stage.timingOut { hi with
          issued := hi.issued.frame rfl rfl rfl rfl, pc := by simp, before := ?_, after := ?_
          marked := ?_, armed := ?_, timer2 := ?_, queue := hi.queue.frame rfl rfl rfl rfl })
          (rank_lt_work (by simp [h, Sys.work, ProcessPc.remaining])) <;>
          simp_all [Sys.work, ProcessPc.remaining, hi.issued.current]
        all_goals omega
      case retryReset h h0 =>
        -- at most three transmissions go unanswered, so a retry is left
        have := hi.before (.inr (.inl h))
        omega
      case resendWake h _ =>
        simp only [h, Sys.work, ProcessPc.remaining] at hafter hmarked harmed htimer
        exact Stage.lower (Stage.requesting { hi with
          issued := hi.issued.frame rfl rfl rfl rfl, send := .inl rfl, process := .inr ⟨rfl, rfl⟩
          shell := .inr (.inr hi.shell), armed := harmed (by omega), timer2 := htimer le_rfl
          first := by simp, fresh := by omega
          again := fun _ => ⟨hmarked (by omega), hafter (by omega)⟩, refilled := by simp
          queue := hi.queue.frame rfl rfl rfl rfl })
          (rank_lt_stage (by omega))
      case resendPost hne => exact absurd hi.send hne
      all_goals simp_all
  | tick hlt =>
    exact Stage.lower (Stage.timingOut { hi with
      issued := hi.issued.frame rfl rfl rfl rfl, armed := fun _ => Nat.le_sub_one_of_lt hlt
      queue := hi.queue.frame rfl rfl rfl rfl }) (rank_lt_tick hlt)
  | expire hq =>
    have := hq.process
    simp [this] at hpc

theorem World.Logged.unanswered_eq (hl : w.Logged c.val u) (hc : c.val < 9) :
    unanswered w.log c = u := by
  have := RetryLoop.unanswered_eq hl commands_nodup le_rfl (commands_get hc)
  rwa [if_pos rfl] at this

theorem Requesting.lowers_send (hi : Requesting c u w) (hp : w.sys.atProcess = .suspended)
    (hpc : w.sys.atSendThread ≠ .transmit) (ht : Trans w.sys (.run .atSendThread) s') :
    Lower (rank c u 5 (w.sys.tail + w.sys.work) w.sys.atTimeoutCnt)
      { w with sys := s' } := by
  have hsend := hi.send
  have hfirst := hi.first
  have hfresh := hi.fresh
  have hagain := hi.again
  have hrefilled := hi.refilled
  have hlt := hi.issued.lt
  cases ht
  case compareFirst h hne =>
    -- a retry marks the current command, so this is the first transmission
    have hu : u = 0 := by
      by_contra hu
      exact hne (hi.issued.current.trans (hagain (by omega)).1.symm)
    exact Stage.lower (Stage.requesting { hi with
      issued := hi.issued.frame rfl rfl rfl rfl, send := by simp, process := .inl hp
      first := fun _ => hu, refilled := by simp, queue := hi.queue.frame rfl rfl rfl rfl })
      (rank_lt_work (by simp [Sys.tail, Sys.work, SendPc.remaining, h]))
  case compareRetry h heq =>
    -- `ATSend` stores AT_TNOCMD as the marker, which is none of the commands
    have hu : 1 ≤ u := by
      by_contra hu
      have hc : c = .atTnocmd := by
        rw [← hi.issued.current, heq, hfresh (by omega)]
      simp [hc, TeATCmdNum.val] at hlt
    exact Stage.lower (Stage.requesting { hi with
      issued := hi.issued.frame rfl rfl rfl rfl, send := by simp, process := .inl hp
      first := by simp, refilled := fun _ => (hagain hu).2
      queue := hi.queue.frame rfl rfl rfl rfl })
      (rank_lt_work (by simp [Sys.tail, Sys.work, SendPc.remaining, h]))
  case refill h =>
    have hu := hfirst h
    exact Stage.lower (Stage.requesting { hi with
      issued := hi.issued.frame rfl rfl rfl rfl, send := by simp, process := .inl hp
      first := by simp, again := by omega, refilled := fun _ => by simp [rtyNum_eq, hu]
      queue := hi.queue.frame rfl rfl rfl rfl })
      (rank_lt_work (by simp [Sys.tail, Sys.work, SendPc.remaining, h]))
  case sendEnter h =>
    exact Stage.lower (Stage.requesting { hi with
      issued := hi.issued.frame rfl rfl rfl rfl, send := by simp, process := .inl hp
      first := by simp, refilled := fun _ => hrefilled (.inl h)
      queue := hi.queue.frame rfl rfl rfl rfl })
      (rank_lt_work (by simp [Sys.tail, Sys.work, SendPc.remaining, h]))
  all_goals simp_all

theorem Requesting.lowers (hk : KernelInv w.sys) (hi : Requesting c u w) (hs : LossyStep w w')
    (hne : w' ≠ w) :
    Lower (rank c u 5 (w.sys.tail + w.sys.work) w.sys.atTimeoutCnt) w' := by
  have hsend := hi.send
  have hprocess : w.sys.scheduled .atSendThread → w.sys.atProcess = .suspended := by
    intro hsch
    rcases hi.process with hp | ⟨hp, hc⟩
    · exact hp
    -- `at_process`, of higher priority, is not ready while `at_send_thread` runs
    · have := hk.lock.not_ready hsch (by simp [Sys.critical, hc]) (u := .atProcess) (by decide)
      simp [Sys.ready, Sys.suspended, hp] at this
  have hcur := hi.issued.current
  cases hs with
  | @run t s' htr hs =>
    obtain ⟨ht, hsch⟩ := hk.moves hs
    have hsch := hsch t rfl
    cases t with
    | serial => exact absurd hsch (not_scheduled hi.serial)
    | atProcess =>
      have hrx := hi.rx1Event
      have hp : w.sys.atProcess = .recv ∧ w.sys.atSendThread = .compare :=
        hi.process.resolve_left fun h => hsch.1.1 h
      cases ht
      case processWait h _ _ =>
        exact Stage.lower (Stage.requesting { hi with
          issued := hi.issued.frame rfl rfl rfl rfl, process := .inl rfl
          queue := hi.queue.frame rfl rfl rfl rfl })
          (rank_lt_work (by simp [Sys.tail, Sys.work, ProcessPc.remaining, h]))
      all_goals simp_all
    | atSendThread =>
      refine hi.lowers_send (hprocess hsch) (?_) ht
      intro hpc
      simp [Event.isTransmit, Event.sendAt, hpc] at htr
    | shell =>
      obtain ⟨q, n, rfl, hq, hlt⟩ := shell_tailStep hi.shell hi.rx1Event ht
      exact Stage.lower (Stage.requesting { hi with
        issued := hi.issued.frame rfl rfl rfl rfl, shell := .inr hq
        queue := hi.queue.frame rfl rfl rfl rfl })
        (rank_lt_work (by simpa [Sys.tail, Sys.work] using hlt))
  | @lost s' hpc hs hlt =>
    obtain ⟨ht, hsch⟩ := hk.moves hs
    have hp := hprocess (hsch _ rfl)
    rw [hcur, hi.log.unanswered_eq hi.issued.lt] at hlt
    have hlog := RetryLoop.lost hi.log (commands_get hi.issued.lt) hlt
    rw [rtyNum_eq] at hlt
    cases ht
    case transmit =>
      refine Stage.lower (Stage.waiting (c := c) (u := u + 1) { hi with
        issued := hi.issued.frame rfl rfl rfl rfl, tails := ⟨.inl rfl, hi.shell⟩, process := hp
        pos := by omega, rty := ?_, queue := hi.queue.frame rfl rfl rfl rfl, log := ?_ })
        (rank_lt_iff.mpr (by omega))
      · have := hi.refilled (.inr hpc)
        simpa only [← Nat.add_assoc] using congrArg (· + 1) this
      · rw [hcur]; exact hlog
    all_goals simp_all
  | @answered s' p hpc hs hreply =>
    obtain ⟨ht, hsch⟩ := hk.moves hs
    have hp := hprocess (hsch _ rfl)
    have hlog := RetryLoop.answered hi.log (commands_get hi.issued.lt)
    rw [hcur] at hreply
    cases ht
    case transmit =>
      refine Stage.lower (Stage.answering (c := c) (g := []) (r := p) { hi with
        issued := hi.issued.frame rfl rfl rfl rfl, tails := ⟨.inl rfl, hi.shell⟩, process := hp
        reply := hreply, queue := hi.queue.frame rfl rfl rfl rfl, line := by simp [hi.line]
        log := ?_ }) (rank_lt_iff.mpr (by omega))
      rw [hcur]; exact hlog
    all_goals simp_all
  | byte hl => exact absurd hl (by simp [hi.line])
  | idle hl => exact absurd hl (by simp [hi.line])
  | tick hq hs =>
    rcases tick_cases hk hq hs (fun he => hne (by rw [he])) with ⟨hlt, rfl⟩ | ⟨hquiet, _, rfl⟩
    · exact Stage.lower (Stage.requesting { hi with
        issued := hi.issued.frame rfl rfl rfl rfl, armed := Nat.le_sub_one_of_lt hlt
        queue := hi.queue.frame rfl rfl rfl rfl }) (rank_lt_tick hlt)
    · simp [hquiet.send] at hsend

end NanoAt
