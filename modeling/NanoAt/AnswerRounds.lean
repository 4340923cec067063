import NanoAt.Rounds

/-!
# Rounds from the answer on

The answer arrives, `serial` copies it and hands it over, `Rec_WaitAT` finds the keyword in
it and acknowledges the command, and the shell goes on to the next one. Every step that
changes the state stays in the stage with less work left or passes to a later one.
-/

namespace NanoAt
open CString GuardedRun Rx1Event

variable {s s' : Sys} {w w' : World} {c : TeATCmdNum}

theorem Answering.lowers {got rest : List UInt8} (hk : KernelInv w.sys) (hx : CopyIndex w.sys)
    (hi : Answering c w got rest) (hs : LossyStep w w') (hne : w' ≠ w) :
    Lower (rank c 3 4 (w.sys.tail + rest.length) w.sys.atTimeoutCnt) w' := by
  have hsend := hi.tails.send
  have htail : ∀ s', TailStep w.sys s' →
      Lower (rank c 3 4 (w.sys.tail + rest.length) w.sys.atTimeoutCnt) { w with sys := s' } := by
    rintro s' ⟨⟨p, q, n, t, rfl⟩, htails, hlt⟩
    exact Stage.lower (Stage.answering { hi with
      issued := hi.issued.frame rfl rfl rfl rfl, tails := htails
      queue := hi.queue.frame rfl rfl rfl rfl })
      (rank_lt_work (Nat.add_lt_add_right hlt _))
  cases hs with
  | @run t s' _ hs =>
    have ht := (hk.moves hs).trans
    cases t with
    | serial => exact absurd hi.serial (step_scheduled hs).1.1
    | atProcess => exact absurd hi.process (step_scheduled hs).1.1
    | atSendThread => exact htail s' (hi.tails.sendStep hi.rx1Event ht)
    | shell => exact htail s' (hi.tails.shellStep hi.rx1Event ht)
  | lost hpc => simp [hpc] at hsend
  | answered hpc => simp [hpc] at hsend
  | @byte b p line hl =>
    obtain ⟨rfl, rfl⟩ : rest = b :: p ∧ [] = line := by simpa [hi.line] using hl
    have hle := hi.reply.le
    simp only [List.length_append, List.length_cons] at hle
    have hroom : got.length + 1 < usart1DmaRecSize := by
      simp only [usart1DmaRecSize]
      omega
    exact Stage.lower (Stage.answering (g := got ++ [b]) (r := p) { hi with
      issued := hi.issued.frame rfl rfl rfl rfl, tails := hi.tails.frame rfl rfl
      reply := by simpa using hi.reply, queue := hi.queue.receive b hroom, line := rfl })
      (rank_lt_work (by simp [Sys.tail, Sys.dmaReceive]))
  | idle hl hs =>
    -- the last byte has arrived: all of the answer is announced
    obtain ⟨rfl, rfl⟩ : rest = [] ∧ _ = [] := by simpa [hi.line] using hl
    have h0 := hx.idle (by simp [Sys.copying, hi.serial])
    cases (hk.moves hs).trans
    case idleWake =>
      exact Stage.lower (Stage.copying (r := got) { hi with
        issued := hi.issued.frame rfl rfl rfl rfl, tails := hi.tails.frame rfl rfl
        pc := .inl rfl, more := by simp, reply := by simpa [h0] using hi.reply
        queue := hi.queue.idle rfl rfl rfl rfl, line := rfl }) (rank_lt_stage (by omega))
    case idlePost hsus => exact absurd hi.serial hsus
  | tick hq hs =>
    rcases tick_cases hk hq hs (fun he => hne (by rw [he])) with ⟨hlt, rfl⟩ | ⟨hquiet, _, rfl⟩
    · exact Stage.lower (Stage.answering { hi with
        issued := hi.issued.frame rfl rfl rfl rfl, tails := hi.tails.frame rfl rfl
        queue := hi.queue.frame rfl rfl rfl rfl }) (rank_lt_tick hlt)
    · exact absurd hquiet.line (by simp [hi.line])

theorem Copying.lowers_serial {unread : List UInt8} (hx : CopyIndex w.sys)
    (hi : Copying c w unread) (ht : Trans w.sys (.run .serial) s') :
    Lower (rank c 3 3 (w.sys.tail + w.sys.serial.remaining unread.length) w.sys.atTimeoutCnt)
      { w with sys := s' } := by
  have hpc := hi.pc
  have hmore := hi.more
  have hreply := hi.reply
  have hq := hi.queue
  cases ht
  case serialUnread h hne =>
    have hunread : unread ≠ [] := by
      rintro rfl
      exact hne (hq.front_eq_rear_iff.mpr rfl)
    exact Stage.lower (Stage.copying (r := unread) { hi with
      issued := hi.issued.frame rfl rfl rfl rfl, tails := hi.tails.frame rfl rfl
      pc := by simp, more := fun _ => hunread, reply := by simpa [h] using hreply
      queue := hq.frame rfl rfl rfl rfl })
      (rank_lt_work (by simp [Sys.tail, SerialPc.remaining, h]))
  case serialDrained h heq =>
    -- the whole answer is in front of the buffer, so its keyword is in the C string
    obtain rfl : unread = [] := List.length_eq_zero_iff.mp (hq.front_eq_rear_iff.mp heq)
    have hreply : ValidReply c (w.sys.processBuff.front w.sys.processP) := by
      simpa [h] using hreply
    refine Stage.lower (Stage.handing { hi with
      issued := hi.issued.frame rfl rfl rfl rfl, tails := hi.tails.frame rfl rfl
      pc := .inl rfl, reply := ?_, queue := hq.frame rfl rfl rfl rfl }) (rank_lt_stage (by omega))
    show _ <:+: cstr (w.sys.processBuff.memory w.sys.behind)
    rw [Buffer.cstr_memory _ hx.fits hreply.nonzero]
    exact hreply.keyword.trans (List.infix_append' [] _ _)
  case serialCopy h =>
    obtain ⟨b, r, rfl⟩ := List.exists_cons_of_ne_nil (hmore (.inl h))
    have hread := hq.holds.head hq.rear_lt
    refine Stage.lower (Stage.copying (r := b :: r) { hi with
      issued := hi.issued.frame rfl rfl rfl rfl, tails := hi.tails.frame rfl rfl
      pc := by simp, more := by simp, reply := ?_, queue := hq.frame rfl rfl rfl rfl })
      (rank_lt_work (by simp [Sys.tail, SerialPc.remaining, h]))
    simpa [hread, Buffer.front_write_succ _ _ (hx.room (.inr h)), h] using hreply
  case serialAdvance h =>
    obtain ⟨b, r, rfl⟩ := List.exists_cons_of_ne_nil (hmore (.inr h))
    refine Stage.lower (Stage.copying (r := r) { hi with
      issued := hi.issued.frame rfl rfl rfl rfl, tails := hi.tails.frame rfl rfl
      pc := by simp, more := by simp, reply := by simpa [h] using hreply
      queue := hq.advance rfl rfl rfl rfl })
      (rank_lt_work ?_)
    simp [Sys.tail, SerialPc.remaining, h]
    omega
  case serialFull h hfull =>
    -- no answer fills the buffer
    have hle := hreply.le
    simp only [List.length_append, Buffer.length_front _ hx.fits] at hle
    simp only [hfull, usart1ProSize] at hle
    omega
  case serialMore h _ =>
    exact Stage.lower (Stage.copying (r := unread) { hi with
      issued := hi.issued.frame rfl rfl rfl rfl, tails := hi.tails.frame rfl rfl
      pc := by simp, more := by simp, reply := by simpa [h] using hreply
      queue := hq.frame rfl rfl rfl rfl })
      (rank_lt_work (by simp [Sys.tail, SerialPc.remaining, h]))
  all_goals simp_all

theorem Copying.lowers {unread : List UInt8} (hx : CopyIndex w.sys) (hi : Copying c w unread)
    (hs : LocalStep w w') :
    Lower (rank c 3 3 (w.sys.tail + w.sys.serial.remaining unread.length) w.sys.atTimeoutCnt)
      w' := by
  have htail : ∀ s', TailStep w.sys s' →
      Lower (rank c 3 3 (w.sys.tail + w.sys.serial.remaining unread.length) w.sys.atTimeoutCnt)
        { w with sys := s' } := by
    rintro s' ⟨⟨p, q, n, t, rfl⟩, htails, hlt⟩
    exact Stage.lower (Stage.copying { hi with
      issued := hi.issued.frame rfl rfl rfl rfl, tails := htails
      queue := hi.queue.frame rfl rfl rfl rfl })
      (rank_lt_work (Nat.add_lt_add_right hlt _))
  cases hs with
  | @run t s' hsch ht =>
    cases t with
    | serial => exact hi.lowers_serial hx ht
    | atProcess => exact absurd hsch (not_scheduled hi.process)
    | atSendThread => exact htail s' (hi.tails.sendStep hi.rx1Event ht)
    | shell => exact htail s' (hi.tails.shellStep hi.rx1Event ht)
  | tick hlt =>
    exact Stage.lower (Stage.copying { hi with
      issued := hi.issued.frame rfl rfl rfl rfl, tails := hi.tails.frame rfl rfl
      queue := hi.queue.frame rfl rfl rfl rfl }) (rank_lt_tick hlt)
  | expire hq =>
    have hpc := hi.pc
    simp [hq.serial] at hpc

theorem Handing.lowers (hi : Handing c w) (hs : LocalStep w w') :
    Lower (rank c 3 2 (w.sys.tail + w.sys.serial.remaining 0) w.sys.atTimeoutCnt) w' := by
  have hpc := hi.pc
  have htail : ∀ s', TailStep w.sys s' →
      Lower (rank c 3 2 (w.sys.tail + w.sys.serial.remaining 0) w.sys.atTimeoutCnt)
        { w with sys := s' } := by
    rintro s' ⟨⟨p, q, n, t, rfl⟩, htails, hlt⟩
    exact Stage.lower (Stage.handing { hi with
      issued := hi.issued.frame rfl rfl rfl rfl, tails := htails
      queue := hi.queue.frame rfl rfl rfl rfl })
      (rank_lt_work (Nat.add_lt_add_right hlt _))
  cases hs with
  | @run t s' hsch ht =>
    cases t with
    | serial =>
      cases ht
      case serialRecord h =>
        exact Stage.lower (Stage.handing { hi with
          issued := hi.issued.frame rfl rfl rfl rfl, tails := hi.tails.frame rfl rfl
          pc := .inr rfl, queue := hi.queue.frame rfl rfl rfl rfl })
          (rank_lt_work (by simp [Sys.tail, SerialPc.remaining, h]))
      case announceWake h _ =>
        exact Stage.lower (Stage.examining { hi with
          issued := hi.issued.frame rfl rfl rfl rfl, tails := hi.tails.frame rfl rfl
          serial := .inl rfl, pc := .inl ⟨rfl, by simp⟩, reply := fun _ => hi.reply
          queue := hi.queue.frame rfl rfl rfl rfl }) (rank_lt_stage (by omega))
      case announcePost hne => exact absurd hi.process hne
      all_goals simp_all
    | atProcess => exact absurd hsch (not_scheduled hi.process)
    | atSendThread => exact htail s' (hi.tails.sendStep hi.rx1Event ht)
    | shell => exact htail s' (hi.tails.shellStep hi.rx1Event ht)
  | tick hlt =>
    exact Stage.lower (Stage.handing { hi with
      issued := hi.issued.frame rfl rfl rfl rfl, tails := hi.tails.frame rfl rfl
      queue := hi.queue.frame rfl rfl rfl rfl }) (rank_lt_tick hlt)
  | expire hq => simp [hq.serial] at hpc

/-- `at_process` examines only while the threads of higher priority wait, and outside the
critical sections of the others. -/
theorem Examining.others_at_rest (hk : KernelInv w.sys) (hi : Examining c w)
    (hsch : w.sys.scheduled .atProcess) (hpc : ∀ p, w.sys.atProcess ≠ .atSend p) :
    w.sys.serial = .suspended ∧ (w.sys.atSendThread = .recv ∨ w.sys.atSendThread = .suspended) ∧
      (w.sys.shell = .recv ∨ w.sys.shell = .suspended) := by
  have hfree : ∀ u, u ≠ .atProcess → ¬ w.sys.critical u :=
    fun u hu hc => hu (hk.lock.eq_of_critical hsch hc).symm
  have hsend := hfree .atSendThread (by simp)
  have hshell := hfree .shell (by simp)
  simp only [Sys.critical, not_or] at hsend hshell
  refine ⟨hk.lock.serial_suspended hsch (by simp [Sys.critical, hpc]), ?_, ?_⟩
  · rcases hi.tails.send with h | h | h | h
    · exact absurd h hsend.2.1
    · exact absurd h hsend.2.2
    · exact .inl h
    · exact .inr h
  · exact hi.tails.shell.resolve_left hshell.2

theorem Examining.process_ne (hi : Examining c w) : w.sys.atProcess ≠ .suspended := by
  intro hsus
  have hpc := hi.pc
  simp [hsus] at hpc

theorem Examining.lowers_process (hk : KernelInv w.sys) (hi : Examining c w)
    (hsch : w.sys.scheduled .atProcess) (ht : Trans w.sys (.run .atProcess) s') :
    Lower (rank c 3 1 (w.sys.tail + w.sys.serial.remaining 0 + w.sys.work)
      w.sys.atTimeoutCnt) { w with sys := s' } := by
  have hpc := hi.pc
  have hreply := hi.reply
  have hrx := hi.rx1Event
  -- the string that is searched and printed ends in the memory behind the buffer at the latest
  obtain ⟨m, hm, hz⟩ : ∃ m < 196 + w.sys.behind.bytes.length, w.sys.memory.getD m 0 = 0 :=
    Buffer.exists_zero _ _
  have hindex : ∀ {i j}, Scanned w.sys.memory (atCmds c).atRecStr i j →
      i < 196 + w.sys.behind.bytes.length ∧ j ≤ 15 := fun hscan =>
    ⟨(hscan.le hz).trans_lt hm, hscan.bound.trans (atRecStr_length_le c)⟩
  cases ht
  case dispatchPacket h _ =>
    exact Stage.lower (Stage.examining { hi with
      issued := hi.issued.frame rfl rfl rfl rfl, tails := hi.tails.frame rfl rfl
      pc := .inr (.inl rfl), reply := fun _ => hreply (by simp [h, ProcessPc.unmatched])
      queue := hi.queue.frame rfl rfl rfl rfl })
      (rank_lt_work (by simp [Sys.tail, Sys.work, ProcessPc.remaining, h]))
  case recWait h =>
    exact Stage.lower (Stage.examining { hi with
      issued := hi.issued.frame rfl rfl rfl rfl, tails := hi.tails.frame rfl rfl
      pc := .inr (.inr (.inl ⟨0, 0, by simp [hi.issued.keyword], scanned_start⟩))
      reply := fun _ => hreply (by simp [h, ProcessPc.unmatched])
      queue := hi.queue.frame rfl rfl rfl rfl })
      (rank_lt_work (by simp [Sys.tail, Sys.work, ProcessPc.remaining, h]; omega))
  case searchFound d i j h _ =>
    exact Stage.lower (Stage.examining { hi with
      issued := hi.issued.frame rfl rfl rfl rfl, tails := hi.tails.frame rfl rfl
      pc := .inr (.inr (.inr (.inl rfl))), reply := by simp [ProcessPc.unmatched]
      queue := hi.queue.frame rfl rfl rfl rfl })
      (rank_lt_work (by simp [Sys.tail, Sys.work, ProcessPc.remaining, h]))
  case searchAbsent d i j h habsent =>
    obtain ⟨rfl, hscan⟩ : d = c ∧ Scanned w.sys.memory (atCmds c).atRecStr i j := by
      simpa [h] using hpc
    exact absurd (hreply (by simp [h, ProcessPc.unmatched]))
      (hscan.not_infix (atRecStr_valid _).2 habsent)
  case searchNext d i j i' j' h hnext =>
    obtain ⟨rfl, hscan⟩ : d = c ∧ Scanned w.sys.memory (atCmds c).atRecStr i j := by
      simpa [h] using hpc
    have hscan' := hscan.probe hnext
    refine Stage.lower (Stage.examining { hi with
      issued := hi.issued.frame rfl rfl rfl rfl, tails := hi.tails.frame rfl rfl
      pc := .inr (.inr (.inl ⟨i', j', rfl, hscan'⟩))
      reply := fun _ => hreply (by simp [h, ProcessPc.unmatched])
      queue := hi.queue.frame rfl rfl rfl rfl })
      (rank_lt_work ?_)
    have hnow := hindex hscan
    have hnext := probe_next hnext
    simp only [Sys.tail, Sys.work, ProcessPc.remaining, h]
    omega
  case disarm h =>
    exact Stage.lower (Stage.examining { hi with
      issued := hi.issued.frame rfl rfl rfl rfl, tails := hi.tails.frame rfl rfl
      pc := by simp, reply := by simp [ProcessPc.unmatched]
      queue := hi.queue.frame rfl rfl rfl rfl })
      (rank_lt_work (by simp [Sys.tail, Sys.work, ProcessPc.remaining, h]))
  case select h =>
    have h0 : w.sys.atTimeoutCnt = 0 := by simpa [h] using hpc
    refine Stage.lower (Stage.examining { hi with
      issued := hi.issued.frame rfl rfl rfl rfl, tails := hi.tails.frame rfl rfl
      pc := by simp [h0], reply := by simp [ProcessPc.unmatched]
      queue := hi.queue.frame rfl rfl rfl rfl })
      (rank_lt_work ?_)
    simp only [Sys.tail, Sys.work, ProcessPc.remaining, h]
    omega
  case printByte b k h hne =>
    obtain ⟨hseen, h0⟩ : (∀ i < k, w.sys.memory.getD i 0 ≠ 0) ∧ w.sys.atTimeoutCnt = 0 := by
      simpa [h] using hpc
    have hseen' : ∀ i < k + 1, w.sys.memory.getD i 0 ≠ 0 := by
      intro i hi
      rcases Nat.lt_succ_iff_lt_or_eq.mp hi with hi | rfl
      · exact hseen i hi
      · exact hne
    have hlt : k < m := by
      by_contra hge
      exact hseen' m (by omega) hz
    refine Stage.lower (Stage.examining { hi with
      issued := hi.issued.frame rfl rfl rfl rfl, tails := hi.tails.frame rfl rfl
      pc := .inr (.inr (.inr (.inr ⟨.inr (.inl ⟨b, k + 1, rfl, hseen'⟩), h0⟩)))
      reply := by simp [ProcessPc.unmatched], queue := hi.queue.frame rfl rfl rfl rfl })
      (rank_lt_work ?_)
    simp only [Sys.tail, Sys.work, ProcessPc.remaining, h]
    omega
  case printClear h _ | printKeep h _ =>
    obtain ⟨-, h0⟩ : _ ∧ w.sys.atTimeoutCnt = 0 := by simpa [h] using hpc
    refine Stage.lower (Stage.examining { hi with
      issued := hi.issued.frame rfl rfl rfl rfl, tails := hi.tails.frame rfl rfl
      pc := by simp [h0], reply := by simp [ProcessPc.unmatched]
      queue := hi.queue.frame rfl rfl rfl rfl })
      (rank_lt_work ?_)
    simp only [Sys.tail, Sys.work, ProcessPc.remaining, h]
    omega
  case clearDone h _ =>
    have h0 : w.sys.atTimeoutCnt = 0 := by simpa [h] using hpc
    exact Stage.lower (Stage.examining { hi with
      issued := hi.issued.frame rfl rfl rfl rfl, tails := hi.tails.frame rfl rfl
      pc := by simp [h0], reply := by simp [ProcessPc.unmatched]
      queue := hi.queue.frame rfl rfl rfl rfl })
      (rank_lt_work (by simp [Sys.tail, Sys.work, ProcessPc.remaining, h]))
  case clearByte k h hk =>
    have h0 : w.sys.atTimeoutCnt = 0 := by simpa [h] using hpc
    have hk : k < 196 := hk
    refine Stage.lower (Stage.examining { hi with
      issued := hi.issued.frame rfl rfl rfl rfl, tails := hi.tails.frame rfl rfl
      pc := by simp [h0], reply := ?_, queue := hi.queue.frame rfl rfl rfl rfl })
      (rank_lt_work ?_)
    · simp [ProcessPc.unmatched]
    · simp only [Sys.tail, Sys.work, ProcessPc.remaining, h]
      omega
  case ackWake h hsus =>
    have h0 : w.sys.atTimeoutCnt = 0 := by simpa [h] using hpc
    have hothers := hi.others_at_rest hk hsch (by simp [h])
    exact Stage.lower (Stage.acknowledged
      { kk := hi.issued.kk, lt := hi.issued.lt, atSendCmdNum := hi.issued.atSendCmdNum
        serial := hothers.1, process := .inl rfl, send := hothers.2.1, shell := .inr ⟨rfl, hrx⟩
        disarmed := h0, queue := hi.queue.frame rfl rfl rfl rfl, line := hi.line, log := hi.log })
      (rank_lt_stage (by omega))
  case ackPost h hsus =>
    have h0 : w.sys.atTimeoutCnt = 0 := by simpa [h] using hpc
    have hothers := hi.others_at_rest hk hsch (by simp [h])
    exact Stage.lower (Stage.acknowledged
      { kk := hi.issued.kk, lt := hi.issued.lt, atSendCmdNum := hi.issued.atSendCmdNum
        serial := hothers.1, process := .inl rfl, send := hothers.2.1
        shell := .inl ⟨hothers.2.2.resolve_right hsus, by simp [hrx]⟩
        disarmed := h0, queue := hi.queue.frame rfl rfl rfl rfl, line := hi.line, log := hi.log })
      (rank_lt_stage (by omega))
  all_goals simp_all

theorem Examining.lowers (hk : KernelInv w.sys) (hi : Examining c w) (hs : LocalStep w w') :
    Lower (rank c 3 1 (w.sys.tail + w.sys.serial.remaining 0 + w.sys.work)
      w.sys.atTimeoutCnt) w' := by
  have hserial := hi.serial
  have hrx := hi.rx1Event
  have htail : ∀ s', TailStep w.sys s' →
      Lower (rank c 3 1 (w.sys.tail + w.sys.serial.remaining 0 + w.sys.work)
        w.sys.atTimeoutCnt) { w with sys := s' } := by
    rintro s' ⟨⟨p, q, n, t, rfl⟩, htails, hlt⟩
    exact Stage.lower (Stage.examining { hi with
      issued := hi.issued.frame rfl rfl rfl rfl, tails := htails
      queue := hi.queue.frame rfl rfl rfl rfl })
      (rank_lt_work (Nat.add_lt_add_right (Nat.add_lt_add_right hlt _) _))
  cases hs with
  | @run t s' hsch ht =>
    cases t with
    | serial =>
      cases ht
      case serialWait h _ | serialEcho h =>
        exact Stage.lower (Stage.examining { hi with
          issued := hi.issued.frame rfl rfl rfl rfl, tails := hi.tails.frame rfl rfl
          serial := by simp, queue := hi.queue.frame rfl rfl rfl rfl })
          (rank_lt_work (by simp [Sys.tail, Sys.work, SerialPc.remaining, h]))
      all_goals simp_all
    | atProcess => exact hi.lowers_process hk hsch ht
    | atSendThread => exact htail s' (hi.tails.sendStep hi.rx1Event ht)
    | shell => exact htail s' (hi.tails.shellStep hi.rx1Event ht)
  | tick hlt =>
    refine Stage.lower (Stage.examining { hi with
      issued := hi.issued.frame rfl rfl rfl rfl, tails := hi.tails.frame rfl rfl
      pc := ?_, queue := hi.queue.frame rfl rfl rfl rfl })
      (rank_lt_tick hlt)
    rcases hi.pc with h | h | h | h | ⟨_, h⟩
    · exact .inl h
    · exact .inr (.inl h)
    · exact .inr (.inr (.inl h))
    · exact .inr (.inr (.inr (.inl h)))
    · omega
  | expire hq => exact absurd hq.process hi.process_ne

theorem Acknowledged.lowers (hk : KernelInv w.sys) (hi : Acknowledged c w) (hs : LocalStep w w') :
    Lower (rank c 3 0 (w.sys.tail + w.sys.work +
      if w.sys.shell = .recv then 1 else 0) w.sys.atTimeoutCnt) w' := by
  have hprocess := hi.process
  have hsend := hi.send
  have hshell := hi.shell
  cases hs with
  | @run t s' hsch ht =>
    cases t with
    | serial => exact absurd hsch (not_scheduled hi.serial)
    | atProcess =>
      cases ht
      case processWait h _ _ =>
        exact Stage.lower (Stage.acknowledged { hi with
          process := .inr rfl, queue := hi.queue.frame rfl rfl rfl rfl })
          (rank_lt_work (by simp [Sys.tail, Sys.work, ProcessPc.remaining, h]))
      case processRecv h hb =>
        rcases hshell with ⟨_, hrx⟩ | ⟨_, hrx⟩ <;> simp [hrx] at hb
      all_goals simp_all
    | atSendThread =>
      cases ht
      case sendWait h _ =>
        exact Stage.lower (Stage.acknowledged { hi with
          send := .inr rfl, queue := hi.queue.frame rfl rfl rfl rfl })
          (rank_lt_work (by simp [Sys.tail, Sys.work, SendPc.remaining, h]))
      case sendRecv h hb =>
        rcases hshell with ⟨_, hrx⟩ | ⟨_, hrx⟩ <;> simp [hrx] at hb
      all_goals simp_all
    | shell =>
      cases ht
      case shellRecv h hb =>
        have hrx : w.sys.rx1Event = {atcmdSendAckOkEvent} := by simpa [h] using hshell
        exact Stage.lower (Stage.acknowledged { hi with
          shell := .inr ⟨rfl, by simp [hrx]⟩, queue := hi.queue.frame rfl rfl rfl rfl })
          (rank_lt_work (by simp [Sys.tail, Sys.work, ShellPc.remaining, h]))
      case shellWait h hb =>
        rcases hshell with ⟨_, hrx⟩ | ⟨hpc, _⟩
        · simp [hrx] at hb
        · simp [hpc] at h
      case shellAdvance h =>
        -- the shell runs, so the other threads wait: the next round begins
        have hrx : w.sys.rx1Event = ∅ := by simpa [h] using hshell
        obtain ⟨_, hp, hs⟩ := hk.lock.all_suspended hsch (by simp [Sys.critical, h])
        have hval : c.succ.val = c.val + 1 := TeATCmdNum.val_succ fun hc => by
          have := hi.lt
          simp [hc, TeATCmdNum.val] at this
        have hlt := hi.lt
        exact Stage.lower (Stage.looping (c := c.succ) { hi with
          shell := rfl, kk := by simp [hi.kk, hval], le := by omega
          atSendCmdNum := by simp [hi.atSendCmdNum], process := hp, send := hs, rx1Event := hrx
          queue := hi.queue.frame rfl rfl rfl rfl, log := hval ▸ hi.log })
          (rank_lt_iff.mpr (by omega))
      all_goals simp_all
  | tick hlt => exact absurd hlt (by simp [hi.disarmed])
  | expire _ h0 => exact absurd hi.disarmed h0

end NanoAt
