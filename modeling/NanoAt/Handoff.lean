import NanoAt.ReceiveQueue

/-!
# The hand-off of packets

One buffer and one event bit carry a packet from `serial` to `Rec_WaitAT`, and nothing
tells `serial` when the packet has been examined. `handoffSafe` is the condition under
which nothing is lost all the same: `serial` copies a byte only where the last packet
is done with.

## Main definitions

- `handedOver` — the packets announced, as they were copied
- `Sys.awaiting`, `Sys.searching`, `Sys.erases` — what still happens to `process_buff`
- `handoffSafe` — `serial` writes only where the last packet is done with
-/

namespace NanoAt
open CString GuardedRun Rx1Event

/-- The bytes copied since `serial` last called `rt_event_recv`. -/
def copiedBytes : History Sys Action → List UInt8
  | [] => []
  | x :: h =>
    if Event.serialAt .recv x then []
    else copiedBytes h ++
      if Event.serialAt .copy x then [x.1.dmaRecBuffer.read x.1.usartDMARecQRear] else []

/-- For each announced packet the bytes that were copied for it, oldest first. -/
def handedOver : History Sys Action → List (List UInt8)
  | [] => []
  | x :: h => handedOver h ++ if Event.serialAt .announce x then [copiedBytes h] else []

namespace Sys

/-- `at_process` has received `RX1_PROCESS_EVENT` and not yet entered the search. -/
def taken (s : Sys) : Prop :=
  (s.atProcess = .dispatch ∧ rx1ProcessEvent ∈ s.e) ∨ s.atProcess = .recWait

/-- A packet is announced and not yet examined. -/
def awaiting (s : Sys) : Prop := rx1ProcessEvent ∈ s.rx1Event ∨ s.taken

/-- A packet is being examined. -/
def searching (s : Sys) : Prop :=
  match s.atProcess with
  | .search .. => True
  | _ => False

/-- `Rec_WaitAT` will clear the byte at index `p` before it returns. -/
def erases (s : Sys) (p : ℕ) : Prop :=
  match s.atProcess with
  | .disarm | .select => clearsProcessBuff s.atCurrentCmdNum = true
  | .print clears _ => clears = true
  | .clear k => k ≤ p
  | _ => False

instance (s : Sys) : Decidable s.taken := by
  unfold taken; infer_instance

instance (s : Sys) : Decidable s.awaiting := by
  unfold awaiting; infer_instance

instance (s : Sys) : Decidable s.searching := by
  unfold searching
  generalize s.atProcess = pc
  apply @ProcessPc.casesOn _ pc <;> intros <;> infer_instance

instance (s : Sys) (p : ℕ) : Decidable (s.erases p) := by
  unfold erases
  generalize s.atProcess = pc
  apply @ProcessPc.casesOn _ pc <;> intros <;> infer_instance

/-- The packet announced and not yet examined. -/
def pending (s : Sys) : List (List UInt8) :=
  if s.awaiting then [s.packet] else []

end Sys

/-- `serial` copies a byte only while no packet is announced or examined and to a place
that is not about to be cleared; it records an empty packet only under the same
condition and over an empty string. -/
def handoffSafe (_ : History Sys Action) (s : Sys) (a : Action) : Prop :=
  a = .run .serial →
    (s.serial = .copy → ¬ s.awaiting ∧ ¬ s.searching ∧ ¬ s.erases s.processP) ∧
    (s.serial = .record → s.processP = 0 →
      ¬ s.awaiting ∧ ¬ s.searching ∧ (s.processBuff.read 0 = 0 ∨ s.erases 0))

instance (h : History Sys Action) (s : Sys) (a : Action) : Decidable (handoffSafe h s a) := by
  unfold handoffSafe; infer_instance

section Cons

variable (s : Sys) (a : Action) (h : History Sys Action)

@[simp] theorem copiedBytes_cons : copiedBytes ((s, a) :: h) =
    if a = .run .serial ∧ s.serial = .recv then []
    else copiedBytes h ++
      if a = .run .serial ∧ s.serial = .copy then [s.dmaRecBuffer.read s.usartDMARecQRear]
      else [] := by
  simp [copiedBytes, Event.serialAt]

@[simp] theorem handedOver_cons : handedOver ((s, a) :: h) =
    handedOver h ++ if a = .run .serial ∧ s.serial = .announce then [copiedBytes h] else [] := by
  simp [handedOver, Event.serialAt]

end Cons

section Invariants

variable {h h' : History Sys Action} {s s' : Sys} {a : Action}

/-- The bytes in hand are those that were copied. -/
structure CopiedBytes (h : History Sys Action) (s : Sys) : Prop where
  rest : s.serial = .suspended → copiedBytes h = []
  front : s.copying → copiedBytes h = s.processBuff.front s.processP
  packet : s.serial = .announce → copiedBytes h = s.packet

theorem CopiedBytes.init {behind : Ram} : CopiedBytes [] (Sys.init behind) := by
  constructor <;> simp [Sys.init, Sys.copying]

theorem CopiedBytes.moves (hi : KernelInv s) (hx : CopyIndex s) (hb : CopiedBytes h s)
    (hm : Moves s a s') : CopiedBytes ((s, a) :: h) s' := by
  obtain ⟨ht, hs⟩ := hm
  cases ht
  case idleWake hpc =>
    have h0 := hx.idle (by simp [Sys.copying, hpc])
    exact ⟨by simp, fun _ => by simp [hb.rest hpc, h0], by simp⟩
  case clearByte k hpc _ =>
    have hsus := hi.lock.serial_suspended (hs _ rfl) (by simp [Sys.critical, hpc])
    exact ⟨by simpa using hb.rest, by simp [Sys.copying, hsus], by simp [hsus]⟩
  case serialRecv hpc _ =>
    have h0 := hx.idle (by simp [Sys.copying, hpc])
    exact ⟨by simp, fun _ => by simp [hpc, h0], by simp⟩
  case serialWait hpc _ => exact ⟨by simp [hpc], by simp [Sys.copying], by simp⟩
  case serialCopy hpc =>
    have hroom := hx.room (.inr hpc)
    have hfront := hb.front (by simp [Sys.copying, hpc])
    exact ⟨by simp, fun _ => by simp [hpc, hfront, Buffer.front_write_succ _ _ hroom], by simp⟩
  case serialUnread hpc _ | serialDrained hpc _ | serialAdvance hpc | serialFull hpc _ |
      serialMore hpc _ =>
    have hfront := hb.front (by simp [Sys.copying, hpc])
    exact ⟨by simp, fun _ => by simp [hpc, hfront], by simp⟩
  case serialRecord hpc =>
    have hfront := hb.front (by simp [Sys.copying, hpc])
    exact ⟨by simp, by simp [Sys.copying], fun _ => by simp [hpc, hfront, Sys.packet]⟩
  case announceWake hpc _ | announcePost hpc _ | serialEcho hpc =>
    exact ⟨by simp, by simp [Sys.copying], by simp⟩
  all_goals
    exact ⟨by simpa using hb.rest, by simpa [Sys.copying] using hb.front,
      by simpa [Sys.packet] using hb.packet⟩

/-- The buffer belongs to `serial` or to one announced packet, and no byte of it that
is still to be examined is about to be cleared. -/
structure Handoff (s : Sys) : Prop where
  one : rx1ProcessEvent ∈ s.rx1Event → ¬ s.taken ∧ ¬ s.searching
  free : 0 < s.processP ∨ s.serial = .announce → ¬ s.awaiting ∧ ¬ s.searching
  inCopy : ∀ p < s.processP, ¬ s.erases p
  whole : s.serial = .announce ∨ s.awaiting → ∀ p < s.processBuffP, ¬ s.erases p
  empty : s.serial = .announce ∨ s.awaiting → s.processBuffP = 0 →
    s.processBuff.read 0 = 0 ∨ s.erases 0

namespace Handoff

theorem init {behind : Ram} : Handoff (Sys.init behind) := by
  constructor <;> simp [Sys.init, Sys.awaiting, Sys.taken]

theorem frame (hi : Handoff s) (hset : rx1ProcessEvent ∈ s'.rx1Event ↔ rx1ProcessEvent ∈ s.rx1Event)
    (hserial : s'.serial = .announce ↔ s.serial = .announce) (hp : s'.processP = s.processP)
    (hbuffP : s'.processBuffP = s.processBuffP) (hbuff : s'.processBuff = s.processBuff)
    (htaken : s'.taken ↔ s.taken) (hsearch : s'.searching ↔ s.searching)
    (herases : ∀ p, s'.erases p ↔ s.erases p) : Handoff s' := by
  obtain ⟨h1, h2, h3, h4, h5⟩ := hi
  constructor <;>
    simp only [Sys.awaiting, hset, hserial, hp, hbuffP, hbuff, htaken, hsearch, herases] <;>
    assumption

theorem moves (hk : KernelInv s) (hx : CopyIndex s) (hi : Handoff s) (hg : handoffSafe h s a)
    (hm : Moves s a s') : Handoff s' := by
  obtain ⟨ht, hs⟩ := hm
  cases ht
  case serialCopy hpc =>
    obtain ⟨hawait, hsearch, herase⟩ := (hg rfl).1 hpc
    refine ⟨hi.one, fun _ => ⟨hawait, hsearch⟩, ?_, ?_, ?_⟩
    · intro p hp
      rcases Nat.lt_succ_iff_lt_or_eq.mp hp with hp | rfl
      · exact hi.inCopy p hp
      · exact herase
    · rintro (h | h)
      · simp at h
      · exact absurd h hawait
    · rintro (h | h)
      · simp at h
      · exact absurd h hawait
  case serialRecord hpc =>
    have hfree : ¬ s.awaiting ∧ ¬ s.searching := by
      by_cases h0 : s.processP = 0
      · exact ⟨((hg rfl).2 hpc h0).1, ((hg rfl).2 hpc h0).2.1⟩
      · exact hi.free (.inl (by omega))
    exact ⟨hi.one, fun _ => hfree, by simp, fun _ => hi.inCopy,
      fun _ h0 => ((hg rfl).2 hpc h0).2.2⟩
  case announceWake hpc hsus =>
    have hfree := hi.free (.inr hpc)
    have h0 := hx.idle (by simp [Sys.copying, hpc])
    have hno : rx1ProcessEvent ∉ s.rx1Event := fun hb => hfree.1 (.inl hb)
    have hempty := hi.empty (.inl hpc)
    simp only [Sys.erases, hsus, or_false] at hempty
    exact ⟨fun hb => absurd hb hno, by simp [h0], by simp [h0], by simp [Sys.erases],
      fun _ hp => .inl (hempty hp)⟩
  case announcePost hpc _ =>
    have hfree := hi.free (.inr hpc)
    have h0 := hx.idle (by simp [Sys.copying, hpc])
    exact ⟨fun _ => ⟨fun ht => hfree.1 (.inr ht), hfree.2⟩, by simp [h0], by simp [h0],
      fun _ => hi.whole (.inl hpc), fun _ => hi.empty (.inl hpc)⟩
  case processRecv hpc _ =>
    -- the announced packet passes from the event set into the hands of `at_process`
    have hawait : ∀ {P : Prop}, (s.serial = .announce ∨ s.awaiting → P) →
        s.serial = .announce ∨ rx1ProcessEvent ∈ s.rx1Event → P :=
      fun hP hb => hP (hb.imp_right .inl)
    have hfree := hi.free
    have hempty := hawait hi.empty
    simp only [Sys.erases, hpc, or_false] at hempty
    refine ⟨by simp, ?_, by simp [Sys.erases], by simp [Sys.erases],
      by simpa [Sys.awaiting, Sys.taken, Sys.erases] using hempty⟩
    intro hb
    simpa [Sys.awaiting, Sys.taken, Sys.searching, hpc] using hfree hb
  case dispatchPacket hpc he =>
    have htaken : s.taken := .inl ⟨hpc, he⟩
    exact hi.frame (by simp) (by simp) rfl rfl rfl (by simp [Sys.taken, hpc, he])
      (by simp [Sys.searching, hpc]) (by simp [Sys.erases, hpc])
  case recWait hpc =>
    have htaken : s.taken := .inr hpc
    have hno : rx1ProcessEvent ∉ s.rx1Event := fun hb => (hi.one hb).1 htaken
    have hfree : ¬ (0 < s.processP ∨ s.serial = .announce) := fun hb => (hi.free hb).1 (.inr htaken)
    exact ⟨fun hb => absurd hb hno, fun hb => absurd hb hfree, by simp [Sys.erases],
      by simp [Sys.erases], fun hb => by simp_all [Sys.awaiting, Sys.taken]⟩
  case searchFound hpc _ =>
    have hsearch : s.searching := by simp [Sys.searching, hpc]
    have hno : rx1ProcessEvent ∉ s.rx1Event := fun hb => (hi.one hb).2 hsearch
    have hfree : ¬ (0 < s.processP ∨ s.serial = .announce) := fun hb => (hi.free hb).2 hsearch
    have h0 : s.processP = 0 := by
      by_contra hne
      exact hfree (.inl (by omega))
    exact ⟨fun hb => absurd hb hno, fun hb => absurd hb hfree, by simp [h0],
      fun hb => by simp_all [Sys.awaiting, Sys.taken],
      fun hb => by simp_all [Sys.awaiting, Sys.taken]⟩
  case searchAbsent hpc _ =>
    have hsearch : s.searching := by simp [Sys.searching, hpc]
    have hno : rx1ProcessEvent ∉ s.rx1Event := fun hb => (hi.one hb).2 hsearch
    have hfree : ¬ (0 < s.processP ∨ s.serial = .announce) := fun hb => (hi.free hb).2 hsearch
    exact ⟨fun hb => absurd hb hno, fun hb => absurd hb hfree, by simp [Sys.erases],
      by simp [Sys.erases], fun hb => by simp_all [Sys.awaiting, Sys.taken]⟩
  case clearByte k hpc hk =>
    -- index `k` is cleared and from now on no longer about to be
    have hwhole := hi.whole
    have hempty := hi.empty
    simp only [Sys.awaiting, Sys.taken, Sys.erases, hpc, reduceCtorEq, false_and, or_false,
      not_le, Nat.le_zero] at hwhole hempty
    have hfree := hi.free
    refine ⟨by simp [Sys.taken, Sys.searching],
      by simpa [Sys.awaiting, Sys.taken, Sys.searching, hpc] using hfree, ?_, ?_, ?_⟩
    · intro p hp
      have := hi.inCopy p hp
      simp only [Sys.erases, hpc, not_le] at this ⊢
      omega
    · intro hb p hp
      have := hwhole (by simpa [Sys.awaiting, Sys.taken] using hb) p hp
      simp only [Sys.erases, not_le]
      omega
    · intro hb h0
      have := hempty (by simpa [Sys.awaiting, Sys.taken] using hb) h0
      refine .inl ?_
      rcases this with h | rfl
      · simp [Buffer.read_write, h]
      · simp
  case clearDone k hpc hk =>
    have hempty := hi.empty
    simp only [Sys.awaiting, Sys.taken, Sys.erases, hpc, reduceCtorEq, false_and, or_false,
      Nat.le_zero] at hempty
    have hk0 : k ≠ 0 := by simp only [usart1ProSize] at hk; omega
    exact ⟨by simp [Sys.taken, Sys.searching],
      by simpa [Sys.awaiting, Sys.taken, Sys.searching, hpc] using hi.free, by simp [Sys.erases],
      by simp [Sys.erases], by simpa [Sys.awaiting, Sys.taken, Sys.erases, hk0] using hempty⟩
  case callSetCurrent hpc =>
    have hsus := (hk.lock.all_suspended (hs _ rfl) (by simp [Sys.critical, hpc])).2.1
    exact hi.frame (by simp) (by simp) rfl rfl rfl (by simp [Sys.taken])
      (by simp [Sys.searching]) (by simp [Sys.erases, hsus])
  all_goals
    exact hi.frame (by simp) (by simp [*]) rfl rfl rfl (by simp [Sys.taken, *])
      (by simp [Sys.searching, *]) (by simp [Sys.erases, *])

end Handoff

/-- The packets announced are those examined and the one that is pending. -/
structure HandoffLog (h : History Sys Action) (s : Sys) : Prop where
  log : handedOver h = examined h ++ s.pending
  last : s.searching → (examined h).getLast? = some s.packet

namespace HandoffLog

theorem init {behind : Ram} : HandoffLog [] (Sys.init behind) := by
  constructor <;> simp [Sys.init, Sys.pending, Sys.awaiting, Sys.taken, Sys.searching, handedOver,
    examined]

theorem frame (hl : HandoffLog h s) (hout : handedOver h' = handedOver h)
    (hexam : examined h' = examined h) (hawait : s'.awaiting ↔ s.awaiting)
    (hsearch : s'.searching → s.searching)
    (hpacket : s.awaiting ∨ s.searching → s'.packet = s.packet) : HandoffLog h' s' := by
  constructor
  · have hpend : s'.pending = s.pending := by
      by_cases hs : s.awaiting
      · simp [Sys.pending, hawait, hs, hpacket (.inl hs)]
      · simp [Sys.pending, hawait, hs]
    rw [hout, hexam, hpend, hl.log]
  · intro hs
    rw [hexam, hpacket (.inr (hsearch hs)), hl.last (hsearch hs)]

theorem moves (hb : CopiedBytes h s) (hi : Handoff s) (hl : HandoffLog h s)
    (hg : handoffSafe h s a) (ht : Trans s a s') : HandoffLog ((s, a) :: h) s' := by
  cases ht
  case serialCopy hpc =>
    obtain ⟨hawait, hsearch, _⟩ := (hg rfl).1 hpc
    exact hl.frame (by simp [hpc]) (by simp) Iff.rfl id
      (fun hs => hs.elim (absurd · hawait) (absurd · hsearch))
  case serialRecord hpc =>
    have hfree : ¬ s.awaiting ∧ ¬ s.searching := by
      by_cases h0 : s.processP = 0
      · exact ⟨((hg rfl).2 hpc h0).1, ((hg rfl).2 hpc h0).2.1⟩
      · exact hi.free (.inl (by omega))
    exact hl.frame (by simp [hpc]) (by simp) Iff.rfl id
      (fun hs => hs.elim (absurd · hfree.1) (absurd · hfree.2))
  case announceWake hpc hsus =>
    have hfree := hi.free (.inr hpc)
    have hlog := hl.log
    simp only [Sys.pending, hfree.1, if_false, List.append_nil] at hlog
    refine ⟨?_, by simp [Sys.searching]⟩
    simp [hpc, hlog, hb.packet hpc, Sys.pending, Sys.awaiting, Sys.taken, Sys.packet]
  case announcePost hpc _ =>
    have hfree := hi.free (.inr hpc)
    have hlog := hl.log
    simp only [Sys.pending, hfree.1, if_false, List.append_nil] at hlog
    refine ⟨?_, fun hs => absurd hs hfree.2⟩
    simp [hpc, hlog, hb.packet hpc, Sys.pending, Sys.awaiting, Sys.packet]
  case recWait hpc =>
    -- the pending packet is examined, and no other one is announced
    have hawait : s.awaiting := .inr (.inr hpc)
    have hno : rx1ProcessEvent ∉ s.rx1Event := fun hb => (hi.one hb).1 (.inr hpc)
    have hlog := hl.log
    simp only [Sys.pending, hawait, if_true] at hlog
    refine ⟨?_, fun _ => by simp [hpc, Sys.packet]⟩
    simp [hpc, hlog, hno, Sys.pending, Sys.awaiting, Sys.taken]
  case clearByte k hpc _ =>
    refine hl.frame (by simp) (by simp [hpc]) (by simp [Sys.awaiting, Sys.taken, hpc])
      (by simp [Sys.searching]) ?_
    intro hs
    have hawait : s.awaiting := hs.resolve_right (by simp [Sys.searching, hpc])
    have hle : s.processBuffP ≤ k := by
      by_contra hlt
      exact hi.whole (.inr hawait) k (by omega) (by simp [Sys.erases, hpc])
    exact Buffer.front_write_of_le _ _ hle
  all_goals
    exact hl.frame (by simp [*]) (by simp [*]) (by simp [Sys.awaiting, Sys.taken, *])
      (by simp [Sys.searching, *]) (fun _ => rfl)

end HandoffLog

end Invariants

/-- Where `serial` writes only where the last packet is done with, every announced packet
is examined once, in order and as it was copied: the packets announced are those
examined and the one pending, a packet being searched is the last one examined, and an
empty packet does not bring an earlier one before `Rec_WaitAT` again. -/
theorem announced_packets_examined_once {h : History Sys Action} {s : Sys}
    (hr : SysRun handoffSafe h s) :
    handedOver h = examined h ++ s.pending ∧
      (s.searching → (examined h).getLast? = some s.packet) ∧
      (s.atProcess = .recWait → s.packet = [] → s.processBuff.read 0 = 0) ∧
      (s.atProcess = .suspended → handedOver h = examined h) := by
  obtain ⟨_, _, hi, hl⟩ : CopyIndex s ∧ CopiedBytes h s ∧ Handoff s ∧ HandoffLog h s := by
    refine hr.invariant
      (P := fun h s => CopyIndex s ∧ CopiedBytes h s ∧ Handoff s ∧ HandoffLog h s)
      (fun _ => ⟨.init, .init, .init, .init⟩) ?_
    rintro h s a s' hk ⟨hx, hb, hi, hl⟩ hg hm
    exact ⟨hx.trans hm.trans, hb.moves hk hx hm, hi.moves hk hx hg hm,
      hl.moves hb hi hg hm.trans⟩
  refine ⟨hl.log, hl.last, ?_, ?_⟩
  · intro hpc hempty
    have h0 : s.processBuffP = 0 := by simpa [Sys.packet, Buffer.front] using hempty
    simpa [Sys.erases, hpc] using hi.empty (.inr (.inr (.inr hpc))) h0
  · intro hpc
    have hno := hr.kernelInv.event.process hpc
    simpa [Sys.pending, Sys.awaiting, Sys.taken, hno, hpc] using hl.log

theorem announced_packets_examined_once_two_packets :
    ∃ h s, SysRun handoffSafe h s ∧ handedOver h = [[65], [66]] ∧ handedOver h = examined h := by
  obtain ⟨h, s, hr, ht⟩ := SysRun.exists_of_exec handoffSafe
    (startUp ++ packetIn [65] ++ runs .atProcess 5 ++ packetIn [66] ++ runs .atProcess 5)
    (fun h s => handedOver h = [[65], [66]] ∧ s.atProcess = .suspended) (by decide +kernel)
  have ht : handedOver h = [[65], [66]] ∧ s.atProcess = .suspended := by simpa using ht
  exact ⟨h, s, hr, ht.1, (announced_packets_examined_once hr).2.2.2 ht.2⟩

/-- Two packets back to back: the second is copied over the first before `at_process`
has run, so the first is never examined and the second is examined twice. -/
theorem second_packet_overwrites_first :
    ¬ ∀ h s, SysRun free h s → s.atProcess = .suspended →
      ∀ p ∈ handedOver h, p ≠ [] → (examined h).count p = (handedOver h).count p := by
  intro hall
  obtain ⟨h, s, hr, ht⟩ := SysRun.exists_of_exec free
    (startUp ++ packetIn [65] ++ packetIn [66] ++ runs .atProcess 10)
    (fun h s => s.atProcess = .suspended ∧ handedOver h = [[65], [66]] ∧
      examined h = [[66], [66]]) (by decide +kernel)
  have ht : s.atProcess = .suspended ∧ handedOver h = [[65], [66]] ∧ examined h = [[66], [66]] := by
    simpa using ht
  have hcount := hall h s hr ht.1 [65] (by simp [ht.2.1]) (by simp)
  simp [ht.2] at hcount

end NanoAt
