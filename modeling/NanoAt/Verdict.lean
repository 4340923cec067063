import NanoAt.Handoff
import NanoAt.Terminator

/-!
# The verdict on a packet

`Rec_WaitAT` searches the string that begins at `process_buff[0]`. Of a packet with a zero
byte that is only its beginning, and behind a packet without one stand the bytes that
earlier packets have left and the memory behind the array. `Sys.tellsPacket` says when
neither matters.

## Main definitions

- `packetsInTurn` — each packet is processed before the next one is announced
- `Sys.leftover` — the memory behind the packet
- `Sys.leftoverSilent` — it does not complete the keyword
- `Sys.tellsPacket` — the search of the memory answers for the packet
- `Judged` — what the examinations have decided
-/

namespace NanoAt
open CString GuardedRun Rx1Event

/-- An IDLE interrupt comes only while no packet is being copied, announced or examined. -/
def packetsInTurn (_ : History Sys Action) (s : Sys) (a : Action) : Prop :=
  a = .usart1 → s.serial = .suspended ∧ ¬ s.awaiting ∧ ¬ s.inRecWaitAT

instance (h : History Sys Action) (s : Sys) (a : Action) : Decidable (packetsInTurn h s a) := by
  unfold packetsInTurn; infer_instance

/-- The keyword `Rec_WaitAT` looks for. -/
def Sys.keyword (s : Sys) : List UInt8 := (atCmds s.atRecCmdNum).atRecStr

/-- The memory behind the packet: the rest of `process_buff` and what stands behind it. -/
def Sys.leftover (s : Sys) : List UInt8 := s.memory.drop s.processBuffP

/-- The keyword does not occur in the packet and the string behind it without occurring in
the packet. -/
def Sys.leftoverSilent (s : Sys) : Prop :=
  s.keyword <:+: s.packet ++ cstr s.leftover → s.keyword <:+: s.packet

instance (s : Sys) : Decidable s.leftoverSilent := by
  unfold Sys.leftoverSilent; infer_instance

/-- If the packet has a zero byte, a keyword in it occurs before the first one; if not, what
stands behind it does not complete the keyword. -/
def Sys.tellsPacket (s : Sys) : Prop :=
  if 0 ∈ s.packet then s.keyword <:+: s.packet → s.keyword <:+: cstr s.packet
  else s.leftoverSilent

instance (s : Sys) : Decidable s.tellsPacket := by
  unfold Sys.tellsPacket; infer_instance

/-- Since `Rec_WaitAT` was entered last, an acknowledgement has been posted. -/
def ackedSince (h : History Sys Action) : Prop :=
  ∃ y ∈ since Event.enters h, Event.isAck y = true

instance (h : History Sys Action) : Decidable (ackedSince h) := by
  unfold ackedSince; infer_instance

section Invariants

variable {h h' : History Sys Action} {s s' : Sys} {a : Action}

/-- The search of the memory and of the packet agree exactly when the memory tells the
packet. -/
theorem Sys.verdict_iff (s : Sys) (hfits : s.processBuffP ≤ usart1ProSize) :
    (s.keyword <:+: cstr s.memory ↔ s.keyword <:+: s.packet) ↔ s.tellsPacket := by
  have happ : s.memory = s.packet ++ s.leftover := Buffer.memory_eq s.processBuff s.behind hfits
  rw [Sys.tellsPacket, happ]
  split
  case isTrue hz =>
    have hprefix : cstr s.packet <:+: s.packet := (List.takeWhile_prefix _).isInfix
    rw [cstr_append_of_mem hz]
    exact ⟨Iff.mpr, fun h => ⟨fun hk => hk.trans hprefix, h⟩⟩
  case isFalse hz =>
    have hinfix : s.packet <:+: s.packet ++ cstr s.leftover := (List.prefix_append _ _).isInfix
    rw [cstr_append hz, Sys.leftoverSilent]
    exact ⟨Iff.mp, fun h => ⟨h, fun hk => hk.trans hinfix⟩⟩

/-- One packet at a time is copied, announced or examined. -/
structure InTurn (s : Sys) : Prop where
  record : rx1RecEvent ∉ s.rx1Event
  copying : s.copying ∨ s.serial = .announce → ¬ s.awaiting ∧ ¬ s.inRecWaitAT
  posted : rx1ProcessEvent ∈ s.rx1Event → ¬ s.taken ∧ ¬ s.inRecWaitAT

namespace InTurn

theorem init {behind : Ram} : InTurn (Sys.init behind) := by
  constructor <;> simp [Sys.init, Sys.copying]

theorem frame (hi : InTurn s) (hrec : rx1RecEvent ∈ s'.rx1Event → rx1RecEvent ∈ s.rx1Event)
    (hset : rx1ProcessEvent ∈ s'.rx1Event → rx1ProcessEvent ∈ s.rx1Event)
    (hserial : s'.copying ∨ s'.serial = .announce → s.copying ∨ s.serial = .announce)
    (htaken : s'.taken → s.taken) (hin : s'.inRecWaitAT → s.inRecWaitAT) : InTurn s' := by
  obtain ⟨h1, h2, h3⟩ := hi
  refine ⟨h1 ∘ hrec, ?_, ?_⟩
  · intro hs
    have hfree := h2 (hserial hs)
    exact ⟨fun haw => hfree.1 (haw.imp hset htaken), hfree.2 ∘ hin⟩
  · intro hp
    have hfree := h3 (hset hp)
    exact ⟨hfree.1 ∘ htaken, hfree.2 ∘ hin⟩

theorem trans (hi : InTurn s) (hg : packetsInTurn h s a) (ht : Trans s a s') : InTurn s' := by
  cases ht
  case idleWake hpc => exact ⟨hi.record, fun _ => (hg rfl).2, hi.posted⟩
  case idlePost hne => exact absurd (hg rfl).1 hne
  case serialRecv hpc hb => exact absurd hb hi.record
  case announceWake hpc hsus =>
    have hfree := hi.copying (.inr hpc)
    have hno : rx1ProcessEvent ∉ s.rx1Event := fun hb => hfree.1 (.inl hb)
    exact ⟨hi.record, by simp [Sys.copying], fun hb => absurd hb hno⟩
  case announcePost hpc _ =>
    have hfree := hi.copying (.inr hpc)
    exact ⟨by simpa using hi.record, by simp [Sys.copying],
      fun _ => ⟨fun ht => hfree.1 (.inr ht), hfree.2⟩⟩
  case processRecv hpc _ =>
    refine ⟨by simp [hi.record], ?_, by simp⟩
    intro hs
    have hno : rx1ProcessEvent ∉ s.rx1Event := fun hb => (hi.copying hs).1 (.inl hb)
    simp [Sys.awaiting, Sys.taken, Sys.inRecWaitAT, hno]
  case dispatchPacket hpc he =>
    have htaken : s.taken := .inl ⟨hpc, he⟩
    exact ⟨hi.record, fun hs => absurd (.inr htaken) (hi.copying hs).1,
      fun hb => absurd htaken (hi.posted hb).1⟩
  case recWait hpc =>
    have htaken : s.taken := .inr hpc
    exact ⟨hi.record, fun hs => absurd (.inr htaken) (hi.copying hs).1,
      fun hb => absurd htaken (hi.posted hb).1⟩
  all_goals
    exact hi.frame (by simp) (by simp) (by simp [Sys.copying, *]) (by simp [Sys.taken, *])
      (by simp [Sys.inRecWaitAT, *])

end InTurn

@[simp] theorem find?_enters_cons : ((s, a) :: h).find? Event.enters =
    if a = .run .atProcess ∧ s.atProcess = .recWait then some (s, a)
    else h.find? Event.enters := by
  by_cases he : a = .run .atProcess ∧ s.atProcess = .recWait <;>
    simp [Event.enters, Event.processAt, he]

@[simp] theorem ackedSince_cons : ackedSince ((s, a) :: h) ↔
    ¬ (a = .run .atProcess ∧ s.atProcess = .recWait) ∧
      ((a = .run .atProcess ∧ s.atProcess = .ack) ∨ ackedSince h) := by
  by_cases he : a = .run .atProcess ∧ s.atProcess = .recWait <;>
    simp [ackedSince, Event.enters, Event.isAck, Event.processAt, he]

/-- The packet that is announced is the last one copied. -/
def Fresh (h : History Sys Action) (s : Sys) : Prop :=
  s.awaiting → (handedOver h).getLast? = some s.packet

namespace Fresh

theorem init {behind : Ram} : Fresh [] (Sys.init behind) := by
  simp [Fresh, Sys.init, Sys.awaiting, Sys.taken]

theorem frame (hf : Fresh h s) (hout : handedOver ((s, a) :: h) = handedOver h)
    (hawait : s'.awaiting → s.awaiting) (hpacket : s.awaiting → s'.packet = s.packet) :
    Fresh ((s, a) :: h) s' := by
  intro hs
  rw [hout, hpacket (hawait hs)]
  exact hf (hawait hs)

theorem trans (hb : CopiedBytes h s) (hi : InTurn s) (hf : Fresh h s) (ht : Trans s a s') :
    Fresh ((s, a) :: h) s' := by
  cases ht
  case serialCopy hpc | serialRecord hpc =>
    have hfree := hi.copying (.inl (by simp [Sys.copying, hpc]))
    exact hf.frame (by simp [hpc]) id (fun hs => absurd hs hfree.1)
  case announceWake hpc _ | announcePost hpc _ =>
    intro _
    simp [hpc, hb.packet hpc, Sys.packet]
  case processRecv hpc _ =>
    refine hf.frame (by simp) ?_ (fun _ => rfl)
    intro hs
    exact .inl (by simpa [Sys.awaiting, Sys.taken] using hs)
  case clearByte k hpc _ =>
    refine hf.frame (by simp) (by simp [Sys.awaiting, Sys.taken, hpc]) ?_
    intro hs
    have hin : s.inRecWaitAT := by simp [Sys.inRecWaitAT, hpc]
    rcases hs with hs | hs
    · exact absurd hin (hi.posted hs).2
    · simp [Sys.taken, hpc] at hs
  all_goals
    exact hf.frame (by simp [*]) (by simp [Sys.awaiting, Sys.taken, *]) (fun _ => rfl)

end Fresh

/-- `Rec_WaitAT` has found the keyword. -/
def Sys.afterMatch (s : Sys) : Prop :=
  match s.atProcess with
  | .disarm | .select | .print .. | .clear _ | .ack => True
  | _ => False

/-- What the examinations have decided: the search under way reads the memory with which
`Rec_WaitAT` was entered, and an acknowledgement has followed exactly if the keyword was in
the string it began with. -/
structure Judged (h : History Sys Action) (s : Sys) : Prop where
  search : ∀ c i j, s.atProcess = .search c i j → ¬ ackedSince h ∧
    ∃ x, h.find? Event.enters = some x ∧ c = x.1.atRecCmdNum ∧
      s.memory = x.1.memory ∧ Scanned s.memory (atCmds c).atRecStr i j
  matched : s.afterMatch → ¬ ackedSince h ∧
    ∀ x, h.find? Event.enters = some x → x.1.keyword <:+: cstr x.1.memory
  returned : ¬ s.inRecWaitAT ∨ s.atProcess = .recWait → ∀ x, h.find? Event.enters = some x →
    (ackedSince h ↔ x.1.keyword <:+: cstr x.1.memory)

theorem Sys.afterMatch.inRecWaitAT (hs : s.afterMatch) : s.inRecWaitAT := by
  unfold Sys.afterMatch at hs
  unfold Sys.inRecWaitAT
  split at hs <;> simp_all

namespace Judged

theorem init {behind : Ram} : Judged [] (Sys.init behind) := by
  constructor <;> simp [Sys.init, Sys.afterMatch]

/-- A step that leaves `at_process` where it is. -/
theorem frame (hj : Judged h s) (hpc : s'.atProcess = s.atProcess) (ha : a ≠ .run .atProcess)
    (hmemory : s.inRecWaitAT → s'.memory = s.memory) : Judged ((s, a) :: h) s' := by
  have hfind : ((s, a) :: h).find? Event.enters = h.find? Event.enters := by simp [ha]
  have hacked : ackedSince ((s, a) :: h) ↔ ackedSince h := by simp [ha]
  have hin : s'.inRecWaitAT ↔ s.inRecWaitAT := by simp only [Sys.inRecWaitAT, hpc]
  constructor
  · intro c i j hsearch
    rw [hpc] at hsearch
    rw [hfind, hacked, hmemory (by simp [Sys.inRecWaitAT, hsearch])]
    exact hj.search c i j hsearch
  · rw [Sys.afterMatch, hpc, hfind, hacked]
    exact hj.matched
  · rw [hin, hpc, hfind, hacked]
    exact hj.returned

/-- A step of `at_process` outside `Rec_WaitAT`, or one that resumes it. -/
theorem outside (hj : Judged h s) (hpc : ¬ s.inRecWaitAT)
    (hpc' : ¬ s'.inRecWaitAT ∨ s'.atProcess = .recWait) : Judged ((s, a) :: h) s' := by
  have hno : s.atProcess ≠ .recWait ∧ s.atProcess ≠ .ack := by
    constructor <;> intro he <;> simp [Sys.inRecWaitAT, he] at hpc
  have hfind : ((s, a) :: h).find? Event.enters = h.find? Event.enters := by simp [hno]
  have hacked : ackedSince ((s, a) :: h) ↔ ackedSince h := by simp [hno]
  refine ⟨?_, ?_, ?_⟩
  · intro c i j hsearch
    simp [Sys.inRecWaitAT, hsearch] at hpc'
  · intro hafter
    rcases hpc' with hpc' | hpc'
    · exact absurd hafter.inRecWaitAT hpc'
    · simp [Sys.afterMatch, hpc'] at hafter
  · intro _
    rw [hfind, hacked]
    exact hj.returned (.inl hpc)

/-- A step of `at_process` after the match. -/
theorem matching (hj : Judged h s) (hpc : s.afterMatch) (hack : s.atProcess ≠ .ack)
    (hpc' : s'.afterMatch) : Judged ((s, .run .atProcess) :: h) s' := by
  have hrec : s.atProcess ≠ .recWait := by
    intro he
    simp [Sys.afterMatch, he] at hpc
  refine ⟨?_, ?_, ?_⟩
  · intro c i j hsearch
    simp [Sys.afterMatch, hsearch] at hpc'
  · intro _
    simpa [hrec, hack] using hj.matched hpc
  · rintro (hout | he)
    · exact absurd hpc'.inRecWaitAT hout
    · simp [Sys.afterMatch, he] at hpc'

theorem trans (hi : InTurn s) (hj : Judged h s) (ht : Trans s a s') : Judged ((s, a) :: h) s' := by
  cases ht
  case serialCopy hpc =>
    have hfree := hi.copying (.inl (by simp [Sys.copying, hpc]))
    exact hj.frame rfl (by simp) (fun hin => absurd hin hfree.2)
  case recWait hpc =>
    refine ⟨?_, by simp [Sys.afterMatch], by simp [Sys.inRecWaitAT]⟩
    intro c i j hsearch
    obtain ⟨rfl, rfl, rfl⟩ : s.atRecCmdNum = c ∧ 0 = i ∧ 0 = j := by simpa using hsearch
    exact ⟨by simp [hpc], (s, .run .atProcess), by simp [hpc], rfl, rfl, scanned_start⟩
  case searchFound c i j hpc hfound =>
    obtain ⟨hacked, x, hx, rfl, hmemory, hscan⟩ := hj.search c i j hpc
    have hinfix := hscan.found (atRecStr_valid _).2 hfound
    rw [hmemory] at hinfix
    refine ⟨by simp, ?_, by simp [Sys.inRecWaitAT]⟩
    intro _
    refine ⟨by simpa [hpc] using hacked, ?_⟩
    intro y hy
    obtain rfl : x = y := by simpa [hpc, hx] using hy
    exact hinfix
  case searchAbsent c i j hpc habsent =>
    obtain ⟨hacked, x, hx, rfl, hmemory, hscan⟩ := hj.search c i j hpc
    have hnot := hscan.not_infix (atRecStr_valid _).2 habsent
    rw [hmemory] at hnot
    refine ⟨by simp, by simp [Sys.afterMatch], ?_⟩
    intro _ y hy
    obtain rfl : x = y := by simpa [hpc, hx] using hy
    exact ⟨fun ha => absurd (by simpa [hpc] using ha) hacked, fun hk => absurd hk hnot⟩
  case searchNext c i j i' j' hpc hnext =>
    obtain ⟨hacked, x, hx, rfl, hmemory, hscan⟩ := hj.search c i j hpc
    refine ⟨?_, by simp [Sys.afterMatch], by simp [Sys.inRecWaitAT]⟩
    intro c₁ i₁ j₁ hsearch
    obtain ⟨rfl, rfl, rfl⟩ : x.1.atRecCmdNum = c₁ ∧ i' = i₁ ∧ j' = j₁ := by simpa using hsearch
    exact ⟨by simpa [hpc] using hacked, x, by simpa [hpc] using hx, rfl, hmemory, hscan.probe hnext⟩
  case disarm hpc | select hpc | printByte hpc _ | printClear hpc _ | printKeep hpc _ |
      clearByte hpc _ | clearDone hpc _ =>
    exact hj.matching (by simp [Sys.afterMatch, hpc]) (by simp [hpc]) (by simp [Sys.afterMatch])
  case ackWake hpc _ | ackPost hpc _ =>
    refine ⟨by simp, by simp [Sys.afterMatch], ?_⟩
    intro _ x hx
    have hmatched := (hj.matched (by simp [Sys.afterMatch, hpc])).2 x (by simpa [hpc] using hx)
    exact ⟨fun _ => hmatched, fun _ => by simp [hpc]⟩
  all_goals
    first
      | exact hj.frame rfl (by simp) (fun _ => rfl)
      | exact hj.outside (by simp [Sys.inRecWaitAT, *]) (by simp [Sys.inRecWaitAT])

end Judged

/-- The invariants of the runs in which packets come in turn. -/
theorem Run.judged (hr : SysRun packetsInTurn h s) : Fresh h s ∧ Judged h s := by
  obtain ⟨_, _, _, hf, hj⟩ :
      CopyIndex s ∧ CopiedBytes h s ∧ InTurn s ∧ Fresh h s ∧ Judged h s := by
    refine hr.invariant
      (P := fun h s => CopyIndex s ∧ CopiedBytes h s ∧ InTurn s ∧ Fresh h s ∧ Judged h s)
      (fun _ => ⟨.init, .init, .init, .init, .init⟩) ?_
    rintro h s a s' hk ⟨hx, hb, hi, hf, hj⟩ hg hm
    exact ⟨hx.trans hm.trans, hb.moves hk hx hm, hi.trans hg hm.trans, hf.trans hb hi hm.trans,
      hj.trans hi hm.trans⟩
  exact ⟨hf, hj⟩

end Invariants

/-- Where each packet is processed before the next one is announced, the packet with which
`Rec_WaitAT` is entered is the one copied last, and `Rec_WaitAT` acknowledges exactly the
packets that contain the keyword if and only if the memory tells the packet. -/
theorem verdict_on_packet_iff {h : History Sys Action} {s : Sys} (hr : SysRun packetsInTurn h s)
    (hs : ¬ s.inRecWaitAT) {h₁ h₂ : History Sys Action} {x : Event} (hh : h = h₁ ++ x :: h₂)
    (hx : Event.enters x = true) (hlast : ∀ y ∈ h₁, Event.enters y = false) :
    (handedOver h₂).getLast? = some x.1.packet ∧
      (((∃ y ∈ h₁, Event.isAck y = true) ↔ x.1.keyword <:+: x.1.packet) ↔ x.1.tellsPacket) := by
  have hprior : SysRun packetsInTurn h₂ x.1 := by
    subst hh
    exact hr.prior.1
  constructor
  · have hpc : x.1.atProcess = .recWait := by
      simp only [Event.enters, Event.processAt, decide_eq_true_eq] at hx
      exact hx.2
    exact (Run.judged hprior).1 (.inr (.inr hpc))
  · have hfind : h.find? Event.enters = some x := by
      rw [hh, List.find?_append, List.find?_eq_none.mpr (by simpa using hlast)]
      simp [hx]
    have hacked : ackedSince h ↔ ∃ y ∈ h₁, Event.isAck y = true := by
      rw [ackedSince, hh, since_append_cons hlast hx]
    rw [← hacked, (Run.judged hr).2.returned (.inl hs) x hfind]
    exact x.1.verdict_iff (SysRun.packet_le hprior)

/-- The last entry of `Rec_WaitAT` in a history and what followed it. -/
theorem exists_append_of_find? {h : History Sys Action} {x : Event}
    (hx : h.find? Event.enters = some x) : ∃ h₁ h₂, h = h₁ ++ x :: h₂ ∧
      Event.enters x = true ∧ (∀ y ∈ h₁, Event.enters y = false) ∧
      (ackedSince h ↔ ∃ y ∈ h₁, Event.isAck y = true) := by
  obtain ⟨hp, h₁, h₂, rfl, hlast⟩ := List.find?_eq_some_iff_append.mp hx
  have hlast : ∀ y ∈ h₁, Event.enters y = false := by simpa using hlast
  exact ⟨h₁, h₂, rfl, hp, hlast, by rw [ackedSince, since_append_cons hlast hp]⟩

theorem verdict_on_packet_iff_first_reply :
    ∃ h s, SysRun packetsInTurn h s ∧ ∃ h₁ x h₂, h = h₁ ++ x :: h₂ ∧
      x.1.packet = ascii "ROLE:1" ∧ ((∃ y ∈ h₁, Event.isAck y = true) ↔
        x.1.keyword <:+: x.1.packet) := by
  obtain ⟨h, s, hr, ht⟩ := SysRun.exists_of_exec packetsInTurn
    (startUp ++ packetIn (ascii "ROLE:1") ++ runs .atProcess 216)
    (fun h s => ¬ s.inRecWaitAT ∧ (h.find? Event.enters).any fun x =>
      x.1.packet = ascii "ROLE:1" ∧ x.1.tellsPacket) (by decide +kernel)
  obtain ⟨hs, ⟨s₀, a₀⟩, hx, hpacket, htells⟩ : ¬ s.inRecWaitAT ∧ ∃ x,
      h.find? Event.enters = some x ∧ x.1.packet = ascii "ROLE:1" ∧ x.1.tellsPacket := by
    simpa [Option.any_eq_true] using ht
  obtain ⟨h₁, h₂, hh, henters, hlast, _⟩ := exists_append_of_find? hx
  exact ⟨h, s, hr, h₁, _, h₂, hh, hpacket,
    (verdict_on_packet_iff hr hs hh henters hlast).2.mpr htells⟩

/-- The packet "R" is acknowledged for its keyword "ROLE:", the rest of which the rejected
packet "XOLE:" has left behind. -/
theorem leftover_completes_keyword :
    ¬ ∀ h s, SysRun packetsInTurn h s → ¬ s.inRecWaitAT → ∀ h₁ x h₂, h = h₁ ++ x :: h₂ →
      Event.enters x = true → (∀ y ∈ h₁, Event.enters y = false) →
      ((∃ y ∈ h₁, Event.isAck y = true) ↔ x.1.keyword <:+: x.1.packet) := by
  intro hall
  obtain ⟨h, s, hr, ht⟩ := SysRun.exists_of_exec packetsInTurn
    (startUp ++ packetIn (ascii "XOLE:") ++ runs .atProcess 9 ++ packetIn (ascii "R") ++
      runs .atProcess 215)
    (fun h s => ¬ s.inRecWaitAT ∧ ackedSince h ∧ (h.find? Event.enters).any fun x =>
      ¬ x.1.keyword <:+: x.1.packet) (by decide +kernel)
  obtain ⟨hs, hack, ⟨s₀, a₀⟩, hx, hno⟩ : ¬ s.inRecWaitAT ∧ ackedSince h ∧ ∃ x,
      h.find? Event.enters = some x ∧ ¬ x.1.keyword <:+: x.1.packet := by
    simpa [Option.any_eq_true] using ht
  obtain ⟨h₁, h₂, hh, henters, hlast, hacked⟩ := exists_append_of_find? hx
  exact hno ((hall h s hr hs h₁ _ h₂ hh henters hlast).mp (hacked.mp hack))

end NanoAt
