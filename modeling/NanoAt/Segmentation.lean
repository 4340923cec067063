import NanoAt.Verdict

/-!
# Replies cut into packets

`Rec_WaitAT` searches each packet for itself. The packets are what the IDLE interrupts and
the size of `process_buff` cut out of the stream, and after a call of `ATSend` an
acknowledgement is posted exactly when one of them contains the keyword; a keyword that lies
across the border of two packets is not found.

## Main definitions

- `AwaitsReply` — a command is issued and the receiving side is at rest
- `onePacketAtATime` — no byte and no interrupt before the last packet is processed
- `packets` — the packets into which the stream is cut
- `Turns` — `serial` and `at_process` take turns
- `Cutting` — what is published are these packets
- `Examination` — what the examinations made so far have decided
-/

namespace NanoAt
open CString GuardedRun Rx1Event

/-- The reply to `c` is expected: the receiving side waits and the queue is empty. -/
structure AwaitsReply (c : TeATCmdNum) (s : Sys) : Prop where
  kernel : KernelInv s
  serial : s.serial = .suspended
  processP : s.processP = 0
  processBuffP : s.processBuffP ≤ usart1ProSize
  queue : Queue s [] 0
  process : s.atProcess = .suspended
  current : s.atRecCmdNum = c
  shell : s.shell = .suspended ∨ s.shell = .prompt

/-- The module sends no zero byte and never more than 511 bytes that are not yet read; bytes
and IDLE interrupts come only while the last packet is fully processed; the count does not run
out; no other command is given; and what stands behind a packet does not complete the keyword. -/
def onePacketAtATime (h : History Sys Action) (s : Sys) (a : Action) : Prop :=
  match a with
  | .receive b => b ≠ 0 ∧ s.serial = .suspended ∧ s.atProcess = .suspended ∧
      (received h).length < consumed h + 511
  | .usart1 => s.serial = .suspended ∧ s.atProcess = .suspended
  | .timer2 => s.atTimeoutCnt ≠ 1
  | .comtest => False
  | .run .atProcess => s.atProcess = .recWait → s.leftoverSilent
  | .run _ => True

instance (h : History Sys Action) (s : Sys) (a : Action) :
    Decidable (onePacketAtATime h s a) := by
  unfold onePacketAtATime
  exact match a with
    | .run .serial | .run .atProcess | .run .atSendThread | .run .shell => inferInstance
    | .receive _ | .usart1 | .timer2 | .comtest => inferInstance

/-- What the actions of the module make of the stream: each IDLE interrupt cuts a packet of at
most 196 bytes off the bytes not yet cut. These packets, oldest first, and the bytes left. -/
def cut : History Sys Action → List (List UInt8) × List UInt8
  | [] => ([], [])
  | (_, .receive b) :: h => ((cut h).1, (cut h).2 ++ [b])
  | (_, .usart1) :: h =>
    ((cut h).1 ++ [(cut h).2.take usart1ProSize], (cut h).2.drop usart1ProSize)
  | _ :: h => cut h

/-- The packets into which the stream is cut. -/
def packets (h : History Sys Action) : List (List UInt8) := (cut h).1

/-- An acknowledgement has been posted. -/
def acked (h : History Sys Action) : Prop := ∃ x ∈ h, Event.isAck x = true

instance (h : History Sys Action) : Decidable (acked h) := by
  unfold acked; infer_instance

/-- A packet contains the keyword of `c`. -/
def matchesIn (c : TeATCmdNum) (packets : List (List UInt8)) : Prop :=
  ∃ p ∈ packets, (atCmds c).atRecStr <:+: p

/-- The packets of `l₁` are those of `l₂`, some neighbours put together, and perhaps more. -/
def Coarser (l₁ l₂ : List (List UInt8)) : Prop :=
  ∃ groups : List (List (List UInt8)), groups.flatten = l₂ ∧ groups.map List.flatten <+: l₁

section Invariants

variable {c : TeATCmdNum} {h h' : History Sys Action} {s s' : Sys} {a : Action}

@[simp] theorem acked_cons : acked ((s, a) :: h) ↔
    (a = .run .atProcess ∧ s.atProcess = .ack) ∨ acked h := by
  simp [acked, Event.isAck, Event.processAt]

@[simp] theorem packets_receive (b : UInt8) : packets ((s, .receive b) :: h) = packets h := rfl

@[simp] theorem packets_run (t : Thread) : packets ((s, .run t) :: h) = packets h := rfl

/-- The packets and the bytes left are the stream. -/
theorem flatten_packets_append : (packets h).flatten ++ (cut h).2 = received h := by
  induction h with
  | nil => rfl
  | cons x h ih =>
    obtain ⟨s, a⟩ := x
    cases a with
    | receive b => simp only [packets, cut, received, ← ih, List.append_assoc]
    | usart1 => simp [packets, cut, received, ← ih]
    | _ => exact ih

theorem length_le_of_mem_packets {p : List UInt8} (hp : p ∈ packets h) :
    p.length ≤ usart1ProSize := by
  induction h with
  | nil => simp [packets, cut] at hp
  | cons x h ih =>
    obtain ⟨s, a⟩ := x
    cases a with
    | usart1 =>
      simp only [packets, cut, List.mem_append, List.mem_singleton] at hp
      rcases hp with hp | rfl
      · exact ih hp
      · exact List.length_take_le _ _
    | _ => exact ih hp

/-- `at_process` is serving a packet or nothing. -/
def Sys.servesPacket (s : Sys) : Prop :=
  match s.atProcess with
  | .recv | .suspended | .recWait | .search .. | .disarm | .select | .print .. | .clear _ | .ack => True
  | .dispatch => rx1ProcessEvent ∈ s.e
  | _ => False

/-- `serial` fills the buffer only while `at_process` waits, and nothing is posted. -/
structure Turns (s : Sys) : Prop where
  serial : s.serial = .suspended ∨ s.serial = .echo ∨ s.serial = .recv ∨ s.atProcess = .suspended
  record : rx1RecEvent ∉ s.rx1Event
  packet : rx1ProcessEvent ∉ s.rx1Event
  timeout : atTimeoutEvent ∉ s.rx1Event
  round : s.servesPacket

namespace Turns

theorem start (hs : AwaitsReply c s) : Turns s where
  serial := .inl hs.serial
  record := hs.kernel.event.serial hs.serial
  packet := hs.kernel.event.process hs.process
  timeout := hs.kernel.event.timeout hs.process
  round := by simp [Sys.servesPacket, hs.process]

theorem frame (hi : Turns s) (hserial : s'.serial = s.serial) (hpc : s'.atProcess = s.atProcess)
    (he : s'.e = s.e) (hrec : rx1RecEvent ∈ s'.rx1Event → rx1RecEvent ∈ s.rx1Event)
    (hpacket : rx1ProcessEvent ∈ s'.rx1Event → rx1ProcessEvent ∈ s.rx1Event)
    (htimeout : atTimeoutEvent ∈ s'.rx1Event → atTimeoutEvent ∈ s.rx1Event) : Turns s' := by
  obtain ⟨h1, h2, h3, h4, h5⟩ := hi
  refine ⟨by rwa [hserial, hpc], h2 ∘ hrec, h3 ∘ hpacket, h4 ∘ htimeout, ?_⟩
  simpa only [Sys.servesPacket, hpc, he] using h5

/-- `at_process` serving a packet: `serial` is done with it. -/
theorem processStep (hi : Turns s) (hpc : s.atProcess ≠ .suspended)
    (hserial : s'.serial = s.serial) (hround : s'.servesPacket)
    (hrec : rx1RecEvent ∈ s'.rx1Event → rx1RecEvent ∈ s.rx1Event)
    (hpacket : rx1ProcessEvent ∈ s'.rx1Event → rx1ProcessEvent ∈ s.rx1Event)
    (htimeout : atTimeoutEvent ∈ s'.rx1Event → atTimeoutEvent ∈ s.rx1Event) : Turns s' := by
  obtain ⟨h1, h2, h3, h4, _⟩ := hi
  refine ⟨?_, h2 ∘ hrec, h3 ∘ hpacket, h4 ∘ htimeout, hround⟩
  rw [hserial]
  rcases h1 with h | h | h | h
  · exact .inl h
  · exact .inr (.inl h)
  · exact .inr (.inr (.inl h))
  · exact absurd h hpc

theorem trans (hi : Turns s) (hg : onePacketAtATime h s a) (ht : Trans s a s') : Turns s' := by
  have hround := hi.round
  have hserial := hi.serial
  cases ht
  case idleWake _ => exact ⟨.inr (.inr (.inr hg.2)), hi.record, hi.packet, hi.timeout, hround⟩
  case idlePost hne => exact absurd hg.1 hne
  case expireWake _ h1 _ | expirePost _ h1 _ => exact absurd h1 hg
  case serialRecv _ hb => exact absurd hb hi.record
  case serialWait | serialEcho =>
    exact ⟨by simp, hi.record, hi.packet, hi.timeout, hround⟩
  case serialUnread hpc _ | serialDrained hpc _ | serialCopy hpc | serialAdvance hpc |
      serialFull hpc _ | serialMore hpc _ | serialRecord hpc =>
    have hsus : s.atProcess = .suspended := by simpa [hpc] using hserial
    exact ⟨.inr (.inr (.inr hsus)), hi.record, hi.packet, hi.timeout, hround⟩
  case announceWake =>
    exact ⟨.inr (.inl rfl), hi.record, hi.packet, hi.timeout, by simp [Sys.servesPacket]⟩
  case announcePost hpc hne => exact absurd (by simpa [hpc] using hserial) hne
  case processRecv _ hb => exact absurd hb (by simp [hi.packet, hi.timeout])
  case processWait =>
    exact ⟨by simp, hi.record, hi.packet, hi.timeout, by simp [Sys.servesPacket]⟩
  case dispatchPacket hpc _ | recWait hpc | searchFound hpc _ | searchAbsent hpc _ |
      searchNext hpc _ | disarm hpc | select hpc | printByte hpc _ | printClear hpc _ |
      printKeep hpc _ | clearByte hpc _ | clearDone hpc _ | ackWake hpc _ | ackPost hpc _ =>
    exact hi.processStep (by simp [hpc]) rfl (by simp [Sys.servesPacket]) (by simp) (by simp)
      (by simp)
  all_goals
    first
      | exact hi.frame rfl rfl rfl (by simp) (by simp) (by simp)
      | simp_all [Sys.servesPacket]

end Turns

/-- What `serial` publishes are the packets: while it copies, the one under way is what the
interrupt has cut off the bytes `u` unread before it. -/
structure Cutting (h : History Sys Action) (s : Sys) : Prop where
  rest : ¬ s.copying → s.serial ≠ .announce → published h = packets h
  filling : s.copying → announced h = received h ∧ ∃ u, published h ++ [u.take usart1ProSize] =
    packets h ∧ (published h).flatten ++ u = received h
  full : s.serial = .record → s.processP = usart1ProSize ∨ consumed h = (received h).length
  announce : s.serial = .announce → published h ++ [s.packet] = packets h

namespace Cutting

theorem start (hs : AwaitsReply c s) : Cutting [] s := by
  constructor <;> simp [published, packets, cut, Sys.copying, hs.serial]

/-- A step that leaves `serial` where it is. -/
theorem frame (hu : Cutting h s) (hr : received h' = received h) (ha : announced h' = announced h)
    (hc : consumed h' = consumed h) (hpub : published h' = published h)
    (hpackets : packets h' = packets h) (hserial : s'.serial = s.serial)
    (hp : s'.processP = s.processP) (hpacket : s.serial = .announce → s'.packet = s.packet) :
    Cutting h' s' := by
  obtain ⟨h1, h2, h3, h4⟩ := hu
  constructor <;> simp only [Sys.copying, hserial, hp, hr, ha, hc, hpub, hpackets]
  · exact h1
  · exact h2
  · exact h3
  · intro hpc
    rw [hpacket hpc]
    exact h4 hpc

/-- A statement of the copy loop. -/
theorem loopStep (hu : Cutting h s) (hpc : s.copying) (hpc' : s'.copying)
    (hfull : s'.serial = .record →
      s'.processP = usart1ProSize ∨ consumed ((s, .run .serial) :: h) = (received h).length) :
    Cutting ((s, .run .serial) :: h) s' := by
  have hann : s.serial ≠ .announce := by
    intro he
    simp [Sys.copying, he] at hpc
  have hpub : published ((s, .run .serial) :: h) = published h := by simp [hann]
  refine ⟨fun hn => absurd hpc' hn, fun _ => ?_, hfull, ?_⟩
  · rw [hpub, announced_run, received_run, packets_run]
    exact hu.filling hpc
  · intro he
    simp [Sys.copying, he] at hpc'

/-- The packet recorded is the one the interrupt has cut. -/
theorem front_eq (hu : Cutting h s) (hv : Activation h s) (hx : CopyIndex s)
    (hpc : s.serial = .record) :
    published h ++ [s.processBuff.front s.processP] = packets h := by
  obtain ⟨_, u, hpackets, hstream⟩ := hu.filling (by simp [Sys.copying, hpc])
  have hfifo : (published h).flatten ++ s.processBuff.front s.processP =
      ((published h).flatten ++ u).take (consumed h) := by
    simpa [Sys.inHand, Sys.copied, hpc, hstream] using hv.fifo
  have hlen : (s.processBuff.front s.processP).length = s.processP := Buffer.length_front _ hx.fits
  have hprefix : s.processBuff.front s.processP <+: u := by
    have hp : (published h).flatten ++ s.processBuff.front s.processP <+:
        (published h).flatten ++ u := hfifo ▸ List.take_prefix _ _
    exact (List.prefix_append_right_inj _).mp hp
  have hfront : s.processBuff.front s.processP = u.take usart1ProSize := by
    rcases hu.full hpc with hfull | hall
    · rw [List.prefix_iff_eq_take.mp hprefix, hlen, hfull]
    · rw [hall, ← hstream, List.take_length] at hfifo
      have hu' : s.processBuff.front s.processP = u := List.append_cancel_left hfifo
      have hle : u.length ≤ usart1ProSize := by rw [← hu', hlen]; exact hx.fits
      rw [hu', List.take_of_length_le hle]
  rw [hfront, hpackets]

theorem trans (hi : Turns s) (hx : CopyIndex s) (hp : Positions h s) (hv : Activation h s)
    (hu : Cutting h s) (hg : onePacketAtATime h s a) (ht : Trans s a s') :
    Cutting ((s, a) :: h) s' := by
  cases ht
  case receive b =>
    have hpc : s.serial = .suspended := hg.2.1
    have hrest := hu.rest (by simp [Sys.copying, hpc]) (by simp [hpc])
    refine ⟨fun _ _ => by simpa using hrest, ?_, ?_, ?_⟩ <;> simp [Sys.copying, hpc]
  case idleWake hpc =>
    have hrest := hu.rest (by simp [Sys.copying, hpc]) (by simp [hpc])
    refine ⟨by simp [Sys.copying], fun _ => ⟨by simp, (cut h).2, ?_, ?_⟩, by simp, by simp⟩
    · simp [hrest, packets, cut]
    · simpa [hrest] using flatten_packets_append
  case idlePost hne => exact absurd hg.1 hne
  case serialRecv _ hb => exact absurd hb hi.record
  case serialUnread hpc _ | serialCopy hpc | serialAdvance hpc | serialMore hpc _ =>
    exact hu.loopStep (by simp [Sys.copying, hpc]) (by simp [Sys.copying]) (by simp)
  case serialDrained hpc hempty =>
    have hann := (hu.filling (by simp [Sys.copying, hpc])).1
    refine hu.loopStep (by simp [Sys.copying, hpc]) (by simp [Sys.copying]) (fun _ => .inr ?_)
    simp [hpc, ← hann, hp.front_eq_rear_iff.mp hempty]
  case serialFull hpc hfull =>
    exact hu.loopStep (by simp [Sys.copying, hpc]) (by simp [Sys.copying]) (fun _ => .inl hfull)
  case serialRecord hpc =>
    have hfront := hu.front_eq hv hx hpc
    refine ⟨by simp, by simp [Sys.copying], by simp, fun _ => ?_⟩
    simpa [hpc, Sys.packet] using hfront
  case announceWake hpc _ | announcePost hpc _ =>
    have hpub := hu.announce hpc
    refine ⟨fun _ _ => by simpa [hpc] using hpub, ?_, ?_, ?_⟩ <;> simp [Sys.copying]
  case serialWait hpc _ | serialEcho hpc =>
    have hrest := hu.rest (by simp [Sys.copying, hpc]) (by simp [hpc])
    refine ⟨fun _ _ => by simpa [hpc] using hrest, ?_, ?_, ?_⟩ <;> simp [Sys.copying]
  case clearByte k hpc _ =>
    have hserial := hi.serial
    refine hu.frame rfl rfl (by simp) (by simp) rfl rfl rfl ?_
    intro hann
    simp [hpc, hann] at hserial
  all_goals
    exact hu.frame rfl rfl (by simp [*]) (by simp [*]) rfl rfl rfl (fun _ => rfl)

end Cutting

/-- At `dispatch` and `recWait` a packet waits for its examination. -/
def Sys.held (s : Sys) : List (List UInt8) :=
  match s.atProcess with
  | .dispatch | .recWait => [s.packet]
  | _ => []

/-- What the examinations have decided while no acknowledgement is posted. -/
structure Undecided (c : TeATCmdNum) (h : History Sys Action) (s : Sys) : Prop where
  current : s.atRecCmdNum = c
  shell : s.shell = .suspended ∨ s.shell = .prompt
  rejected : s.atProcess = .suspended ∨ s.atProcess = .recv ∨ s.atProcess = .dispatch ∨
    s.atProcess = .recWait → ¬ matchesIn c (examined h)
  searching : ∀ d i j, s.atProcess = .search d i j → d = c ∧
    Scanned s.memory (atCmds c).atRecStr i j ∧ ∃ l p, ¬ matchesIn c l ∧ examined h = l ++ [p] ∧
      ((atCmds c).atRecStr <:+: cstr s.memory ↔ (atCmds c).atRecStr <:+: p)
  matched : s.afterMatch → matchesIn c (examined h)

/-- The packets published are examined in turn, and an acknowledgement is posted for the
first one that contains the keyword. -/
structure Examination (c : TeATCmdNum) (h : History Sys Action) (s : Sys) : Prop where
  log : published h = examined h ++ s.held
  undecided : ¬ acked h → Undecided c h s
  decided : acked h → matchesIn c (examined h)

theorem matchesIn_append {l l' : List (List UInt8)} :
    matchesIn c (l ++ l') ↔ matchesIn c l ∨ matchesIn c l' := by
  simp [matchesIn, or_and_right, exists_or]

theorem matchesIn_singleton {p : List UInt8} :
    matchesIn c [p] ↔ (atCmds c).atRecStr <:+: p := by
  simp [matchesIn]

/-- Putting packets together loses no keyword. -/
theorem Coarser.matchesIn {l₁ l₂ : List (List UInt8)} (hc : Coarser l₁ l₂)
    (hm : NanoAt.matchesIn c l₂) : NanoAt.matchesIn c l₁ := by
  obtain ⟨groups, rfl, hprefix⟩ := hc
  obtain ⟨p, hp, hocc⟩ := hm
  obtain ⟨g, hg, hpg⟩ := List.mem_flatten.mp hp
  exact ⟨g.flatten, hprefix.subset (List.mem_map_of_mem hg),
    hocc.trans (List.infix_of_mem_flatten hpg)⟩

namespace Examination

theorem start (hs : AwaitsReply c s) : Examination c [] s := by
  refine ⟨by simp [published, examined, Sys.held, hs.process], ?_, by simp [acked]⟩
  intro _
  exact ⟨hs.current, hs.shell, fun _ => by simp [matchesIn, examined], by simp [hs.process],
    by simp [Sys.afterMatch, hs.process]⟩

/-- A step of the interrupts, of `serial` before the packet is announced, or of the other
threads. -/
theorem frame (hx : Examination c h s) (hpub : published h' = published h)
    (hexam : examined h' = examined h) (hacked : acked h' ↔ acked h)
    (hpc : s'.atProcess = s.atProcess)
    (hpacket : s.atProcess ≠ .suspended → s'.packet = s.packet)
    (hmemory : s.atProcess ≠ .suspended → s'.memory = s.memory)
    (hrec : s.shell = .suspended ∨ s.shell = .prompt → s'.atRecCmdNum = s.atRecCmdNum ∧
      (s'.shell = .suspended ∨ s'.shell = .prompt)) : Examination c h' s' := by
  refine ⟨?_, ?_, ?_⟩
  · have hheld : s'.held = s.held := by
      unfold Sys.held
      rw [hpc]
      split
      case h_1 hd | h_2 hd => rw [hpacket (by simp [hd])]
      · rfl
    rw [hpub, hexam, hheld, hx.log]
  · intro hn
    obtain ⟨h1, h2, h3, h4, h5⟩ := hx.undecided (hn ∘ hacked.mpr)
    obtain ⟨hrec, hshell⟩ := hrec h2
    refine ⟨hrec.trans h1, hshell, ?_, ?_, ?_⟩
    · rw [hpc, hexam]; exact h3
    · intro d i j hd
      rw [hpc] at hd
      rw [hexam, hmemory (by simp [hd])]
      exact h4 d i j hd
    · rw [Sys.afterMatch, hpc, hexam]; exact h5
  · intro ha
    rw [hexam]; exact hx.decided (hacked.mp ha)

/-- A step of `at_process` that examines no packet. -/
theorem processStep (hx : Examination c h s) (hpc : s.atProcess ≠ .recWait)
    (hack : s.atProcess ≠ .ack) (hheld : s'.held = s.held)
    (hundecided : Undecided c h s → Undecided c h s') :
    Examination c ((s, .run .atProcess) :: h) s' := by
  have hexam : examined ((s, .run .atProcess) :: h) = examined h := by simp [hpc]
  have hacked : acked ((s, .run .atProcess) :: h) ↔ acked h := by simp [hack]
  refine ⟨?_, ?_, ?_⟩
  · rw [hexam, hheld, ← hx.log]; simp
  · intro hn
    obtain ⟨h1, h2, h3, h4, h5⟩ := hundecided (hx.undecided (hn ∘ hacked.mpr))
    exact ⟨h1, h2, by rwa [hexam], by rwa [hexam], by rwa [hexam]⟩
  · intro ha
    rw [hexam]; exact hx.decided (hacked.mp ha)

/-- The search that begins answers for the packet. -/
theorem verdict (hx : Examination c h s) (hpc : s.atProcess = .recWait)
    (hfits : s.processBuffP ≤ usart1ProSize) (hsilent : s.leftoverSilent)
    (hzero : ∀ p ∈ published h, (0 : UInt8) ∉ p) :
    s.keyword <:+: cstr s.memory ↔ s.keyword <:+: s.packet := by
  have hmem : s.packet ∈ published h := by
    rw [hx.log]
    simp [Sys.held, hpc]
  refine (s.verdict_iff hfits).mpr ?_
  rw [Sys.tellsPacket, if_neg (hzero _ hmem)]
  exact hsilent

/-- `Rec_WaitAT` takes up the packet. -/
theorem examine (hx : Examination c h s) (hpc : s.atProcess = .recWait)
    (hverdict : s.keyword <:+: cstr s.memory ↔ s.keyword <:+: s.packet) :
    Examination c ((s, .run .atProcess) :: h)
      { s with atProcess := .search s.atRecCmdNum 0 0, rtCurrentThread := .atProcess } := by
  have hlog := hx.log
  simp only [Sys.held, hpc] at hlog
  refine ⟨by simp [hpc, hlog, Sys.held], ?_, ?_⟩
  · intro hn
    obtain ⟨h1, h2, h3, _, _⟩ := hx.undecided (by simpa [hpc] using hn)
    refine ⟨h1, h2, by simp, ?_, by simp [Sys.afterMatch]⟩
    intro d i j hd
    obtain ⟨rfl, rfl, rfl⟩ : s.atRecCmdNum = d ∧ 0 = i ∧ 0 = j := by simpa using hd
    refine ⟨h1, scanned_start, examined h, s.packet, h3 (by simp [hpc]), by simp [hpc], ?_⟩
    rw [← h1]
    exact hverdict
  · intro ha
    rw [examined_cons, matchesIn_append]
    exact .inl (hx.decided (by simpa [hpc] using ha))

theorem trans (hi : Turns s) (hfits : s.processBuffP ≤ usart1ProSize) (hx : Examination c h s)
    (hzero : ∀ p ∈ published h, (0 : UInt8) ∉ p) (hg : onePacketAtATime h s a)
    (ht : Trans s a s') : Examination c ((s, a) :: h) s' := by
  have hround := hi.round
  cases ht
  case comtest => exact absurd hg id
  case expireWake _ h1 _ | expirePost _ h1 _ => exact absurd h1 hg
  case serialCopy hpc | serialRecord hpc =>
    have hsus : s.atProcess = .suspended := by simpa [hpc] using hi.serial
    exact hx.frame (by simp [hpc]) (by simp) (by simp) rfl (absurd hsus) (absurd hsus)
      (fun h => ⟨rfl, h⟩)
  case announceWake hpc hsus =>
    have hlog := hx.log
    simp only [Sys.held, hsus, List.append_nil] at hlog
    refine ⟨by simp [hpc, hlog, Sys.held, Sys.packet], ?_, by simpa using hx.decided⟩
    intro hn
    obtain ⟨h1, h2, h3, _, _⟩ := hx.undecided (by simpa using hn)
    exact ⟨h1, h2, fun _ => by simpa using h3 (.inl hsus), by simp, by simp [Sys.afterMatch]⟩
  case announcePost hpc hne => exact absurd (by simpa [hpc] using hi.serial) hne
  case processRecv _ hb => exact absurd hb (by simp [hi.packet, hi.timeout])
  case processWait hpc _ _ | dispatchPacket hpc _ =>
    refine hx.processStep (by simp [hpc]) (by simp [hpc]) (by simp [Sys.held, Sys.packet, hpc])
      ?_
    intro hu
    exact ⟨hu.current, hu.shell, fun _ => hu.rejected (by simp [hpc]), by simp,
      by simp [Sys.afterMatch]⟩
  case recWait hpc => exact hx.examine hpc (hx.verdict hpc hfits (hg hpc) hzero)
  case searchFound d i j hpc hfound =>
    refine hx.processStep (by simp [hpc]) (by simp [hpc]) (by simp [Sys.held, hpc]) ?_
    intro hu
    refine ⟨hu.current, hu.shell, by simp, by simp, ?_⟩
    intro _
    obtain ⟨rfl, hscan, l, p, _, hlast, hiff⟩ := hu.searching d i j hpc
    rw [hlast, matchesIn_append, matchesIn_singleton]
    exact .inr (hiff.mp (hscan.found (atRecStr_valid _).2 hfound))
  case searchAbsent d i j hpc habsent =>
    refine hx.processStep (by simp [hpc]) (by simp [hpc]) (by simp [Sys.held, hpc]) ?_
    intro hu
    refine ⟨hu.current, hu.shell, ?_, by simp, by simp [Sys.afterMatch]⟩
    intro _
    obtain ⟨rfl, hscan, l, p, hl, hlast, hiff⟩ := hu.searching d i j hpc
    rw [hlast, matchesIn_append, matchesIn_singleton, ← hiff]
    exact not_or.mpr ⟨hl, hscan.not_infix (atRecStr_valid _).2 habsent⟩
  case searchNext d i j i' j' hpc hnext =>
    refine hx.processStep (by simp [hpc]) (by simp [hpc]) (by simp [Sys.held, hpc]) ?_
    intro hu
    refine ⟨hu.current, hu.shell, by simp, ?_, by simp [Sys.afterMatch]⟩
    intro d₁ i₁ j₁ hd
    obtain ⟨rfl, rfl, rfl⟩ : d = d₁ ∧ i' = i₁ ∧ j' = j₁ := by simpa using hd
    obtain ⟨rfl, hscan, hlast⟩ := hu.searching d i j hpc
    exact ⟨rfl, hscan.probe hnext, hlast⟩
  case disarm hpc | select hpc | printByte hpc _ | printClear hpc _ | printKeep hpc _ |
      clearByte hpc _ | clearDone hpc _ =>
    refine hx.processStep (by simp [hpc]) (by simp [hpc]) (by simp [Sys.held, hpc]) ?_
    intro hu
    exact ⟨hu.current, hu.shell, by simp, by simp,
      fun _ => hu.matched (by simp [Sys.afterMatch, hpc])⟩
  case ackWake hpc _ | ackPost hpc _ =>
    refine ⟨by simpa [hpc, Sys.held] using hx.log, fun hn => absurd hn (by simp [hpc]), ?_⟩
    intro _
    have hmatched : matchesIn c (examined h) := by
      by_cases ha : acked h
      · exact hx.decided ha
      · exact (hx.undecided ha).matched (by simp [Sys.afterMatch, hpc])
    simpa [hpc] using hmatched
  all_goals
    first
      | exact hx.frame (by simp [*]) (by simp) (by simp) rfl (fun _ => rfl) (fun _ => rfl)
          (by simp [*])
      | simp_all [Sys.servesPacket]

end Examination

theorem zero_notMem_received (hg : onePacketAtATime h s a) (hzero : (0 : UInt8) ∉ received h) :
    (0 : UInt8) ∉ received ((s, a) :: h) := by
  cases a with
  | receive b =>
    have hb : b ≠ 0 := hg.1
    simp [hzero, hb.symm]
  | _ => exact hzero

/-- The published packets, one after the other, are the beginning of the stream. -/
theorem Activation.flatten_isPrefix (hv : Activation h s) :
    (published h).flatten <+: received h :=
  (List.prefix_append _ _).trans (hv.fifo ▸ List.take_prefix _ _)

end Invariants

/-- A run from the call of `ATSend(c)` to a state in which the reply is fully processed. -/
structure ReplyRun (c : TeATCmdNum) (h : History Sys Action) (s : Sys) : Prop where
  run : Run step onePacketAtATime (AwaitsReply c) h s
  serial : s.serial = .suspended
  process : s.atProcess = .suspended

section ReplyRuns

variable {c : TeATCmdNum} {h : History Sys Action} {s : Sys}

theorem AwaitsReply.queueStart (hs : AwaitsReply c s) : QueueStart s :=
  ⟨hs.kernel, .inl hs.serial, hs.processP, hs.queue⟩

theorem onePacketAtATime.withinCapacity {a : Action} (hg : onePacketAtATime h s a) :
    NanoAt.withinCapacity h s a := by
  cases a with
  | receive b => exact hg.2.2.2
  | _ => exact True.intro

theorem Run.zero_notMem_published (hr : Run step onePacketAtATime (AwaitsReply c) h s)
    {p : List UInt8} (hp : p ∈ published h) : (0 : UInt8) ∉ p := by
  have hzero : (0 : UInt8) ∉ received h :=
    hr.invariant (P := fun h _ => (0 : UInt8) ∉ received h) (by simp [received])
      (fun _ _ _ _ _ hz hg _ => zero_notMem_received hg hz)
  obtain ⟨_, _, hv, _⟩ :=
    Run.queueInv (fun _ hs => hs.queueStart) (fun _ _ _ hg => hg.withinCapacity) hr
  have hocc := (List.infix_of_mem_flatten hp).trans hv.flatten_isPrefix.isInfix
  exact fun h0 => hzero (hocc.subset h0)

theorem Run.examination (hr : Run step onePacketAtATime (AwaitsReply c) h s) :
    Turns s ∧ Cutting h s ∧ Examination c h s := by
  induction hr with
  | start hs => exact ⟨.start hs, .start hs, .start hs⟩
  | step hr hg hs ih =>
    obtain ⟨hi, hu, hx⟩ := ih
    have hm := (Run.kernelInv (fun _ hs => hs.kernel) hr).moves hs
    have hfits := Run.packet_le (fun _ hs => ⟨hs.queueStart, hs.processBuffP⟩) hr
    obtain ⟨hindex, hp, hv, _⟩ :=
      Run.queueInv (fun _ hs => hs.queueStart) (fun _ _ _ hg => hg.withinCapacity) hr
    exact ⟨hi.trans hg hm.trans, hu.trans hi hindex hp hv hg hm.trans,
      hx.trans hi hfits (fun _ hp => Run.zero_notMem_published hr hp) hg hm.trans⟩

/-- What is published are the packets. -/
theorem ReplyRun.published_eq (hr : ReplyRun c h s) : published h = packets h :=
  (Run.examination hr.run).2.1.rest (by simp [Sys.copying, hr.serial]) (by simp [hr.serial])

theorem ReplyRun.acked_iff (hr : ReplyRun c h s) : acked h ↔ matchesIn c (packets h) := by
  obtain ⟨_, _, hx⟩ := Run.examination hr.run
  have hlog : published h = examined h := by simpa [Sys.held, hr.process] using hx.log
  rw [← hr.published_eq, hlog]
  refine ⟨hx.decided, ?_⟩
  intro hmatch
  by_contra hn
  exact (hx.undecided hn).rejected (.inl hr.process) hmatch

end ReplyRuns

/-- The acknowledgement of a reply is posted exactly when the keyword lies within one of
the packets into which the IDLE interrupts and the limit of 196 bytes cut the stream. So two
placements of the interrupts in one stream lead to the same outcome exactly if their packets
agree on the keyword, and fewer cuts acknowledge whatever more cuts do. -/
theorem acknowledged_iff_packet_contains_keyword {c : TeATCmdNum} {h₁ h₂ : History Sys Action}
    {s₁ s₂ : Sys} (hr₁ : ReplyRun c h₁ s₁) (hr₂ : ReplyRun c h₂ s₂)
    (hstream : received h₁ = received h₂) :
    (acked h₁ ↔ matchesIn c (packets h₁)) ∧ published h₁ = packets h₁ ∧
      (packets h₁).flatten <+: received h₁ ∧ (∀ p ∈ packets h₁, p.length ≤ 196) ∧
      ((acked h₁ ↔ acked h₂) ↔ (matchesIn c (packets h₁) ↔ matchesIn c (packets h₂))) ∧
      (Coarser (packets h₁) (packets h₂) → acked h₂ → acked h₁) ∧
      (acked h₁ ∨ acked h₂ → (atCmds c).atRecStr <:+: received h₁) := by
  have h₁iff := hr₁.acked_iff
  have h₂iff := hr₂.acked_iff
  have hstream_of : ∀ {h : History Sys Action}, matchesIn c (packets h) →
      (atCmds c).atRecStr <:+: received h := by
    intro h hm
    obtain ⟨p, hp, hocc⟩ := hm
    rw [← flatten_packets_append]
    exact (hocc.trans (List.infix_of_mem_flatten hp)).trans (List.prefix_append _ _).isInfix
  refine ⟨h₁iff, hr₁.published_eq, ?_, fun p hp => length_le_of_mem_packets hp, ?_, ?_, ?_⟩
  · rw [← flatten_packets_append]
    exact List.prefix_append _ _
  · rw [h₁iff, h₂iff]
  · rw [h₁iff, h₂iff]
    exact Coarser.matchesIn
  · rw [h₁iff, h₂iff]
    rintro (hm | hm)
    · exact hstream_of hm
    · exact hstream ▸ hstream_of hm

/-- AT_ROLE has been transmitted and all threads wait. -/
def Sys.waiting : Sys :=
  { Sys.init zeroRam with
    serial := .suspended, atProcess := .suspended, atSendThread := .suspended
    shell := .suspended, atTimeoutCnt := 500, timer2 := true }

theorem Sys.waiting_awaitsReply : AwaitsReply .atRole Sys.waiting := by
  refine ⟨⟨?_, .inl ⟨rfl, ?_⟩⟩, rfl, rfl, Nat.zero_le _,
    (@Queue.init zeroRam).frame rfl rfl rfl rfl, rfl, rfl, .inl rfl⟩
  · intro t _
    simp [Sys.waiting, Sys.init]
  · intro t
    cases t <;> simp [Sys.critical, Sys.waiting]

/-- A computed reply whose outcome passes a test. -/
theorem ReplyRun.exists_of_exec (as : List Action) (test : History Sys Action → Bool)
    (he : (exec step onePacketAtATime as [] Sys.waiting).any
      (fun r => r.2.serial = .suspended && r.2.atProcess = .suspended && test r.1) = true) :
    ∃ h s, ReplyRun .atRole h s ∧ test h = true := by
  obtain ⟨h, s, hr, ht⟩ := exists_run_of_exec Sys.waiting_awaitsReply as
    (fun h s => s.serial = .suspended && s.atProcess = .suspended && test h) he
  obtain ⟨⟨hserial, hprocess⟩, ht⟩ : (s.serial = .suspended ∧ s.atProcess = .suspended) ∧
      test h = true := by simpa using ht
  exact ⟨h, s, ⟨hr, hserial, hprocess⟩, ht⟩

/-- The second packet is shorter than the first one, which is rejected; the same stream with
one interrupt is acknowledged because the one with two is. -/
theorem acknowledged_iff_packet_contains_keyword_coarser :
    ∃ h₁ s₁ h₂ s₂, ReplyRun .atRole h₁ s₁ ∧ ReplyRun .atRole h₂ s₂ ∧
      packets h₁ = [ascii "AT+ROLE OKROLE:1"] ∧
      packets h₂ = [ascii "AT+ROLE OK", ascii "ROLE:1"] ∧ acked h₁ ∧ acked h₂ := by
  obtain ⟨h₁, s₁, hr₁, ht₁⟩ := ReplyRun.exists_of_exec
    (packetIn (ascii "AT+ROLE OKROLE:1") ++ runs .atProcess 240)
    (fun h => received h = ascii "AT+ROLE OKROLE:1" && packets h = [ascii "AT+ROLE OKROLE:1"])
    (by decide +kernel)
  obtain ⟨h₂, s₂, hr₂, ht₂⟩ := ReplyRun.exists_of_exec
    (packetIn (ascii "AT+ROLE OK") ++ runs .atProcess 18 ++ packetIn (ascii "ROLE:1") ++
      runs .atProcess 220)
    (fun h => received h = ascii "AT+ROLE OKROLE:1" &&
      packets h = [ascii "AT+ROLE OK", ascii "ROLE:1"]) (by decide +kernel)
  have ht₁ : received h₁ = ascii "AT+ROLE OKROLE:1" ∧ packets h₁ = [ascii "AT+ROLE OKROLE:1"] := by
    simpa using ht₁
  have ht₂ : received h₂ = ascii "AT+ROLE OKROLE:1" ∧
      packets h₂ = [ascii "AT+ROLE OK", ascii "ROLE:1"] := by simpa using ht₂
  have hstream : received h₁ = received h₂ := by rw [ht₁.1, ht₂.1]
  have hlaw := acknowledged_iff_packet_contains_keyword hr₁ hr₂ hstream
  have hack₂ : acked h₂ := by
    refine (acknowledged_iff_packet_contains_keyword hr₂ hr₁ hstream.symm).1.mpr ?_
    rw [ht₂.2]
    unfold matchesIn
    decide
  have hcoarser : Coarser (packets h₁) (packets h₂) := by
    rw [ht₁.2, ht₂.2]
    exact ⟨[[ascii "AT+ROLE OK", ascii "ROLE:1"]], rfl, by decide⟩
  exact ⟨h₁, s₁, h₂, s₂, hr₁, hr₂, ht₁.2, ht₂.2, hlaw.2.2.2.2.2.1 hcoarser hack₂, hack₂⟩

/-- The stream "ROLE:" in one packet is acknowledged; cut behind "RO" it is not. -/
theorem cut_keyword_not_acknowledged :
    ¬ ∀ c h₁ s₁ h₂ s₂, ReplyRun c h₁ s₁ → ReplyRun c h₂ s₂ → received h₁ = received h₂ →
      (acked h₁ ↔ acked h₂) := by
  intro hall
  obtain ⟨h₁, s₁, hr₁, ht₁⟩ := ReplyRun.exists_of_exec
    (packetIn (ascii "ROLE:") ++ runs .atProcess 215)
    (fun h => received h = ascii "ROLE:" && acked h) (by decide +kernel)
  obtain ⟨h₂, s₂, hr₂, ht₂⟩ := ReplyRun.exists_of_exec
    (packetIn (ascii "RO") ++ runs .atProcess 8 ++ packetIn (ascii "LE:") ++ runs .atProcess 7)
    (fun h => received h = ascii "ROLE:" && !acked h) (by decide +kernel)
  have ht₁ : received h₁ = ascii "ROLE:" ∧ acked h₁ := by simpa using ht₁
  have ht₂ : received h₂ = ascii "ROLE:" ∧ ¬ acked h₂ := by simpa using ht₂
  have hiff := hall _ _ _ _ _ hr₁ hr₂ (by rw [ht₁.1, ht₂.1])
  exact ht₂.2 (hiff.mp ht₁.2)

end NanoAt
