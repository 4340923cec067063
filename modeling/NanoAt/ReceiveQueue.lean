import NanoAt.Lib.Ring
import NanoAt.Observations

/-!
# The receive queue

Behind the wrapped indices stands a list of unread bytes, of which an IDLE interrupt has
announced the first ones: `Queue` relates the two, with a lemma for each operation.
`Positions` says which bytes of the received stream these are, `Activation` which ones the
present activation of `serial` has copied.

## Main definitions

- `Queue` — the unread bytes behind the indices
- `Positions`, `Activation`, `CopyCount` — the invariants of a run
- `withinCapacity` — the DMA does not overtake `serial`
- `breaksDrained` — no full-buffer break leaves announced bytes behind
-/

namespace NanoAt
open CString GuardedRun Rx1Event

/-- The DMA is never more than 511 bytes ahead of `UsartDMARec_q_rear`. -/
def withinCapacity (h : History Sys Action) (_ : Sys) (a : Action) : Prop :=
  match a with
  | .receive _ => (received h).length < consumed h + 511
  | _ => True

instance (h : History Sys Action) (s : Sys) (a : Action) : Decidable (withinCapacity h s a) := by
  unfold withinCapacity
  cases a <;> infer_instance

/-- The bytes copied and not yet published. -/
def Sys.inHand (s : Sys) : List UInt8 :=
  if s.serial = .announce then s.packet else s.processBuff.front s.processP

/-- How many bytes have been copied: one more than consumed between the copy and the
move of rear. -/
def Sys.copied (s : Sys) (consumed : ℕ) : ℕ :=
  if s.serial = .advance then consumed + 1 else consumed

/-- The copy loop is being executed or has just been left. -/
def Sys.copying (s : Sys) : Prop :=
  s.serial = .loop ∨ s.serial = .copy ∨ s.serial = .advance ∨ s.serial = .full ∨ s.serial = .record

/-- The index of the copy loop stays inside `process_buff`. -/
structure CopyIndex (s : Sys) : Prop where
  fits : s.processP ≤ usart1ProSize
  room : s.serial = .loop ∨ s.serial = .copy → s.processP < usart1ProSize
  idle : ¬ s.copying → s.processP = 0

section Invariants

variable {h h' : History Sys Action} {s s' : Sys} {a : Action}

namespace CopyIndex

theorem init {behind : Ram} : CopyIndex (Sys.init behind) := by
  constructor <;> simp [Sys.init]

theorem trans (hx : CopyIndex s) (ht : Trans s a s') : CopyIndex s' := by
  obtain ⟨hfits, hroom, hidle⟩ := hx
  cases ht
  case idleWake hpc | serialRecv hpc _ =>
    have h0 := hidle (by simp [Sys.copying, hpc])
    exact ⟨hfits, fun _ => by simp [h0], by simp [Sys.copying]⟩
  case serialUnread hpc _ => exact ⟨hfits, fun _ => hroom (.inl hpc), by simp [Sys.copying]⟩
  case serialCopy hpc => exact ⟨hroom (.inr hpc), by simp, by simp [Sys.copying]⟩
  case serialMore hpc hmore =>
    exact ⟨hfits, fun _ => lt_of_le_of_ne hfits hmore, by simp [Sys.copying]⟩
  case serialDrained | serialAdvance | serialFull =>
    exact ⟨hfits, by simp, by simp [Sys.copying]⟩
  case serialRecord => exact ⟨by simp, by simp, by simp⟩
  case serialWait hpc _ | announceWake hpc _ | announcePost hpc _ | serialEcho hpc =>
    exact ⟨hfits, by simp, fun _ => hidle (by simp [Sys.copying, hpc])⟩
  all_goals exact ⟨hfits, hroom, hidle⟩

/-- The length of a packet that is recorded is an index of the copy loop. -/
theorem packet_le (hx : CopyIndex s) (hp : s.processBuffP ≤ usart1ProSize) (ht : Trans s a s') :
    s'.processBuffP ≤ usart1ProSize := by
  cases ht
  case serialRecord => exact hx.fits
  all_goals exact hp

end CopyIndex

/-- The unread bytes of the queue are `r`, and an IDLE interrupt has announced the first
`n` of them. -/
structure Queue (s : Sys) (r : List UInt8) (n : ℕ) : Prop where
  rear_lt : s.usartDMARecQRear < usart1DmaRecSize
  cndtr : s.cndtr = usart1DmaRecSize - (s.usartDMARecQRear + r.length) % usart1DmaRecSize
  front : s.usartDMARecQFront = (s.usartDMARecQRear + n) % usart1DmaRecSize
  announced_le : n ≤ r.length
  length_lt : r.length < usart1DmaRecSize
  holds : Ring.Holds s.dmaRecBuffer s.usartDMARecQRear r

namespace Queue

variable {r : List UInt8} {n : ℕ} {b : UInt8}

theorem init {behind : Ram} : Queue (Sys.init behind) [] 0 := by
  constructor <;> simp [Sys.init]

theorem frame (hq : Queue s r n) (hcndtr : s'.cndtr = s.cndtr)
    (hfront : s'.usartDMARecQFront = s.usartDMARecQFront)
    (hrear : s'.usartDMARecQRear = s.usartDMARecQRear)
    (hbuf : s'.dmaRecBuffer = s.dmaRecBuffer) : Queue s' r n := by
  obtain ⟨h1, h2, h3, h4, h5, h6⟩ := hq
  refine ⟨?_, ?_, ?_, h4, h5, ?_⟩
  · rwa [hrear]
  · rwa [hcndtr, hrear]
  · rwa [hfront, hrear]
  · rwa [hbuf, hrear]

/-- Front and rear are equal only when every announced byte has been read. -/
theorem front_eq_rear_iff (hq : Queue s r n) :
    s.usartDMARecQFront = s.usartDMARecQRear ↔ n = 0 := by
  have hn := hq.announced_le.trans_lt hq.length_lt
  have hrear := Nat.mod_eq_of_lt hq.rear_lt
  have hiff := Ring.mod_eq_iff (Nat.le_add_right s.usartDMARecQRear n) (Nat.add_lt_add_left hn _)
  rw [hq.front, ← hrear, Nat.mod_add_mod, hiff]
  omega

/-- The DMA stores a byte behind the unread ones. -/
theorem receive (hq : Queue s r n) (b : UInt8) (hroom : r.length + 1 < usart1DmaRecSize) :
    Queue (s.dmaReceive b) (r ++ [b]) n := by
  have hlt := Nat.mod_lt (s.usartDMARecQRear + r.length) (show 0 < usart1DmaRecSize by decide)
  have hcndtr := hq.cndtr
  have hslot : usart1DmaRecSize - s.cndtr = (s.usartDMARecQRear + r.length) % usart1DmaRecSize := by
    omega
  refine ⟨hq.rear_lt, ?_, hq.front, ?_, by simpa using hroom, ?_⟩
  · simp only [Sys.dmaReceive, List.length_append, List.length_singleton]
    simp only [usart1DmaRecSize] at hcndtr ⊢
    split_ifs <;> omega
  · have := hq.announced_le
    simp only [List.length_append, List.length_singleton]
    omega
  · simpa only [Sys.dmaReceive, hslot] using hq.holds.push hq.length_lt b

/-- An IDLE interrupt announces all unread bytes. -/
theorem idle (hq : Queue s r n) (hs : s'.usartDMARecQFront = usart1DmaRecSize - s.cndtr)
    (hcndtr : s'.cndtr = s.cndtr) (hrear : s'.usartDMARecQRear = s.usartDMARecQRear)
    (hbuf : s'.dmaRecBuffer = s.dmaRecBuffer) : Queue s' r r.length := by
  have hlt := Nat.mod_lt (s.usartDMARecQRear + r.length) (show 0 < usart1DmaRecSize by decide)
  obtain ⟨h1, h2, h3, h4, h5, h6⟩ := hq
  refine ⟨by rwa [hrear], by rwa [hcndtr, hrear], ?_, le_rfl, h5, by rwa [hbuf, hrear]⟩
  rw [hs, hrear]
  omega

/-- `serial` moves rear past the first unread byte. -/
theorem advance (hq : Queue s (b :: r) (n + 1))
    (hrear : s'.usartDMARecQRear = (s.usartDMARecQRear + 1) % usart1DmaRecSize)
    (hcndtr : s'.cndtr = s.cndtr) (hfront : s'.usartDMARecQFront = s.usartDMARecQFront)
    (hbuf : s'.dmaRecBuffer = s.dmaRecBuffer) : Queue s' r n := by
  obtain ⟨h1, h2, h3, h4, h5, h6⟩ := hq
  simp only [List.length_cons] at h2 h4 h5
  refine ⟨?_, ?_, ?_, by omega, by omega, ?_⟩
  · rw [hrear]; exact Nat.mod_lt _ (by decide)
  · rw [hcndtr, hrear, h2, Nat.mod_add_mod]
    congr 2; omega
  · rw [hfront, hrear, h3, Nat.mod_add_mod]
    congr 1; omega
  · rw [hbuf, hrear]; exact h6.tail

end Queue

/-- The queue behind the indices: the bytes received and not yet consumed, the first of
them announced. -/
structure Positions (h : History Sys Action) (s : Sys) : Prop where
  queue : Queue s ((received h).drop (consumed h)) ((announced h).length - consumed h)
  announced_prefix : announced h <+: received h
  consumed_le : consumed h ≤ (announced h).length

namespace Positions

theorem start (hq : Queue s [] 0) : Positions [] s := by
  constructor <;> simp [received, announced, hq]

theorem frame (hp : Positions h s) (hr : received h' = received h)
    (ha : announced h' = announced h) (hc : consumed h' = consumed h)
    (hcndtr : s'.cndtr = s.cndtr) (hfront : s'.usartDMARecQFront = s.usartDMARecQFront)
    (hrear : s'.usartDMARecQRear = s.usartDMARecQRear)
    (hbuf : s'.dmaRecBuffer = s.dmaRecBuffer) : Positions h' s' := by
  obtain ⟨h1, h2, h3⟩ := hp
  refine ⟨?_, ?_, ?_⟩ <;> simp only [hr, ha, hc]
  · exact h1.frame hcndtr hfront hrear hbuf
  · exact h2
  · exact h3

/-- Front and rear are equal only when every announced byte has been copied. -/
theorem front_eq_rear_iff (hp : Positions h s) :
    s.usartDMARecQFront = s.usartDMARecQRear ↔ (announced h).length = consumed h := by
  have hle := hp.consumed_le
  rw [hp.queue.front_eq_rear_iff]
  omega

theorem receive (hp : Positions h s) (b : UInt8) (hcap : (received h).length < consumed h + 511) :
    Positions ((s, .receive b) :: h) (s.dmaReceive b) := by
  have hle := hp.consumed_le.trans hp.announced_prefix.length_le
  have hcons : consumed ((s, .receive b) :: h) = consumed h := by simp
  refine ⟨?_, hp.announced_prefix.trans (List.prefix_append _ _), ?_⟩
  · rw [hcons, received_receive, announced_receive, List.drop_append_of_le_length hle]
    refine hp.queue.receive b ?_
    simp only [List.length_drop, usart1DmaRecSize]
    omega
  · rw [hcons, announced_receive]; exact hp.consumed_le

theorem idle (hp : Positions h s) (hs : s'.usartDMARecQFront = usart1DmaRecSize - s.cndtr)
    (hcndtr : s'.cndtr = s.cndtr) (hrear : s'.usartDMARecQRear = s.usartDMARecQRear)
    (hbuf : s'.dmaRecBuffer = s.dmaRecBuffer) : Positions ((s, .usart1) :: h) s' := by
  have hcons : consumed ((s, .usart1) :: h) = consumed h := by simp
  refine ⟨?_, by simp, ?_⟩
  · have hidle := hp.queue.idle hs hcndtr hrear hbuf
    rw [hcons, received_usart1, announced_usart1]
    simpa only [List.length_drop] using hidle
  · rw [hcons]
    exact hp.consumed_le.trans hp.announced_prefix.length_le

/-- The first unread byte. -/
theorem unread_eq (hlt : consumed h < (received h).length) :
    (received h).drop (consumed h) =
      (received h)[consumed h] :: (received h).drop (consumed h + 1) :=
  List.drop_eq_getElem_cons hlt

theorem advance (hp : Positions h s) (hpc : s.serial = .advance)
    (hunread : consumed h < (announced h).length)
    (hrear : s'.usartDMARecQRear = (s.usartDMARecQRear + 1) % usart1DmaRecSize)
    (hcndtr : s'.cndtr = s.cndtr) (hfront : s'.usartDMARecQFront = s.usartDMARecQFront)
    (hbuf : s'.dmaRecBuffer = s.dmaRecBuffer) :
    Positions ((s, .run .serial) :: h) s' := by
  have hcons : consumed ((s, .run .serial) :: h) = consumed h + 1 := by simp [hpc]
  have hlt := hunread.trans_le hp.announced_prefix.length_le
  have hqueue := hp.queue
  rw [unread_eq hlt, show (announced h).length - consumed h =
    (announced h).length - (consumed h + 1) + 1 by omega] at hqueue
  refine ⟨?_, by simpa using hp.announced_prefix, by rw [hcons]; exact hunread⟩
  rw [hcons, received_run, announced_run]
  exact hqueue.advance hrear hcndtr hfront hbuf

end Positions

/-- What the present activation of `serial` has copied. -/
structure Activation (h : History Sys Action) (s : Sys) : Prop where
  fifo : (published h).flatten ++ s.inHand = (received h).take (s.copied (consumed h))
  unread : s.serial = .copy ∨ s.serial = .advance → consumed h < (announced h).length

namespace Activation

theorem start (hpc : s.serial = .suspended ∨ s.serial = .recv) (hp : s.processP = 0) :
    Activation [] s := by
  constructor <;> rcases hpc with hpc | hpc <;>
    simp [Sys.inHand, Sys.copied, received, published, hpc, hp]

theorem frame (hv : Activation h s) (hr : received h' = received h)
    (ha : announced h' = announced h) (hc : consumed h' = consumed h)
    (hpub : published h' = published h) (hserial : s'.serial = s.serial)
    (hp : s'.processP = s.processP) (hbuff : s'.processBuff = s.processBuff)
    (hbuffP : s'.processBuffP = s.processBuffP) : Activation h' s' := by
  obtain ⟨h1, h2⟩ := hv
  refine ⟨?_, ?_⟩ <;>
    simp only [Sys.inHand, Sys.packet, Sys.copied, hr, ha, hc, hpub, hserial, hp, hbuff,
      hbuffP] <;>
    assumption

theorem copied_le (hv : Activation h s) (hp : Positions h s) :
    s.copied (consumed h) ≤ (announced h).length := by
  unfold Sys.copied
  split_ifs with hpc
  · exact hv.unread (.inr hpc)
  · exact hp.consumed_le

/-- A step of `serial` outside `copy`, `advance` and `announce` leaves the copied bytes
as they are. -/
theorem serialStep (hv : Activation h s) (hin : s'.inHand = s.inHand)
    (hcopied : s'.copied (consumed h) = s.copied (consumed h))
    (hadv : s.serial ≠ .advance) (hann : s.serial ≠ .announce)
    (hunread : s'.serial = .copy ∨ s'.serial = .advance → consumed h < (announced h).length) :
    Activation ((s, .run .serial) :: h) s' := by
  have hcons : consumed ((s, .run .serial) :: h) = consumed h := by simp [hadv]
  have hpub : published ((s, .run .serial) :: h) = published h := by simp [hann]
  constructor
  · rw [hpub, hcons, hin, hcopied]; exact hv.fifo
  · rw [hcons]; exact hunread

theorem receive (hv : Activation h s) (hp : Positions h s) (b : UInt8) :
    Activation ((s, .receive b) :: h) (s.dmaReceive b) := by
  have hle := (hv.copied_le hp).trans hp.announced_prefix.length_le
  constructor
  · have hcopied : (s.dmaReceive b).copied (consumed ((s, .receive b) :: h)) =
        s.copied (consumed h) := by simp [Sys.dmaReceive, Sys.copied]
    have hpub : published ((s, .receive b) :: h) = published h := by simp
    rw [hcopied, hpub, received_receive, List.take_append_of_le_length hle]
    exact hv.fifo
  · simpa [Sys.dmaReceive] using hv.unread

theorem copy (hv : Activation h s) (hp : Positions h s) (hx : CopyIndex s)
    (hpc : s.serial = .copy) :
    Activation ((s, .run .serial) :: h)
      { s with
        processBuff := s.processBuff.write s.processP (s.dmaRecBuffer.read s.usartDMARecQRear)
        processP := s.processP + 1
        serial := .advance
        rtCurrentThread := .serial } := by
  have hunread := hv.unread (.inl hpc)
  have hlt := hunread.trans_le hp.announced_prefix.length_le
  have hfifo : (published h).flatten ++ s.processBuff.front s.processP =
      (received h).take (consumed h) := by
    simpa [Sys.inHand, Sys.copied, hpc] using hv.fifo
  have hnext : s.dmaRecBuffer.read s.usartDMARecQRear = (received h)[consumed h] :=
    (Positions.unread_eq hlt ▸ hp.queue.holds).head hp.queue.rear_lt
  constructor
  · simp only [Sys.inHand, Sys.copied, reduceCtorEq, if_false, if_true, published_cons, hpc,
      and_false, List.append_nil, received_run, consumed_cons, Nat.add_zero,
      Buffer.front_write_succ _ _ (hx.room (.inr hpc))]
    rw [List.take_succ_eq_append_getElem hlt, ← hfifo, hnext, List.append_assoc]
  · simpa [hpc] using hunread

theorem advance (hv : Activation h s) (hpc : s.serial = .advance) :
    Activation ((s, .run .serial) :: h)
      { s with
        usartDMARecQRear := (s.usartDMARecQRear + 1) % usart1DmaRecSize
        serial := .full
        rtCurrentThread := .serial } := by
  refine ⟨?_, by simp⟩
  simpa [Sys.inHand, Sys.copied, hpc] using hv.fifo

theorem announce (hv : Activation h s) (h0 : s.processP = 0) (hpc : s.serial = .announce)
    (hs' : s'.serial = .echo) (hp' : s'.processP = s.processP) :
    Activation ((s, .run .serial) :: h) s' := by
  refine ⟨?_, by simp [hs']⟩
  simpa [Sys.inHand, Sys.copied, hpc, hs', hp', h0] using hv.fifo

end Activation

theorem Positions.moves (hp : Positions h s) (hv : Activation h s) (hg : withinCapacity h s a)
    (ht : Trans s a s') : Positions ((s, a) :: h) s' := by
  cases ht
  case receive b => exact hp.receive b hg
  case idleWake | idlePost => exact hp.idle rfl rfl rfl rfl
  case serialAdvance hpc => exact hp.advance hpc (hv.unread (.inr hpc)) rfl rfl rfl rfl
  all_goals exact hp.frame rfl rfl (by simp [*]) rfl rfl rfl rfl

theorem Activation.moves (hi : KernelInv s) (hp : Positions h s) (hx : CopyIndex s)
    (hv : Activation h s) (hm : Moves s a s') : Activation ((s, a) :: h) s' := by
  obtain ⟨ht, hs⟩ := hm
  cases ht
  case receive b => exact hv.receive hp b
  case idleWake hpc =>
    have h0 := hx.idle (by simp [Sys.copying, hpc])
    refine ⟨?_, by simp⟩
    simpa [Sys.inHand, Sys.copied, hpc, h0] using hv.fifo
  case idlePost hpc =>
    refine ⟨by simpa [Sys.inHand, Sys.copied, Sys.packet] using hv.fifo, ?_⟩
    intro hpc
    simpa using (hv.unread hpc).trans_le hp.announced_prefix.length_le
  case clearByte k hpc hk =>
    -- `rt_memset` runs only while `serial` is suspended
    have hsus := hi.lock.serial_suspended (hs _ rfl) (by simp [Sys.critical, hpc])
    have h0 := hx.idle (by simp [Sys.copying, hsus])
    refine ⟨?_, by simp [hsus]⟩
    simpa [Sys.inHand, Sys.copied, hsus, h0] using hv.fifo
  case serialUnread hpc hq =>
    have hlt : consumed h < (announced h).length :=
      lt_of_le_of_ne hp.consumed_le (fun he => hq (hp.front_eq_rear_iff.mpr he.symm))
    exact hv.serialStep (by simp [Sys.inHand, hpc]) (by simp [Sys.copied, hpc]) (by simp [hpc])
      (by simp [hpc]) (fun _ => hlt)
  case serialCopy hpc => exact hv.copy hp hx hpc
  case serialAdvance hpc => exact hv.advance hpc
  case serialRecord hpc =>
    exact hv.serialStep (by simp [Sys.inHand, Sys.packet, hpc]) (by simp [Sys.copied, hpc])
      (by simp [hpc]) (by simp [hpc]) (by simp)
  case announceWake hpc hsus | announcePost hpc hsus =>
    exact hv.announce (hx.idle (by simp [Sys.copying, hpc])) hpc rfl rfl
  case serialRecv hpc _ | serialWait hpc _ | serialDrained hpc _ | serialFull hpc _ |
      serialMore hpc _ | serialEcho hpc =>
    exact hv.serialStep (by simp [Sys.inHand, hpc]) (by simp [Sys.copied, hpc]) (by simp [hpc])
      (by simp [hpc]) (by simp)
  all_goals exact hv.frame rfl rfl (by simp) (by simp) rfl rfl rfl rfl

/-- How often the copy loop has run in the present activation, and how many of its
statements that took: four a round, and one more test to leave it. -/
structure CopyCount (h : History Sys Action) (s : Sys) : Prop where
  le : copies h ≤ usart1ProSize
  eq : s.copying → copies h = s.processP
  waiting : s.serial = .suspended → copies h = 0 ∧ loopStatements h = 0
  statements : loopStatements h ≤ 4 * usart1ProSize + 1
  statements_eq : s.copying → s.serial ≠ .record →
    loopStatements h + (if s.serial = .advance then 2 else if s.serial = .full then 1 else 0) =
      4 * copies h + if s.serial = .copy then 1 else 0

theorem CopyCount.start (hpc : s.serial = .suspended ∨ s.serial = .recv) : CopyCount [] s := by
  constructor <;> rcases hpc with hpc | hpc <;> simp [Sys.copying, hpc]

theorem CopyCount.trans (hx : CopyIndex s) (hc : CopyCount h s) (ht : Trans s a s') :
    CopyCount ((s, a) :: h) s' := by
  obtain ⟨hle, heq, hstart, hst, hsteq⟩ := hc
  have hroom := hx.room
  have hidle := hx.idle
  have hsize : usart1ProSize = 196 := rfl
  cases ht
  case idleWake hpc =>
    have h0 := hstart hpc
    refine ⟨by simpa using hle, ?_, by simp, hst, ?_⟩
    · intro _
      simp [h0.1, hidle (by simp [Sys.copying, hpc])]
    · intro _ _
      simp [h0.1, h0.2]
  case serialRecv hpc _ =>
    refine ⟨by simp [hpc], ?_, by simp, by simp [hpc], fun _ _ => by simp [hpc]⟩
    intro _
    simp [hpc, hidle (by simp [Sys.copying, hpc])]
  case serialWait hpc _ =>
    exact ⟨by simp [hpc], by simp [Sys.copying], by simp [hpc], by simp [hpc],
      by simp [Sys.copying]⟩
  case serialUnread hpc _ | serialDrained hpc _ | serialCopy hpc | serialAdvance hpc |
      serialFull hpc _ | serialMore hpc _ =>
    have hcopying : s.copying := by simp [Sys.copying, hpc]
    have heq := heq hcopying
    have hsteq := hsteq hcopying (by simp [hpc])
    simp only [hpc, reduceCtorEq, or_false, or_true, if_true, if_false, forall_const,
      IsEmpty.forall_iff] at hsteq hroom
    refine ⟨?_, fun _ => ?_, by simp, ?_, fun _ hne => ?_⟩ <;> simp [hpc] at * <;> omega
  case serialRecord hpc | announceWake hpc _ | announcePost hpc _ | serialEcho hpc =>
    exact ⟨by simpa [hpc] using hle, by simp [Sys.copying], by simp, by simpa [hpc] using hst,
      by simp [Sys.copying]⟩
  all_goals
    exact ⟨by simpa using hle, fun hc => by simpa using heq hc, fun hs => by simpa using hstart hs,
      by simpa using hst, fun hc hs => by simpa using hsteq hc hs⟩

end Invariants

/-- `serial` is about to wait or waits, and the queue is empty. -/
structure QueueStart (s : Sys) : Prop where
  kernel : KernelInv s
  serial : s.serial = .suspended ∨ s.serial = .recv
  processP : s.processP = 0
  queue : Queue s [] 0

theorem QueueStart.init {behind : Ram} : QueueStart (Sys.init behind) :=
  ⟨.init, .inr rfl, rfl, .init⟩

theorem QueueStart.copyIndex {s : Sys} (hs : QueueStart s) : CopyIndex s := by
  obtain ⟨_, hpc, hp, _⟩ := hs
  constructor <;> rcases hpc with hpc | hpc <;> simp [hp]

/-- The invariants of the queue hold along every run from an empty queue. -/
theorem Run.queueInv {guard : History Sys Action → Sys → Action → Prop} {start : Sys → Prop}
    {h : History Sys Action} {s : Sys} (hstart : ∀ s, start s → QueueStart s)
    (hg : ∀ h s a, guard h s a → withinCapacity h s a) (hr : Run step guard start h s) :
    CopyIndex s ∧ Positions h s ∧ Activation h s ∧ CopyCount h s := by
  refine run_invariant
    (P := fun h s => CopyIndex s ∧ Positions h s ∧ Activation h s ∧ CopyCount h s)
    (fun s hs => (hstart s hs).kernel) (?_) ?_ hr
  · intro s hs
    have hs := hstart s hs
    exact ⟨hs.copyIndex, .start hs.queue, .start hs.serial hs.processP, .start hs.serial⟩
  · rintro h s a s' hi ⟨hx, hp, hv, hc⟩ hga hm
    exact ⟨hx.trans hm.trans, hp.moves hv (hg _ _ _ hga) hm.trans, hv.moves hi hp hx hm,
      hc.trans hx hm.trans⟩

/-- A packet is no longer than `process_buff`. -/
theorem Run.packet_le {guard : History Sys Action → Sys → Action → Prop} {start : Sys → Prop}
    {h : History Sys Action} {s : Sys}
    (hstart : ∀ s, start s → QueueStart s ∧ s.processBuffP ≤ usart1ProSize)
    (hr : Run step guard start h s) : s.processBuffP ≤ usart1ProSize := by
  obtain ⟨_, hp⟩ : CopyIndex s ∧ s.processBuffP ≤ usart1ProSize := by
    refine run_invariant (P := fun _ s => CopyIndex s ∧ s.processBuffP ≤ usart1ProSize)
      (fun s hs => (hstart s hs).1.kernel)
      (fun s hs => ⟨(hstart s hs).1.copyIndex, (hstart s hs).2⟩) ?_ hr
    rintro h s a s' _ ⟨hx, hp⟩ _ hm
    exact ⟨hx.trans hm.trans, hx.packet_le hp hm.trans⟩
  exact hp

theorem SysRun.packet_le {guard : History Sys Action → Sys → Action → Prop}
    {h : History Sys Action} {s : Sys} (hr : SysRun guard h s) :
    s.processBuffP ≤ usart1ProSize :=
  Run.packet_le (fun _ ⟨_, hs⟩ => hs.symm ▸ ⟨.init, Nat.zero_le _⟩) hr

theorem SysRun.queueInv {guard : History Sys Action → Sys → Action → Prop}
    {h : History Sys Action} {s : Sys} (hg : ∀ h s a, guard h s a → withinCapacity h s a)
    (hr : SysRun guard h s) : CopyIndex s ∧ Positions h s ∧ Activation h s ∧ CopyCount h s :=
  Run.queueInv (fun _ ⟨_, hs⟩ => hs.symm ▸ QueueStart.init) hg hr

/-- The receive queue is a lossless FIFO: what `serial` publishes, packet after packet,
is a prefix of the bytes announced by an IDLE interrupt, which are a prefix of the
bytes received. The copy loop ends after at most 196 rounds, it writes below 196, and
the indices stay below 512. -/
theorem receive_queue_lossless {h : History Sys Action} {s : Sys}
    (hr : SysRun withinCapacity h s) :
    (published h).flatten <+: announced h ∧ announced h <+: received h ∧
      copies h ≤ 196 ∧ loopStatements h ≤ 4 * 196 + 1 ∧
      (copies h = 196 → s.serial ≠ .loop ∧ s.serial ≠ .copy) ∧
      (s.serial = .copy → s.processP < 196) ∧
      s.usartDMARecQFront ≤ 511 ∧ s.usartDMARecQRear ≤ 511 := by
  obtain ⟨hx, hp, hv, hc⟩ := SysRun.queueInv (fun _ _ _ hg => hg) hr
  refine ⟨?_, hp.announced_prefix, hc.le, hc.statements, ?_, fun hpc => hx.room (.inr hpc), ?_, ?_⟩
  · have htake : (received h).take (s.copied (consumed h)) <+: announced h :=
      List.prefix_of_prefix_length_le (List.take_prefix _ _) hp.announced_prefix
        ((List.length_take_le _ _).trans (hv.copied_le hp))
    exact (List.prefix_append _ _).trans (hv.fifo ▸ htake)
  · intro hfull
    constructor <;> intro hpc <;>
      have heq := hc.eq (by simp [Sys.copying, hpc]) <;>
      have hroom := hx.room (by simp [hpc]) <;>
      simp only [usart1ProSize] at hroom <;> omega
  · have := Nat.mod_lt (s.usartDMARecQRear + ((announced h).length - consumed h))
      (show 0 < usart1DmaRecSize by decide)
    rw [hp.queue.front]; simp only [usart1DmaRecSize] at this ⊢; omega
  · have := hp.queue.rear_lt
    simp only [usart1DmaRecSize] at this; omega

theorem receive_queue_lossless_two_bursts :
    ∃ h s, SysRun withinCapacity h s ∧ published h = [[79, 75], [86]] ∧
      (published h).flatten <+: announced h := by
  obtain ⟨h, s, hr, ht⟩ := SysRun.exists_of_exec withinCapacity
    (startUp ++ packetIn [79, 75] ++ packetIn [86])
    (fun h _ => published h = [[79, 75], [86]]) (by decide +kernel)
  exact ⟨h, s, hr, by simpa using ht, (receive_queue_lossless hr).1⟩

/-- The copy loop is left through its full-buffer break only when no announced byte is
left unread or an IDLE interrupt is still to be served. -/
def breaksDrained (_ : History Sys Action) (s : Sys) (a : Action) : Prop :=
  a = .run .serial → s.serial = .full → s.processP = usart1ProSize →
    s.usartDMARecQFront = s.usartDMARecQRear ∨ rx1RecEvent ∈ s.rx1Event

instance (h : History Sys Action) (s : Sys) (a : Action) : Decidable (breaksDrained h s a) := by
  unfold breaksDrained
  infer_instance

/-- Outside the copy loop the queue is drained or an IDLE interrupt is still to be served. -/
def Drained (s : Sys) : Prop :=
  s.serial ≠ .loop → s.serial ≠ .copy → s.serial ≠ .advance → s.serial ≠ .full →
    s.usartDMARecQFront = s.usartDMARecQRear ∨ rx1RecEvent ∈ s.rx1Event

theorem Drained.trans {h : History Sys Action} {s s' : Sys} {a : Action} (hd : Drained s)
    (hg : breaksDrained h s a) (ht : Trans s a s') : Drained s' := by
  unfold Drained at hd
  cases ht
  case serialWait hpc hb =>
    have := hd (by simp [hpc]) (by simp [hpc]) (by simp [hpc]) (by simp [hpc])
    exact fun _ _ _ _ => .inl (this.resolve_right hb)
  case serialFull hpc hfull => exact fun _ _ _ _ => hg rfl hpc hfull
  case serialDrained hpc hq => exact fun _ _ _ _ => .inl hq
  all_goals simp_all [Drained]

/-- Where no full-buffer break leaves announced bytes behind, a suspended `serial` has
drained the queue. -/
theorem announced_bytes_drained {h : History Sys Action} {s : Sys}
    (hr : SysRun (fun h s a => withinCapacity h s a ∧ breaksDrained h s a) h s)
    (hs : s.serial = .suspended) :
    s.usartDMARecQRear = s.usartDMARecQFront ∧ consumed h = (announced h).length := by
  have hd : Drained s := by
    refine hr.invariant (P := fun _ s => Drained s) (by simp [Drained, Sys.init]) ?_
    exact fun h s a s' _ hd hg hm => hd.trans hg.2 hm.trans
  have hno := hr.kernelInv.event.serial hs
  have hq := (hd (by simp [hs]) (by simp [hs]) (by simp [hs]) (by simp [hs])).resolve_right hno
  obtain ⟨_, hp, _, _⟩ := SysRun.queueInv (fun _ _ _ hg => hg.1) hr
  exact ⟨hq.symm, (hp.front_eq_rear_iff.mp hq).symm⟩

theorem announced_bytes_drained_one_packet :
    ∃ h s, SysRun (fun h s a => withinCapacity h s a ∧ breaksDrained h s a) h s ∧
      announced h = [79, 75] ∧ s.usartDMARecQRear = s.usartDMARecQFront ∧
      consumed h = (announced h).length := by
  obtain ⟨h, s, hr, ht⟩ :=
    SysRun.exists_of_exec (fun h s a => withinCapacity h s a ∧ breaksDrained h s a)
      (startUp ++ packetIn [79, 75]) (fun h s => announced h = [79, 75] ∧ s.serial = .suspended)
      (by decide +kernel)
  have ht : announced h = [79, 75] ∧ s.serial = .suspended := by simpa using ht
  exact ⟨h, s, hr, ht.1, announced_bytes_drained hr ht.2⟩

/-- One burst of 197 bytes: the copy loop is left at 196 and the last byte stays in the
queue although an IDLE interrupt has announced it. -/
theorem burst_leaves_announced_byte :
    ¬ ∀ h s, SysRun withinCapacity h s → s.serial = .suspended →
      s.usartDMARecQRear = s.usartDMARecQFront := by
  intro hall
  obtain ⟨h, s, hr, ht⟩ := SysRun.exists_of_exec withinCapacity
    (startUp ++ List.replicate 197 (.receive 86) ++ [.usart1] ++ runs .serial 788)
    (fun _ s => s.serial = .suspended ∧ s.usartDMARecQRear ≠ s.usartDMARecQFront)
    (by decide +kernel)
  have ht : s.serial = .suspended ∧ s.usartDMARecQRear ≠ s.usartDMARecQFront := by simpa using ht
  exact ht.2 (hall h s hr ht.1)

end NanoAt
