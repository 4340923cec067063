import NanoAt.LossyModule

/-!
# The rounds of the command list

One command after the other passes through a fixed sequence of stages: the call of
`ATSend`, the request, the wait for the count and the retry after each unanswered
transmission, then the answer's bytes, their copy, their examination and the
acknowledgement. Each stage is an invariant of its own with a rank.

## Main definitions

- `Looping`, `Calling`, `Requesting`, `Waiting`, `TimingOut`, `Answering`, `Copying`,
  `Handing`, `Examining`, `Acknowledged`, `Returned` — the stages
- `Stage` — the stages with their ranks
- `Lower` — a stage of a lower rank
- `LocalStep` — the steps that do not involve the module
-/

namespace NanoAt
open CString GuardedRun RetryLoops Rx1Event

/-- The log of a world is one of the sequential loop over `commands`. -/
def World.Logged (w : World) (k u : ℕ) : Prop :=
  RetryLoop commands (fun c => (atCmds c).rtyNum) w.log k u

section Measures

/-- Statements of `ATSend` left before it returns. -/
def ATSendPc.remaining : ATSendPc → ℕ
  | .setCurrent => 8 | .setNext => 7 | .setRec => 6 | .arm => 5 | .remove => 4 | .insert => 3
  | .enter => 2 | .post => 1 | .exit => 0

/-- Statements of `at_send_thread_entry` left before it waits. -/
def SendPc.remaining : SendPc → ℕ
  | .compare => 7 | .refill => 6 | .enter => 5 | .transmit => 4 | .print => 3 | .exit => 2
  | .recv => 1 | .suspended => 0

/-- Statements of `at_comtest` left before it waits for the acknowledgement. -/
def ShellPc.remaining : ShellPc → ℕ
  | .atSend p => p.remaining + 2
  | .recv => 1
  | .prompt | .loop | .suspended | .advance => 0

/-- Statements of `serial_entry` left before it waits, with `n` bytes unread. -/
def SerialPc.remaining (n : ℕ) : SerialPc → ℕ
  | .full => 4 * n + 9 | .loop => 4 * n + 8 | .copy => 4 * n + 7 | .advance => 4 * n + 6
  | .record => 4 | .announce => 3 | .echo => 2 | .recv => 1 | .suspended => 0

/-- An upper bound of the statements of `at_process_entry` left before it waits, with `n` bytes
in the memory behind `process_buff`. -/
def ProcessPc.remaining (n : ℕ) : ProcessPc → ℕ
  | .dispatch => 18 * n + 4000 | .recWait => 18 * n + 3999
  | .search _ i j => (197 + n - i) * 17 + (16 - j) + n + 400
  | .disarm => n + 399 | .select => n + 398 | .print _ k => 196 + n - k + 201
  | .clear k => 196 - k + 3 | .ack => 2
  | .retry => 8 | .decrement => 7 | .mark => 6 | .arm => 5 | .remove => 4 | .insert => 3
  | .resend => 2
  | .recv => 1
  | .suspended | .atSend _ => 0

/-- An upper bound of the statements that `at_process` has left before it waits. -/
def Sys.work (s : Sys) : ℕ := s.atProcess.remaining s.behind.bytes.length

/-- `Rec_WaitAT` has not found the keyword yet. -/
def ProcessPc.unmatched : ProcessPc → Prop
  | .dispatch | .recWait | .search .. => True
  | _ => False

end Measures

section Tails

/-- `at_send_thread` and the shell are on their way back to `rt_event_recv`. -/
structure Tails (s : Sys) : Prop where
  send : s.atSendThread = .print ∨ s.atSendThread = .exit ∨ s.atSendThread = .recv ∨
    s.atSendThread = .suspended
  shell : s.shell = .atSend .exit ∨ s.shell = .recv ∨ s.shell = .suspended

/-- How many statements that takes. -/
def Sys.tail (s : Sys) : ℕ := s.atSendThread.remaining + s.shell.remaining

/-- What a statement of `at_send_thread` or of the shell on its way back changes. -/
structure TailStep (s s' : Sys) : Prop where
  eq : ∃ p q n t, s' = { s with
    atSendThread := p, shell := q, rtSchedulerLockNest := n, rtCurrentThread := t }
  tails : Tails s'
  lt : s'.tail < s.tail

variable {s s' : Sys}

theorem Tails.ne_transmit (hi : Tails s) : s.atSendThread ≠ .transmit := by
  rcases hi.send with h | h | h | h <;> simp [h]

/-- What a statement of the shell on its way back changes. -/
theorem shell_tailStep (hshell : s.shell = .atSend .exit ∨ s.shell = .recv ∨ s.shell = .suspended)
    (hrx : s.rx1Event = ∅) (ht : Trans s (.run .shell) s') :
    ∃ q n, s' = { s with shell := q, rtSchedulerLockNest := n, rtCurrentThread := .shell } ∧
      (q = .recv ∨ q = .suspended) ∧ q.remaining < s.shell.remaining := by
  cases ht
  case shellRecv hb => simp [hrx] at hb
  case callExit hpc | shellWait hpc _ =>
    exact ⟨_, _, rfl, by simp, by simp [ShellPc.remaining, ATSendPc.remaining, hpc]⟩
  all_goals simp_all

theorem Tails.sendStep (hi : Tails s) (hrx : s.rx1Event = ∅)
    (ht : Trans s (.run .atSendThread) s') : TailStep s s' := by
  obtain ⟨hsend, hshell⟩ := hi
  cases ht
  case sendRecv hb => simp [hrx] at hb
  case sendWait hpc _ | sendPrint hpc | sendExit hpc =>
    exact ⟨⟨_, _, _, _, rfl⟩, ⟨by simp, hshell⟩, by simp [Sys.tail, SendPc.remaining, hpc]⟩
  all_goals simp_all

theorem Tails.shellStep (hi : Tails s) (hrx : s.rx1Event = ∅)
    (ht : Trans s (.run .shell) s') : TailStep s s' := by
  obtain ⟨q, n, rfl, hq, hlt⟩ := shell_tailStep hi.shell hrx ht
  exact ⟨⟨_, _, _, _, rfl⟩, ⟨hi.send, .inr hq⟩, Nat.add_lt_add_left hlt _⟩

end Tails

section Stages

variable (c : TeATCmdNum) (u : ℕ) (w : World)

/-- The command `c` is the one at_comtest has issued and waits for. -/
structure Issued (s : Sys) : Prop where
  kk : s.kk = c.val
  lt : c.val < 9
  atSendCmdNum : s.atSendCmdNum = c
  current : s.atCurrentCmdNum = c
  keyword : s.atRecCmdNum = c

/-- The shell is about to test its loop condition before command `c`. -/
structure Looping : Prop where
  shell : w.sys.shell = .loop
  kk : w.sys.kk = c.val
  le : c.val ≤ 9
  atSendCmdNum : w.sys.atSendCmdNum = c
  serial : w.sys.serial = .suspended
  process : w.sys.atProcess = .suspended
  send : w.sys.atSendThread = .suspended
  rx1Event : w.sys.rx1Event = ∅
  disarmed : w.sys.atTimeoutCnt = 0
  queue : Queue w.sys [] 0
  line : w.line = []
  log : w.Logged c.val 0

/-- The shell is inside `ATSend`, before it posts the request. -/
structure Calling (p : ATSendPc) : Prop where
  shell : w.sys.shell = .atSend p
  before : p ≠ .exit
  kk : w.sys.kk = c.val
  lt : c.val < 9
  atSendCmdNum : w.sys.atSendCmdNum = c
  current : p.remaining ≤ 7 → w.sys.atCurrentCmdNum = c
  next : p.remaining ≤ 6 → w.sys.atNextCmdNum = .atTnocmd
  keyword : p.remaining ≤ 5 → w.sys.atRecCmdNum = c
  armed : p.remaining ≤ 4 → 1 ≤ w.sys.atTimeoutCnt
  timer2 : p.remaining ≤ 2 → w.sys.timer2 = true
  serial : w.sys.serial = .suspended
  process : w.sys.atProcess = .suspended
  send : w.sys.atSendThread = .suspended
  rx1Event : w.sys.rx1Event = ∅
  queue : Queue w.sys [] 0
  line : w.line = []
  log : w.Logged c.val 0

/-- The request has been posted and `at_send_thread` is about to transmit the command. -/
structure Requesting : Prop where
  issued : Issued c w.sys
  send : w.sys.atSendThread = .compare ∨ w.sys.atSendThread = .refill ∨
    w.sys.atSendThread = .enter ∨ w.sys.atSendThread = .transmit
  process : w.sys.atProcess = .suspended ∨
    (w.sys.atProcess = .recv ∧ w.sys.atSendThread = .compare)
  serial : w.sys.serial = .suspended
  shell : w.sys.shell = .atSend .exit ∨ w.sys.shell = .recv ∨ w.sys.shell = .suspended
  rx1Event : w.sys.rx1Event = ∅
  armed : 1 ≤ w.sys.atTimeoutCnt
  timer2 : w.sys.timer2 = true
  first : w.sys.atSendThread = .refill → u = 0
  fresh : u = 0 → w.sys.atNextCmdNum = .atTnocmd
  again : 1 ≤ u → w.sys.atNextCmdNum = c ∧ w.sys.currentRty + u = 3
  refilled : w.sys.atSendThread = .enter ∨ w.sys.atSendThread = .transmit →
    w.sys.currentRty + u = 3
  queue : Queue w.sys [] 0
  line : w.line = []
  log : w.Logged c.val u

/-- The last transmission goes unanswered, and the count runs. -/
structure Waiting : Prop where
  issued : Issued c w.sys
  tails : Tails w.sys
  serial : w.sys.serial = .suspended
  process : w.sys.atProcess = .suspended
  rx1Event : w.sys.rx1Event = ∅
  armed : 1 ≤ w.sys.atTimeoutCnt
  timer2 : w.sys.timer2 = true
  pos : 1 ≤ u
  rty : w.sys.currentRty + u = 4
  queue : Queue w.sys [] 0
  line : w.line = []
  log : w.Logged c.val u

/-- The count has run out and `at_process` is about to request the retry. -/
structure TimingOut : Prop where
  issued : Issued c w.sys
  pc : w.sys.atProcess = .dispatch ∧ w.sys.e = {atTimeoutEvent} ∨ w.sys.atProcess = .retry ∨
    w.sys.atProcess = .decrement ∨ w.sys.atProcess = .mark ∨ w.sys.atProcess = .arm ∨
    w.sys.atProcess = .remove ∨ w.sys.atProcess = .insert ∨ w.sys.atProcess = .resend
  serial : w.sys.serial = .suspended
  send : w.sys.atSendThread = .suspended
  shell : w.sys.shell = .suspended
  rx1Event : w.sys.rx1Event = ∅
  pos : 1 ≤ u
  before : w.sys.atProcess = .dispatch ∨ w.sys.atProcess = .retry ∨
    w.sys.atProcess = .decrement → w.sys.currentRty + u = 4
  after : w.sys.work ≤ 6 → w.sys.currentRty + u = 3
  marked : w.sys.work ≤ 5 → w.sys.atNextCmdNum = c
  armed : w.sys.work ≤ 4 → 1 ≤ w.sys.atTimeoutCnt
  timer2 : w.sys.work ≤ 2 → w.sys.timer2 = true
  queue : Queue w.sys [] 0
  line : w.line = []
  log : w.Logged c.val u

/-- The answer arrives: `got` has been received and `rest` is still to come. -/
structure Answering (got rest : List UInt8) : Prop where
  issued : Issued c w.sys
  tails : Tails w.sys
  serial : w.sys.serial = .suspended
  process : w.sys.atProcess = .suspended
  rx1Event : w.sys.rx1Event = ∅
  reply : ValidReply c (got ++ rest)
  queue : Queue w.sys got 0
  line : w.line = [rest]
  log : w.Logged (c.val + 1) 0

/-- `serial` copies the answer, of which `unread` is still in the queue. -/
structure Copying (unread : List UInt8) : Prop where
  issued : Issued c w.sys
  tails : Tails w.sys
  pc : w.sys.serial = .loop ∨ w.sys.serial = .copy ∨ w.sys.serial = .advance ∨
    w.sys.serial = .full
  process : w.sys.atProcess = .suspended
  rx1Event : w.sys.rx1Event = ∅
  more : w.sys.serial = .copy ∨ w.sys.serial = .advance → unread ≠ []
  reply : ValidReply c (w.sys.processBuff.front w.sys.processP ++
    if w.sys.serial = .advance then unread.tail else unread)
  queue : Queue w.sys unread unread.length
  line : w.line = []
  log : w.Logged (c.val + 1) 0

/-- `serial` hands the copied answer over. -/
structure Handing : Prop where
  issued : Issued c w.sys
  tails : Tails w.sys
  pc : w.sys.serial = .record ∨ w.sys.serial = .announce
  process : w.sys.atProcess = .suspended
  rx1Event : w.sys.rx1Event = ∅
  reply : (atCmds c).atRecStr <:+: cstr w.sys.memory
  queue : Queue w.sys [] 0
  line : w.line = []
  log : w.Logged (c.val + 1) 0

/-- `Rec_WaitAT` finds the keyword and is about to acknowledge the command. -/
structure Examining : Prop where
  issued : Issued c w.sys
  tails : Tails w.sys
  serial : w.sys.serial = .echo ∨ w.sys.serial = .recv ∨ w.sys.serial = .suspended
  pc : w.sys.atProcess = .dispatch ∧ rx1ProcessEvent ∈ w.sys.e ∨ w.sys.atProcess = .recWait ∨
    (∃ i j, w.sys.atProcess = .search c i j ∧
      Scanned w.sys.memory (atCmds c).atRecStr i j) ∨
    w.sys.atProcess = .disarm ∨
    (w.sys.atProcess = .select ∨ (∃ b k, w.sys.atProcess = .print b k ∧
        ∀ i < k, w.sys.memory.getD i 0 ≠ 0) ∨ (∃ k, w.sys.atProcess = .clear k) ∨
      w.sys.atProcess = .ack) ∧ w.sys.atTimeoutCnt = 0
  rx1Event : w.sys.rx1Event = ∅
  reply : w.sys.atProcess.unmatched → (atCmds c).atRecStr <:+: cstr w.sys.memory
  queue : Queue w.sys [] 0
  line : w.line = []
  log : w.Logged (c.val + 1) 0

/-- The acknowledgement has been posted. -/
structure Acknowledged : Prop where
  kk : w.sys.kk = c.val
  lt : c.val < 9
  atSendCmdNum : w.sys.atSendCmdNum = c
  serial : w.sys.serial = .suspended
  process : w.sys.atProcess = .recv ∨ w.sys.atProcess = .suspended
  send : w.sys.atSendThread = .recv ∨ w.sys.atSendThread = .suspended
  shell : w.sys.shell = .recv ∧ w.sys.rx1Event = {atcmdSendAckOkEvent} ∨
    w.sys.shell = .advance ∧ w.sys.rx1Event = ∅
  disarmed : w.sys.atTimeoutCnt = 0
  queue : Queue w.sys [] 0
  line : w.line = []
  log : w.Logged (c.val + 1) 0

/-- `at_comtest` has returned. -/
structure Returned : Prop where
  shell : w.sys.shell = .prompt
  kk : w.sys.kk = 9
  serial : w.sys.serial = .suspended
  process : w.sys.atProcess = .suspended
  send : w.sys.atSendThread = .suspended
  disarmed : w.sys.atTimeoutCnt = 0
  line : w.line = []
  log : w.Logged 9 0

end Stages

section Ranks

/-- Ranks: commands left, retries left, stages left, statements left, the count. -/
abbrev Rank : Type := ℕ ×ₗ ℕ ×ₗ ℕ ×ₗ ℕ ×ₗ ℕ

/-- The rank in the given stage of command `c` after `u` unanswered transmissions. -/
def rank (c : TeATCmdNum) (u stage work cnt : ℕ) : Rank :=
  toLex (9 - c.val, toLex (3 - u, toLex (stage, toLex (work, cnt))))

theorem rank_lt_iff {c c' : TeATCmdNum} {u u' m m' n n' k k' : ℕ} :
    rank c u m n k < rank c' u' m' n' k' ↔
      9 - c.val < 9 - c'.val ∨ 9 - c.val = 9 - c'.val ∧ (3 - u < 3 - u' ∨ 3 - u = 3 - u' ∧
        (m < m' ∨ m = m' ∧ (n < n' ∨ n = n' ∧ k < k'))) := by
  simp [rank, Prod.Lex.toLex_lt_toLex]

theorem rank_lt_stage {c : TeATCmdNum} {u m m' n n' k k' : ℕ} (h : m < m') :
    rank c u m n k < rank c u m' n' k' :=
  rank_lt_iff.mpr (.inr ⟨rfl, .inr ⟨rfl, .inl h⟩⟩)

theorem rank_lt_work {c : TeATCmdNum} {u m n n' k k' : ℕ} (h : n < n') :
    rank c u m n k < rank c u m n' k' :=
  rank_lt_iff.mpr (.inr ⟨rfl, .inr ⟨rfl, .inr ⟨rfl, .inl h⟩⟩⟩)

theorem rank_lt_tick {c : TeATCmdNum} {u m n k : ℕ} (h : 1 < k) :
    rank c u m n (k - 1) < rank c u m n k :=
  rank_lt_iff.mpr (.inr ⟨rfl, .inr ⟨rfl, .inr ⟨rfl, .inr ⟨rfl, by omega⟩⟩⟩⟩)

/-- The stages of the command list, each with its rank. -/
inductive Stage : Rank → World → Prop
  | looping {c w} : Looping c w → Stage (rank c 0 9 0 w.sys.atTimeoutCnt) w
  | calling {c w p} : Calling c w p → Stage (rank c 0 8 p.remaining w.sys.atTimeoutCnt) w
  | waiting {c u w} : Waiting c u w → Stage (rank c u 7 w.sys.tail w.sys.atTimeoutCnt) w
  | timingOut {c u w} :
      TimingOut c u w → Stage (rank c u 6 w.sys.work w.sys.atTimeoutCnt) w
  | requesting {c u w} :
      Requesting c u w →
      Stage (rank c u 5 (w.sys.tail + w.sys.work) w.sys.atTimeoutCnt) w
  | answering {c w g r} :
      Answering c w g r → Stage (rank c 3 4 (w.sys.tail + r.length) w.sys.atTimeoutCnt) w
  | copying {c w r} :
      Copying c w r →
      Stage (rank c 3 3 (w.sys.tail + w.sys.serial.remaining r.length) w.sys.atTimeoutCnt) w
  | handing {c w} :
      Handing c w →
      Stage (rank c 3 2 (w.sys.tail + w.sys.serial.remaining 0) w.sys.atTimeoutCnt) w
  | examining {c w} :
      Examining c w →
      Stage (rank c 3 1 (w.sys.tail + w.sys.serial.remaining 0 + w.sys.work)
        w.sys.atTimeoutCnt) w
  | acknowledged {c w} :
      Acknowledged c w →
      Stage (rank c 3 0
        (w.sys.tail + w.sys.work + if w.sys.shell = .recv then 1 else 0)
        w.sys.atTimeoutCnt) w
  | returned {w} : Returned w → Stage (rank .atRest 0 0 0 0) w

/-- A later stage with a lower rank. -/
def Lower (r : Rank) (w : World) : Prop := ∃ r' < r, Stage r' w

theorem Stage.lower {r r' : Rank} {w : World} (h : Stage r' w) (hlt : r' < r) : Lower r w :=
  ⟨r', hlt, h⟩

end Ranks

section Steps

variable {s s' : Sys} {w w' : World} {c : TeATCmdNum} {u : ℕ}

theorem Issued.frame (hi : Issued c s) (hkk : s'.kk = s.kk)
    (hnum : s'.atSendCmdNum = s.atSendCmdNum) (hcur : s'.atCurrentCmdNum = s.atCurrentCmdNum)
    (hkey : s'.atRecCmdNum = s.atRecCmdNum) : Issued c s' := by
  obtain ⟨h1, h2, h3, h4, h5⟩ := hi
  exact ⟨hkk.trans h1, h2, hnum.trans h3, hcur.trans h4, hkey.trans h5⟩

theorem Tails.frame (hi : Tails s) (hsend : s'.atSendThread = s.atSendThread)
    (hshell : s'.shell = s.shell) : Tails s' :=
  ⟨hsend ▸ hi.send, hshell ▸ hi.shell⟩

/-- The steps while no answer is on its way and no command is being transmitted. -/
inductive LocalStep (w : World) : World → Prop
  | run {t s'} : w.sys.scheduled t → Trans w.sys (.run t) s' → LocalStep w { w with sys := s' }
  | tick :
      1 < w.sys.atTimeoutCnt →
      LocalStep w { w with sys := { w.sys with atTimeoutCnt := w.sys.atTimeoutCnt - 1 } }
  | expire :
      w.Quiet → w.sys.atTimeoutCnt ≠ 0 →
      LocalStep w
        { w with
          sys := { w.sys with
            atTimeoutCnt := 0, timer2 := false, atProcess := .dispatch, e := {atTimeoutEvent} } }

/-- A tick that changes the state counts down, or ends the count while all threads wait. -/
theorem tick_cases (hk : KernelInv w.sys) (hq : w.sys.atTimeoutCnt = 1 → w.Quiet)
    (hs : step .timer2 w.sys = some s') (hne : s' ≠ w.sys) :
    (1 < w.sys.atTimeoutCnt ∧ s' = { w.sys with atTimeoutCnt := w.sys.atTimeoutCnt - 1 }) ∨
      (w.Quiet ∧ w.sys.atTimeoutCnt ≠ 0 ∧ s' = { w.sys with
        atTimeoutCnt := 0, timer2 := false, atProcess := .dispatch, e := {atTimeoutEvent} }) := by
  obtain ⟨ht, _⟩ := hk.moves hs
  cases ht with
  | tickIdle => exact absurd rfl hne
  | tick _ hlt => exact .inl ⟨hlt, rfl⟩
  | expireWake _ h1 _ => exact .inr ⟨hq h1, by omega, rfl⟩
  | expirePost _ h1 hsus => exact absurd (hq h1).process hsus

theorem LossyStep.local (hk : KernelInv w.sys) (hs : LossyStep w w') (hne : w' ≠ w)
    (hline : w.line = []) (hsend : w.sys.atSendThread ≠ .transmit) : LocalStep w w' := by
  cases hs with
  | run _ hs =>
    obtain ⟨ht, hsch⟩ := hk.moves hs
    exact .run (hsch _ rfl) ht
  | lost hpc => exact absurd hpc hsend
  | answered hpc => exact absurd hpc hsend
  | byte hl => exact absurd hl (by simp [hline])
  | idle hl => exact absurd hl (by simp [hline])
  | tick hq hs =>
    rcases tick_cases hk hq hs (fun he => hne (by rw [he])) with ⟨hlt, rfl⟩ | ⟨hquiet, h0, rfl⟩
    · exact .tick hlt
    · exact .expire hquiet h0

/-- A suspended thread does not run. -/
theorem not_scheduled {t : Thread} (hsus : s.suspended t) : ¬ s.scheduled t :=
  fun hsch => hsch.1.1 hsus

end Steps

end NanoAt
