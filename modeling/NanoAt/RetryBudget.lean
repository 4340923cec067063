import NanoAt.Observations

/-!
# The retry budget

`at_send_thread` refills `CurrentRty` when `ATCurrentCmdNum` differs from `ATNextCmdNum`,
which `ATSend` sets to AT_TNOCMD to mark a first attempt. A command that is never answered
is transmitted once and again after each timeout until the budget is used up; the budget is
the command's `RtyNum`, except for AT_TNOCMD itself, whose first attempt looks like a retry.

## Main definitions

- `timeouts`, `transmissions` — what has happened since the call
- `Called` — a thread calls `ATSend`
- `noReply` — no packet matches, no other call is made, timeouts come at rest
- `budget` — the retries of a call
- `Issuing`, `Sending`, `Resting`, `Retrying` — the phases of an unanswered command
-/

namespace NanoAt
open CString GuardedRun Rx1Event

/-- The timeouts posted. -/
def timeouts (h : History Sys Action) : ℕ := h.countP fun x => x.2 = .timer2 ∧ x.1.atTimeoutCnt = 1

/-- The commands transmitted. -/
def transmissions (h : History Sys Action) : ℕ := h.countP Event.isTransmit

/-- `strstr` finds the keyword. -/
def Event.finds (x : Event) : Bool :=
  match x.2, x.1.atProcess with
  | .run .atProcess, .search c i j => probe x.1.memory (atCmds c).atRecStr i j = .found
  | _, _ => false

/-- The thread `t` calls `ATSend(c)` in the state `s`, while `at_send_thread` waits, no
event is pending and no other thread is inside `ATSend`. -/
structure Called (c : TeATCmdNum) (t : Thread) (s : Sys) : Prop where
  kernel : KernelInv s
  scheduled : s.scheduled t
  caller : (t = .shell ∧ s.shell = .atSend .setCurrent ∧ s.atSendCmdNum = c) ∨
    (t = .atProcess ∧ s.atProcess = .atSend .setCurrent ∧ c = .atRest)
  other : ¬ s.callIn ATSendPc.unposted
  send : s.atSendThread = .suspended
  events : s.rx1Event = ∅
  -- `CurrentRty` is a `uint8_t`
  rty : s.currentRty < 256

/-- No packet matches, `ATSend` is not called again, and a timeout is posted only while
`at_process` and `at_send_thread` wait and the call of `ATSend` has posted its request. -/
def noReply (_ : History Sys Action) (s : Sys) (a : Action) : Prop :=
  Event.finds (s, a) = false ∧ Event.isCall (s, a) = false ∧ Event.isReset (s, a) = false ∧
    (a = .timer2 → s.atTimeoutCnt = 1 → s.atProcess = .suspended ∧ s.atSendThread = .suspended ∧
      ¬ s.callIn ATSendPc.unposted)

instance (h : History Sys Action) (s : Sys) (a : Action) : Decidable (noReply h s a) := by
  unfold noReply; infer_instance

/-- The retries of a call of `ATSend(c)` that finds `r` in `CurrentRty`. -/
def budget (c : TeATCmdNum) (r : ℕ) : ℕ := if c = .atTnocmd then r else (atCmds c).rtyNum

/-- `at_process` waits or serves a packet. -/
def Sys.serves (s : Sys) : Prop :=
  match s.atProcess with
  | .recv | .suspended | .recWait | .search .. | .atSend .exit => True
  | .dispatch => atTimeoutEvent ∉ s.e
  | _ => False

/-- `at_process` and `at_send_thread` wait, and no request is on its way. -/
def Sys.atRest (s : Sys) : Prop :=
  s.atProcess = .suspended ∧ s.atSendThread = .suspended ∧ ¬ s.callIn ATSendPc.unposted

instance (s : Sys) : Decidable s.atRest := by
  unfold Sys.atRest; infer_instance

/-- `at_process` has received a timeout with no retry left and calls `ATSend(AT_REST)` next. -/
def Sys.resets (s : Sys) : Prop :=
  s.currentRty = 0 ∧ ((s.atProcess = .dispatch ∧ s.e = {atTimeoutEvent}) ∨
    s.atProcess = .retry ∨ s.atProcess = .atSend .setCurrent)

/-- A step that leaves `at_send_thread` and its requests alone. -/
structure Aside (s s' : Sys) : Prop where
  send : s'.atSendThread = s.atSendThread
  current : s'.atCurrentCmdNum = s.atCurrentCmdNum
  next : s'.atNextCmdNum = s.atNextCmdNum
  rty : s'.currentRty = s.currentRty
  timeout : atTimeoutEvent ∈ s'.rx1Event → atTimeoutEvent ∈ s.rx1Event
  post : atstatusSendEvent ∈ s'.rx1Event → atstatusSendEvent ∈ s.rx1Event

section Steps

variable {h : History Sys Action} {s s' : Sys} {a : Action}

@[simp] theorem timeouts_cons : timeouts ((s, a) :: h) =
    timeouts h + if a = .timer2 ∧ s.atTimeoutCnt = 1 then 1 else 0 := by
  simp [timeouts, List.countP_cons]

@[simp] theorem transmissions_cons : transmissions ((s, a) :: h) =
    transmissions h + if a = .run .atSendThread ∧ s.atSendThread = .transmit then 1 else 0 := by
  simp [transmissions, Event.isTransmit, Event.sendAt, List.countP_cons]

/-- While no reply comes, `at_process` goes on serving packets. -/
theorem Sys.serves.step (hserves : s.serves) (htimeout : atTimeoutEvent ∉ s.rx1Event)
    (hfind : Event.finds (s, .run .atProcess) = false) (ht : Trans s (.run .atProcess) s') :
    s'.serves ∧ s'.shell = s.shell ∧ Aside s s' := by
  cases ht
  case searchFound c i j hpc hfound => simp [Event.finds, hpc, hfound] at hfind
  case processRecv hpc _ =>
    exact ⟨by simp [Sys.serves, htimeout], rfl, rfl, rfl, rfl, rfl, by simp, by simp⟩
  case processWait | dispatchPacket | dispatchNone | recWait | searchAbsent | searchNext |
      resetExit =>
    exact ⟨by simp [Sys.serves], rfl, rfl, rfl, rfl, rfl, id, id⟩
  all_goals
    simp_all [Sys.serves]

/-- An interrupt that posts no timeout, or a step of `serial`. -/
theorem Aside.interrupt (ha : ∀ t, a = .run t → t = .serial)
    (hexp : ¬ (a = .timer2 ∧ s.atTimeoutCnt = 1)) (ht : Trans s a s') :
    Aside s s' ∧ (s'.shell = s.shell ∨ (s.shell = .prompt ∧ s'.shell = .loop)) ∧
      ((s'.atProcess = s.atProcess ∧ s'.e = s.e) ∨ (s.atProcess = .suspended ∧ s'.serves)) := by
  cases ht
  case announceWake hpc hsus =>
    exact ⟨⟨rfl, rfl, rfl, rfl, id, id⟩, .inl rfl, .inr ⟨hsus, by simp [Sys.serves]⟩⟩
  case expireWake _ h1 _ | expirePost _ h1 _ => exact absurd ⟨rfl, h1⟩ hexp
  case comtest hpc => exact ⟨⟨rfl, rfl, rfl, rfl, id, id⟩, .inr ⟨hpc, rfl⟩, .inl ⟨rfl, rfl⟩⟩
  case receive | idleWake | tickIdle | tick | serialWait | serialUnread | serialDrained |
      serialCopy | serialAdvance | serialFull | serialMore | serialRecord | serialEcho =>
    exact ⟨⟨rfl, rfl, rfl, rfl, id, id⟩, .inl rfl, .inl ⟨rfl, rfl⟩⟩
  case idlePost | serialRecv | announcePost =>
    exact ⟨⟨rfl, rfl, rfl, rfl, by simp, by simp⟩, .inl rfl, .inl ⟨rfl, rfl⟩⟩
  all_goals
    exact absurd (ha _ rfl) (by simp)

/-- A step of the shell outside `ATSend`. -/
theorem Aside.shell (hcall : ¬ s.callIn ATSendPc.unposted)
    (hissue : Event.isCall (s, .run .shell) = false) (ht : Trans s (.run .shell) s') :
    Aside s s' ∧ ¬ s'.callIn ATSendPc.unposted ∧ s'.atProcess = s.atProcess ∧ s'.e = s.e := by
  cases ht
  case callSetCurrent hpc => simp [Event.isCall, Event.shellAt, hpc] at hissue
  case shellRecv =>
    exact ⟨⟨rfl, rfl, rfl, rfl, by simp, by simp⟩, by simp [Sys.callIn], rfl, rfl⟩
  case loopNext | loopReturn | callExit | shellWait | shellAdvance =>
    exact ⟨⟨rfl, rfl, rfl, rfl, id, id⟩, by simp [Sys.callIn, ATSendPc.unposted], rfl, rfl⟩
  all_goals
    simp_all [Sys.callIn, ATSendPc.unposted]

/-- A step of neither `at_process` nor `at_send_thread`, while no thread but `at_process` is
inside `ATSend`. -/
theorem Aside.step (hg : noReply h s a) (hcall : ¬ s.callIn ATSendPc.unposted)
    (ha : a ≠ .run .atProcess ∧ a ≠ .run .atSendThread)
    (hexp : ¬ (a = .timer2 ∧ s.atTimeoutCnt = 1)) (ht : Trans s a s') :
    Aside s s' ∧ ¬ s'.callIn ATSendPc.unposted ∧
      ((s'.atProcess = s.atProcess ∧ s'.e = s.e) ∨ (s.atProcess = .suspended ∧ s'.serves)) := by
  by_cases hshell : a = .run .shell
  · subst hshell
    obtain ⟨haside, hcall', hpc⟩ := Aside.shell hcall hg.2.1 ht
    exact ⟨haside, hcall', .inl hpc⟩
  · have hserial : ∀ t, a = .run t → t = .serial := by
      rintro t rfl
      cases t <;> simp_all
    obtain ⟨haside, hsh, hpc⟩ := Aside.interrupt hserial hexp ht
    refine ⟨haside, ?_, hpc⟩
    rcases hsh with hsh | ⟨_, hsh⟩
    · simpa only [Sys.callIn, hsh] using hcall
    · simp [Sys.callIn, hsh]

theorem Sys.serves.of_aside (hserves : s.serves)
    (hpc : (s'.atProcess = s.atProcess ∧ s'.e = s.e) ∨ (s.atProcess = .suspended ∧ s'.serves)) :
    s'.serves := by
  rcases hpc with ⟨hpc, he⟩ | ⟨_, hserves'⟩
  · simpa only [Sys.serves, hpc, he] using hserves
  · exact hserves'

end Steps

/-- `c` is current and no request or timeout is posted. -/
structure Attempt (c : TeATCmdNum) (s : Sys) : Prop where
  current : s.atCurrentCmdNum = c
  timeout : atTimeoutEvent ∉ s.rx1Event
  post : atstatusSendEvent ∉ s.rx1Event

/-- `ATSend` is being executed by `t` and has not yet posted its request. -/
structure Issuing (c : TeATCmdNum) (t : Thread) (r : ℕ) (h : History Sys Action) (s : Sys) :
    Prop extends Attempt c s where
  call : ∃ p, p.unposted ∧ (p = .setNext ∨ s.atNextCmdNum = .atTnocmd) ∧
    ((t = .shell ∧ s.shell = .atSend p ∧ s.serves) ∨
      (t = .atProcess ∧ s.atProcess = .atSend p ∧ ¬ s.callIn ATSendPc.unposted))
  send : s.atSendThread = .suspended
  rty : s.currentRty = r
  calm : timeouts h = 0
  sent : transmissions h = 0

/-- A transmission is requested, with `n` retries in all. -/
structure Sending (c : TeATCmdNum) (n : ℕ) (h : History Sys Action) (s : Sys) : Prop
    extends Attempt c s where
  serves : s.serves
  uncalled : ¬ s.callIn ATSendPc.unposted
  stage : (((s.atSendThread = .compare ∧ s.atNextCmdNum ≠ c) ∨ s.atSendThread = .refill) ∧
      n = (atCmds c).rtyNum ∧ timeouts h = 0) ∨
    (((s.atSendThread = .compare ∧ s.atNextCmdNum = c) ∨ s.atSendThread = .enter ∨
      s.atSendThread = .transmit) ∧ s.currentRty + timeouts h = n)
  sent : transmissions h = timeouts h

/-- The command is transmitted and its timeout has not come. -/
structure Resting (c : TeATCmdNum) (n : ℕ) (h : History Sys Action) (s : Sys) : Prop
    extends Attempt c s where
  serves : s.serves
  uncalled : ¬ s.callIn ATSendPc.unposted
  send : s.atSendThread = .print ∨ s.atSendThread = .exit ∨ s.atSendThread = .recv ∨
    s.atSendThread = .suspended
  left : s.currentRty + timeouts h = n
  sent : transmissions h = timeouts h + 1

/-- `at_process` serves the timeout. -/
structure Retrying (c : TeATCmdNum) (n : ℕ) (h : History Sys Action) (s : Sys) : Prop
    extends Attempt c s where
  uncalled : ¬ s.callIn ATSendPc.unposted
  send : s.atSendThread = .suspended
  stage : (((s.atProcess = .dispatch ∧ s.e = {atTimeoutEvent}) ∨ s.atProcess = .retry ∨
      (s.atProcess = .decrement ∧ 0 < s.currentRty) ∨
      (s.atProcess = .atSend .setCurrent ∧ s.currentRty = 0)) ∧
      s.currentRty + timeouts h = n + 1) ∨
    ((s.atProcess = .mark ∨ ((s.atProcess = .arm ∨ s.atProcess = .remove ∨
      s.atProcess = .insert ∨ s.atProcess = .resend) ∧ s.atNextCmdNum = c)) ∧
      s.currentRty + timeouts h = n)
  sent : transmissions h = timeouts h

/-- The phases of an unanswered command. -/
inductive Unanswered (c : TeATCmdNum) (t : Thread) (r : ℕ) (h : History Sys Action) (s : Sys) :
    Prop
  | issuing (hp : Issuing c t r h s)
  | sending (hp : Sending c (budget c r) h s)
  | resting (hp : Resting c (budget c r) h s)
  | retrying (hp : Retrying c (budget c r) h s)

section Phases

variable {c : TeATCmdNum} {t : Thread} {r n : ℕ} {h h' : History Sys Action} {s s' : Sys}
  {a : Action}

theorem Attempt.aside (hp : Attempt c s) (ha : Aside s s') : Attempt c s' :=
  ⟨ha.current.trans hp.current, hp.timeout ∘ ha.timeout, hp.post ∘ ha.post⟩

namespace Sending

theorem not_expires (hp : Sending c n h s) (hg : noReply h s a) :
    ¬ (a = .timer2 ∧ s.atTimeoutCnt = 1) := by
  rintro ⟨ha, h1⟩
  have hsus := (hg.2.2.2 ha h1).2.1
  simpa [hsus] using hp.stage

theorem aside (hp : Sending c n h s) (ha : Aside s s') (hcall : ¬ s'.callIn ATSendPc.unposted)
    (hserves : s'.serves) (htime : timeouts h' = timeouts h)
    (hsent : transmissions h' = transmissions h) : Sending c n h' s' := by
  refine { hp.toAttempt.aside ha with
    serves := hserves, uncalled := hcall, stage := ?_, sent := by rw [htime, hsent, hp.sent] }
  rw [ha.send, ha.next, ha.rty, htime]
  exact hp.stage

theorem trans (hp : Sending c n h s) (hg : noReply h s a) (ht : Trans s a s') :
    Sending c n ((s, a) :: h) s' ∨ Resting c n ((s, a) :: h) s' := by
  have hexp := hp.not_expires hg
  by_cases ha : a = .run .atProcess
  · subst ha
    obtain ⟨hserves, hshell, haside⟩ := hp.serves.step hp.timeout hg.1 ht
    exact .inl (hp.aside haside (by simpa only [Sys.callIn, hshell] using hp.uncalled) hserves
      (by simp) (by simp))
  by_cases ha' : a = .run .atSendThread
  · subst ha'
    have hstage := hp.stage
    have hbase := hp.toAttempt
    cases ht
    case compareFirst hpc hne =>
      have hne : s.atNextCmdNum ≠ c := by rw [← hp.current]; exact Ne.symm hne
      refine .inl { hbase with
        serves := hp.serves, uncalled := hp.uncalled, stage := .inl ⟨.inr rfl, ?_⟩
        sent := by simpa [hpc] using hp.sent }
      simpa [hpc, hne] using hstage
    case compareRetry hpc heq =>
      have heq : s.atNextCmdNum = c := by rw [← hp.current, heq]
      refine .inl { hbase with
        serves := hp.serves, uncalled := hp.uncalled, stage := .inr ⟨.inr (.inl rfl), ?_⟩
        sent := by simpa [hpc] using hp.sent }
      simpa [hpc, heq] using hstage
    case refill hpc =>
      obtain ⟨hn, h0⟩ : n = (atCmds c).rtyNum ∧ timeouts h = 0 := by simpa [hpc] using hstage
      exact .inl { hbase with
        serves := hp.serves, uncalled := hp.uncalled
        stage := .inr ⟨.inr (.inl rfl), by simp [hp.current, hn, h0]⟩
        sent := by simpa [hpc] using hp.sent }
    case sendEnter hpc =>
      refine .inl { hbase with
        serves := hp.serves, uncalled := hp.uncalled, stage := .inr ⟨.inr (.inr rfl), ?_⟩
        sent := by simpa [hpc] using hp.sent }
      simpa [hpc] using hstage
    case transmit hpc =>
      refine .inr { hbase with
        serves := hp.serves, uncalled := hp.uncalled, send := .inl rfl, left := ?_
        sent := by simp [hpc, hp.sent] }
      simpa [hpc] using hstage
    all_goals
      simp_all
  · obtain ⟨haside, hcall, hpc⟩ := Aside.step hg hp.uncalled ⟨ha, ha'⟩ hexp ht
    exact .inl (hp.aside haside hcall (hp.serves.of_aside hpc) (by simp [hexp]) (by simp [ha']))

end Sending

namespace Resting

theorem aside (hp : Resting c n h s) (ha : Aside s s') (hcall : ¬ s'.callIn ATSendPc.unposted)
    (hserves : s'.serves) (htime : timeouts h' = timeouts h)
    (hsent : transmissions h' = transmissions h) : Resting c n h' s' := by
  refine { hp.toAttempt.aside ha with
    serves := hserves, uncalled := hcall, send := ?_, left := ?_
    sent := by rw [htime, hsent, hp.sent] }
  · rw [ha.send]
    exact hp.send
  · rw [ha.rty, htime]
    exact hp.left

/-- The timeout comes: `at_process` takes it, and the transmission before it was the last. -/
theorem expire (hp : Resting c n h s) (hg : noReply h s .timer2) (h1 : s.atTimeoutCnt = 1)
    (ht : Trans s .timer2 s') : Retrying c n ((s, .timer2) :: h) s' := by
  obtain ⟨hprocess, hsend, _⟩ := hg.2.2.2 rfl h1
  have hbase := hp.toAttempt
  cases ht
  case tickIdle _ h0 => omega
  case tick _ hlt => omega
  case expirePost hne => exact absurd hprocess hne
  case expireWake =>
    refine { hbase with
      uncalled := hp.uncalled, send := hsend, stage := .inl ⟨.inl ⟨rfl, rfl⟩, ?_⟩
      sent := by simp [h1, hp.sent] }
    simp only [timeouts_cons, h1, and_self, if_true]
    have := hp.left
    omega

theorem trans (hp : Resting c n h s) (hg : noReply h s a) (ht : Trans s a s') :
    Resting c n ((s, a) :: h) s' ∨ Retrying c n ((s, a) :: h) s' := by
  by_cases hexp : a = .timer2 ∧ s.atTimeoutCnt = 1
  · obtain ⟨rfl, h1⟩ := hexp
    exact .inr (hp.expire hg h1 ht)
  by_cases ha : a = .run .atProcess
  · subst ha
    obtain ⟨hserves, hshell, haside⟩ := hp.serves.step hp.timeout hg.1 ht
    exact .inl (hp.aside haside (by simpa only [Sys.callIn, hshell] using hp.uncalled) hserves
      (by simp) (by simp))
  by_cases ha' : a = .run .atSendThread
  · subst ha'
    have hbase := hp.toAttempt
    have hsend := hp.send
    cases ht
    case sendRecv hb => exact absurd hb hp.post
    case sendWait hpc _ | sendPrint hpc | sendExit hpc =>
      exact .inl { hbase with
        serves := hp.serves, uncalled := hp.uncalled, send := by simp
        left := by simpa using hp.left, sent := by simpa [hpc] using hp.sent }
    all_goals
      simp_all
  · obtain ⟨haside, hcall, hpc⟩ := Aside.step hg hp.uncalled ⟨ha, ha'⟩ hexp ht
    exact .inl (hp.aside haside hcall (hp.serves.of_aside hpc) (by simp [hexp]) (by simp [ha']))

end Resting

namespace Retrying

theorem not_expires (hp : Retrying c n h s) (hg : noReply h s a) :
    ¬ (a = .timer2 ∧ s.atTimeoutCnt = 1) := by
  rintro ⟨ha, h1⟩
  have hsus := (hg.2.2.2 ha h1).1
  simpa [hsus] using hp.stage

theorem aside (hp : Retrying c n h s) (ha : Aside s s') (hcall : ¬ s'.callIn ATSendPc.unposted)
    (hpc : s'.atProcess = s.atProcess ∧ s'.e = s.e) (htime : timeouts h' = timeouts h)
    (hsent : transmissions h' = transmissions h) : Retrying c n h' s' := by
  refine { hp.toAttempt.aside ha with
    uncalled := hcall, send := ha.send.trans hp.send, stage := ?_
    sent := by rw [htime, hsent, hp.sent] }
  rw [hpc.1, hpc.2, ha.next, ha.rty, htime]
  exact hp.stage

theorem trans (hn : n < 256) (hp : Retrying c n h s) (hg : noReply h s a) (ht : Trans s a s') :
    Retrying c n ((s, a) :: h) s' ∨ Sending c n ((s, a) :: h) s' := by
  have hexp := hp.not_expires hg
  have hstage := hp.stage
  have hbase := hp.toAttempt
  by_cases ha : a = .run .atProcess
  · subst ha
    cases ht
    case dispatchTimeout hpc _ _ =>
      refine .inl { hbase with
        uncalled := hp.uncalled, send := hp.send, stage := .inl ⟨.inr (.inl rfl), ?_⟩
        sent := by simpa using hp.sent }
      have hleft : s.e = {atTimeoutEvent} ∧ s.currentRty + timeouts h = n + 1 := by
        simpa [hpc] using hstage
      simpa using hleft.2
    case retryAgain hpc hpos =>
      refine .inl { hbase with
        uncalled := hp.uncalled, send := hp.send
        stage := .inl ⟨.inr (.inr (.inl ⟨rfl, hpos⟩)), ?_⟩
        sent := by simpa using hp.sent }
      simpa [hpc] using hstage
    case retryReset hpc h0 =>
      refine .inl { hbase with
        uncalled := hp.uncalled, send := hp.send
        stage := .inl ⟨.inr (.inr (.inr ⟨rfl, h0⟩)), ?_⟩
        sent := by simpa using hp.sent }
      simpa [hpc] using hstage
    case retryDecrement hpc =>
      obtain ⟨hpos, hleft⟩ : 0 < s.currentRty ∧ s.currentRty + timeouts h = n + 1 := by
        simpa [hpc] using hstage
      refine .inl { hbase with
        uncalled := hp.uncalled, send := hp.send, stage := .inr ⟨.inl rfl, ?_⟩
        sent := by simpa using hp.sent }
      simp only [timeouts_cons, reduceCtorEq, false_and, if_false]
      omega
    case retryMark hpc =>
      refine .inl { hbase with
        uncalled := hp.uncalled, send := hp.send
        stage := .inr ⟨.inr ⟨.inl rfl, hp.current⟩, ?_⟩
        sent := by simpa using hp.sent }
      simpa [hpc] using hstage
    case retryArm hpc | retryRemove hpc | retryInsert hpc =>
      obtain ⟨hnext, hleft⟩ : s.atNextCmdNum = c ∧ s.currentRty + timeouts h = n := by
        simpa [hpc] using hstage
      exact .inl { hbase with
        uncalled := hp.uncalled, send := hp.send
        stage := .inr ⟨.inr ⟨by simp, hnext⟩, by simpa using hleft⟩
        sent := by simpa using hp.sent }
    case resendWake hpc _ =>
      obtain ⟨hnext, hleft⟩ : s.atNextCmdNum = c ∧ s.currentRty + timeouts h = n := by
        simpa [hpc] using hstage
      exact .inr { hbase with
        serves := by simp [Sys.serves], uncalled := hp.uncalled
        stage := .inr ⟨.inl ⟨rfl, hnext⟩, by simpa using hleft⟩
        sent := by simpa using hp.sent }
    case resendPost hne => exact absurd hp.send hne
    case resetSetCurrent hpc =>
      have hreset := hg.2.2.1
      simp [Event.isReset, Event.processAt, hpc] at hreset
    all_goals
      simp_all
  by_cases ha' : a = .run .atSendThread
  · subst ha'
    have hsend := hp.send
    cases ht <;> simp_all
  · obtain ⟨haside, hcall, hpc⟩ := Aside.step hg hp.uncalled ⟨ha, ha'⟩ hexp ht
    have hpc : s'.atProcess = s.atProcess ∧ s'.e = s.e := by
      refine hpc.resolve_right ?_
      rintro ⟨hsus, _⟩
      simp [hsus] at hstage
    exact .inl (hp.aside haside hcall hpc (by simp [hexp]) (by simp [ha']))

end Retrying

namespace Issuing

theorem not_expires (hp : Issuing c t r h s) (hg : noReply h s a) :
    ¬ (a = .timer2 ∧ s.atTimeoutCnt = 1) := by
  rintro ⟨ha, h1⟩
  obtain ⟨hprocess, _, hcall⟩ := hg.2.2.2 ha h1
  obtain ⟨p, hp, _, ⟨_, hsh, _⟩ | ⟨_, hpc, _⟩⟩ := hp.call
  · exact hcall (by simpa [Sys.callIn, hsh] using hp)
  · simp [hpc] at hprocess

theorem aside (hp : Issuing c t r h s) (ha : Aside s s')
    (hcall : ∀ p, (t = .shell ∧ s.shell = .atSend p ∧ s.serves) ∨
        (t = .atProcess ∧ s.atProcess = .atSend p ∧ ¬ s.callIn ATSendPc.unposted) →
      (t = .shell ∧ s'.shell = .atSend p ∧ s'.serves) ∨
        (t = .atProcess ∧ s'.atProcess = .atSend p ∧ ¬ s'.callIn ATSendPc.unposted))
    (htime : timeouts h' = timeouts h) (hsent : transmissions h' = transmissions h) :
    Issuing c t r h' s' := by
  refine { hp.toAttempt.aside ha with
    call := ?_, send := ha.send.trans hp.send, rty := ha.rty.trans hp.rty
    calm := htime.trans hp.calm, sent := hsent.trans hp.sent }
  obtain ⟨p, hp, hnext, hin⟩ := hp.call
  exact ⟨p, hp, by rwa [ha.next], hcall p hin⟩

/-- The request: a first attempt, unless the command is its own marker. -/
theorem request (hp : Issuing c t r h s) (hnext : s.atNextCmdNum = .atTnocmd)
    (hbase : Attempt c s') (hserves : s'.serves) (hcall : ¬ s'.callIn ATSendPc.unposted)
    (hsend : s'.atSendThread = .compare) (hnext' : s'.atNextCmdNum = s.atNextCmdNum)
    (hrty : s'.currentRty = s.currentRty) (htime : timeouts h' = timeouts h)
    (hsent : transmissions h' = transmissions h) : Sending c (budget c r) h' s' := by
  refine { hbase with
    serves := hserves, uncalled := hcall, stage := ?_
    sent := by rw [htime, hsent, hp.calm, hp.sent] }
  rw [htime, hp.calm, hnext', hnext, hrty, hp.rty, hsend]
  by_cases hc : c = .atTnocmd
  · exact .inr ⟨.inl ⟨rfl, hc.symm⟩, by simp [budget, hc]⟩
  · exact .inl ⟨.inl ⟨rfl, Ne.symm hc⟩, by simp [budget, hc]⟩

/-- The statements of `ATSend(c)` up to its request, executed by the shell. -/
theorem shellStep (hp : Issuing c .shell r h s) (ht : Trans s (.run .shell) s') :
    Issuing c .shell r ((s, .run .shell) :: h) s' ∨
      Sending c (budget c r) ((s, .run .shell) :: h) s' := by
  have hbase := hp.toAttempt
  obtain ⟨p, hpost, hnext, hin⟩ := hp.call
  obtain ⟨hsh, hserves⟩ : s.shell = .atSend p ∧ s.serves := by simpa using hin
  have hp1 : p ≠ .setCurrent := by rintro rfl; exact hpost
  have hp2 : p ≠ .exit := by rintro rfl; exact hpost
  clear hpost
  cases ht
  case callSetNext hpc =>
    exact .inl { hbase with
      call := ⟨.setRec, trivial, .inr rfl, .inl ⟨rfl, rfl, hserves⟩⟩
      send := hp.send, rty := hp.rty, calm := by simpa using hp.calm
      sent := by simpa using hp.sent }
  case callSetRec hpc | callArm hpc | callRemove hpc | callInsert hpc | callEnter hpc =>
    obtain rfl : _ = p := by simpa [hpc] using hsh
    exact .inl { hbase with
      call := ⟨_, by trivial, .inr (hnext.resolve_left (by simp)), .inl ⟨rfl, rfl, hserves⟩⟩
      send := hp.send, rty := hp.rty, calm := by simpa using hp.calm
      sent := by simpa using hp.sent }
  case callPostWake hpc _ =>
    obtain rfl : _ = p := by simpa [hpc] using hsh
    exact .inr (hp.request (hnext.resolve_left (by simp)) ⟨hp.current, hp.timeout, hp.post⟩ hserves
      (by simp [Sys.callIn, ATSendPc.unposted]) rfl rfl rfl (by simp) (by simp))
  case callPost hne => exact absurd hp.send hne
  all_goals
    simp_all

/-- The statements of `ATSend(AT_REST)` up to its request, executed by `at_process`. -/
theorem processStep (hp : Issuing c .atProcess r h s) (ht : Trans s (.run .atProcess) s') :
    Issuing c .atProcess r ((s, .run .atProcess) :: h) s' ∨
      Sending c (budget c r) ((s, .run .atProcess) :: h) s' := by
  have hbase := hp.toAttempt
  obtain ⟨p, hpost, hnext, hin⟩ := hp.call
  obtain ⟨hsh, hcall⟩ : s.atProcess = .atSend p ∧ ¬ s.callIn ATSendPc.unposted := by
    simpa using hin
  have hp1 : p ≠ .setCurrent := by rintro rfl; exact hpost
  have hp2 : p ≠ .exit := by rintro rfl; exact hpost
  clear hpost
  cases ht
  case resetSetNext hpc =>
    exact .inl { hbase with
      call := ⟨.setRec, trivial, .inr rfl, .inr ⟨rfl, rfl, hcall⟩⟩
      send := hp.send, rty := hp.rty, calm := by simpa using hp.calm
      sent := by simpa using hp.sent }
  case resetSetRec hpc | resetArm hpc | resetRemove hpc | resetInsert hpc | resetEnter hpc =>
    obtain rfl : _ = p := by simpa [hpc] using hsh
    exact .inl { hbase with
      call := ⟨_, by trivial, .inr (hnext.resolve_left (by simp)), .inr ⟨rfl, rfl, hcall⟩⟩
      send := hp.send, rty := hp.rty, calm := by simpa using hp.calm
      sent := by simpa using hp.sent }
  case resetPostWake hpc _ =>
    obtain rfl : _ = p := by simpa [hpc] using hsh
    exact .inr (hp.request (hnext.resolve_left (by simp)) ⟨hp.current, hp.timeout, hp.post⟩
      (by simp [Sys.serves]) hcall rfl rfl rfl (by simp) (by simp))
  case resetPost hne => exact absurd hp.send hne
  all_goals
    simp_all

theorem trans (hp : Issuing c t r h s) (hg : noReply h s a) (ht : Trans s a s') :
    Issuing c t r ((s, a) :: h) s' ∨ Sending c (budget c r) ((s, a) :: h) s' := by
  have hexp := hp.not_expires hg
  by_cases ha : a = .run .atSendThread
  · subst ha
    have hsend := hp.send
    cases ht <;> simp_all
  obtain ⟨p, _, _, ⟨rfl, hsh, hserves⟩ | ⟨rfl, hpc, hcall⟩⟩ := hp.call
  · by_cases hrun : a = .run .shell
    · subst hrun
      exact hp.shellStep ht
    · by_cases hprocess : a = .run .atProcess
      · subst hprocess
        obtain ⟨hserves', hshell, haside⟩ := hserves.step hp.timeout hg.1 ht
        refine .inl (hp.aside haside ?_ (by simp) (by simp))
        simpa [hshell] using fun p hsh _ => ⟨hsh, hserves'⟩
      · have hserial : ∀ t, a = .run t → t = .serial := by
          rintro t rfl
          cases t <;> simp_all
        obtain ⟨haside, hsh', hpc⟩ := Aside.interrupt hserial hexp ht
        have hsh' := hsh'.resolve_right (by simp [hsh])
        refine .inl (hp.aside haside ?_ (by simp [hexp]) (by simp [ha]))
        simpa [hsh'] using fun p hsh _ => ⟨hsh, hserves.of_aside hpc⟩
  · by_cases hrun : a = .run .atProcess
    · subst hrun
      exact hp.processStep ht
    · obtain ⟨haside, hcall', hpc'⟩ := Aside.step hg hcall ⟨hrun, ha⟩ hexp ht
      have hpc' := hpc'.resolve_right (by simp [hpc])
      refine .inl (hp.aside haside ?_ (by simp [hexp]) (by simp [ha]))
      simpa [hpc'] using fun p hpc _ => ⟨hpc, hcall'⟩

end Issuing

theorem Issuing.start {s₀ s₁ : Sys} (hc : Called c t s₀) (hs : step (.run t) s₀ = some s₁) :
    Issuing c t s₀.currentRty [] s₁ := by
  have ht := (hc.kernel.moves hs).trans
  have hevents := hc.events
  obtain ⟨rfl, hpc, hcmd⟩ | ⟨rfl, hpc, hcmd⟩ := hc.caller
  · have hsus := (hc.kernel.lock.all_suspended hc.scheduled (by simp [Sys.critical, hpc])).2.1
    cases ht
    case callSetCurrent =>
      exact ⟨⟨hcmd, by simp [hevents], by simp [hevents]⟩,
        ⟨.setNext, trivial, .inl rfl, .inl ⟨rfl, rfl, by simp [Sys.serves, hsus]⟩⟩, hc.send, rfl,
        rfl, rfl⟩
    all_goals
      simp_all
  · have hother := hc.other
    cases ht
    case resetSetCurrent =>
      exact ⟨⟨hcmd.symm, by simp [hevents], by simp [hevents]⟩,
        ⟨.setNext, trivial, .inl rfl, .inr ⟨rfl, rfl, hother⟩⟩, hc.send, rfl, rfl, rfl⟩
    all_goals
      simp_all

namespace Unanswered

theorem trans (hr : r < 256) (hu : Unanswered c t r h s) (hg : noReply h s a)
    (ht : Trans s a s') : Unanswered c t r ((s, a) :: h) s' := by
  have hn : budget c r < 256 := by
    unfold budget
    split
    · exact hr
    · rw [rtyNum_eq]
      decide
  cases hu with
  | issuing hp => exact (hp.trans hg ht).elim .issuing .sending
  | sending hp => exact (hp.trans hg ht).elim .sending .resting
  | resting hp => exact (hp.trans hg ht).elim .resting .retrying
  | retrying hp => exact (hp.trans hn hg ht).elim .retrying .sending

theorem current (hu : Unanswered c t r h s) : s.atCurrentCmdNum = c := by
  cases hu with
  | issuing hp => exact hp.current
  | sending hp => exact hp.current
  | resting hp => exact hp.current
  | retrying hp => exact hp.current

theorem decrement_pos (hu : Unanswered c t r h s) (hpc : s.atProcess = .decrement) :
    0 < s.currentRty := by
  cases hu with
  | issuing hp =>
    obtain ⟨p, _, _, ⟨_, _, hserves⟩ | ⟨_, hpc', _⟩⟩ := hp.call
    · simp [Sys.serves, hpc] at hserves
    · simp [hpc] at hpc'
  | sending hp | resting hp =>
    have hserves := hp.serves
    simp [Sys.serves, hpc] at hserves
  | retrying hp =>
    have hstage := hp.stage
    simp only [hpc, reduceCtorEq, false_and, false_or, true_and, or_false, or_self] at hstage
    exact hstage.1

/-- At rest the command has been sent once more than its timeout has come. -/
theorem rest (hu : Unanswered c t r h s) (hs : s.atRest) :
    transmissions h = timeouts h + 1 ∧ timeouts h ≤ budget c r := by
  obtain ⟨hprocess, hsend, hcall⟩ := hs
  cases hu with
  | issuing hp =>
    obtain ⟨p, hpost, _, ⟨_, hsh, _⟩ | ⟨_, hpc, _⟩⟩ := hp.call
    · exact absurd (by simpa [Sys.callIn, hsh] using hpost) hcall
    · simp [hpc] at hprocess
  | sending hp => simpa [hsend] using hp.stage
  | resting hp =>
    have hleft := hp.left
    exact ⟨hp.sent, by omega⟩
  | retrying hp => simpa [hprocess] using hp.stage

/-- When `at_process` calls `ATSend(AT_REST)` the budget is used up. -/
theorem reset (hu : Unanswered c t r h s) (hpc : s.atProcess = .atSend .setCurrent) :
    transmissions h = budget c r + 1 ∧ timeouts h = budget c r + 1 := by
  cases hu with
  | issuing hp =>
    obtain ⟨p, hpost, _, ⟨_, _, hserves⟩ | ⟨_, hpc', _⟩⟩ := hp.call
    · simp [Sys.serves, hpc] at hserves
    · obtain rfl : _ = p := by simpa [hpc] using hpc'
      exact absurd hpost (by simp [ATSendPc.unposted])
  | sending hp | resting hp =>
    have hserves := hp.serves
    simp [Sys.serves, hpc] at hserves
  | retrying hp =>
    have hleft : s.currentRty = 0 ∧ s.currentRty + timeouts h = budget c r + 1 := by
      simpa [hpc] using hp.stage
    have hsent := hp.sent
    omega

/-- No timeout comes after the one that uses up the budget, and that one leads to the
reset. -/
theorem timeouts_le (hu : Unanswered c t r h s) :
    timeouts h ≤ budget c r + 1 ∧ (timeouts h = budget c r + 1 → s.resets) := by
  cases hu with
  | issuing hp =>
    have hcalm := hp.calm
    omega
  | sending hp =>
    have hstage : timeouts h = 0 ∨ s.currentRty + timeouts h = budget c r :=
      hp.stage.imp (·.2.2) (·.2)
    omega
  | resting hp =>
    have hleft := hp.left
    omega
  | retrying hp =>
    rcases hp.stage with ⟨hpc, hleft⟩ | ⟨_, hleft⟩
    · refine ⟨by omega, ?_⟩
      intro hlast
      have h0 : s.currentRty = 0 := by omega
      refine ⟨h0, ?_⟩
      simp only [h0, Nat.lt_irrefl, and_false, and_true, false_or] at hpc
      exact hpc
    · omega

end Unanswered

theorem budget_eq_iff : budget c r = (atCmds c).rtyNum ↔ c ≠ .atTnocmd ∨ r = (atCmds c).rtyNum := by
  by_cases hc : c = .atTnocmd <;> simp [budget, hc]

end Phases

section Main

variable {c : TeATCmdNum} {t : Thread} {s₀ s₁ s : Sys} {h : History Sys Action}

theorem Run.unanswered (hc : Called c t s₀) (hs : step (.run t) s₀ = some s₁)
    (hr : Run step noReply (· = s₁) h s) : Unanswered c t s₀.currentRty h s := by
  have hk := hc.kernel.of_moves (hc.kernel.moves hs)
  refine run_invariant (P := Unanswered c t s₀.currentRty) ?_ ?_ ?_ hr
  · rintro s rfl
    exact hk
  · rintro s rfl
    exact .issuing (.start hc hs)
  · intro h s a s' _ hu hg hm
    exact hu.trans hc.rty hg hm.trans

/-- After a call of `ATSend(c)` that is not answered, `at_send_thread` transmits only `c`,
once at the start and once after each timeout, and `CurrentRty` does not underflow. The
reset comes with the timeout after the `RtyNum`-th, when `c` has been transmitted
`1 + RtyNum` times, if and only if `c` is not AT_TNOCMD or `CurrentRty` was `RtyNum`
before the call; and then no later timeout comes before the reset. -/
theorem retry_budget_iff (hc : Called c t s₀) (hs : step (.run t) s₀ = some s₁)
    (hr : Run step noReply (· = s₁) h s) :
    (∀ x ∈ h, Event.isTransmit x = true → x.1.atCurrentCmdNum = c) ∧
    (∀ x ∈ h, Event.processAt .decrement x = true → 0 < x.1.currentRty) ∧
    (s.atRest → transmissions h = timeouts h + 1) ∧
    (s.atProcess = .atSend .setCurrent →
      (transmissions h = 1 + (atCmds c).rtyNum ∧ timeouts h = (atCmds c).rtyNum + 1 ↔
        c ≠ .atTnocmd ∨ s₀.currentRty = (atCmds c).rtyNum)) ∧
    (c ≠ .atTnocmd ∨ s₀.currentRty = (atCmds c).rtyNum →
      (s.atRest → timeouts h ≤ (atCmds c).rtyNum) ∧ timeouts h ≤ (atCmds c).rtyNum + 1 ∧
        (timeouts h = (atCmds c).rtyNum + 1 → s.resets)) := by
  have hu := Run.unanswered hc hs hr
  have hprior : ∀ x ∈ h, ∃ h₂, Unanswered c t s₀.currentRty h₂ x.1 := by
    intro x hx
    obtain ⟨h₁, h₂, rfl⟩ := List.append_of_mem hx
    exact ⟨h₂, Run.unanswered hc hs hr.prior.1⟩
  refine ⟨?_, ?_, fun hrest => (hu.rest hrest).1, ?_, ?_⟩
  · intro x hx _
    obtain ⟨h₂, hux⟩ := hprior x hx
    exact hux.current
  · intro x hx hdec
    obtain ⟨h₂, hux⟩ := hprior x hx
    refine hux.decrement_pos ?_
    simp only [Event.processAt, decide_eq_true_eq] at hdec
    exact hdec.2
  · intro hpc
    have hreset := hu.reset hpc
    rw [← budget_eq_iff]
    omega
  · intro hcond
    rw [← budget_eq_iff.mpr hcond]
    exact ⟨fun hrest => (hu.rest hrest).2, hu.timeouts_le⟩

end Main

/-- All threads wait but the shell, which calls `ATSend(c)`. -/
def Sys.calls (c : TeATCmdNum) : Sys :=
  { Sys.init zeroRam with
    serial := .suspended, atProcess := .suspended, atSendThread := .suspended
    shell := .atSend .setCurrent, atSendCmdNum := c }

/-- The state after the first statement of this call. -/
def Sys.called₁ (c : TeATCmdNum) : Sys :=
  { Sys.calls c with
    atCurrentCmdNum := c, shell := .atSend .setNext, rtCurrentThread := .shell }

theorem Called.calls (c : TeATCmdNum) : Called c .shell (Sys.calls c) where
  kernel := by
    refine ⟨fun t _ => by simp [Sys.calls, Sys.init], .inl ⟨rfl, ?_⟩⟩
    intro t
    cases t <;> simp [Sys.critical, Sys.calls]
  scheduled := by
    refine ⟨by simp [Sys.ready, Sys.suspended, Sys.calls], ?_⟩
    intro u hu
    cases u <;> simp_all [Sys.ready, Sys.suspended, Sys.calls, Thread.priority]
  caller := .inl ⟨rfl, rfl, rfl⟩
  other := by simp [Sys.callIn, Sys.calls, ATSendPc.unposted]
  send := rfl
  events := rfl
  rty := Nat.zero_lt_succ _

theorem Called.step_calls (c : TeATCmdNum) :
    step (.run .shell) (Sys.calls c) = some (Sys.called₁ c) := by
  rw [step, if_pos (Called.calls c).scheduled]
  rfl

theorem Called.exists_of_exec (c : TeATCmdNum) (as : List Action)
    (test : History Sys Action → Sys → Bool)
    (he : (exec step noReply as [] (Sys.called₁ c)).any (fun r => test r.1 r.2) = true) :
    ∃ h s, Run step noReply (· = Sys.called₁ c) h s ∧ test h s = true := by
  exact @exists_run_of_exec _ _ step noReply _ (· = Sys.called₁ c) _ rfl as test he

/-- A timeout while the threads wait, and the retry that it leads to. -/
def retried : List Action :=
  List.replicate 500 .timer2 ++ runs .atProcess 9 ++ runs .atSendThread 6

/-- AT+ROLE is never answered: three retries, and the fourth timeout leads to the reset. -/
theorem retry_budget_iff_used_up :
    ∃ h s, Run step noReply (· = Sys.called₁ .atRole) h s ∧ s.atProcess = .atSend .setCurrent ∧
      timeouts h = 4 ∧ transmissions h = 1 + (atCmds .atRole).rtyNum := by
  obtain ⟨h, s, hr, ht⟩ := Called.exists_of_exec .atRole
    (runs .shell 8 ++ runs .atSendThread 7 ++ runs .shell 1 ++ retried ++ retried ++ retried ++
      List.replicate 500 .timer2 ++ runs .atProcess 2)
    (fun h s => s.atProcess = .atSend .setCurrent ∧ timeouts h = 4) (by decide +kernel)
  have ht : s.atProcess = .atSend .setCurrent ∧ timeouts h = 4 := by simpa using ht
  have hbudget := (retry_budget_iff (Called.calls _) (Called.step_calls _) hr).2.2.2.1 ht.1
  exact ⟨h, s, hr, ht.1, ht.2, (hbudget.mpr (.inl (by decide))).1⟩

/-- AT_TNOCMD, called with `CurrentRty` 0: its first attempt is taken for a retry, and the
first timeout leads to the reset. -/
theorem tnocmd_is_not_retried :
    ¬ ∀ c t s₀ s₁ h s, Called c t s₀ → step (.run t) s₀ = some s₁ →
      Run step noReply (· = s₁) h s → s.atProcess = .atSend .setCurrent →
      transmissions h = 1 + (atCmds c).rtyNum ∧ timeouts h = (atCmds c).rtyNum + 1 := by
  intro hall
  have hs := Called.step_calls .atTnocmd
  obtain ⟨h, s, hr, ht⟩ := Called.exists_of_exec .atTnocmd
    (runs .shell 8 ++ runs .atSendThread 6 ++ runs .shell 1 ++ List.replicate 500 .timer2 ++
      runs .atProcess 2)
    (fun h s => s.atProcess = .atSend .setCurrent ∧ timeouts h = 1) (by decide +kernel)
  have ht : s.atProcess = .atSend .setCurrent ∧ timeouts h = 1 := by simpa using ht
  have hbudget := (hall _ _ _ _ h s (Called.calls _) hs hr ht.1).2
  simp [ht.2, rtyNum_eq] at hbudget

end NanoAt
