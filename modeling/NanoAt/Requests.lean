import NanoAt.Observations

/-!
# Requests to transmit

A call of `ATSend` leaves its request in `ATCurrentCmdNum` and one event bit, and
`at_send_thread` transmits whatever command is current when it gets to run.
`deliversFirst` is the condition under which no request is overwritten: `at_process`
starts its own call only where the last one has been transmitted, and a retry only where
no other call has changed the current command.

## Main definitions

- `lastCall`, `armedFor`, `expiredFor` — what was called, armed and expired last
- `Sys.owed` — a transmission is still to come
- `deliversFirst` — the condition
-/

namespace NanoAt
open CString GuardedRun Rx1Event

/-- `at_comtest` or `at_process` calls `ATSend`. -/
def Event.issues (x : Event) : Bool := Event.isCall x || Event.isReset x

/-- The command for which `ATSend` is called. -/
def Event.command (x : Event) : TeATCmdNum :=
  if Event.isCall x then x.1.atSendCmdNum else .atRest

/-- The command of the last call of `ATSend`. -/
def lastCall : History Sys Action → Option TeATCmdNum
  | [] => none
  | x :: h => if Event.issues x then some (Event.command x) else lastCall h

/-- The step stores the count. -/
def Event.arms (x : Event) : Bool :=
  Event.shellAt (.atSend .arm) x || Event.processAt (.atSend .arm) x || Event.processAt .arm x

/-- The command for which the count was stored last. -/
def armedFor : History Sys Action → Option TeATCmdNum
  | [] => none
  | x :: h => if Event.arms x then some x.1.atCurrentCmdNum else armedFor h

/-- The count runs out in the step. -/
def Event.expires (x : Event) : Bool := x.2 = .timer2 ∧ x.1.atTimeoutCnt = 1

/-- The command whose count ran out last. -/
def expiredFor : History Sys Action → Option TeATCmdNum
  | [] => none
  | x :: h => if Event.expires x then armedFor h else expiredFor h

/-- Since the last call of `ATSend` its command has been transmitted. -/
def delivered (h : History Sys Action) : Prop :=
  ∀ c, lastCall h = some c →
    ∃ x ∈ since Event.issues h, Event.isTransmit x = true ∧ x.1.atCurrentCmdNum = c

/-- `at_process` has requested a retransmission that has not yet begun. -/
def resent (h : History Sys Action) : Prop :=
  ∃ x ∈ since Event.isTransmit h, Event.processAt .resend x = true

instance (h : History Sys Action) : Decidable (resent h) := by
  unfold resent; infer_instance

/-- A transmission is requested and not yet begun. -/
def Sys.requested (s : Sys) : Prop :=
  atstatusSendEvent ∈ s.rx1Event ∨ s.atSendThread = .compare ∨ s.atSendThread = .refill ∨
    s.atSendThread = .enter ∨ s.atSendThread = .transmit

instance (s : Sys) : Decidable s.requested := by
  unfold Sys.requested; infer_instance

/-- `at_process` calls `ATSend(AT_REST)` only where no transmission is requested and
`at_comtest` is not on the way to request one; it retries only where `at_comtest` has not
yet changed the current command or has armed the count for it. -/
def deliversFirst (_ : History Sys Action) (s : Sys) (a : Action) : Prop :=
  (Event.isReset (s, a) → ¬ s.requested ∧ ¬ s.callIn ATSendPc.unposted) ∧
    (Event.processAt .retry (s, a) → 0 < s.currentRty → ¬ s.callIn ATSendPc.unarmed)

instance (h : History Sys Action) (s : Sys) (a : Action) : Decidable (deliversFirst h s a) := by
  unfold deliversFirst; infer_instance

section Invariants

variable {h : History Sys Action} {s s' : Sys} {a : Action}

/-- The last call is current, and it has been transmitted or is going to be. -/
structure Owed (h : History Sys Action) (s : Sys) : Prop where
  current : ∀ c, lastCall h = some c → s.atCurrentCmdNum = c
  owed : delivered h ∨ s.requested ∨ s.callIn ATSendPc.unposted ∨ s.resetIn ATSendPc.unposted

namespace Owed

theorem init {behind : Ram} : Owed [] (Sys.init behind) := by
  constructor <;> simp [lastCall, delivered]

/-- A step that neither calls nor transmits. -/
theorem frame (ho : Owed h s) (hcall : Event.issues (s, a) = false)
    (hcur : s'.atCurrentCmdNum = s.atCurrentCmdNum)
    (howed : s.requested ∨ s.callIn ATSendPc.unposted ∨ s.resetIn ATSendPc.unposted →
      s'.requested ∨ s'.callIn ATSendPc.unposted ∨ s'.resetIn ATSendPc.unposted) :
    Owed ((s, a) :: h) s' := by
  have hlast : lastCall ((s, a) :: h) = lastCall h := by
    simp [lastCall, hcall]
  refine ⟨?_, ho.owed.imp (?_) howed⟩
  · intro c hc
    rw [hcur]; exact ho.current c (hlast ▸ hc)
  · intro hd c hc
    obtain ⟨x, hx, htr⟩ := hd c (hlast ▸ hc)
    exact ⟨x, by simp [hcall, hx], htr⟩

theorem trans (ho : Owed h s) (ht : Trans s a s') : Owed ((s, a) :: h) s' := by
  cases ht
  case callSetCurrent hpc =>
    refine ⟨?_, .inr (.inr (.inl (by simp [Sys.callIn, ATSendPc.unposted])))⟩
    intro c hc
    simpa [lastCall, Event.issues, Event.command, Event.isCall, Event.shellAt, hpc] using hc
  case resetSetCurrent hpc =>
    refine ⟨?_, .inr (.inr (.inr (by simp [Sys.resetIn, ATSendPc.unposted])))⟩
    intro c hc
    simpa [lastCall, Event.issues, Event.command, Event.isCall, Event.shellAt, Event.isReset,
      Event.processAt, hpc] using hc
  case transmit hpc =>
    have hlast : lastCall ((s, .run .atSendThread) :: h) = lastCall h := by
      simp [lastCall, Event.issues, Event.isCall, Event.shellAt, Event.isReset, Event.processAt]
    refine ⟨fun c hc => ho.current c (hlast ▸ hc), .inl ?_⟩
    intro c hc
    refine ⟨(s, .run .atSendThread), ?_, by simp [Event.isTransmit, Event.sendAt, hpc],
      ho.current c (hlast ▸ hc)⟩
    simp [Event.issues, Event.isCall, Event.shellAt, Event.isReset, Event.processAt]
  all_goals
    exact ho.frame
      (by simp [Event.issues, Event.isCall, Event.shellAt, Event.isReset, Event.processAt, *]) rfl
      (by simp [Sys.requested, Sys.callIn, Sys.resetIn, ATSendPc.unposted, *])

end Owed

@[simp] theorem armedFor_cons : armedFor ((s, a) :: h) =
    if Event.arms (s, a) then some s.atCurrentCmdNum else armedFor h := rfl

@[simp] theorem expiredFor_cons : expiredFor ((s, a) :: h) =
    if a = .timer2 ∧ s.atTimeoutCnt = 1 then armedFor h else expiredFor h := by
  simp [expiredFor, Event.expires]

@[simp] theorem resent_cons : resent ((s, a) :: h) ↔
    ¬ (a = .run .atSendThread ∧ s.atSendThread = .transmit) ∧
      ((a = .run .atProcess ∧ s.atProcess = .resend) ∨ resent h) := by
  by_cases ht : a = .run .atSendThread ∧ s.atSendThread = .transmit <;>
    simp [resent, Event.isTransmit, Event.sendAt, Event.processAt, ht]

namespace Sys

/-- `at_process` has a timeout in hand and has not yet stored a new count. -/
def expired (s : Sys) : Prop :=
  match s.atProcess with
  | .dispatch => atTimeoutEvent ∈ s.e
  | .retry | .decrement | .mark | .arm => True
  | .atSend p => p = .setCurrent ∨ p.unarmed
  | _ => False

/-- `at_process` is in its retry branch. -/
def retrying (s : Sys) : Prop :=
  match s.atProcess with
  | .decrement | .mark | .arm | .remove | .insert | .resend => True
  | _ => False

end Sys

/-- The count of a timeout that is posted or in hand is used up. -/
structure Expired (s : Sys) : Prop where
  posted : atTimeoutEvent ∈ s.rx1Event → s.atTimeoutCnt = 0
  inHand : s.expired → s.atTimeoutCnt = 0 ∧ atTimeoutEvent ∉ s.rx1Event

namespace Expired

theorem init {behind : Ram} : Expired (Sys.init behind) := by
  constructor <;> simp [Sys.init]

theorem frame (hx : Expired s) (hcnt : s'.atTimeoutCnt = s.atTimeoutCnt)
    (hset : atTimeoutEvent ∈ s'.rx1Event ↔ atTimeoutEvent ∈ s.rx1Event)
    (he : s'.expired → s.expired) : Expired s' := by
  constructor
  · intro hb
    rw [hcnt]; exact hx.posted (hset.mp hb)
  · intro hb
    rw [hcnt, hset]; exact hx.inHand (he hb)

theorem moves (hk : KernelInv s) (hx : Expired s) (hm : Moves s a s') : Expired s' := by
  obtain ⟨ht, hs⟩ := hm
  cases ht
  case tick _ hlt =>
    exact ⟨fun hb => by have := hx.posted hb; omega, fun he => by have := (hx.inHand he).1; omega⟩
  case expireWake _ h1 hsus =>
    exact ⟨fun _ => rfl, fun _ => ⟨rfl, hk.event.timeout hsus⟩⟩
  case expirePost _ h1 _ =>
    exact ⟨fun _ => rfl, fun he => by have := (hx.inHand he).1; omega⟩
  case processRecv hpc _ =>
    exact ⟨by simp, fun he => ⟨hx.posted (by simpa [Sys.expired] using he), by simp⟩⟩
  case disarm => exact ⟨fun _ => rfl, by simp [Sys.expired]⟩
  case retryArm hpc | resetArm hpc =>
    have hno := (hx.inHand (by simp [Sys.expired, ATSendPc.unarmed, hpc])).2
    exact ⟨fun hb => absurd hb hno, by simp [Sys.expired, ATSendPc.unarmed]⟩
  case callArm hpc =>
    have hsus := (hk.lock.all_suspended (hs _ rfl) (by simp [Sys.critical, hpc])).2.1
    exact ⟨fun hb => absurd hb (hk.event.timeout hsus), by simp [Sys.expired, hsus]⟩
  all_goals
    exact hx.frame rfl (by simp) (by simp [Sys.expired, ATSendPc.unarmed, *])

end Expired

/-- A retry is for the command whose count ran out, from the timeout to the transmission. -/
structure Countdown (h : History Sys Action) (s : Sys) : Prop where
  unarmed : armedFor h = none → s.atTimeoutCnt = 0
  armed : ¬ s.callIn ATSendPc.unarmed → ¬ s.resetIn ATSendPc.unarmed →
    armedFor h = none ∨ armedFor h = some s.atCurrentCmdNum
  posted : atTimeoutEvent ∈ s.rx1Event ∨
      (s.atProcess = .dispatch ∧ atTimeoutEvent ∈ s.e) ∨ s.atProcess = .retry →
    ¬ s.callIn ATSendPc.unarmed → expiredFor h = some s.atCurrentCmdNum
  retrying : s.retrying → ¬ s.callIn ATSendPc.unarmed ∧ expiredFor h = some s.atCurrentCmdNum
  resent : resent h → s.requested ∧ ¬ s.callIn ATSendPc.unarmed ∧
    ¬ s.resetIn ATSendPc.unarmed ∧ expiredFor h = some s.atCurrentCmdNum

namespace Countdown

theorem init {behind : Ram} : Countdown [] (Sys.init behind) := by
  constructor <;> simp [Sys.init, armedFor, Sys.retrying, NanoAt.resent]

theorem frame (hc : Countdown h s) (harms : Event.arms (s, a) = false)
    (hexpires : ¬ (a = .timer2 ∧ s.atTimeoutCnt = 1))
    (hresend : ¬ (a = .run .atProcess ∧ s.atProcess = .resend))
    (hcnt : s.atTimeoutCnt = 0 → s'.atTimeoutCnt = 0)
    (hcur : s'.atCurrentCmdNum = s.atCurrentCmdNum)
    (hcall : s'.callIn ATSendPc.unarmed ↔ s.callIn ATSendPc.unarmed)
    (hreset : s'.resetIn ATSendPc.unarmed ↔ s.resetIn ATSendPc.unarmed)
    (hposted : atTimeoutEvent ∈ s'.rx1Event ∨ (s'.atProcess = .dispatch ∧ atTimeoutEvent ∈ s'.e) ∨
        s'.atProcess = .retry →
      atTimeoutEvent ∈ s.rx1Event ∨ (s.atProcess = .dispatch ∧ atTimeoutEvent ∈ s.e) ∨
        s.atProcess = .retry)
    (hretrying : s'.retrying → s.retrying)
    (hrequested : ¬ (a = .run .atSendThread ∧ s.atSendThread = .transmit) →
      s.requested → s'.requested) : Countdown ((s, a) :: h) s' := by
  obtain ⟨h1, h2, h3, h4, h5⟩ := hc
  constructor <;>
    simp only [armedFor_cons, harms, expiredFor_cons, hexpires, resent_cons, hresend, hcur, hcall,
      hreset, if_false, false_or, Bool.false_eq_true]
  · exact fun h => hcnt (h1 h)
  · exact h2
  · exact fun h => h3 (hposted h)
  · exact fun h => h4 (hretrying h)
  · exact fun ⟨ht, h⟩ => ⟨hrequested ht (h5 h).1, (h5 h).2⟩

/-- A running count was stored for the current command. -/
theorem armedFor_eq (hc : Countdown h s) (hx : Expired s) (hcnt : s.atTimeoutCnt ≠ 0)
    (hcall : ¬ s.callIn ATSendPc.unarmed) : armedFor h = some s.atCurrentCmdNum := by
  have hreset : ¬ s.resetIn ATSendPc.unarmed := by
    intro hreset
    have hexp : s.expired := by
      unfold Sys.resetIn at hreset
      split at hreset
      · next hpc => simp [Sys.expired, hpc, hreset]
      · exact hreset.elim
    exact hcnt (hx.inHand hexp).1
  exact (hc.armed hcall hreset).resolve_left fun hnone => hcnt (hc.unarmed hnone)

theorem moves (hk : KernelInv s) (hx : Expired s) (hc : Countdown h s) (hg : deliversFirst h s a)
    (hm : Moves s a s') : Countdown ((s, a) :: h) s' := by
  obtain ⟨ht, hs⟩ := hm
  cases ht
  case tick _ hlt =>
    exact hc.frame rfl (by simp; omega) (by simp) (fun h0 => by omega) rfl Iff.rfl Iff.rfl id id
      (fun _ => id)
  case expireWake _ h1 hsus =>
    have heq := hc.armedFor_eq hx (by omega)
    refine ⟨fun _ => rfl, fun hcall _ => .inr (heq hcall), ?_, by simp [Sys.retrying], ?_⟩
    · intro _ hcall
      simpa [h1] using heq hcall
    · intro hr
      obtain ⟨hreq, hcall, _, _⟩ := hc.resent (by simpa using hr)
      exact ⟨hreq, hcall, by simp [Sys.resetIn], by simpa [h1] using heq hcall⟩
  case expirePost _ h1 _ =>
    have heq := hc.armedFor_eq hx (by omega)
    refine ⟨fun _ => rfl, fun hcall _ => .inr (heq hcall), ?_, ?_, ?_⟩
    · intro _ hcall
      simpa [h1] using heq hcall
    · intro hr
      have hcall := (hc.retrying hr).1
      exact ⟨hcall, by simpa [h1] using heq hcall⟩
    · intro hr
      obtain ⟨hreq, hcall, hreset, _⟩ := hc.resent (by simpa using hr)
      refine ⟨?_, hcall, hreset, by simpa [h1] using heq hcall⟩
      simpa [Sys.requested] using hreq
  case retryAgain hpc hrty =>
    -- the current command is still the one whose count ran out
    have hcall : ¬ s.callIn ATSendPc.unarmed :=
      hg.2 (by simp [Event.processAt, hpc]) hrty
    have hexp := hc.posted (.inr (.inr hpc)) hcall
    exact ⟨by simpa [Event.arms, Event.shellAt, Event.processAt, hpc] using hc.unarmed,
      fun hcall _ => by
        simpa [Event.arms, Event.shellAt, Event.processAt, hpc] using
          hc.armed hcall (by simp [Sys.resetIn, hpc]),
      fun _ _ => by simpa using hexp, fun _ => ⟨hcall, by simpa using hexp⟩, fun hr =>
        ⟨(hc.resent (by simpa [hpc] using hr)).1, hcall, by simp [Sys.resetIn],
          by simpa using hexp⟩⟩
  case retryArm hpc =>
    obtain ⟨hcall, hexp⟩ := hc.retrying (by simp [Sys.retrying, hpc])
    have harms : Event.arms (s, .run .atProcess) = true := by
      simp [Event.arms, Event.processAt, hpc]
    refine ⟨by simp [harms], fun _ _ => by simp [harms], fun _ _ => by simpa using hexp,
      fun _ => ⟨hcall, by simpa using hexp⟩, ?_⟩
    intro hr
    exact ⟨(hc.resent (by simpa [hpc] using hr)).1, hcall, by simp [Sys.resetIn],
      by simpa using hexp⟩
  case resendWake hpc _ | resendPost hpc _ =>
    obtain ⟨hcall, hexp⟩ := hc.retrying (by simp [Sys.retrying, hpc])
    have hreset : ¬ s.resetIn ATSendPc.unarmed := by simp [Sys.resetIn, hpc]
    exact ⟨by simpa [Event.arms, Event.shellAt, Event.processAt, hpc] using hc.unarmed,
      fun _ _ => by
        simpa [Event.arms, Event.shellAt, Event.processAt, hpc] using hc.armed hcall hreset,
      fun _ _ => by simpa using hexp, by simp [Sys.retrying],
      fun _ => ⟨by simp [Sys.requested], hcall, by simp [Sys.resetIn], by simpa using hexp⟩⟩
  case resetSetCurrent hpc =>
    -- nothing is requested, so no retransmission is outstanding
    have hno := (hx.inHand (by simp [Sys.expired, hpc])).2
    have hreq := (hg.1 (by simp [Event.isReset, Event.processAt, hpc])).1
    exact ⟨by simpa [Event.arms, Event.shellAt, Event.processAt, hpc] using hc.unarmed,
      by simp [Sys.resetIn, ATSendPc.unarmed], fun hb => by simp [hno] at hb,
      by simp [Sys.retrying], fun hr => absurd (hc.resent (by simpa [hpc] using hr)).1 hreq⟩
  case resetArm hpc =>
    have hno := (hx.inHand (by simp [Sys.expired, ATSendPc.unarmed, hpc])).2
    have harms : Event.arms (s, .run .atProcess) = true := by
      simp [Event.arms, Event.processAt, hpc]
    exact ⟨by simp [harms], fun _ _ => by simp [harms], fun hb => by simp [hno] at hb,
      by simp [Sys.retrying], fun hr => absurd (by simp [Sys.resetIn, ATSendPc.unarmed, hpc])
        (hc.resent (by simpa [hpc] using hr)).2.2.1⟩
  case callSetCurrent hpc =>
    -- the shell runs only while `at_send_thread` waits, so nothing is requested
    obtain ⟨_, hsus, hsend⟩ := hk.lock.all_suspended (hs _ rfl) (by simp [Sys.critical, hpc])
    have hno := hk.event.timeout hsus
    have hreq : ¬ s.requested := by simp [Sys.requested, hsend, hk.event.send hsend]
    exact ⟨by simpa [Event.arms, Event.shellAt, Event.processAt, hpc] using hc.unarmed,
      by simp [Sys.callIn, ATSendPc.unarmed], fun hb => by simp [hno, hsus] at hb,
      by simp [Sys.retrying, hsus], fun hr => absurd (hc.resent (by simpa using hr)).1 hreq⟩
  case callArm hpc =>
    obtain ⟨_, hsus, hsend⟩ := hk.lock.all_suspended (hs _ rfl) (by simp [Sys.critical, hpc])
    have hno := hk.event.timeout hsus
    have hreq : ¬ s.requested := by simp [Sys.requested, hsend, hk.event.send hsend]
    have harms : Event.arms (s, .run .shell) = true := by simp [Event.arms, Event.shellAt, hpc]
    exact ⟨by simp [harms], fun _ _ => by simp [harms], fun hb => by simp [hno, hsus] at hb,
      by simp [Sys.retrying, hsus], fun hr => absurd (hc.resent (by simpa using hr)).1 hreq⟩
  all_goals
    exact hc.frame (by simp [Event.arms, Event.shellAt, Event.processAt, *]) (by simp [*])
      (by simp [*]) (by simp) rfl (by simp [Sys.callIn, ATSendPc.unarmed, *])
      (by simp [Sys.resetIn, ATSendPc.unarmed, *]) (by simp +contextual [*])
      (by simp [Sys.retrying, *])
      (by simp [Sys.requested, *])

end Countdown

theorem lastCall_append_cons {l : History Sys Action} {k : Event}
    (hl : ∀ y ∈ l, Event.issues y = false) (hk : Event.issues k = true) :
    lastCall (l ++ k :: h) = some (Event.command k) := by
  induction l with
  | nil => simp [lastCall, hk]
  | cons y l ih =>
    have hy := hl y List.mem_cons_self
    simp [lastCall, hy, ih fun z hz => hl z (List.mem_cons_of_mem _ hz)]

/-- A call is made only where the one before it has been transmitted. -/
theorem Owed.delivered_of_issues (hk : KernelInv s) (ho : Owed h s) (hg : deliversFirst h s a)
    (hsch : ∀ t, a = .run t → s.scheduled t) (hx : Event.issues (s, a) = true) : delivered h := by
  refine ho.owed.resolve_right ?_
  simp only [Event.issues, Bool.or_eq_true] at hx
  rcases hx with hx | hx
  -- a call of `at_comtest`: all other threads wait
  · obtain ⟨ha, hpc⟩ : a = .run .shell ∧ s.shell = .atSend .setCurrent := by
      simpa [Event.isCall, Event.shellAt] using hx
    obtain ⟨_, hsus, hsend⟩ := hk.lock.all_suspended (hsch _ ha) (by simp [Sys.critical, hpc])
    simp [Sys.requested, Sys.callIn, Sys.resetIn, ATSendPc.unposted, hpc, hsus, hsend,
      hk.event.send hsend]
  -- a reset: by the condition
  · obtain ⟨hreq, hcall⟩ := hg.1 hx
    obtain ⟨ha, hpc⟩ : a = .run .atProcess ∧ s.atProcess = .atSend .setCurrent := by
      simpa [Event.isReset, Event.processAt] using hx
    simp [Sys.resetIn, ATSendPc.unposted, hpc, hreq, hcall]

end Invariants

/-- Every call before the last one has been transmitted after it was made. -/
def servedInTurn (h : History Sys Action) : Prop :=
  ∀ l k h₀, h = l ++ k :: h₀ → Event.issues k = true → (∃ k' ∈ l, Event.issues k' = true) →
    ∃ y ∈ l, Event.isTransmit y = true ∧ y.1.atCurrentCmdNum = Event.command k

theorem SysRun.owed {h : History Sys Action} {s : Sys} (hr : SysRun deliversFirst h s) :
    Owed h s ∧ Expired s ∧ Countdown h s := by
  refine hr.invariant (P := fun h s => Owed h s ∧ Expired s ∧ Countdown h s)
    (fun _ => ⟨.init, .init, .init⟩) ?_
  rintro h s a s' hk ⟨ho, hx, hc⟩ hg hm
  exact ⟨ho.trans hm.trans, hx.moves hk hm, hc.moves hk hx hg hm⟩

theorem SysRun.servedInTurn {h : History Sys Action} {s : Sys} (hr : SysRun deliversFirst h s) :
    servedInTurn h := by
  rintro l k h₀ rfl hk hlater
  induction l generalizing s with
  | nil => simp at hlater
  | cons z l ih =>
    cases hr with
    | @step _ s₀ _ a hr hg hstep =>
      have hr : SysRun deliversFirst (l ++ k :: h₀) s₀ := hr
      by_cases hl : ∃ k' ∈ l, Event.issues k' = true
      · obtain ⟨y, hy, htr⟩ := ih hr hl
        exact ⟨y, List.mem_cons_of_mem _ hy, htr⟩
      · -- the step is the first call after `k`
        have hl : ∀ y ∈ l, Event.issues y = false := by simpa using hl
        have hz : Event.issues (s₀, a) = true := by
          obtain ⟨k', hmem, hk'⟩ := hlater
          rcases List.mem_cons.mp hmem with rfl | hmem
          · exact hk'
          · simp [hl k' hmem] at hk'
        have hdel := (SysRun.owed hr).1.delivered_of_issues (SysRun.kernelInv hr) hg
          (fun _ ht => step_scheduled (ht ▸ hstep)) hz
        obtain ⟨y, hy, htr⟩ := hdel _ (lastCall_append_cons hl hk)
        rw [since_append_cons hl hk] at hy
        exact ⟨y, List.mem_cons_of_mem _ hy, htr⟩

/-- Where `at_process` neither resets before the last request is transmitted nor retries
while `at_comtest` is changing the current command, no request is lost: when a command is
transmitted, every earlier call has been served; a retransmission is of the command whose
count ran out; and nothing is owed any more when nobody is at work on it. -/
theorem no_send_request_lost {h : History Sys Action} {x : Event} {s : Sys}
    (hr : SysRun deliversFirst (x :: h) s) :
    (Event.isTransmit x = true → servedInTurn h) ∧
      (Event.isTransmit x = true → resent h → expiredFor h = some x.1.atCurrentCmdNum) ∧
      (s.atProcess = .suspended → s.atSendThread = .suspended → ¬ s.callIn ATSendPc.unposted →
        delivered (x :: h) ∧ ¬ resent (x :: h)) := by
  obtain ⟨ho, _, hc⟩ := hr.owed
  have hk := hr.kernelInv
  refine ⟨?_, ?_, ?_⟩
  · intro _
    cases hr with
    | step hr _ _ => exact SysRun.servedInTurn hr
  · intro _ hre
    cases hr with
    | step hr _ _ => exact ((SysRun.owed hr).2.2.resent hre).2.2.2
  · intro hprocess hsend hcall
    have hreq : ¬ s.requested := by simp [Sys.requested, hsend, hk.event.send hsend]
    refine ⟨ho.owed.resolve_right ?_, fun hre => hreq (hc.resent hre).1⟩
    simp [hreq, hcall, Sys.resetIn, hprocess]

theorem no_send_request_lost_after_retry :
    ∃ h x s, SysRun deliversFirst (x :: h) s ∧ resent h ∧
      expiredFor h = some x.1.atCurrentCmdNum ∧ servedInTurn h := by
  obtain ⟨h, s, hr, ht⟩ := SysRun.exists_of_exec deliversFirst
    (firstCommand ++ List.replicate 500 .timer2 ++ runs .atProcess 9 ++ runs .atSendThread 3)
    (fun h _ => h.head?.any Event.isTransmit ∧ resent h.tail) (by decide +kernel)
  have ht : h.head?.any Event.isTransmit = true ∧ resent h.tail := by simpa using ht
  cases h with
  | nil => simp at ht
  | cons x h =>
    have htr : Event.isTransmit x = true := by simpa using ht.1
    have hserved := no_send_request_lost hr
    exact ⟨h, x, s, hr, ht.2, hserved.2.1 htr ht.2, hserved.1 htr⟩

/-- `at_comtest` is held up between `rt_timer_start` and `rt_event_send` until its count
runs out. No retries are left, so `at_process` overwrites the request with AT_REST, and
AT_ROLE is never transmitted. -/
theorem reset_overtakes_request :
    ¬ ∀ h x s, SysRun free (x :: h) s → Event.isTransmit x = true → servedInTurn h := by
  intro hall
  obtain ⟨h, s, hr, ht⟩ := SysRun.exists_of_exec free
    (startUp ++ [.comtest] ++ runs .shell 7 ++ List.replicate 500 .timer2 ++
      runs .atProcess 12 ++ runs .atSendThread 4)
    (fun h _ => h.head?.any Event.isTransmit && h.tail.all (!Event.isTransmit ·) &&
      (h.tail.filter Event.issues).length == 2) (by decide +kernel)
  cases h with
  | nil => simp at ht
  | cons x h =>
    obtain ⟨⟨htr, hno⟩, htwo⟩ : (Event.isTransmit x = true ∧
        ∀ s a, (s, a) ∈ h → Event.isTransmit (s, a) = false) ∧
          (h.filter Event.issues).length = 2 := by simpa using ht
    -- the two calls of the run, the reset after that of `at_comtest`
    obtain ⟨k', k, hcalls⟩ := List.length_eq_two.mp htwo
    obtain ⟨l₁, l₂, rfl, _, hk', hrest⟩ := List.filter_eq_cons_iff.mp hcalls
    obtain ⟨l₃, l₄, rfl, _, hk, _⟩ := List.filter_eq_cons_iff.mp hrest
    have hserved := hall _ x s hr htr
    obtain ⟨y, hy, htr', _⟩ := hserved (l₁ ++ k' :: l₃) k l₄ (by simp) hk ⟨k', by simp, hk'⟩
    have hmem : y ∈ l₁ ++ k' :: (l₃ ++ k :: l₄) := by
      simp only [List.mem_append, List.mem_cons] at hy ⊢
      tauto
    simp [hno _ _ hmem] at htr'

end NanoAt
