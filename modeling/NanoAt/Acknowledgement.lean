import NanoAt.Observations

/-!
# Whose acknowledgement

`ATCMD_SEND_ACK_OK_EVENT` says that some packet has matched, not for which command, and
it stays posted until the next wait. `ownReplies` is the condition under which it is
the acknowledgement of the command that `at_comtest` waits for.

## Main definitions

- `Sys.called` — `at_comtest` has called `ATSend` and not yet gone on
- `ownReplies` — a match is one for the command called, by the bytes of its packet
-/

namespace NanoAt
open CString GuardedRun Rx1Event

/-- `at_comtest` has made its call of `ATSend` current and waits for the reply, or will. -/
def Sys.called (s : Sys) : Prop :=
  match s.shell with
  | .atSend p => p ≠ .setCurrent
  | .recv | .suspended => True
  | _ => False

instance (s : Sys) : Decidable s.called := by
  unfold Sys.called
  exact match s.shell with
    | .atSend _ | .recv | .suspended | .prompt | .loop | .advance => inferInstance

/-- `at_comtest` calls `ATSend` only while no acknowledgement is posted. A packet matches
only against the keyword of the current command, not for AT_REST while `at_comtest` has a
command outstanding, and by the bytes of the packet itself. -/
def ownReplies (h : History Sys Action) (s : Sys) (a : Action) : Prop :=
  match a, s.atProcess with
  | .run .shell, _ => s.shell = .atSend .setCurrent → atcmdSendAckOkEvent ∉ s.rx1Event
  | .run .atProcess, .search c i j =>
    probe s.memory (atCmds c).atRecStr i j = .found →
      c = s.atCurrentCmdNum ∧ (s.called → c ≠ .atRest) ∧
        (atCmds c).atRecStr <:+: (examined h).getLastD []
  | _, _ => True

instance (h : History Sys Action) (s : Sys) (a : Action) : Decidable (ownReplies h s a) := by
  unfold ownReplies
  generalize s.atProcess = pc
  exact match a with
    | .run .atProcess => by apply @ProcessPc.casesOn _ pc <;> intros <;> infer_instance
    | .run .serial | .run .atSendThread | .run .shell => inferInstance
    | .receive _ | .usart1 | .timer2 | .comtest => inferInstance

/-- The step enters `Rec_WaitAT` with a packet that contains the keyword of `c` while `c`
is the current command. -/
def Event.repliesTo (c : TeATCmdNum) (x : Event) : Prop :=
  Event.processAt .recWait x = true ∧ (atCmds c).atRecStr <:+: x.1.packet ∧
    x.1.atCurrentCmdNum = c

/-- Since the last call of `ATSend` by `at_comtest` a reply to `c` has been examined. -/
def replied (c : TeATCmdNum) (h : History Sys Action) : Prop :=
  ∃ x ∈ since Event.isCall h, Event.repliesTo c x

section Invariants

variable {h : History Sys Action} {s s' : Sys} {a : Action}

/-- The packet being searched was examined after the call, under the present command. -/
def Searched (h : History Sys Action) (s : Sys) : Prop :=
  ∀ c i j, s.atProcess = .search c i j →
    ∃ x ∈ since Event.isCall h, Event.processAt .recWait x = true ∧
      x.1.packet = (examined h).getLastD [] ∧ x.1.atCurrentCmdNum = s.atCurrentCmdNum

/-- The step is not a call of `ATSend` by `at_comtest`. -/
theorem since_isCall_cons (hne : ¬ (a = .run .shell ∧ s.shell = .atSend .setCurrent)) :
    since Event.isCall ((s, a) :: h) = (s, a) :: since Event.isCall h := by
  simp [Event.isCall, Event.shellAt, hne]

theorem replied_cons {c : TeATCmdNum}
    (hne : ¬ (a = .run .shell ∧ s.shell = .atSend .setCurrent)) (hr : replied c h) :
    replied c ((s, a) :: h) := by
  obtain ⟨x, hx, hrep⟩ := hr
  exact ⟨x, by rw [since_isCall_cons hne]; exact List.mem_cons_of_mem _ hx, hrep⟩

namespace Searched

theorem init {behind : Ram} : Searched [] (Sys.init behind) := by
  simp [Searched, Sys.init]

theorem frame (hs : Searched h s) (hne : ¬ (a = .run .shell ∧ s.shell = .atSend .setCurrent))
    (hexam : examined ((s, a) :: h) = examined h)
    (hcur : s'.atCurrentCmdNum = s.atCurrentCmdNum)
    (hpc : ∀ c i j, s'.atProcess = .search c i j → ∃ c i j, s.atProcess = .search c i j) :
    Searched ((s, a) :: h) s' := by
  intro c i j hc
  obtain ⟨c, i, j, hc⟩ := hpc c i j hc
  obtain ⟨x, hx, hrec, hpacket, hcurx⟩ := hs c i j hc
  refine ⟨x, ?_, hrec, hexam ▸ hpacket, hcur ▸ hcurx⟩
  rw [since_isCall_cons hne]
  exact List.mem_cons_of_mem _ hx

theorem moves (hk : KernelInv s) (hi : Searched h s) (hm : Moves s a s') :
    Searched ((s, a) :: h) s' := by
  obtain ⟨ht, hs⟩ := hm
  cases ht
  case recWait hpc =>
    intro c i j _
    refine ⟨(s, .run .atProcess), ?_, by simp [Event.processAt, hpc], by simp [hpc], rfl⟩
    rw [since_isCall_cons (by simp)]
    exact List.mem_cons_self
  case searchNext hpc _ =>
    exact hi.frame (by simp) (by simp [hpc]) rfl (fun _ _ _ _ => ⟨_, _, _, hpc⟩)
  case callSetCurrent hpc =>
    -- the shell runs only while `at_process` waits, so nothing is being searched
    have hsus := (hk.lock.all_suspended (hs _ rfl) (by simp [Sys.critical, hpc])).2.1
    intro c i j hc
    simp [hsus] at hc
  all_goals
    first
      | exact hi.frame (by simp [*]) (by simp [*]) rfl (fun _ _ _ hc => ⟨_, _, _, hc⟩)
      | simp [Searched]

end Searched

/-- The search has succeeded and the acknowledgement is not yet posted. -/
def Sys.matched (s : Sys) : Prop :=
  match s.atProcess with
  | .disarm | .select | .print .. | .clear _ | .ack => True
  | _ => False

/-- An acknowledgement on its way to `at_comtest` is one of the command it has called. -/
structure AckOwned (h : History Sys Action) (s : Sys) : Prop where
  current : s.called → s.atCurrentCmdNum = s.atSendCmdNum ∨ s.atCurrentCmdNum = .atRest
  posted : s.called → atcmdSendAckOkEvent ∈ s.rx1Event ∨ s.matched → replied s.atSendCmdNum h
  taken : s.shell = .advance → replied s.atSendCmdNum h

namespace AckOwned

theorem init {behind : Ram} : AckOwned [] (Sys.init behind) := by
  constructor <;> simp [Sys.init, Sys.called]

theorem frame (ho : AckOwned h s) (hne : ¬ (a = .run .shell ∧ s.shell = .atSend .setCurrent))
    (hcur : s'.atCurrentCmdNum = s.atCurrentCmdNum) (hnum : s'.atSendCmdNum = s.atSendCmdNum)
    (hcalled : s'.called → s.called)
    (hack : atcmdSendAckOkEvent ∈ s'.rx1Event → atcmdSendAckOkEvent ∈ s.rx1Event)
    (hmatched : s'.matched → s.matched) (hadv : s'.shell = .advance → s.shell = .advance) :
    AckOwned ((s, a) :: h) s' where
  current hc := by rw [hcur, hnum]; exact ho.current (hcalled hc)
  posted hc hp := by
    rw [hnum]
    exact replied_cons hne (ho.posted (hcalled hc) (hp.imp hack hmatched))
  taken hs := by rw [hnum]; exact replied_cons hne (ho.taken (hadv hs))

theorem moves (hk : KernelInv s) (hsearch : Searched h s) (ho : AckOwned h s)
    (hg : ownReplies h s a) (hm : Moves s a s') : AckOwned ((s, a) :: h) s' := by
  obtain ⟨ht, hs⟩ := hm
  cases ht
  case callSetCurrent hpc =>
    have hsus := (hk.lock.all_suspended (hs _ rfl) (by simp [Sys.critical, hpc])).2.1
    have hno : atcmdSendAckOkEvent ∉ s.rx1Event := hg hpc
    -- a call starts with no acknowledgement posted and none on its way
    exact ⟨fun _ => .inl rfl, fun _ hp => by simp [Sys.matched, hsus, hno] at hp, by simp⟩
  case searchFound c i j hpc hfound =>
    have hg : c = s.atCurrentCmdNum ∧ (s.called → c ≠ .atRest) ∧
        (atCmds c).atRecStr <:+: (examined h).getLastD [] := by
      simpa [ownReplies, hpc, hfound] using hg
    refine ⟨ho.current, ?_, fun hadv => replied_cons (by simp) (ho.taken hadv)⟩
    intro hc _
    -- the current command is not AT_REST, so it is the one that was called
    have hcur : s.atCurrentCmdNum = s.atSendCmdNum :=
      (ho.current hc).resolve_right (hg.1 ▸ hg.2.1 hc)
    obtain ⟨x, hx, hrec, hpacket, hcurx⟩ := hsearch c i j hpc
    refine replied_cons (by simp) ⟨x, hx, hrec, ?_, hcurx.trans hcur⟩
    rw [hpacket]
    simpa [← hcur, ← hg.1] using hg.2.2
  case resetSetCurrent hpc =>
    -- AT_REST becomes current; what is already posted stays with the command called
    refine ⟨fun _ => .inr rfl, ?_, fun hadv => replied_cons (by simp) (ho.taken hadv)⟩
    intro hc hp
    exact replied_cons (by simp) (ho.posted hc (hp.imp_right (by simp [Sys.matched])))
  case ackWake hpc hsus =>
    have hrep := ho.posted (by simp [Sys.called, hsus]) (.inr (by simp [Sys.matched, hpc]))
    exact ⟨by simp [Sys.called], by simp [Sys.called], fun _ => replied_cons (by simp) hrep⟩
  case ackPost hpc _ =>
    refine ⟨ho.current, ?_, fun hadv => replied_cons (by simp) (ho.taken hadv)⟩
    intro hc _
    exact replied_cons (by simp) (ho.posted hc (.inr (by simp [Sys.matched, hpc])))
  case shellRecv hpc hack =>
    have hrep := ho.posted (by simp [Sys.called, hpc]) (.inl hack)
    exact ⟨by simp [Sys.called], by simp [Sys.called],
      fun _ => replied_cons (by simp [hpc]) hrep⟩
  case comtest => exact ⟨by simp [Sys.called], by simp [Sys.called], by simp⟩
  case shellAdvance => exact ⟨by simp [Sys.called], by simp [Sys.called], by simp⟩
  all_goals
    exact ho.frame (by simp [*]) rfl rfl (by simp [Sys.called, *]) (by simp)
      (by simp [Sys.matched, *]) (by simp [*])

end AckOwned

end Invariants

/-- Where every match is one for the current command by the bytes of its packet, none
counts for AT_REST, and no acknowledgement is left over at a call, `at_comtest` goes on
only after a reply to the command that it has called. -/
theorem acknowledgement_sound {h : History Sys Action} {s : Sys} (hr : SysRun ownReplies h s)
    (hs : s.shell = .advance) :
    ∃ x ∈ since Event.isCall h, Event.repliesTo s.atSendCmdNum x := by
  obtain ⟨_, ho⟩ : Searched h s ∧ AckOwned h s := by
    refine hr.invariant (P := fun h s => Searched h s ∧ AckOwned h s) (fun _ => ⟨.init, .init⟩) ?_
    rintro h s a s' hk ⟨hsearch, ho⟩ hg hm
    exact ⟨hsearch.moves hk hm, ho.moves hk hsearch hg hm⟩
  exact ho.taken hs

theorem acknowledgement_sound_first_reply :
    ∃ h s, SysRun ownReplies h s ∧ s.shell = .advance ∧
      ∃ x ∈ since Event.isCall h, Event.repliesTo s.atSendCmdNum x := by
  obtain ⟨h, s, hr, ht⟩ := SysRun.exists_of_exec ownReplies
    (firstCommand ++ packetIn (ascii "ROLE:1") ++ runs .atProcess 216)
    (fun _ s => s.shell = .advance) (by decide +kernel)
  have hs : s.shell = .advance := by simpa using ht
  exact ⟨h, s, hr, hs, acknowledgement_sound hr hs⟩

/-- The reply to AT_ROLE arrives twice. The second match posts an acknowledgement before
AT_VERS is issued, and `at_comtest` goes on past AT_VERS without any packet since. -/
theorem repeated_reply_acknowledges_next_command :
    ¬ ∀ h s, SysRun free h s → s.shell = .advance →
      ∃ x ∈ since Event.isCall h, Event.repliesTo s.atSendCmdNum x := by
  intro hall
  obtain ⟨h, s, hr, ht⟩ := SysRun.exists_of_exec free
    (firstCommand ++ packetIn (ascii "ROLE:1") ++ runs .atProcess 216 ++
      packetIn (ascii "ROLE:1") ++ runs .atProcess 216 ++ runs .shell 11 ++
      runs .atSendThread 7 ++ runs .shell 1)
    (fun h s => s.shell = .advance ∧ (since Event.isCall h).all (!Event.processAt .recWait ·))
    (by decide +kernel)
  have ht : s.shell = .advance ∧
      ∀ s a, (s, a) ∈ since Event.isCall h → Event.processAt .recWait (s, a) = false := by
    simpa using ht
  obtain ⟨x, hx, hrep, _⟩ := hall h s hr ht.1
  simp [ht.2 _ _ hx] at hrep

end NanoAt
