import NanoAt.AnswerRounds
import NanoAt.RequestRounds

/-!
# The command list runs to completion

The stages and their ranks give the behaviour of `at_comtest` over a lossy module: every
step that changes the state lowers the rank, and short of the last stage there is such a
step. So every maximal run ends with `at_comtest` back at the prompt and with a log that
the sequential loop over the command list produces.

## Main results

- `Stage.lowers`, `Stage.progress` — ranks fall, and only the last stage is at rest
- `command_list_completes` — the commands are transmitted in order and `at_comtest` returns
-/

namespace NanoAt
open CString GuardedRun MaximalRuns RetryLoops Rx1Event

section Stages

variable {s s' : Sys} {w w' : World} {c : TeATCmdNum} {u : ℕ} {r : Rank} {t : Thread}

/-- After `at_comtest` has returned nothing happens any more. -/
theorem Returned.rests (hk : KernelInv w.sys) (hi : Returned w) (hs : LossyStep w w') :
    w' = w := by
  by_contra hne
  have hl := hs.local hk hne hi.line (by simp [hi.send])
  cases hl with
  | @run t s' hsch ht =>
    cases t with
    | serial => exact hsch.1.1 hi.serial
    | atProcess => exact hsch.1.1 hi.process
    | atSendThread => exact hsch.1.1 hi.send
    | shell => exact hsch.1.2 rfl hi.shell
  | tick hlt => simp [hi.disarmed] at hlt
  | expire _ h0 => exact h0 hi.disarmed

/-- Every step that changes the state lowers the rank. -/
theorem Stage.lowers (hk : KernelInv w.sys) (hx : CopyIndex w.sys) (h : Stage r w)
    (hs : LossyStep w w') (hne : w' ≠ w) : Lower r w' := by
  cases h with
  | looping hi => exact hi.lowers (hs.local hk hne hi.line (by simp [hi.send]))
  | calling hi => exact hi.lowers (hs.local hk hne hi.line (by simp [hi.send]))
  | waiting hi => exact hi.lowers (hs.local hk hne hi.line hi.tails.ne_transmit)
  | timingOut hi => exact hi.lowers (hs.local hk hne hi.line (by simp [hi.send]))
  | requesting hi => exact hi.lowers hk hs hne
  | answering hi => exact hi.lowers hk hx hs hne
  | copying hi => exact hi.lowers hx (hs.local hk hne hi.line hi.tails.ne_transmit)
  | handing hi => exact hi.lowers (hs.local hk hne hi.line hi.tails.ne_transmit)
  | examining hi => exact hi.lowers hk (hs.local hk hne hi.line hi.tails.ne_transmit)
  | acknowledged hi =>
    refine hi.lowers hk (hs.local hk hne hi.line ?_)
    intro hpc
    have hsend := hi.send
    simp [hpc] at hsend
  | returned hi => exact absurd (hi.rests hk hs) hne

end Stages

section Progress

variable {s s' : Sys} {w w' : World} {c : TeATCmdNum} {u : ℕ} {r : Rank} {t : Thread}

/-- A statement of a thread changes its program counter. -/
theorem Trans.ne (ht : Trans s (.run t) s') : s' ≠ s := by
  intro he
  have hserial := congrArg Sys.serial he
  have hprocess := congrArg Sys.atProcess he
  have hsend := congrArg Sys.atSendThread he
  have hshell := congrArg Sys.shell he
  cases ht
  case searchNext c i j i' j' hpc hnext =>
    have hsame : i' = i ∧ j' = j := by simpa [hpc] using hprocess
    have := probe_next hnext
    omega
  all_goals simp_all

/-- While the count runs a tick changes it. -/
theorem tick_ne (harmed : 1 ≤ s.atTimeoutCnt) (ht : Trans s .timer2 s') : s' ≠ s := by
  intro he
  have hcnt := congrArg Sys.atTimeoutCnt he
  cases ht
  case tickIdle _ h0 => omega
  case tick _ h1 => exact absurd hcnt (Nat.sub_lt (by omega) Nat.one_pos).ne
  case expireWake _ h1 _ | expirePost _ h1 _ => exact absurd (hcnt.trans h1) Nat.zero_ne_one

theorem Sys.ready_of_critical (hc : s.critical t) : s.ready t := by
  cases t with
  | serial => exact absurd hc id
  | atProcess => rcases hc with h | h <;> simp [Sys.ready, Sys.suspended, h]
  | atSendThread => rcases hc with h | h | h <;> simp [Sys.ready, Sys.suspended, h]
  | shell => rcases hc with h | h <;> simp [Sys.ready, Sys.suspended, h]

/-- While a thread is ready, the scheduler has one to run. -/
theorem LockInv.exists_scheduled (hl : LockInv s) (ht : s.ready t) : ∃ u, s.scheduled u := by
  rcases hl with ⟨h0, _⟩ | ⟨h1, hcur⟩
  -- lock free: the ready thread of highest priority
  · obtain ⟨u, hu, hmin⟩ := Finset.exists_min_image (Finset.univ.filter s.ready) Thread.priority
      ⟨t, by simpa using ht⟩
    refine ⟨u, by simpa using hu, ?_⟩
    rw [if_pos h0]
    intro v hlt hv
    exact absurd (hmin v (by simpa using hv)) (by omega)
  -- lock held: the thread that holds it
  · refine ⟨s.rtCurrentThread, Sys.ready_of_critical ((hcur _).mpr rfl), ?_⟩
    rw [if_neg (by omega)]

theorem keyword_validReply (c : TeATCmdNum) : ValidReply c (atCmds c).atRecStr where
  pos := (atRecStr_valid c).1
  le := (atRecStr_length_le c).trans (by omega)
  nonzero := (atRecStr_valid c).2
  keyword := List.infix_refl _

/-- While a thread is ready, some step changes the state. -/
theorem progress_of_ready (hk : KernelInv w.sys) (ht : w.sys.ready t) :
    ∃ w', LossyStep w w' ∧ w' ≠ w := by
  obtain ⟨t, hsch⟩ := hk.lock.exists_scheduled ht
  have hs : step (.run t) w.sys = some { Sys.runThread t w.sys with rtCurrentThread := t } := by
    simp [step, hsch]
  cases htr : Event.isTransmit (w.sys, .run t) with
  | false =>
    refine ⟨_, .run htr hs, ?_⟩
    intro he
    exact (hk.moves hs).trans.ne (congrArg World.sys he)
  | true =>
    obtain ⟨rfl, hpc⟩ : t = .atSendThread ∧ w.sys.atSendThread = .transmit := by
      simpa [Event.isTransmit, Event.sendAt] using htr
    refine ⟨_, .answered hpc hs (keyword_validReply _), ?_⟩
    intro he
    have := congrArg World.log he
    simp at this

theorem Waiting.progress (hk : KernelInv w.sys) (hi : Waiting c u w) :
    ∃ w', LossyStep w w' ∧ w' ≠ w := by
  by_cases hsend : w.sys.ready .atSendThread
  · exact progress_of_ready hk hsend
  by_cases hshell : w.sys.ready .shell
  · exact progress_of_ready hk hshell
  have hsend : w.sys.atSendThread = .suspended := by simpa [Sys.ready, Sys.suspended] using hsend
  have hshell : w.sys.shell = .suspended := by
    have hne : w.sys.shell ≠ .prompt := by
      rcases hi.tails.shell with h | h | h <;> simp [h]
    simpa [Sys.ready, Sys.suspended, hne] using hshell
  have hs : step .timer2 w.sys = some w.sys.timeout2 := by simp [step, hi.timer2]
  -- all threads wait: the count goes on to run out
  refine ⟨_, .tick (fun _ => ⟨hi.serial, hi.process, hsend, hshell, hi.line⟩) hs, ?_⟩
  intro he
  exact tick_ne hi.armed (hk.moves hs).trans (congrArg World.sys he)

theorem Answering.progress {got rest : List UInt8} (hi : Answering c w got rest) :
    ∃ w', LossyStep w w' ∧ w' ≠ w := by
  cases rest with
  | nil =>
    refine ⟨_, .idle hi.line rfl, ?_⟩
    intro he
    have := congrArg World.line he
    simp [hi.line] at this
  | cons b p =>
    refine ⟨_, .byte hi.line, ?_⟩
    intro he
    have := congrArg World.line he
    simp [hi.line] at this

/-- Short of the last stage some step changes the state. -/
theorem Stage.progress (hk : KernelInv w.sys) (h : Stage r w) (hf : ¬ Returned w) :
    ∃ w', LossyStep w w' ∧ w' ≠ w := by
  cases h with
  | looping hi =>
    exact progress_of_ready hk (t := .shell) (by simp [Sys.ready, Sys.suspended, hi.shell])
  | calling hi =>
    exact progress_of_ready hk (t := .shell) (by simp [Sys.ready, Sys.suspended, hi.shell])
  | waiting hi => exact hi.progress hk
  | timingOut hi =>
    refine progress_of_ready hk (t := .atProcess) ?_
    rcases hi.pc with ⟨h, _⟩ | h | h | h | h | h | h | h <;> simp [Sys.ready, Sys.suspended, h]
  | requesting hi =>
    refine progress_of_ready hk (t := .atSendThread) ?_
    rcases hi.send with h | h | h | h <;> simp [Sys.ready, Sys.suspended, h]
  | answering hi => exact hi.progress
  | copying hi =>
    refine progress_of_ready hk (t := .serial) ?_
    rcases hi.pc with h | h | h | h <;> simp [Sys.ready, Sys.suspended, h]
  | handing hi =>
    refine progress_of_ready hk (t := .serial) ?_
    rcases hi.pc with h | h <;> simp [Sys.ready, Sys.suspended, h]
  | examining hi => exact progress_of_ready hk (t := .atProcess) ⟨hi.process_ne, by simp⟩
  | acknowledged hi =>
    refine progress_of_ready hk (t := .shell) ?_
    rcases hi.shell with ⟨h, _⟩ | ⟨h, _⟩ <;> simp [Sys.ready, Sys.suspended, h]
  | returned hi => exact absurd hi hf

end Progress

/-- The stages, in a world whose firmware satisfies the invariants of the kernel and of
the copy loop. -/
structure RankedStage (r : Rank) (w : World) : Prop where
  kernel : KernelInv w.sys
  index : CopyIndex w.sys
  stage : Stage r w

section Runs

variable {w w' : World} {r : Rank}

theorem RankedStage.start (hs : TestStart w) :
    RankedStage (rank .atRole 0 9 0 w.sys.atTimeoutCnt) w := by
  refine ⟨hs.kernel, ?_, .looping ?_⟩
  · constructor <;> simp [hs.serial, hs.processP]
  · exact { hs with
      kk := hs.kk, le := by simp [TeATCmdNum.val], disarmed := hs.atTimeoutCnt
      log := by rw [World.Logged, hs.log]; exact .start }

theorem RankedStage.step (hi : RankedStage r w) (hs : LossyStep w w') (hne : w' ≠ w) :
    ∃ r' < r, RankedStage r' w' := by
  obtain ⟨a, hm⟩ := hs.moves hi.kernel
  obtain ⟨r', hlt, hr'⟩ := hi.stage.lowers hi.kernel hi.index hs hne
  exact ⟨r', hlt, hi.kernel.of_moves hm, hi.index.trans hm.trans, hr'⟩

/-- In no stage `at_process` is inside `ATSend(AT_REST)`. -/
theorem Stage.no_reset (h : Stage r w) (p : ATSendPc) : w.sys.atProcess ≠ .atSend p := by
  intro hpc
  cases h with
  | looping hi => simp [hi.process] at hpc
  | calling hi => simp [hi.process] at hpc
  | waiting hi => simp [hi.process] at hpc
  | timingOut hi =>
    have := hi.pc
    simp [hpc] at this
  | requesting hi =>
    have := hi.process
    simp [hpc] at this
  | answering hi => simp [hi.process] at hpc
  | copying hi => simp [hi.process] at hpc
  | handing hi => simp [hi.process] at hpc
  | examining hi =>
    have := hi.pc
    simp [hpc] at this
  | acknowledged hi =>
    have := hi.process
    simp [hpc] at this
  | returned hi => simp [hi.process] at hpc

/-- The commands are transmitted in the order of the list, each one once more than it went
unanswered. -/
theorem Returned.order (hi : Returned w) :
    w.log.map Prod.fst =
      commands.flatMap fun c => List.replicate (1 + unanswered w.log c) c := by
  have := RetryLoop.order hi.log commands_nodup
  simpa [commands] using this

end Runs

/-- The command list over a lossy module: whatever answers are lost, whatever the others
contain and however threads and interrupts interleave, `at_process` never resets the module,
and `at_comtest` returns after the commands have been transmitted in order, each one once
more than it went unanswered. -/
theorem command_list_completes {f : ℕ → World} (hstart : TestStart (f 0))
    (hf : MaximalRun LossyStep f) :
    (∀ n p, (f n).sys.atProcess ≠ .atSend p) ∧
      ∃ n, ∀ m, n ≤ m → (f m).sys.shell = .prompt ∧ (f m).sys.kk = 9 ∧
        (f m).log.map Prod.fst =
          commands.flatMap fun c => List.replicate (1 + unanswered (f m).log c) c := by
  have h0 := RankedStage.start hstart
  have hstep : ∀ r w w', RankedStage r w → LossyStep w w' → w' ≠ w →
      ∃ r' < r, RankedStage r' w' := fun _ _ _ hi hs hne => hi.step hs hne
  have hinv := hf.invariant h0 hstep
  constructor
  · intro n p
    obtain ⟨r, hr⟩ := hinv n
    exact hr.stage.no_reset p
  · have hprogress : ∀ r w, RankedStage r w → ¬ Returned w → ∃ w', LossyStep w w' ∧ w' ≠ w :=
      fun _ _ hi hno => hi.stage.progress hi.kernel hno
    obtain ⟨n, hn⟩ := hf.reaches h0 hstep hprogress
    obtain ⟨r, hr⟩ := hinv n
    refine ⟨n, ?_⟩
    intro m hm
    rw [hf.stays (fun w' hs => hn.rests hr.kernel hs) hm]
    exact ⟨hn.shell, hn.kk, hn.order⟩

/-- The first call of `at_comtest` after power-on meets the conditions. -/
theorem exists_testStart : ∃ w, TestStart w ∧ ∃ h, SysRun withinCapacity h w.sys := by
  obtain ⟨h, s, hr, ht⟩ := SysRun.exists_of_exec withinCapacity (startUp ++ [.comtest])
    (fun h s => s.shell = .loop ∧ s.kk = 0 ∧ s.atSendCmdNum = .atRole ∧ s.serial = .suspended ∧
      s.atProcess = .suspended ∧ s.atSendThread = .suspended ∧ s.rx1Event = ∅ ∧
      s.atTimeoutCnt = 0 ∧ received h = []) (by decide +kernel)
  obtain ⟨hshell, hkk, hnum, hserial, hprocess, hsend, hrx, hcnt, hreceived⟩ :
      s.shell = .loop ∧ s.kk = 0 ∧ s.atSendCmdNum = .atRole ∧ s.serial = .suspended ∧
      s.atProcess = .suspended ∧ s.atSendThread = .suspended ∧ s.rx1Event = ∅ ∧
      s.atTimeoutCnt = 0 ∧ received h = [] := by simpa using ht
  obtain ⟨hx, hp, _, _⟩ := SysRun.queueInv (fun _ _ _ hg => hg) hr
  have hannounced : announced h = [] := List.prefix_nil.mp (hreceived ▸ hp.announced_prefix)
  have hqueue : Queue s [] 0 := by simpa [hreceived, hannounced] using hp.queue
  exact ⟨⟨s, [], []⟩, ⟨hr.kernelInv, hshell, hkk, hnum, hserial, hprocess, hsend, hrx, hcnt,
    hx.idle (by simp [Sys.copying, hserial]), hqueue, rfl, rfl⟩, h, hr⟩

theorem command_list_completes_from_power_on :
    ∃ f, TestStart (f 0) ∧ MaximalRun LossyStep f ∧ (∃ h, SysRun withinCapacity h (f 0).sys) ∧
      ∃ n, (f n).sys.shell = .prompt := by
  obtain ⟨w, hw, hr⟩ := exists_testStart
  obtain ⟨f, rfl, hf⟩ := exists_maximalRun LossyStep w
  obtain ⟨n, hn⟩ := (command_list_completes hw hf).2
  exact ⟨f, hw, hf, hr, n, (hn n le_rfl).1⟩

end NanoAt
