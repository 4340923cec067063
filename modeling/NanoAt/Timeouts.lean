import NanoAt.KernelRuns

/-!
# Waiting times

A thread that sleeps, or waits for an IPC object for a limited time, is made ready by the tick
at which its time is up, unless it is woken before. Whatever other threads and interrupts do
leaves its timer alone.

## Main definitions

- `Still` — a suspended thread is made ready, or its timer is left alone
- `RtCall.limit` — the time for which a call may suspend its caller

## Main results

- `Rtos.times_out_on_time` — a waiting thread times out at the tick its time names
-/

namespace NanoAt

open DeadlineList Queues GuardedRun Timers

namespace Scheduler

variable {T B : Type} {k k' k'' : Scheduler T B} {t u : T}
  {i : IpcName} {p : Fin 32} {x : RtThread B} {flag : IpcFlag} {time : ℤ} {n : UInt32}

/-- A suspended thread is made ready, or its timer is left alone. -/
def Still (k k' : Scheduler T B) (t : T) : Prop :=
  (k.thread t).stat = .suspend → (k'.thread t).stat = .ready ∨
    (k'.thread t).stat = .suspend ∧ Untouched k.threadTimers k'.threadTimers t

section Stillness

theorem still_of_timers (hstat : (k'.thread t).stat = (k.thread t).stat)
    (htimers : k'.threadTimers = k.threadTimers) : Still k k' t := by
  intro hs
  right
  rw [hstat, htimers]
  exact ⟨hs, .refl⟩

/-- Two steps, the second of which suspends nobody. -/
theorem Still.trans (h : Still k k' t) (h' : Still k' k'' t)
    (hready : (k'.thread t).stat = .ready → (k''.thread t).stat = .ready) : Still k k'' t := by
  intro hs
  obtain hr | ⟨hs', hu⟩ := h hs
  · exact .inl (hready hr)
  · obtain hr | ⟨hs'', hu'⟩ := h' hs'
    · exact .inl hr
    · exact .inr ⟨hs'', hu.trans hu'⟩

variable [DecidableEq T]

theorem still_setThread (hx : x.stat = (k.thread u).stat) : Still k (k.setThread u x) t := by
  refine still_of_timers ?_ rfl
  by_cases ht : t = u
  · subst ht
    rw [setThread_thread_self, hx]
  · rw [setThread_thread_of_ne ht]

theorem Sound.untouched_stopTimer (h : Sound k) (hne : t ≠ u) :
    Untouched k.threadTimers (k.threadTimers.rtTimerStop u).2 t :=
  Untouched.call (c := TimerCall.stop u) h.timed.armed (by norm_num) (Ne.symm hne) rfl

theorem Sound.still_resume (h : Sound k) : Still k (k.rtThreadResume u).2 t := by
  intro hs
  by_cases hu : (k.thread u).stat = .suspend
  · have hres := resumed_rtThreadResume hu
    by_cases ht : t = u
    · subst ht
      left
      rw [hres.self]
    · right
      refine ⟨by rw [hres.others t ht, hs], ?_⟩
      rw [rtThreadResume_of_suspend hu]
      exact h.untouched_stopTimer ht
  · rw [rtThreadResume_of_not_suspend hu]
    exact .inr ⟨hs, .refl⟩

theorem Sound.still_suspend (h : Sound k) : Still k (k.rtThreadSuspend u).2 t := by
  intro hs
  by_cases hu : (k.thread u).stat = .ready
  · have ht : t ≠ u := by
      rintro rfl
      rw [hu] at hs
      cases hs
    right
    refine ⟨by rw [rtThreadSuspend_others ht, hs], ?_⟩
    rw [rtThreadSuspend_of_ready hu, stopTimer_threadTimers, setThread_threadTimers,
      rtScheduleRemoveThread_threadTimers, assertType_threadTimers]
    exact h.untouched_stopTimer ht
  · rw [rtThreadSuspend_of_not_ready hu]
    exact .inr ⟨hs, .refl⟩

theorem startTimer_calls (hs : k.startTimer u n = some k') :
    k'.thread = k.thread ∧
      k.threadTimers.calls [.control u (.setTime n), .start u] = some k'.threadTimers := by
  rw [Scheduler.startTimer, Option.map_eq_some_iff] at hs
  obtain ⟨timers, ht, rfl⟩ := hs
  refine ⟨rfl, ?_⟩
  simp [calls, Timers.call, ht]

theorem still_startTimer (ha : k.threadTimers.Armed 0) (hne : t ≠ u)
    (hs : k.startTimer u n = some k') : Still k k' t := by
  obtain ⟨hthread, hcalls⟩ := startTimer_calls hs
  intro hsusp
  right
  rw [hthread]
  refine ⟨hsusp, Untouched.calls ha (by norm_num) le_rfl ?_ hcalls⟩
  intro c hc
  obtain rfl | rfl : c = .control u (.setTime n) ∨ c = .start u := by simpa using hc
  · exact Ne.symm hne
  · exact Ne.symm hne

/-- `rt_ipc_list_suspend` does to threads and timers what `rt_thread_suspend` does. -/
theorem rtIpcListSuspend_eq (k : Scheduler T B) (i : IpcName) (u : T) (flag : IpcFlag) :
    (rtIpcListSuspend k i u flag).thread = (k.rtThreadSuspend u).2.thread ∧
      (rtIpcListSuspend k i u flag).threadTimers = (k.rtThreadSuspend u).2.threadTimers := by
  cases flag <;> exact ⟨rfl, rfl⟩

theorem Sound.still_wait (h : Sound k) (hu : (k.thread u).stat = .ready)
    (hs : NanoAt.wait k i u flag time = some k') : Still k k' t := by
  obtain ⟨hthread, htimers⟩ := rtIpcListSuspend_eq k i u flag
  obtain ⟨hsound, hblock⟩ : Sound (NanoAt.rtIpcListSuspend k i u flag) ∧
      Blocked k (NanoAt.rtIpcListSuspend k i u flag) i u := h.rtIpcListSuspend hu
  have hlist : Still k (NanoAt.rtIpcListSuspend k i u flag) t := by
    intro hsusp
    rw [hthread, htimers]
    exact h.still_suspend hsusp
  rw [NanoAt.wait] at hs
  split at hs
  · intro hsusp
    have ht : t ≠ u := by
      rintro rfl
      rw [hu] at hsusp
      cases hsusp
    refine hlist.trans (still_startTimer hsound.timed.armed ht hs) (fun hr => ?_) hsusp
    rw [(startTimer_calls hs).1]
    exact hr
  · rw [Option.some.injEq] at hs
    exact hs ▸ hlist

theorem Sound.still_sleep (h : Sound k) (hr : (k.thread k.rtCurrentThread).stat = .ready)
    (hs : k.rtThreadSleep n = some k') : Still k k' t := by
  have h₁ : Sound (k.assertType k.rtCurrentThread) := h.assertType
  have hsuspend : Still k ((k.assertType k.rtCurrentThread).rtThreadSuspend k.rtCurrentThread).2 t :=
    h₁.still_suspend
  intro hsusp
  have ht : t ≠ k.rtCurrentThread := by
    rintro rfl
    rw [hr] at hsusp
    cases hsusp
  refine hsuspend.trans (still_startTimer h₁.rtThreadSuspend.timed.armed ht hs) (fun hr => ?_) hsusp
  rw [(startTimer_calls hs).1]
  exact hr

theorem Sound.still_startup (h : Sound k) (hs : k.rtThreadStartup u = some k') : Still k k' t := by
  rw [Scheduler.rtThreadStartup] at hs
  split at hs
  · next hinit =>
    rw [Option.some.injEq] at hs
    subst hs
    intro hsusp
    have ht : t ≠ u := by
      rintro rfl
      rw [hinit] at hsusp
      cases hsusp
    have hset : Sound ((k.assertType u).setThread u { k.thread u with
        currentPriority := (k.thread u).initPriority
        numberMask := BitVec.twoPow 32 (k.thread u).initPriority
        stat := .suspend }) := by
      have hloose := (h.assertType (t := u)).outside (t := u) (by simp [hinit]) (by simp [hinit])
      exact (hloose.setThread fun _ => rfl).settle (by simp)
    refine hset.still_resume ?_
    rw [setThread_thread_of_ne ht, assertType_thread, hsusp]
  · cases hs

theorem still_exit (hready : (k.thread k.rtCurrentThread).stat = .ready) :
    Still k k.rtThreadExit t := by
  intro hs
  have ht : t ≠ k.rtCurrentThread := by
    rintro rfl
    rw [hready] at hs
    cases hs
  right
  constructor
  · rw [rtThreadExit_others ht, hs]
  · show Untouched _ ((k.rtScheduleRemoveThread _).threadTimers.remove _) t
    rw [rtScheduleRemoveThread_threadTimers]
    exact untouched_remove ht

theorem still_control : Still k (k.rtThreadControl u p) t :=
  still_of_timers rtThreadControl_stat rtThreadControl_threadTimers

theorem Sound.still_resumeWithError (h : Sound k) : Still k (NanoAt.resumeWithError k u) t := by
  have hset : Sound (k.setThread u { k.thread u with error := .error }) :=
    h.setThread rfl (fun _ => rfl) fun hx => h.mask u hx
  have hwrite : Still k (k.setThread u { k.thread u with error := .error }) t :=
    still_setThread rfl
  exact hwrite.trans hset.still_resume Rtos.staysReady_resume

theorem Sound.still_resumeAll (h : Sound k) : Still k (NanoAt.rtIpcListResumeAll k i) t := by
  rw [NanoAt.rtIpcListResumeAll]
  generalize k.list (.suspend i) = l
  induction l generalizing k with
  | nil => exact still_of_timers rfl rfl
  | cons u l ih =>
    exact h.still_resumeWithError.trans (ih h.resumeWithError)
      Rtos.staysReady_foldl_resumeWithError

/-- The timer of a thread that starts to wait. -/
theorem onTime_startTimer (ha : k.threadTimers.Timed) (hs : k.startTimer t n = some k') :
    ∃ x, x.periodic = false ∧ x.initTick = n ∧ OnTime x 0 k'.threadTimers t := by
  rw [Scheduler.startTimer, Option.map_eq_some_iff] at hs
  obtain ⟨timers, ht, rfl⟩ := hs
  have hcontrol : k.threadTimers.call (.control t (.setTime n)) =
      some (k.threadTimers.rtTimerControl t (.setTime n)) := rfl
  have ha' := (ha.armed.call (by norm_num) le_rfl hcontrol).1
  refine ⟨_, ?_, ?_, (started_of_start ht).onTime ha' (by norm_num)⟩
  · rw [rtTimerControl, setTimer_timer_self]
    exact ha.oneshot t
  · rw [rtTimerControl, setTimer_timer_self]

end Stillness

end Scheduler

/-- The time for which a call suspends its caller at most, if it does. -/
def RtCall.limit {T B : Type} : RtCall T B → Option UInt32
  | .sleep tick => some tick
  | .eventRecv _ _ _ time | .semTake _ time | .mutexTake _ time =>
    if 0 < time then some (UInt32.ofNat time.toNat) else none
  | _ => none

namespace Rtos

open Scheduler

variable {T B : Type} [DecidableEq T] [DecidableEq B] {s s' s₀ s₁ : Rtos T B} {t u idle : T}
  {m : ℕ} {c : RtCall T B} {a : RtAction T B} {h h₁ h₂ : History (Rtos T B) (RtAction T B)}
  {n : UInt32}

theorem still_eventWake (hs : s.scheduler.Sound) :
    Still s.scheduler (eventWake m s u).scheduler t := by
  by_cases hsat : s.Satisfied m u
  · have hwrite : Still s.scheduler (s.scheduler.setThread u
        { s.scheduler.thread u with eventSet := s.receives m u }) t := still_setThread rfl
    rw [eventWake_of_satisfied hsat]
    exact hwrite.trans (sound_setReceives hs).still_resume staysReady_resume
  · rw [eventWake_of_not_satisfied hsat]
    exact still_of_timers rfl rfl

theorem still_eventSend {set : Finset B} (hs : s.scheduler.Sound) :
    Still s.scheduler (s.rtEventSend m set).2.scheduler t := by
  have hready : ∀ (l : List T) (s : Rtos T B),
      StaysReady s.scheduler (l.foldl (eventWake m) s).scheduler t := by
    intro l
    induction l with
    | nil => exact fun _ => id
    | cons u l ih => exact fun s => staysReady_eventWake.trans (ih _)
  have hfold : ∀ (l : List T) (s : Rtos T B), s.scheduler.Sound →
      Still s.scheduler (l.foldl (eventWake m) s).scheduler t := by
    intro l
    induction l with
    | nil => exact fun _ _ => still_of_timers rfl rfl
    | cons u l ih =>
      exact fun s hs => (still_eventWake hs).trans (ih _ (sound_eventWake hs)) (hready l _)
  rw [Rtos.rtEventSend]
  split
  · exact still_of_timers rfl rfl
  · exact hfold _ { s with event := Function.update s.event m (s.event m ∪ set) } hs

omit [DecidableEq B] in
theorem still_raisePriority {k : Scheduler T B} {p : Fin 32} :
    Still k (raisePriority k u p) t := by
  rw [raisePriority]
  split
  · exact still_control
  · exact still_of_timers rfl rfl

omit [DecidableEq B] in
theorem still_mutexRelease (hs : s.scheduler.Sound) :
    Still s.scheduler (s.rtMutexRelease m).2.scheduler t := by
  have hhand : ∀ s : Rtos T B, s.scheduler.Sound →
      Still s.scheduler (s.handOver m).scheduler t := by
    intro s hs
    rw [handOver]
    split
    · exact hs.still_resume
    · exact still_of_timers rfl rfl
  rw [Rtos.rtMutexRelease]
  dsimp only
  split
  · split
    · let j := { s.mutex m with hold := (s.mutex m).hold - 1 }
      let k := restorePriority s.scheduler s.current (s.mutex m).originalPriority
      have hrestore : Still s.scheduler k t := by
        show Still s.scheduler (restorePriority s.scheduler s.current _) t
        cases (s.mutex m).originalPriority with
        | none => exact still_of_timers rfl rfl
        | some p =>
          rw [restorePriority]
          split
          · exact still_control
          · exact still_of_timers rfl rfl
      have hsound : k.Sound := sound_restorePriority hs
      exact hrestore.trans (hhand { s.setMutex m j with scheduler := k } hsound)
        (staysReady_handOver (s := { s.setMutex m j with scheduler := k }))
    · exact still_of_timers rfl rfl
  · exact still_setThread rfl

omit [DecidableEq B] in
/-- The running thread joins a suspend list after what leaves the other threads alone. -/
theorem still_block {k k' : Scheduler T B} {i : IpcName} {flag : IpcFlag} {time : ℤ}
    (hready : (s.scheduler.thread s.current).stat = .ready) (hk : Still s.scheduler k t)
    (hsound : k.Sound) (hready' : (k.thread s.current).stat = .ready)
    (hs : wait k i s.current flag time = some k') : Still s.scheduler k' t := by
  intro hsusp
  have ht : t ≠ s.current := by
    rintro rfl
    rw [hready] at hsusp
    cases hsusp
  obtain ⟨-, hblock⟩ := hsound.wait hready' hs
  refine hk.trans (hsound.still_wait hready' hs) (fun hr => ?_) hsusp
  rw [hblock.others t ht]
  exact hr

theorem still_call (h : Served s)
    (hready : c.OfCurrent → (s.scheduler.thread s.current).stat = .ready)
    (hs : s.call c = some s') : Still s.scheduler s'.scheduler t := by
  have herror : ∀ err, Still s.scheduler (s.setError s.current err).scheduler t := fun _ =>
    still_setThread rfl
  have hs₁ : Served (s.setError s.current .eok) := h.setError
  cases c with
  | startup u =>
    simp only [Rtos.call, Option.map_eq_some_iff] at hs
    obtain ⟨k, hk, rfl⟩ := hs
    exact h.sound.still_startup hk
  | yield =>
    simp only [Rtos.call, Option.some.injEq] at hs
    subst hs
    refine still_of_timers ?_ h.sound.sliced_rtThreadYield.threadTimers
    rw [show s.scheduler.rtThreadYield.thread = _ from rtThreadYield_thread]
  | sleep tick =>
    simp only [Rtos.call, Option.map_eq_some_iff] at hs
    obtain ⟨k, hk, rfl⟩ := hs
    exact h.sound.still_sleep (hready trivial) hk
  | suspend u =>
    simp only [Rtos.call, Option.some.injEq] at hs
    subst hs
    exact h.sound.still_suspend
  | resume u =>
    simp only [Rtos.call, Option.some.injEq] at hs
    subst hs
    exact h.sound.still_resume
  | control u p =>
    simp only [Rtos.call, Option.some.injEq] at hs
    subst hs
    exact still_control
  | exit =>
    simp only [Rtos.call, Option.some.injEq] at hs
    subst hs
    exact still_exit (hready trivial)
  | enterCritical | exitCritical =>
    simp only [Rtos.call, Option.some.injEq] at hs
    subst hs
    exact still_of_timers rfl rfl
  | eventSend m set =>
    simp only [Rtos.call, Option.some.injEq] at hs
    exact hs ▸ still_eventSend h.sound
  | eventRecv m set option time =>
    simp only [Rtos.call, Option.map_eq_some_iff] at hs
    obtain ⟨⟨r, k⟩, hk, rfl⟩ := hs
    have hready₁ : ((s.setError s.current .eok).scheduler.thread s.current).stat = .ready :=
      setError_stat.trans (hready trivial)
    obtain rfl | ⟨rest, -, rfl⟩ | ⟨-, rfl⟩ | ⟨x, k', -, -, hx, hk', rfl⟩ := rtEventRecv_cases hk
    · exact still_of_timers rfl rfl
    · exact herror _
    · exact still_of_timers (setError_stat.trans setError_stat) rfl
    · have hs₂ := hs₁.setReady hready₁ hx
      have hset : Still s.scheduler
          ((s.setError s.current .eok).scheduler.setThread s.current x) t := by
        refine (herror .eok).trans (still_setThread (by rw [hx])) fun hr => ?_
        by_cases ht : t = s.current
        · rw [ht, setThread_thread_self, hx]
          exact hready₁
        · rw [setThread_thread_of_ne ht]
          exact hr
      have hready₂ := ready_setReady hready₁ hx
      exact still_block (hready trivial) hset hs₂.sound hready₂ hk'
  | eventControl m =>
    simp only [Rtos.call, Option.some.injEq] at hs
    exact hs ▸ h.sound.still_resumeAll
  | semTake m time =>
    simp only [Rtos.call, Option.map_eq_some_iff] at hs
    obtain ⟨⟨r, k⟩, hk, rfl⟩ := hs
    obtain ⟨-, rfl⟩ | ⟨-, rfl⟩ | ⟨k', -, -, hk', rfl⟩ := rtSemTake_cases hk
    · exact still_of_timers rfl rfl
    · exact still_of_timers rfl rfl
    · exact still_block (hready trivial) (herror _) hs₁.sound
        (setError_stat.trans (hready trivial)) hk'
  | semRelease m =>
    simp only [Rtos.call, Option.some.injEq] at hs
    subst hs
    rw [Rtos.rtSemRelease]
    split
    · exact h.sound.still_resume
    · exact still_of_timers rfl rfl
  | semControl m value =>
    simp only [Rtos.call, Option.some.injEq] at hs
    exact hs ▸ h.sound.still_resumeAll
  | mutexTake m time =>
    simp only [Rtos.call, Option.map_eq_some_iff] at hs
    obtain ⟨⟨r, k⟩, hk, rfl⟩ := hs
    obtain ⟨-, -, rfl⟩ | ⟨-, -, -, rfl⟩ | ⟨-, -, rfl⟩ | ⟨owner, k', -, -, -, -, hk', rfl⟩ :=
      rtMutexTake_cases hk
    · exact herror _
    · exact herror _
    · exact still_of_timers (setError_stat.trans setError_stat) rfl
    · have hready₁ : ((s.setError s.current .eok).scheduler.thread s.current).stat = .ready :=
        setError_stat.trans (hready trivial)
      refine still_block (hready trivial) ((herror .eok).trans still_raisePriority
        staysReady_raisePriority) (sound_raisePriority hs₁.sound) ?_ hk'
      exact raisePriority_stat.trans hready₁
  | mutexRelease m =>
    simp only [Rtos.call, Option.some.injEq] at hs
    exact hs ▸ still_mutexRelease h.sound

section Limits

/-- Whether an action is a tick. -/
def isTick : RtAction T B → Bool
  | .tick => true
  | .call _ | .schedule => false

/-- The ticks of a history. -/
def ticks (h : History (Rtos T B) (RtAction T B)) : ℕ := h.countP fun x => isTick x.2

omit [DecidableEq T] [DecidableEq B] in
theorem ofCurrent_of_limit (hc : c.limit = some n) : c.OfCurrent := by
  cases c with
  | sleep | eventRecv | semTake | mutexTake => trivial
  | startup | yield | suspend | resume | control | exit | enterCritical | exitCritical | eventSend
  | eventControl | semRelease | semControl | mutexRelease => cases hc

omit [DecidableEq B] in
/-- The time limit of a wait starts the caller's timer. -/
theorem wait_limit {k k' : Scheduler T B} {i : IpcName} {flag : IpcFlag} {time : ℤ}
    (hk : k.Sound) (ht : (k.thread t).stat = .ready) (hs : wait k i t flag time = some k')
    (htime : 0 < time) : ∃ x, x.periodic = false ∧ x.initTick = UInt32.ofNat time.toNat ∧
      OnTime x 0 k'.threadTimers t := by
  obtain ⟨hsound, -⟩ : Sound (rtIpcListSuspend k i t flag) ∧
      Blocked k (rtIpcListSuspend k i t flag) i t := hk.rtIpcListSuspend ht
  rw [NanoAt.wait, if_pos htime] at hs
  exact onTime_startTimer hsound.timed hs

theorem limit_eq {time : ℤ} (h : (if 0 < time then some (UInt32.ofNat time.toNat) else none) =
    some n) : 0 < time ∧ n = UInt32.ofNat time.toNat := by
  split at h
  · next hpos =>
    rw [Option.some.injEq] at h
    exact ⟨hpos, h.symm⟩
  · cases h

/-- A call that suspends its caller for a limited time starts the caller's timer. -/
theorem onTime_call (h : Served s) (hc : c.limit = some n)
    (hready : (s.scheduler.thread s.current).stat = .ready) (hs : s.call c = some s')
    (hwait : (s'.scheduler.thread s.current).stat = .suspend) :
    ∃ x, x.periodic = false ∧ x.initTick = n ∧
      OnTime x 0 s'.scheduler.threadTimers s.current := by
  have hs₁ : Served (s.setError s.current .eok) := h.setError
  have hready₁ : ((s.setError s.current .eok).scheduler.thread s.current).stat = .ready :=
    setError_stat.trans hready
  cases c with
  | sleep tick =>
    simp only [RtCall.limit, Option.some.injEq] at hc
    subst hc
    simp only [Rtos.call, Option.map_eq_some_iff] at hs
    obtain ⟨k, hk, rfl⟩ := hs
    exact onTime_startTimer h.sound.assertType.rtThreadSuspend.timed hk
  | eventRecv m set option time =>
    obtain ⟨htime, rfl⟩ := limit_eq hc
    simp only [Rtos.call, Option.map_eq_some_iff] at hs
    obtain ⟨⟨r, k⟩, hk, rfl⟩ := hs
    obtain rfl | ⟨rest, -, rfl⟩ | ⟨-, rfl⟩ | ⟨x, k', -, -, hx, hk', rfl⟩ := rtEventRecv_cases hk
    · rw [hready] at hwait
      cases hwait
    · rw [show ((s.setError s.current .eok).scheduler.thread s.current).stat = _ from hready₁]
        at hwait
      cases hwait
    · rw [setError_stat, hready₁] at hwait
      cases hwait
    · have hs₂ := hs₁.setReady hready₁ hx
      have hready₂ := ready_setReady hready₁ hx
      exact wait_limit hs₂.sound hready₂ hk' htime
  | semTake m time =>
    obtain ⟨htime, rfl⟩ := limit_eq hc
    simp only [Rtos.call, Option.map_eq_some_iff] at hs
    obtain ⟨⟨r, k⟩, hk, rfl⟩ := hs
    obtain ⟨-, rfl⟩ | ⟨-, rfl⟩ | ⟨k', -, -, hk', rfl⟩ := rtSemTake_cases hk
    · rw [show (s.scheduler.thread s.current).stat = _ from hready] at hwait
      cases hwait
    · rw [hready] at hwait
      cases hwait
    · exact wait_limit hs₁.sound hready₁ hk' htime
  | mutexTake m time =>
    obtain ⟨htime, rfl⟩ := limit_eq hc
    simp only [Rtos.call, Option.map_eq_some_iff] at hs
    obtain ⟨⟨r, k⟩, hk, rfl⟩ := hs
    obtain ⟨-, -, rfl⟩ | ⟨-, -, -, rfl⟩ | ⟨-, -, rfl⟩ | ⟨owner, k', -, -, -, -, hk', rfl⟩ :=
      rtMutexTake_cases hk
    · have hwait : ((s.setError s.current .eok).scheduler.thread s.current).stat = _ := hwait
      rw [hready₁] at hwait
      cases hwait
    · have hwait : ((s.setError s.current .eok).scheduler.thread s.current).stat = _ := hwait
      rw [hready₁] at hwait
      cases hwait
    · rw [setError_stat, hready₁] at hwait
      cases hwait
    · exact wait_limit (sound_raisePriority hs₁.sound) (raisePriority_stat.trans hready₁) hk' htime
  | startup | yield | suspend | resume | control | exit | enterCritical | exitCritical | eventSend
  | eventControl | semRelease | semControl | mutexRelease => cases hc

/-- The timer of a waiting thread is on time until the thread is woken. -/
theorem onTime_run (hr : Run step free (Initial idle) (h₁ ++ (s₀, .call c) :: h₂) s)
    (hc : c.limit = some n) (hwait : (s.scheduler.thread s₀.current).stat = .suspend)
    (hsusp : ∀ x ∈ h₁, (x.1.scheduler.thread s₀.current).stat = .suspend) :
    ∃ x, x.periodic = false ∧ x.initTick = n ∧
      OnTime x (ticks h₁) s.scheduler.threadTimers s₀.current := by
  have hserved : ∀ {h s}, Run step free (Initial idle) h s → Served (s : Rtos T B) := fun hr =>
    hr.stateInvariant (fun s hs => Initial.served hs) fun s a s' h => h.step
  induction h₁ generalizing s with
  | nil =>
    cases hr with
    | step hr _ hs =>
      obtain ⟨c', hcc, hready, hs⟩ | ⟨k, hcc, -⟩ | ⟨k, hcc, -⟩ := step_cases hs
      · cases hcc
        exact onTime_call (hserved hr) hc (hready (ofCurrent_of_limit hc)) hs hwait
      · cases hcc
      · cases hcc
  | cons x h₁ ih =>
    rw [List.forall_mem_cons] at hsusp
    cases hr with
    | @step _ s₁ _ a hr _ hs =>
      obtain ⟨x, hper, hinit, htime⟩ := ih hr hsusp.1 hsusp.2
      refine ⟨x, hper, hinit, ?_⟩
      have h := hserved hr
      obtain ⟨c', rfl, hready, hs⟩ | ⟨k, rfl, hk, rfl⟩ | ⟨k, rfl, hk, rfl⟩ := step_cases hs
      · obtain hr' | ⟨-, hu⟩ := still_call h hready hs hsusp.1
        · rw [hr'] at hwait
          cases hwait
        · exact htime.untouched hu
      · obtain ⟨t, rfl⟩ := rtSchedule_eq hk
        exact htime
      · obtain ⟨k', ts, hk', -, hticked⟩ := h.sound.rtTickIncrease
        rw [hk, Option.some.injEq] at hk'
        subst hk'
        have hnext := (htime.tick h.sound.timed.armed (fun cs hcs => by cases hcs)
          (fun hp => by rw [hper] at hp; cases hp) hticked.threadTimers).2
        rwa [ticks, List.countP_cons_of_pos rfl]

/-- A thread that sleeps, or waits for an event, a semaphore or a mutex for `n` ticks at most,
and is not woken before, is made ready with `-RT_ETIMEOUT` by the tick number `max n 1` from
then on and by no earlier one, in every run: whatever the other threads and the interrupts do,
and wherever the tick wraps around. -/
theorem times_out_on_time
    (hr : Run step free (Initial idle) ((s₁, .tick) :: (h₁ ++ (s₀, .call c) :: h₂)) s)
    (hc : c.limit = some n)
    (hsusp : ∀ x ∈ (s₁, RtAction.tick) :: h₁,
      (x.1.scheduler.thread s₀.current).stat = .suspend) :
    if ticks h₁ + 1 = max n.toNat 1 then
      (s.scheduler.thread s₀.current).stat = .ready ∧
        (s.scheduler.thread s₀.current).error = .etimeout
    else (s.scheduler.thread s₀.current).stat = .suspend := by
  rw [List.forall_mem_cons] at hsusp
  cases hr with
  | step hr _ hs =>
    obtain ⟨x, hper, hinit, htime⟩ := onTime_run hr hc hsusp.1 hsusp.2
    have h : Served s₁ :=
      hr.stateInvariant (fun s hs => Initial.served hs) fun s a s' h => h.step
    obtain ⟨c', hcc, -⟩ | ⟨k, hcc, -⟩ | ⟨k, -, hk, rfl⟩ := step_cases hs
    · cases hcc
    · cases hcc
    · obtain ⟨k', ts, hk', -, hticked⟩ := h.sound.rtTickIncrease
      rw [hk, Option.some.injEq] at hk'
      subst hk'
      have hcount := (htime.tick h.sound.timed.armed (fun cs hcs => by cases hcs)
        (fun hp => by rw [hper] at hp; cases hp) hticked.threadTimers).1
      have hexp : Expires x (ticks h₁ + 1) ↔ ticks h₁ + 1 = max n.toNat 1 := by
        rw [Expires, hper, hinit]
        simp
      by_cases hend : ticks h₁ + 1 = max n.toNat 1
      · rw [if_pos (hexp.mpr hend)] at hcount
        obtain ⟨r, hw⟩ := hticked.woken s₀.current (List.count_pos_iff.mp (by omega))
        rw [if_pos hend]
        show (k.thread s₀.current).stat = _ ∧ (k.thread s₀.current).error = _
        rw [hw]
        exact ⟨rfl, rfl⟩
      · rw [if_neg fun he => hend (hexp.mp he)] at hcount
        obtain ⟨r, hw⟩ := hticked.others s₀.current (List.count_eq_zero.mp hcount)
        rw [if_neg hend]
        show (k.thread s₀.current).stat = _
        rw [hw]
        exact hsusp.1

/-- A thread that sleeps for two ticks. -/
theorem times_out_on_time_sleep : ∃ s : Rtos Bool Bool,
    (s.scheduler.thread true).stat = .ready ∧ (s.scheduler.thread true).error = .etimeout := by
  have h₀ : Run (step (T := Bool) (B := Bool)) free (Initial false) [] (idleAlone false) :=
    .start idleAlone_initial
  have h₁ := h₀.step (a := RtAction.call (.startup true)) trivial rfl
  have h₂ := h₁.step (a := RtAction.schedule) trivial rfl
  have h₃ := h₂.step (a := RtAction.call (.sleep 2)) trivial rfl
  have h₄ := h₃.step (a := RtAction.tick) trivial rfl
  have h₅ := h₄.step (a := RtAction.tick) trivial rfl
  have hr : Run (step (T := Bool) (B := Bool)) free (Initial false)
      ((_, RtAction.tick) :: ([_] ++ (_, .call (.sleep 2)) :: [_, _])) _ := h₅
  have hend := times_out_on_time hr rfl (by
    intro x hx
    obtain rfl | rfl : x = _ ∨ x = _ := by simpa using hx
    · rfl
    · rfl)
  exact ⟨_, hend⟩

end Limits

end Rtos

end NanoAt
