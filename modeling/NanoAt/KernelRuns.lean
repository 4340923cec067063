import NanoAt.Lib.GuardedRun
import NanoAt.ThreadObjects

/-!
# Runs of the kernel

Any order of the calls of threads and interrupts, of `rt_schedule` and of ticks, from the
state in which the idle thread alone is ready.

## Main definitions

- `Rtos.Initial`, `Rtos.Permitted` — the start, and what the callers of the kernel see to
- `Rtos.Awake` — no thread waits for what is there, and the idle thread is ready

## Main results

- `Rtos.schedule_takes_highest` — `rt_schedule` takes the first ready thread of highest priority
- `Rtos.permitted_returns` — no assertion fails
- `Rtos.no_lost_wakeup` — no thread waits for what is there
-/

namespace NanoAt.Rtos

open DeadlineList Queues Scheduler GuardedRun

section Ready

variable {T B : Type} {k k' k'' : Scheduler T B} {t u : T} {i : IpcName} {p : Fin 32}

/-- A ready thread stays ready. -/
def StaysReady (k k' : Scheduler T B) (u : T) : Prop :=
  (k.thread u).stat = .ready → (k'.thread u).stat = .ready

theorem StaysReady.trans (h : StaysReady k k' u)
    (h' : StaysReady k' k'' u) : StaysReady k k'' u := fun hu => h' (h hu)

variable [DecidableEq T]

theorem staysReady_setThread {x : RtThread B} (hx : x.stat = (k.thread t).stat) :
    StaysReady k (k.setThread t x) u := by
  intro hu
  by_cases hut : u = t
  · subst hut
    rw [setThread_thread_self, hx, hu]
  · rw [setThread_thread_of_ne hut, hu]

theorem staysReady_insert : StaysReady k (k.rtScheduleInsertThread t) u := by
  intro hu
  rw [rtScheduleInsertThread_thread]
  by_cases hut : u = t
  · subst hut
    rw [Function.update_self]
  · rw [Function.update_of_ne hut, hu]

theorem staysReady_resume : StaysReady k (k.rtThreadResume t).2 u := by
  rw [Scheduler.rtThreadResume]
  split
  · exact staysReady_insert (k := ((k.assertType t).unlink t).stopTimer t)
  · exact id

theorem staysReady_resumeWithError : StaysReady k (resumeWithError k t) u := by
  have hset : StaysReady k (k.setThread t { k.thread t with error := .error }) u :=
    staysReady_setThread rfl
  exact hset.trans staysReady_resume

theorem staysReady_foldl_resumeWithError {l : List T} :
    StaysReady k (l.foldl resumeWithError k) u := by
  induction l generalizing k with
  | nil => exact id
  | cons t l ih => exact staysReady_resumeWithError.trans ih

theorem staysReady_resumeAll : StaysReady k (rtIpcListResumeAll k i) u :=
  staysReady_foldl_resumeWithError

theorem staysReady_control : StaysReady k (k.rtThreadControl t p) u := by
  rw [rtThreadControl]
  split
  · next ht =>
    let k₁ := (k.assertType t).rtScheduleRemoveThread t
    have hset : StaysReady k₁ (k₁.setThread t { k₁.thread t with
        currentPriority := p
        numberMask := BitVec.twoPow 32 p }) u := staysReady_setThread rfl
    refine StaysReady.trans (fun hu => ?_) (hset.trans staysReady_insert)
    show (((k.assertType t).rtScheduleRemoveThread t).thread u).stat = _
    rw [rtScheduleRemoveThread_thread, assertType_thread, hu]
  · exact StaysReady.trans id (staysReady_setThread (k := k.assertType t) rfl)

theorem staysReady_raisePriority : StaysReady k (raisePriority k t p) u := by
  rw [raisePriority]
  split
  · exact staysReady_control
  · exact id

theorem staysReady_restorePriority {q : Option (Fin 32)} :
    StaysReady k (restorePriority k t q) u := by
  cases q with
  | none => exact id
  | some q =>
    rw [restorePriority]
    split
    · exact staysReady_control
    · exact id

variable {s : Rtos T B} {n : ℕ}

theorem staysReady_handOver : StaysReady s.scheduler (s.handOver n).scheduler u := by
  rw [handOver]
  split
  · exact staysReady_resume
  · exact id

theorem staysReady_mutexRelease :
    StaysReady s.scheduler (s.rtMutexRelease n).2.scheduler u := by
  rw [rtMutexRelease]
  dsimp only
  split
  · split
    · let m := { s.mutex n with hold := (s.mutex n).hold - 1 }
      let k := restorePriority s.scheduler s.current (s.mutex n).originalPriority
      have hrestore : StaysReady s.scheduler k u := staysReady_restorePriority
      exact hrestore.trans (staysReady_handOver (s := { s.setMutex n m with scheduler := k }))
    · exact id
  · exact staysReady_setThread rfl

theorem setError_thread {err : RtErr} (hu : u ≠ t) :
    (s.setError t err).scheduler.thread u = s.scheduler.thread u := setThread_thread_of_ne hu

end Ready

variable {T B : Type} [DecidableEq T] [DecidableEq B] {s s' s₀ : Rtos T B} {t u idle : T} {n : ℕ}
  {c : RtCall T B} {a : RtAction T B} {h : History (Rtos T B) (RtAction T B)}

/-- The start: the idle thread runs, the other threads are not started yet, and no thread waits. -/
structure Initial (idle : T) (s : Rtos T B) : Prop where
  current : s.current = idle
  type : ∀ t, (s.scheduler.thread t).type = .thread
  running : s.scheduler.halted = false
  ready : (s.scheduler.thread idle).stat = .ready
  others : ∀ t, t ≠ idle → (s.scheduler.thread t).stat = .init
  mask : (s.scheduler.thread idle).numberMask =
    BitVec.twoPow 32 (s.scheduler.thread idle).currentPriority
  list : ∀ i, s.scheduler.list i =
    if i = .ready (s.scheduler.thread idle).currentPriority then [idle] else []
  group : s.scheduler.rtThreadReadyPriorityGroup =
    BitVec.twoPow 32 (s.scheduler.thread idle).currentPriority
  timerList : s.scheduler.threadTimers.timerList = []
  timer : ∀ t, (s.scheduler.threadTimers.timer t).activated = false ∧
    (s.scheduler.threadTimers.timer t).periodic = false
  mutex : ∀ n, (s.mutex n).Well

/-- A thread has not ended. -/
def Live (s : Rtos T B) (t : T) : Prop := (s.scheduler.thread t).stat ≠ .close

/-- A call that may suspend the running thread for `time`: the time is in the range of the
timer, and if it is not zero the idle thread does not make the call, nor does any while the
scheduler is locked. -/
def MayWait (idle : T) (s : Rtos T B) (time : ℤ) : Prop :=
  time < 2 ^ 31 - 1 ∧ (time ≠ 0 → s.current ≠ idle ∧ s.scheduler.rtSchedulerLockNest = 0)

/-- What the callers see to: a thread is started once, and nobody suspends, resumes or controls
a thread that has ended or waits for its mutex; a waiting time is in the range of the timer,
nobody but the IPC object itself resumes a thread that waits for it, no thread waits or ends
while the scheduler is locked, and the idle thread never does. -/
def Permitted (idle : T) (s : Rtos T B) : RtAction T B → Prop
  | .call (.startup t) => (s.scheduler.thread t).stat = .init
  | .call (.sleep tick) =>
    tick.toNat < 2 ^ 31 - 1 ∧ s.current ≠ idle ∧ s.scheduler.rtSchedulerLockNest = 0
  | .call (.suspend t) =>
    s.Live t ∧ t ≠ idle ∧ (t = s.current → s.scheduler.rtSchedulerLockNest = 0)
  | .call (.resume t) => s.Live t ∧ ∀ i, t ∉ s.scheduler.list (.suspend i)
  | .call (.control t _) => s.Live t
  | .call .exit => s.current ≠ idle ∧ s.scheduler.rtSchedulerLockNest = 0
  | .call (.eventRecv _ _ _ time) | .call (.semTake _ time) => s.MayWait idle time
  | .call (.mutexTake n time) =>
    s.MayWait idle time ∧ ∀ owner, (s.mutex n).owner = some owner → s.Live owner
  | _ => True

/-- The guard of the runs. -/
def guarded (idle : T) : History (Rtos T B) (RtAction T B) → Rtos T B → RtAction T B → Prop :=
  fun _ s a => s.Permitted idle a

/-- A call keeps every thread waiting in vain. -/
theorem Served.call (h : Served s)
    (hready : c.OfCurrent → (s.scheduler.thread s.current).stat = .ready)
    (hs : s.call c = some s') : Served s' := by
  cases c with
  | startup t =>
    simp only [Rtos.call, Option.map_eq_some_iff] at hs
    obtain ⟨k, hk, rfl⟩ := hs
    exact h.eases (h.sound.rtThreadStartup hk) (eases_rtThreadStartup hk)
  | yield =>
    simp only [Rtos.call, Option.some.injEq] at hs
    subst hs
    exact h.eases h.sound.rtThreadYield h.sound.sliced_rtThreadYield.eases
  | sleep tick =>
    simp only [Rtos.call, Option.map_eq_some_iff] at hs
    obtain ⟨k, hk, rfl⟩ := hs
    exact h.eases (h.sound.rtThreadSleep (hready trivial) hk) (eases_rtThreadSleep hk)
  | suspend t =>
    simp only [Rtos.call, Option.some.injEq] at hs
    subst hs
    exact h.eases h.sound.rtThreadSuspend eases_rtThreadSuspend
  | resume t =>
    simp only [Rtos.call, Option.some.injEq] at hs
    subst hs
    exact h.eases h.sound.rtThreadResume eases_rtThreadResume
  | control t p =>
    simp only [Rtos.call, Option.some.injEq] at hs
    subst hs
    exact h.eases h.sound.rtThreadControl eases_rtThreadControl
  | exit =>
    simp only [Rtos.call, Option.some.injEq] at hs
    subst hs
    exact h.eases (h.sound.rtThreadExit (hready trivial)) eases_rtThreadExit
  | enterCritical =>
    simp only [Rtos.call, Option.some.injEq] at hs
    subst hs
    exact ⟨⟨h.sound.linked, h.sound.ready, h.sound.waiting, h.sound.group, h.sound.mask,
      h.sound.timed, h.sound.asleep⟩, h.event, h.sem, h.well, h.mutex⟩
  | exitCritical =>
    simp only [Rtos.call, Option.some.injEq] at hs
    subst hs
    exact ⟨⟨h.sound.linked, h.sound.ready, h.sound.waiting, h.sound.group, h.sound.mask,
      h.sound.timed, h.sound.asleep⟩, h.event, h.sem, h.well, h.mutex⟩
  | eventSend n set =>
    simp only [Rtos.call, Option.some.injEq] at hs
    exact hs ▸ h.rtEventSend
  | eventRecv n set option time =>
    simp only [Rtos.call, Option.map_eq_some_iff] at hs
    obtain ⟨⟨r, k⟩, hk, rfl⟩ := hs
    exact h.rtEventRecv (hready trivial) hk
  | eventControl n =>
    simp only [Rtos.call, Option.some.injEq] at hs
    exact hs ▸ h.rtEventControl
  | semTake n time =>
    simp only [Rtos.call, Option.map_eq_some_iff] at hs
    obtain ⟨⟨r, k⟩, hk, rfl⟩ := hs
    exact h.rtSemTake (hready trivial) hk
  | semRelease n =>
    simp only [Rtos.call, Option.some.injEq] at hs
    exact hs ▸ h.rtSemRelease
  | semControl n value =>
    simp only [Rtos.call, Option.some.injEq] at hs
    exact hs ▸ h.rtSemControl
  | mutexTake n time =>
    simp only [Rtos.call, Option.map_eq_some_iff] at hs
    obtain ⟨⟨r, k⟩, hk, rfl⟩ := hs
    exact h.rtMutexTake (hready trivial) hk
  | mutexRelease n =>
    simp only [Rtos.call, Option.some.injEq] at hs
    exact hs ▸ h.rtMutexRelease

/-- What an action can do. -/
theorem step_cases (hs : step a s = some s') :
    (∃ c, a = .call c ∧ (c.OfCurrent → (s.scheduler.thread s.current).stat = .ready) ∧
        s.call c = some s') ∨
      (∃ k, a = .schedule ∧ s.scheduler.rtSchedule = some k ∧ s' = { s with scheduler := k }) ∨
      ∃ k, a = .tick ∧ s.scheduler.rtTickIncrease = some k ∧ s' = { s with scheduler := k } := by
  have hs := (Option.filter_eq_some_iff.mp hs).1
  cases a with
  | call c =>
    simp only [act] at hs
    split at hs
    · next hready => exact .inl ⟨c, rfl, hready, hs⟩
    · cases hs
  | schedule =>
    simp only [act, Option.map_eq_some_iff] at hs
    obtain ⟨k, hk, rfl⟩ := hs
    exact .inr (.inl ⟨k, rfl, hk, rfl⟩)
  | tick =>
    simp only [act, Option.map_eq_some_iff] at hs
    obtain ⟨k, hk, rfl⟩ := hs
    exact .inr (.inr ⟨k, rfl, hk, rfl⟩)

/-- An action keeps every thread waiting in vain. -/
theorem Served.step (h : Served s) (hs : step a s = some s') : Served s' := by
  obtain ⟨c, -, hready, hs⟩ | ⟨k, -, hk, rfl⟩ | ⟨k, -, hk, rfl⟩ := step_cases hs
  · exact h.call hready hs
  · have he := eases_rtSchedule hk
    obtain ⟨t, rfl⟩ := rtSchedule_eq hk
    exact h.eases h.sound.run he
  · obtain ⟨k', ts, hk', hsound, hticked⟩ := h.sound.rtTickIncrease
    rw [hk, Option.some.injEq] at hk'
    subst hk'
    exact h.eases hsound hticked.eases

section Start

omit [DecidableEq B] in
theorem Initial.sound (h : Initial idle s) : s.scheduler.Sound := by
  have hmem : ∀ t i, t ∈ s.scheduler.list i ↔
      t = idle ∧ i = .ready (s.scheduler.thread idle).currentPriority := by
    intro t i
    rw [h.list]
    split
    · next hi => simp [hi]
    · next hi => simp [hi]
  have hinit : ∀ t, t ≠ idle → (s.scheduler.thread t).stat = .init := h.others
  refine ⟨⟨fun i => ?_, fun {i j x} hi hj => ?_⟩, fun t p => ?_, fun t i hi => ?_, fun p => ?_,
    fun t ht => ?_, ⟨⟨?_, ?_, ?_⟩, fun t => (h.timer t).2, fun t => ?_⟩, fun t ht => ?_⟩
  · rw [h.list]
    split
    · exact List.nodup_singleton _
    · exact List.nodup_nil
  · exact ((hmem x i).mp hi).2.trans ((hmem x j).mp hj).2.symm
  · rw [hmem]
    by_cases ht : t = idle
    · subst ht
      simp [h.ready, eq_comm]
    · simp [ht, hinit t ht]
  · have hi := ((hmem t _).mp hi).2
    cases hi
  · rw [h.group, h.list]
    by_cases hp : p = (s.scheduler.thread idle).currentPriority
    · subst hp
      simp
    · have hne : ThreadList.ready p ≠ .ready (s.scheduler.thread idle).currentPriority := by
        simpa using hp
      have hval : ¬ p.val = (s.scheduler.thread idle).currentPriority.val := fun heq =>
        hp (Fin.ext heq)
      simp [hne, hval]
  · by_cases hti : t = idle
    · subst hti
      exact h.mask
    · rw [hinit t hti] at ht
      simp at ht
  · simp [h.timerList]
  · simp [h.timerList]
  · simp [h.timerList, InOrder]
  · rw [Timers.Flagged, (h.timer t).1, h.timerList]
    simp
  · rw [h.timerList] at ht
    cases ht

/-- At the start no thread waits. -/
theorem Initial.served (h : Initial idle s) : Served s := by
  have hnil : ∀ i, s.scheduler.list (.suspend i) = [] := by
    intro i
    rw [h.list, if_neg (by simp)]
  refine ⟨h.sound, fun n t ht => ?_, fun n hne => absurd (hnil _) hne, h.mutex, fun n hne =>
    absurd (hnil _) hne⟩
  rw [hnil] at ht
  cases ht

end Start

section Idle

theorem staysReady_eventWake : StaysReady s.scheduler (eventWake n s t).scheduler u := by
  by_cases hsat : s.Satisfied n t
  · rw [eventWake_of_satisfied hsat]
    refine StaysReady.trans ?_ staysReady_resume
    exact staysReady_setThread rfl
  · rw [eventWake_of_not_satisfied hsat]
    exact id

theorem staysReady_eventSend {set : Finset B} :
    StaysReady s.scheduler (s.rtEventSend n set).2.scheduler u := by
  have hfold : ∀ (l : List T) (s : Rtos T B),
      StaysReady s.scheduler (l.foldl (eventWake n) s).scheduler u := by
    intro l
    induction l with
    | nil => exact fun _ => id
    | cons t l ih => exact fun s => staysReady_eventWake.trans (ih _)
  rw [rtEventSend]
  split
  · exact id
  · exact hfold _ { s with event := Function.update s.event n (s.event n ∪ set) }

/-- A permitted call leaves the idle thread ready. -/
theorem idle_call (h : Served s) (hp : s.Permitted idle (.call c))
    (hready : c.OfCurrent → (s.scheduler.thread s.current).stat = .ready)
    (hidle : (s.scheduler.thread idle).stat = .ready) (hs : s.call c = some s') :
    (s'.scheduler.thread idle).stat = .ready := by
  cases c with
  | startup t =>
    simp only [Rtos.call, Option.map_eq_some_iff] at hs
    obtain ⟨k, hk, rfl⟩ := hs
    have hinit : (s.scheduler.thread t).stat = .init := hp
    have hne : idle ≠ t := by
      rintro rfl
      rw [hinit] at hidle
      cases hidle
    rw [Scheduler.rtThreadStartup, if_pos hinit, Option.some.injEq] at hk
    subst hk
    apply staysReady_resume
    rw [setThread_thread_of_ne hne, assertType_thread, hidle]
  | yield =>
    simp only [Rtos.call, Option.some.injEq] at hs
    subst hs
    rw [show s.scheduler.rtThreadYield.thread = _ from rtThreadYield_thread, hidle]
  | sleep tick =>
    simp only [Rtos.call, Option.map_eq_some_iff] at hs
    obtain ⟨k, hk, rfl⟩ := hs
    rw [Scheduler.rtThreadSleep, startTimer, Option.map_eq_some_iff] at hk
    obtain ⟨timers, -, rfl⟩ := hk
    have hne : idle ≠ s.current := Ne.symm hp.2.1
    exact (congrArg RtThread.stat (rtThreadSuspend_others hne)).trans hidle
  | suspend t =>
    simp only [Rtos.call, Option.some.injEq] at hs
    subst hs
    have hne : idle ≠ t := Ne.symm hp.2.1
    exact (congrArg RtThread.stat (rtThreadSuspend_others hne)).trans hidle
  | resume t =>
    simp only [Rtos.call, Option.some.injEq] at hs
    subst hs
    exact staysReady_resume hidle
  | control t p =>
    simp only [Rtos.call, Option.some.injEq] at hs
    subst hs
    exact staysReady_control hidle
  | exit =>
    simp only [Rtos.call, Option.some.injEq] at hs
    subst hs
    have hne : idle ≠ s.current := Ne.symm hp.1
    show (s.scheduler.rtThreadExit.thread idle).stat = _
    rw [rtThreadExit_others hne, hidle]
  | enterCritical =>
    simp only [Rtos.call, Option.some.injEq] at hs
    exact hs ▸ hidle
  | exitCritical =>
    simp only [Rtos.call, Option.some.injEq] at hs
    exact hs ▸ hidle
  | eventSend n set =>
    simp only [Rtos.call, Option.some.injEq] at hs
    exact hs ▸ staysReady_eventSend hidle
  | eventRecv n set option time =>
    simp only [Rtos.call, Option.map_eq_some_iff] at hs
    obtain ⟨⟨r, k⟩, hk, rfl⟩ := hs
    obtain rfl | ⟨rest, -, rfl⟩ | ⟨-, rfl⟩ | ⟨x, k', htime, -, hx, hk', rfl⟩ :=
      rtEventRecv_cases hk
    · exact hidle
    · exact setError_stat.trans hidle
    · exact setError_stat.trans (setError_stat.trans hidle)
    · have hne : idle ≠ s.current := Ne.symm (hp.2 htime).1
      have h₁ : Served (s.setError s.current .eok) := h.setError
      have hready₁ : ((s.setError s.current .eok).scheduler.thread s.current).stat = .ready :=
        setError_stat.trans (hready trivial)
      have h₂ := h₁.setReady hready₁ hx
      obtain ⟨-, hblock⟩ := h₂.sound.wait (ready_setReady hready₁ hx) hk'
      show (k'.thread idle).stat = .ready
      rw [hblock.others idle hne, setThread_thread_of_ne hne, setError_thread hne, hidle]
  | eventControl n =>
    simp only [Rtos.call, Option.some.injEq] at hs
    exact hs ▸ staysReady_resumeAll hidle
  | semTake n time =>
    simp only [Rtos.call, Option.map_eq_some_iff] at hs
    obtain ⟨⟨r, k⟩, hk, rfl⟩ := hs
    obtain ⟨-, rfl⟩ | ⟨-, rfl⟩ | ⟨k', htime, -, hk', rfl⟩ := rtSemTake_cases hk
    · exact hidle
    · exact hidle
    · have hne : idle ≠ s.current := Ne.symm (hp.2 htime).1
      have h₁ : Served (s.setError s.current .eok) := h.setError
      obtain ⟨-, hblock⟩ := h₁.sound.wait (setError_stat.trans (hready trivial)) hk'
      show (k'.thread idle).stat = .ready
      rw [hblock.others idle hne, setError_thread hne, hidle]
  | semRelease n =>
    simp only [Rtos.call, Option.some.injEq] at hs
    subst hs
    rw [rtSemRelease]
    split
    · exact staysReady_resume hidle
    · exact hidle
  | semControl n value =>
    simp only [Rtos.call, Option.some.injEq] at hs
    exact hs ▸ staysReady_resumeAll hidle
  | mutexTake n time =>
    simp only [Rtos.call, Option.map_eq_some_iff] at hs
    obtain ⟨⟨r, k⟩, hk, rfl⟩ := hs
    obtain ⟨-, -, rfl⟩ | ⟨-, -, -, rfl⟩ | ⟨-, -, rfl⟩ | ⟨owner, k', htime, -, -, -, hk', rfl⟩ :=
      rtMutexTake_cases hk
    · exact setError_stat.trans hidle
    · exact setError_stat.trans hidle
    · exact setError_stat.trans (setError_stat.trans hidle)
    · have hne : idle ≠ s.current := Ne.symm (hp.1.2 htime).1
      have h₁ : Served (s.setError s.current .eok) := h.setError
      have hidle₁ : ((s.setError s.current .eok).scheduler.thread idle).stat = .ready :=
        setError_stat.trans hidle
      obtain ⟨-, hblock⟩ := (sound_raisePriority h₁.sound).wait
        (raisePriority_stat.trans (setError_stat.trans (hready trivial))) hk'
      show (k'.thread idle).stat = .ready
      rw [hblock.others idle hne]
      exact staysReady_raisePriority hidle₁
  | mutexRelease n =>
    simp only [Rtos.call, Option.some.injEq] at hs
    exact hs ▸ staysReady_mutexRelease hidle

end Idle

/-- A permitted call fails no assertion on the type of a thread. -/
theorem typed_call (h : Served s) (ht : s.scheduler.Typed) (hp : s.Permitted idle (.call c))
    (hready : c.OfCurrent → (s.scheduler.thread s.current).stat = .ready)
    (hs : s.call c = some s') : s'.scheduler.Typed := by
  have hset : ∀ {err}, (s.setError s.current err).scheduler.Typed := ht.spares spares_setError
  cases c with
  | startup t =>
    simp only [Rtos.call, Option.map_eq_some_iff] at hs
    obtain ⟨k, hk, rfl⟩ := hs
    have hinit : (s.scheduler.thread t).stat = .init := hp
    exact ht.spares (spares_rtThreadStartup (ht.type t (by simp [hinit])) hk)
  | yield =>
    simp only [Rtos.call, Option.some.injEq] at hs
    exact hs ▸ ht.spares spares_rtThreadYield
  | sleep tick =>
    simp only [Rtos.call, Option.map_eq_some_iff] at hs
    obtain ⟨k, hk, rfl⟩ := hs
    exact ht.spares (spares_rtThreadSleep (ht.ready (hready trivial)) hk)
  | suspend t =>
    simp only [Rtos.call, Option.some.injEq] at hs
    exact hs ▸ ht.spares (spares_rtThreadSuspend (ht.type t hp.1))
  | resume t =>
    simp only [Rtos.call, Option.some.injEq] at hs
    exact hs ▸ ht.spares (spares_rtThreadResume (ht.type t hp.1))
  | control t p =>
    simp only [Rtos.call, Option.some.injEq] at hs
    exact hs ▸ ht.spares (spares_rtThreadControl (ht.type t hp))
  | exit =>
    simp only [Rtos.call, Option.some.injEq] at hs
    exact hs ▸ ht.rtThreadExit
  | enterCritical | exitCritical =>
    simp only [Rtos.call, Option.some.injEq] at hs
    exact hs ▸ ht.spares (spares_of_thread rfl rfl)
  | eventSend n set =>
    simp only [Rtos.call, Option.some.injEq] at hs
    exact hs ▸ typed_rtEventSend ht h.sound
  | eventRecv n set option time =>
    simp only [Rtos.call, Option.map_eq_some_iff] at hs
    obtain ⟨⟨r, k⟩, hk, rfl⟩ := hs
    obtain rfl | ⟨rest, -, rfl⟩ | ⟨-, rfl⟩ | ⟨x, k', -, -, hx, hk', rfl⟩ := rtEventRecv_cases hk
    · exact ht
    · exact hset
    · exact hset.spares spares_setError
    · have hnote : Spares (s.setError s.current .eok).scheduler
          ((s.setError s.current .eok).scheduler.setThread s.current x) :=
        spares_setThread (by rw [hx]) (by rw [hx])
      have hnoted := hset.spares hnote
      refine hnoted.spares (spares_wait (hnoted.type _ ?_) hk')
      rw [setThread_thread_self, hx]
      exact fun hc => by simp [setError_stat, hready trivial] at hc
  | eventControl n =>
    simp only [Rtos.call, Option.some.injEq] at hs
    exact hs ▸ ht.rtIpcListResumeAll h.sound
  | semTake n time =>
    simp only [Rtos.call, Option.map_eq_some_iff] at hs
    obtain ⟨⟨r, k⟩, hk, rfl⟩ := hs
    obtain ⟨-, rfl⟩ | ⟨-, rfl⟩ | ⟨k', -, -, hk', rfl⟩ := rtSemTake_cases hk
    · exact ht
    · exact ht
    · exact hset.spares (spares_wait (hset.ready (setError_stat.trans (hready trivial))) hk')
  | semRelease n =>
    simp only [Rtos.call, Option.some.injEq] at hs
    exact hs ▸ typed_rtSemRelease ht h.sound
  | semControl n value =>
    simp only [Rtos.call, Option.some.injEq] at hs
    exact hs ▸ ht.rtIpcListResumeAll h.sound
  | mutexTake n time =>
    simp only [Rtos.call, Option.map_eq_some_iff] at hs
    obtain ⟨⟨r, k⟩, hk, rfl⟩ := hs
    obtain ⟨-, -, rfl⟩ | ⟨-, -, -, rfl⟩ | ⟨-, -, rfl⟩ | ⟨owner, k', -, howner, -, -, hk', rfl⟩ :=
      rtMutexTake_cases hk
    · exact hset
    · exact hset
    · exact hset.spares spares_setError
    · have hlive : ((s.setError s.current .eok).scheduler.thread owner).stat ≠ .close := by
        rw [setError_stat]
        exact hp.2 owner howner
      have hraise := hset.spares (spares_raisePriority
        (p := (s.scheduler.thread s.current).currentPriority) (hset.type owner hlive))
      refine hraise.spares (spares_wait (hraise.ready ?_) hk')
      exact raisePriority_stat.trans (setError_stat.trans (hready trivial))
  | mutexRelease n =>
    simp only [Rtos.call, Option.some.injEq] at hs
    exact hs ▸ typed_rtMutexRelease ht h.sound (hready trivial)

/-- No thread waits for what is there, the idle thread is ready, and no assertion on the type
of a thread has failed. -/
structure Awake (idle : T) (s : Rtos T B) : Prop where
  served : Served s
  ready : (s.scheduler.thread idle).stat = .ready
  typed : s.scheduler.Typed

theorem Awake.typed_act (h : Awake idle s) (hp : s.Permitted idle a) (hs : s.act a = some s') :
    s'.scheduler.Typed := by
  cases a with
  | call c =>
    simp only [act] at hs
    split at hs
    · next hready => exact typed_call h.served h.typed hp hready hs
    · cases hs
  | schedule =>
    simp only [act, Option.map_eq_some_iff] at hs
    obtain ⟨k, hk, rfl⟩ := hs
    exact h.typed.spares (spares_rtSchedule hk)
  | tick =>
    simp only [act, Option.map_eq_some_iff] at hs
    obtain ⟨k, hk, rfl⟩ := hs
    exact h.typed.rtTickIncrease hk

theorem Awake.step (h : Awake idle s) (hp : s.Permitted idle a) (hs : step a s = some s') :
    Awake idle s' := by
  refine ⟨h.served.step hs, ?_, h.typed_act hp (Option.filter_eq_some_iff.mp hs).1⟩
  obtain ⟨c, rfl, hready, hs⟩ | ⟨k, -, hk, rfl⟩ | ⟨k, -, hk, rfl⟩ := step_cases hs
  · exact idle_call h.served hp hready h.ready hs
  · obtain ⟨t, rfl⟩ := rtSchedule_eq hk
    exact h.ready
  · obtain ⟨k', ts, hk', -, hticked⟩ := h.served.sound.rtTickIncrease
    rw [hk, Option.some.injEq] at hk'
    subst hk'
    by_cases hi : idle ∈ ts
    · obtain ⟨n, hn⟩ := hticked.woken idle hi
      exact congrArg RtThread.stat hn
    · obtain ⟨n, hn⟩ := hticked.others idle hi
      exact (congrArg RtThread.stat hn).trans h.ready

theorem awake_run (hr : Run step (guarded idle) (Initial idle) h s) : Awake idle s := by
  refine hr.invariant (P := fun _ s => Awake idle s) (fun s hs => ?_) ?_
  · have hs : Initial idle s := hs
    exact ⟨hs.served, hs.ready, hs.running, fun t _ => hs.type t⟩
  · intro h s a s' _ hawake hp hs
    exact hawake.step hp hs

section Returns

variable {set : Finset B} {option : EventInfo} {time : ℤ}

omit [DecidableEq B] in
theorem map_wait_returns {β : Type} {k : Scheduler T B} {i : IpcName} {flag : IpcFlag}
    {f : Scheduler T B → β} (htime : time < 2 ^ 31 - 1) :
    ∃ r, (wait k i t flag time).map f = some r := by
  obtain ⟨k', hk⟩ : ∃ k', wait k i t flag time = some k' := wait_returns htime
  exact ⟨f k', by rw [hk]; rfl⟩

theorem rtEventRecv_returns (htime : time < 2 ^ 31 - 1) :
    ∃ r, s.rtEventRecv n set option time = some r := by
  rw [rtEventRecv]
  split
  · exact ⟨_, rfl⟩
  · dsimp only
    split
    · exact ⟨_, rfl⟩
    · split
      · exact ⟨_, rfl⟩
      · exact map_wait_returns htime

omit [DecidableEq B] in
theorem rtSemTake_returns (htime : time < 2 ^ 31 - 1) : ∃ r, s.rtSemTake n time = some r := by
  rw [rtSemTake]
  split
  · exact ⟨_, rfl⟩
  · split
    · exact ⟨_, rfl⟩
    · exact map_wait_returns htime

/-- A mutex without a unit has an owner, whose priority can be read. -/
theorem Served.rtMutexTake_returns (h : Served s) (htime : time < 2 ^ 31 - 1) :
    ∃ r, s.rtMutexTake n time = some r := by
  rw [Rtos.rtMutexTake]
  dsimp only
  split
  · exact ⟨_, rfl⟩
  · split
    · exact ⟨_, rfl⟩
    · next hzero =>
      split
      · exact ⟨_, rfl⟩
      · cases howner : (s.mutex n).owner with
        | none =>
          have hone := ((h.well n).free howner).1
          have hzero : ¬ 0 < (s.mutex n).value := hzero
          rw [hone] at hzero
          exact absurd (by decide) hzero
        | some owner =>
          have howner : ((s.setError s.current .eok).mutex n).owner = some owner := howner
          rw [howner, Option.bind_some]
          exact map_wait_returns htime

theorem call_returns (h : Served s) (hp : s.Permitted idle (.call c)) :
    ∃ s', s.call c = some s' := by
  cases c with
  | startup t =>
    have hinit : (s.scheduler.thread t).stat = .init := hp
    rw [Rtos.call, Scheduler.rtThreadStartup, if_pos hinit]
    exact ⟨_, rfl⟩
  | sleep tick =>
    obtain ⟨k, hk⟩ : ∃ k, s.scheduler.rtThreadSleep tick = some k := startTimer_returns hp.1
    exact ⟨_, by rw [Rtos.call, hk]; rfl⟩
  | eventRecv n set option time =>
    obtain ⟨r, hr⟩ : ∃ r, s.rtEventRecv n set option time = some r := rtEventRecv_returns hp.1
    exact ⟨_, by rw [Rtos.call, hr]; rfl⟩
  | semTake n time =>
    obtain ⟨r, hr⟩ : ∃ r, s.rtSemTake n time = some r := rtSemTake_returns hp.1
    exact ⟨_, by rw [Rtos.call, hr]; rfl⟩
  | mutexTake n time =>
    obtain ⟨r, hr⟩ : ∃ r, s.rtMutexTake n time = some r := h.rtMutexTake_returns hp.1.1
    exact ⟨_, by rw [Rtos.call, hr]; rfl⟩
  | yield | suspend | resume | control | exit | enterCritical | exitCritical | eventSend
  | eventControl | semRelease | semControl | mutexRelease => exact ⟨_, rfl⟩

end Returns

/-- The idle thread alone is ready. -/
def idleAlone (idle : T) : Rtos T B where
  scheduler :=
    { thread := fun t =>
        { type := .thread
          stat := if t = idle then .ready else .init
          initPriority := if t = idle then 31 else 10
          currentPriority := if t = idle then 31 else 10
          numberMask := if t = idle then BitVec.twoPow 32 31 else 0
          initTick := 5
          remainingTick := 5
          error := .eok
          eventSet := ∅
          eventInfo := ⟨.or, false⟩ }
      list := fun i => if i = .ready 31 then [idle] else []
      rtThreadReadyPriorityGroup := BitVec.twoPow 32 31
      rtCurrentThread := idle
      rtSchedulerLockNest := 0
      threadTimers := ⟨0, [], fun _ => ⟨false, false, 0, 0⟩⟩
      halted := false }
  ipcFlag := fun _ => .fifo
  event := fun _ => ∅
  sem := fun _ => 0
  mutex := fun _ => ⟨1, none, 0, none⟩

omit [DecidableEq B] in
theorem idleAlone_initial : Initial idle (idleAlone idle : Rtos T B) := by
  have hprio : ((idleAlone idle : Rtos T B).scheduler.thread idle).currentPriority = 31 :=
    if_pos rfl
  refine ⟨rfl, fun _ => rfl, rfl, if_pos rfl, fun t ht => if_neg ht, ?_, fun i => ?_, ?_, rfl, fun _ => ⟨rfl, rfl⟩,
    fun _ => ⟨fun _ => ⟨rfl, rfl, rfl⟩, fun hne => absurd rfl hne⟩⟩
  · rw [hprio]
    exact if_pos rfl
  · rw [hprio]
    rfl
  · rw [hprio]
    rfl

/-- In every run of permitted calls no assertion fails: every permitted call returns, every
tick returns whatever timeouts it calls, and `rt_schedule` finds a thread. -/
theorem permitted_returns (hr : Run step (guarded idle) (Initial idle) h s)
    (hp : s.Permitted idle a)
    (hready : ∀ c, a = .call c → c.OfCurrent → (s.scheduler.thread s.current).stat = .ready) :
    ∃ s', step a s = some s' := by
  have hawake := awake_run hr
  obtain ⟨s', hs⟩ : ∃ s', s.act a = some s' := by
    cases a with
    | call c =>
      obtain ⟨s', hs⟩ := call_returns hawake.served hp
      exact ⟨s', (if_pos (hready c rfl)).trans hs⟩
    | schedule =>
      obtain ⟨t, ht, -⟩ := hawake.served.sound.rtSchedule hawake.ready
      exact ⟨_, by rw [act, ht]; rfl⟩
    | tick =>
      obtain ⟨k, ts, hk, -⟩ := hawake.served.sound.rtTickIncrease
      exact ⟨_, by rw [act, hk]; rfl⟩
  exact ⟨s', Option.filter_eq_some_iff.mpr ⟨hs, by simp [(hawake.typed_act hp hs).running]⟩⟩

theorem permitted_returns_tick : ∃ s s' : Rtos Bool Bool,
    s.scheduler.list (.suspend (.sem 0)) = [true] ∧ step .tick s = some s' := by
  have h₀ : Run (step (T := Bool) (B := Bool)) (guarded false) (Initial false) []
      (idleAlone false) := .start idleAlone_initial
  have h₁ := h₀.step (a := RtAction.call (.startup true)) rfl rfl
  have h₂ := h₁.step (a := RtAction.schedule) trivial rfl
  have h₃ := h₂.step (a := RtAction.call (.semTake 0 3)) ⟨by decide, fun _ => ⟨by decide, rfl⟩⟩ rfl
  obtain ⟨s', hs'⟩ := permitted_returns (a := RtAction.tick) h₃ trivial fun c hc => by cases hc
  exact ⟨_, s', rfl, hs'⟩

/-- The states in which an action calls `rt_schedule`: a tick does so when the time slice of the
running thread is over, and in each of its thread timeouts. -/
inductive Schedules (s : Rtos T B) : RtAction T B → Scheduler T B → Prop
  | call : Schedules s .schedule s.scheduler
  | slice {k : Scheduler T B} : k = s.scheduler.countDown.refill →
      (s.scheduler.countDown.thread s.current).remainingTick = 0 → k.Yields →
      Schedules s .tick k.rtThreadYield
  | timeout {k k₁ k₂ : Scheduler T B} {timers : Timers T} {t : T} {ts ts' : List T} :
      s.scheduler.timeSlice = some k₁ →
      k₁.threadTimers.rtTickIncrease [] = some (ts ++ t :: ts', timers) →
      { k₁ with threadTimers := timers }.timeouts ts = some k₂ → k₂.timeOut t = some k →
      Schedules s .tick k

/-- Where an action calls `rt_schedule` the lists of the threads are right, and a thread is
ready. -/
theorem Awake.schedules {k : Scheduler T B} (h : Awake idle s) (hk : s.Schedules a k) :
    k.Sound ∧ (∃ u, (k.thread u).stat = .ready) ∧
      k.rtSchedulerLockNest = s.scheduler.rtSchedulerLockNest := by
  have hsound := h.served.sound
  cases hk with
  | call => exact ⟨hsound, ⟨idle, h.ready⟩, rfl⟩
  | @slice k hk _ hy =>
    have hk' : k.Sound := by
      rw [hk]
      exact hsound.setRemainingTick.setRemainingTick
    refine ⟨hk'.rtThreadYield, ⟨k.rtCurrentThread, ?_⟩, ?_⟩
    · rw [rtThreadYield_thread]
      exact hy.1
    · rw [hk'.sliced_rtThreadYield.locked, hk]
      rfl
  | @timeout k k₁ k₂ timers t ts ts' hk₁ htick hk₂ hk =>
    obtain ⟨k', hk', hsound₁, hsliced⟩ := hsound.timeSlice
    rw [hk₁, Option.some.injEq] at hk'
    subst hk'
    obtain ⟨hsoundTimers, hnodup, hts⟩ := hsound₁.tickTimers htick
    rw [List.nodup_append] at hnodup
    -- the timeouts before this one leave its thread suspended
    obtain ⟨k', hk', hsound₂, hw₂⟩ := hsoundTimers.timeouts hnodup.1 fun u hu =>
      hts u (List.mem_append_left _ hu)
    rw [hk₂, Option.some.injEq] at hk'
    subst hk'
    have hout : t ∉ ts := fun hm => hnodup.2.2 t hm t List.mem_cons_self rfl
    obtain ⟨hsleep, hlist⟩ := hts t (by simp)
    obtain ⟨k', hk', hsound', hw⟩ := hsound₂.timeOut (by rw [hw₂.others t hout]; exact hsleep)
      (by rw [hw₂.threadTimers]; exact hlist)
    rw [hk, Option.some.injEq] at hk'
    subst hk'
    refine ⟨hsound', ⟨t, by rw [hw.woken t (List.mem_singleton_self t)]⟩, ?_⟩
    rw [hw.locked, hw₂.locked]
    exact hsliced.locked

/-- In every run of permitted calls, wherever `rt_schedule` is called, in a tick or not: if the
scheduler is not locked, the thread it switches to is ready, no ready thread has a higher
priority, and it is the first in the ready list of its own. -/
theorem schedule_takes_highest {k : Scheduler T B}
    (hr : Run step (guarded idle) (Initial idle) h s) (hk : s.Schedules a k)
    (hlock : s.scheduler.rtSchedulerLockNest = 0) :
    ∃ t, k.rtSchedule = some { k with rtCurrentThread := t } ∧ (k.thread t).stat = .ready ∧
      Chosen k t := by
  obtain ⟨hsound, ⟨u, hu⟩, hnest⟩ := (awake_run hr).schedules hk
  obtain ⟨t, ht, hchosen⟩ := hsound.rtSchedule hu
  have hc := hchosen (hnest.trans hlock)
  exact ⟨t, ht, Chosen.ready hsound hc, hc⟩

/-- The tick that ends the waiting time of a thread, the idle thread running. -/
theorem schedule_takes_highest_timeout : ∃ k : Scheduler Bool Bool,
    k.rtCurrentThread = false ∧ (k.thread true).error = .etimeout ∧
      ∃ t, k.rtSchedule = some { k with rtCurrentThread := t } ∧ (k.thread t).stat = .ready ∧
        Chosen k t := by
  have h₀ : Run (step (T := Bool) (B := Bool)) (guarded false) (Initial false) []
      (idleAlone false) := .start idleAlone_initial
  have h₁ := h₀.step (a := RtAction.call (.startup true)) rfl rfl
  have h₂ := h₁.step (a := RtAction.schedule) trivial rfl
  have h₃ := h₂.step (a := RtAction.call (.semTake 0 1)) ⟨by decide, fun _ => ⟨by decide, rfl⟩⟩ rfl
  have h₄ := h₃.step (a := RtAction.schedule) trivial rfl
  have hhighest := schedule_takes_highest h₄
    (@Schedules.timeout Bool Bool _ _ _ _ _ _ true [] [] rfl rfl rfl rfl) rfl
  exact ⟨_, rfl, rfl, hhighest⟩

/-- In every run, whatever the callers do: no thread waits for bits that satisfy it, none for
a semaphore that has a unit, and none for a mutex that nobody owns. -/
theorem no_lost_wakeup (hr : Run step free (Initial idle) h s) :
    (∀ n, ∀ t ∈ s.scheduler.list (.suspend (.event n)), ¬ s.Satisfied n t) ∧
      (∀ n, s.scheduler.list (.suspend (.sem n)) ≠ [] → s.sem n = 0) ∧
      ∀ n, s.scheduler.list (.suspend (.mutex n)) ≠ [] → (s.mutex n).owner ≠ none := by
  have hserved : Served s := hr.stateInvariant (fun s hs => hs.served) fun s a s' h => h.step
  exact ⟨hserved.event, hserved.sem, hserved.mutex⟩

theorem no_lost_wakeup_waiting : ∃ s : Rtos Bool Bool,
    s.scheduler.list (.suspend (.sem 0)) = [true] ∧ s.sem 0 = 0 := by
  have h₀ : Run (step (T := Bool) (B := Bool)) free (Initial false) [] (idleAlone false) :=
    .start idleAlone_initial
  have h₁ := h₀.step (a := RtAction.call (.startup true)) trivial rfl
  have h₂ := h₁.step (a := RtAction.schedule) trivial rfl
  have h₃ := h₂.step (a := RtAction.call (.semTake 0 (-1))) trivial rfl
  exact ⟨_, rfl, (no_lost_wakeup h₃).2.1 0 (by decide)⟩

end NanoAt.Rtos
