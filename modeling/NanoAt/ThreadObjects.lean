import NanoAt.Wakeups

/-!
# Thread objects

`rt_thread_exit` resets the object type of the running thread, and the thread interface
asserts the type of the thread it is called for. No other function resets a type or ends a
thread, so the assertions hold for every thread that has not ended.

## Main definitions

- `Typed` — no assertion on a type has failed, and every thread that has not ended has its type
- `Spares` — no assertion fails on the way, and no thread ends

## Main results

- `spares_rtThreadSuspend`, `spares_rtThreadResume`, ... — the functions that spare
- `Typed.rtTickIncrease` — a tick fails no assertion
-/

namespace NanoAt

open DeadlineList Queues

namespace Scheduler

variable {T B : Type} {s s' s'' : Scheduler T B} {t u : T} {i : IpcName}
  {p : Fin 32} {x : RtThread B} {l : List T} {flag : IpcFlag} {time : ℤ}

/-- No assertion on the type of a thread has failed, and every thread that has not ended has
its type. -/
structure Typed (s : Scheduler T B) : Prop where
  running : s.halted = false
  type : ∀ t, (s.thread t).stat ≠ .close → (s.thread t).type = .thread

/-- No assertion on a type fails on the way, and no thread ends. -/
structure Spares (s s' : Scheduler T B) : Prop where
  halted : s'.halted = s.halted
  type : ∀ u, (s'.thread u).type = (s.thread u).type
  closed : ∀ u, (s'.thread u).stat = .close ↔ (s.thread u).stat = .close

theorem Typed.spares (h : Typed s) (hs : Spares s s') : Typed s' :=
  ⟨hs.halted.trans h.running, fun t ht =>
    (hs.type t).trans (h.type t fun hc => ht ((hs.closed t).mpr hc))⟩

theorem Typed.ready (h : Typed s) (ht : (s.thread t).stat = .ready) :
    (s.thread t).type = .thread := h.type t (by simp [ht])

theorem Typed.suspended (h : Typed s) (ht : (s.thread t).stat = .suspend) :
    (s.thread t).type = .thread := h.type t (by simp [ht])

section Functions

theorem Spares.refl : Spares s s := ⟨rfl, fun _ => rfl, fun _ => Iff.rfl⟩

theorem Spares.trans (h : Spares s s') (h' : Spares s' s'') : Spares s s'' :=
  ⟨h'.halted.trans h.halted, fun u => (h'.type u).trans (h.type u),
    fun u => (h'.closed u).trans (h.closed u)⟩

/-- A step that writes no thread. -/
theorem spares_of_thread (hthread : s'.thread = s.thread) (hhalted : s'.halted = s.halted) :
    Spares s s' :=
  ⟨hhalted, fun u => by rw [hthread], fun u => by rw [hthread]⟩

/-- The assertion holds for a thread that has its type. -/
theorem spares_assertType (ht : (s.thread t).type = .thread) : Spares s (s.assertType t) :=
  ⟨by simp [assertType, ht], fun _ => rfl, fun _ => Iff.rfl⟩

variable [DecidableEq T]

theorem spares_setThread (htype : x.type = (s.thread t).type)
    (hclosed : x.stat = .close ↔ (s.thread t).stat = .close) : Spares s (s.setThread t x) := by
  refine ⟨rfl, fun u => ?_, fun u => ?_⟩
  · by_cases hu : u = t
    · subst hu
      rw [setThread_thread_self, htype]
    · rw [setThread_thread_of_ne hu]
  · by_cases hu : u = t
    · subst hu
      rw [setThread_thread_self, hclosed]
    · rw [setThread_thread_of_ne hu]

theorem spares_unlink : Spares s (s.unlink t) := spares_of_thread rfl rfl

theorem spares_stopTimer : Spares s (s.stopTimer t) := spares_of_thread rfl rfl

theorem spares_startTimer {n : UInt32} (hs : s.startTimer t n = some s') : Spares s s' := by
  rw [startTimer, Option.map_eq_some_iff] at hs
  obtain ⟨timers, -, rfl⟩ := hs
  exact spares_of_thread rfl rfl

theorem spares_insert (ht : (s.thread t).stat ≠ .close) :
    Spares s (s.rtScheduleInsertThread t) := by
  have hset : Spares s (s.setThread t { s.thread t with stat := .ready }) :=
    spares_setThread rfl (by simp [ht])
  exact hset.trans (spares_of_thread rfl rfl)

theorem spares_remove : Spares s (s.rtScheduleRemoveThread t) := by
  apply spares_of_thread rtScheduleRemoveThread_thread
  rw [rtScheduleRemoveThread]
  split <;> rfl

omit [DecidableEq T] in
theorem spares_rtSchedule (hs : s.rtSchedule = some s') : Spares s s' := by
  rw [rtSchedule] at hs
  split at hs
  · split at hs
    · cases hs
    · split at hs
      · rw [Option.map_eq_some_iff] at hs
        obtain ⟨t, -, rfl⟩ := hs
        exact spares_of_thread rfl rfl
      · cases hs
  · rw [Option.some.injEq] at hs
    exact hs ▸ .refl

theorem spares_rtThreadSuspend (ht : (s.thread t).type = .thread) :
    Spares s (s.rtThreadSuspend t).2 := by
  rw [rtThreadSuspend]
  split
  · next hready =>
    have hready : (s.thread t).stat = .ready := hready
    have hset : Spares (s.assertType t)
        ((s.assertType t).setThread t { s.thread t with stat := .suspend }) :=
      spares_setThread rfl (by simp [hready])
    exact (((spares_assertType ht).trans hset).trans spares_remove).trans spares_stopTimer
  · exact spares_assertType ht

theorem spares_rtThreadResume (ht : (s.thread t).type = .thread) :
    Spares s (s.rtThreadResume t).2 := by
  rw [rtThreadResume]
  split
  · next hsleep =>
    have hsleep : (s.thread t).stat = .suspend := hsleep
    refine (((spares_assertType ht).trans spares_unlink).trans spares_stopTimer).trans
      (spares_insert ?_)
    show (s.thread t).stat ≠ .close
    simp [hsleep]
  · exact spares_assertType ht

theorem spares_rtThreadStartup (ht : (s.thread t).type = .thread)
    (hs : s.rtThreadStartup t = some s') : Spares s s' := by
  rw [rtThreadStartup] at hs
  split at hs
  · next hinit =>
    rw [Option.some.injEq] at hs
    subst hs
    have hset : Spares (s.assertType t) ((s.assertType t).setThread t { s.thread t with
        currentPriority := (s.thread t).initPriority
        numberMask := BitVec.twoPow 32 (s.thread t).initPriority
        stat := .suspend }) := spares_setThread rfl (by simp [hinit])
    exact ((spares_assertType ht).trans hset).trans
      (spares_rtThreadResume (by rw [setThread_thread_self]; exact ht))
  · cases hs

theorem spares_rtThreadYield : Spares s s.rtThreadYield := by
  apply spares_of_thread rtThreadYield_thread
  rw [rtThreadYield]
  split <;> rfl

theorem spares_rtThreadSleep {tick : UInt32}
    (ht : (s.thread s.rtCurrentThread).type = .thread) (hs : s.rtThreadSleep tick = some s') :
    Spares s s' :=
  ((spares_assertType ht).trans (spares_rtThreadSuspend ht)).trans (spares_startTimer hs)

theorem spares_rtThreadControl (ht : (s.thread t).type = .thread) :
    Spares s (s.rtThreadControl t p) := by
  rw [rtThreadControl]
  split
  · next hready =>
    have hready : (s.thread t).stat = .ready := hready
    have hset : Spares ((s.assertType t).rtScheduleRemoveThread t)
        (((s.assertType t).rtScheduleRemoveThread t).setThread t
          { ((s.assertType t).rtScheduleRemoveThread t).thread t with
            currentPriority := p
            numberMask := BitVec.twoPow 32 p }) := spares_setThread rfl Iff.rfl
    refine (((spares_assertType ht).trans spares_remove).trans hset).trans (spares_insert ?_)
    rw [setThread_thread_self, rtScheduleRemoveThread_thread, assertType_thread, hready]
    simp
  · exact (spares_assertType ht).trans (spares_setThread rfl Iff.rfl)

/-- Only `rt_thread_exit` ends a thread, and takes its type from it. -/
theorem Typed.rtThreadExit (h : Typed s) : Typed s.rtThreadExit := by
  have hremove : Spares s (s.rtScheduleRemoveThread s.rtCurrentThread) := spares_remove
  refine ⟨hremove.halted.trans h.running, fun u hu => ?_⟩
  by_cases hut : u = s.rtCurrentThread
  · subst hut
    simp [Scheduler.rtThreadExit, rtObjectDetach] at hu
  · rw [rtThreadExit_others hut] at hu ⊢
    exact h.type u hu

theorem spares_timeOut (ht : (s.thread t).type = .thread) (hs : s.timeOut t = some s') :
    Spares s s' := by
  rw [timeOut] at hs
  split at hs
  · next hsleep =>
    rw [Option.some.injEq] at hs
    subst hs
    have hset : Spares (s.assertType t)
        ((s.assertType t).setThread t { s.thread t with error := .etimeout }) :=
      spares_setThread rfl Iff.rfl
    refine (((spares_assertType ht).trans hset).trans spares_unlink).trans (spares_insert ?_)
    rw [unlink_thread, setThread_thread_self, hsleep]
    simp
  · cases hs

theorem spares_rtThreadTimeout (ht : (s.thread t).type = .thread)
    (hs : s.rtThreadTimeout t = some s') : Spares s s' := by
  rw [rtThreadTimeout, Option.bind_eq_some_iff] at hs
  obtain ⟨k, hk, hs⟩ := hs
  exact (spares_timeOut ht hk).trans (spares_rtSchedule hs)

theorem spares_timeSlice (hs : s.timeSlice = some s') : Spares s s' := by
  have hcount : Spares s s.countDown := spares_setThread rfl Iff.rfl
  have hrefill : Spares s.countDown s.countDown.refill := spares_setThread rfl Iff.rfl
  rw [timeSlice] at hs
  dsimp only at hs
  split at hs
  · split at hs
    · exact ((hcount.trans hrefill).trans spares_rtThreadYield).trans (spares_rtSchedule hs)
    · rw [Option.some.injEq] at hs
      exact hs ▸ hcount.trans hrefill
  · rw [Option.some.injEq] at hs
    exact hs ▸ hcount

theorem Typed.timeouts (h : Typed s) (hs : s.timeouts l = some s') : Typed s' := by
  induction l generalizing s with
  | nil =>
    rw [Scheduler.timeouts, Option.some.injEq] at hs
    exact hs ▸ h
  | cons t l ih =>
    rw [Scheduler.timeouts, Option.bind_eq_some_iff] at hs
    obtain ⟨s₁, hs₁, hs⟩ := hs
    have hsleep : (s.thread t).stat = .suspend := by
      by_contra hne
      rw [rtThreadTimeout, timeOut, if_neg hne] at hs₁
      cases hs₁
    exact ih (h.spares (spares_rtThreadTimeout (h.suspended hsleep) hs₁)) hs

/-- A tick fails no assertion, whatever thread timeouts it calls. -/
theorem Typed.rtTickIncrease (h : Typed s) (hs : s.rtTickIncrease = some s') : Typed s' := by
  rw [Scheduler.rtTickIncrease, Option.bind_eq_some_iff] at hs
  obtain ⟨s₁, hs₁, hs⟩ := hs
  rw [Option.bind_eq_some_iff] at hs
  obtain ⟨r, -, hs⟩ := hs
  have htimers : Spares s₁ { s₁ with threadTimers := r.2 } := spares_of_thread rfl rfl
  exact (h.spares ((spares_timeSlice hs₁).trans htimers)).timeouts hs

theorem spares_rtIpcListSuspend (ht : (s.thread t).type = .thread) :
    Spares s (rtIpcListSuspend s i t flag) := by
  cases flag with
  | fifo => exact (spares_rtThreadSuspend ht).trans (spares_of_thread rfl rfl)
  | prio => exact (spares_rtThreadSuspend ht).trans (spares_of_thread rfl rfl)

theorem spares_wait (ht : (s.thread t).type = .thread) (hs : wait s i t flag time = some s') :
    Spares s s' := by
  have hsuspend : Spares s (rtIpcListSuspend s i t flag) := spares_rtIpcListSuspend ht
  rw [NanoAt.wait] at hs
  split at hs
  · exact hsuspend.trans (spares_startTimer hs)
  · rw [Option.some.injEq] at hs
    exact hs ▸ hsuspend

theorem spares_foldl_resumeWithError (hl : ∀ t ∈ l, (s.thread t).type = .thread) :
    Spares s (l.foldl resumeWithError s) := by
  induction l generalizing s with
  | nil => exact .refl
  | cons t l ih =>
    rw [List.forall_mem_cons] at hl
    have hset : Spares s (s.setThread t { s.thread t with error := .error }) :=
      spares_setThread rfl Iff.rfl
    have hresume := hset.trans
      (spares_rtThreadResume (t := t) (by rw [setThread_thread_self]; exact hl.1))
    exact hresume.trans (ih fun u hu => (hresume.type u).trans (hl.2 u hu))

omit [DecidableEq T] in
/-- The threads of a suspend list have not ended. -/
theorem Typed.waiting (h : Typed s) (hsound : Sound s) :
    ∀ t ∈ s.list (.suspend i), (s.thread t).type = .thread :=
  fun t ht => h.suspended (hsound.waiting t i ht)

theorem Typed.rtIpcListResumeAll (h : Typed s) (hsound : Sound s) :
    Typed (rtIpcListResumeAll s i) :=
  h.spares (spares_foldl_resumeWithError (h.waiting hsound))

end Functions

end Scheduler

namespace Rtos

open Scheduler

variable {T B : Type} [DecidableEq T] {s s' : Rtos T B} {t : T} {n : ℕ}
  {k : Scheduler T B} {p : Fin 32} {err : RtErr} {set : Finset B} {l : List T} {time : ℤ}

theorem spares_setError : Spares s.scheduler (s.setError t err).scheduler :=
  spares_setThread rfl Iff.rfl

theorem typed_rtSemRelease (h : s.scheduler.Typed) (hsound : s.scheduler.Sound) :
    (s.rtSemRelease n).scheduler.Typed := by
  rw [rtSemRelease]
  split
  · next t l hcons =>
    have ht : t ∈ s.scheduler.list (.suspend (.sem n)) := by simp [hcons]
    exact h.spares (spares_rtThreadResume (h.waiting hsound t ht))
  · exact h

theorem spares_raisePriority (ht : (k.thread t).type = .thread) :
    Spares k (raisePriority k t p) := by
  rw [raisePriority]
  split
  · exact spares_rtThreadControl ht
  · exact .refl

theorem spares_restorePriority {q : Option (Fin 32)} (ht : (k.thread t).type = .thread) :
    Spares k (restorePriority k t q) := by
  cases q with
  | none => exact .refl
  | some q =>
    rw [restorePriority]
    split
    · exact spares_rtThreadControl ht
    · exact .refl

theorem typed_handOver (h : s.scheduler.Typed) (hsound : s.scheduler.Sound) :
    (s.handOver n).scheduler.Typed := by
  rw [handOver]
  split
  · next w l hcons =>
    have hw : w ∈ s.scheduler.list (.suspend (.mutex n)) := by simp [hcons]
    exact h.spares (spares_rtThreadResume (h.waiting hsound w hw))
  · exact h

theorem typed_rtMutexRelease (h : s.scheduler.Typed) (hsound : s.scheduler.Sound)
    (hready : (s.scheduler.thread s.current).stat = .ready) :
    (s.rtMutexRelease n).2.scheduler.Typed := by
  rw [rtMutexRelease]
  dsimp only
  split
  · split
    · exact typed_handOver (h.spares (spares_restorePriority (h.ready hready)))
        (sound_restorePriority hsound)
    · exact h
  · exact h.spares spares_setError

variable [DecidableEq B]

theorem spares_eventWake (ht : (s.scheduler.thread t).type = .thread) :
    Spares s.scheduler (eventWake n s t).scheduler := by
  by_cases hsat : s.Satisfied n t
  · have hset : Spares s.scheduler (s.scheduler.setThread t
        { s.scheduler.thread t with eventSet := s.receives n t }) := spares_setThread rfl Iff.rfl
    rw [eventWake_of_satisfied hsat]
    exact hset.trans (spares_rtThreadResume (by rw [setThread_thread_self]; exact ht))
  · rw [eventWake_of_not_satisfied hsat]
    exact .refl

theorem spares_foldl_eventWake (hl : ∀ t ∈ l, (s.scheduler.thread t).type = .thread) :
    Spares s.scheduler (l.foldl (eventWake n) s).scheduler := by
  induction l generalizing s with
  | nil => exact .refl
  | cons t l ih =>
    rw [List.forall_mem_cons] at hl
    have hwake : Spares s.scheduler (eventWake n s t).scheduler := spares_eventWake hl.1
    exact hwake.trans (ih fun u hu => (hwake.type u).trans (hl.2 u hu))

theorem typed_rtEventSend (h : s.scheduler.Typed) (hsound : s.scheduler.Sound) :
    (s.rtEventSend n set).2.scheduler.Typed := by
  rw [rtEventSend]
  split
  · exact h
  · let s₁ : Rtos T B := { s with event := Function.update s.event n (s.event n ∪ set) }
    have hl : ∀ t ∈ s.scheduler.list (.suspend (.event n)), (s₁.scheduler.thread t).type = .thread :=
      h.waiting hsound
    exact h.spares (spares_foldl_eventWake hl)

end Rtos

end NanoAt
