import NanoAt.Ipc
import NanoAt.ThreadTicks

/-!
# Waiting and waking

What the functions of the scheduler and of the IPC objects do to the suspend lists and to
what threads wait for.

## Main definitions

- `Eases` — no thread joins a suspend list, and what threads wait for stays as it is
- `Blocked` — one thread has joined a suspend list

## Main results

- `Sound.eases_rtThreadResume`, `Sound.eases_rtTickIncrease`, ... — the functions that ease
- `Sound.wait` — a ready thread joins a suspend list
-/

namespace NanoAt.Scheduler

open DeadlineList Queues

variable {T B : Type} {s s' s'' : Scheduler T B} {t u : T} {i : IpcName}
  {p : Fin 32} {x : RtThread B} {flag : IpcFlag} {time : ℤ}

/-- No thread joins a suspend list, and what threads wait for stays as it is. -/
structure Eases (s s' : Scheduler T B) : Prop where
  sublist : ∀ i, (s'.list (.suspend i)).Sublist (s.list (.suspend i))
  eventSet : ∀ u, (s'.thread u).eventSet = (s.thread u).eventSet
  eventInfo : ∀ u, (s'.thread u).eventInfo = (s.thread u).eventInfo
  initPriority : ∀ u, (s'.thread u).initPriority = (s.thread u).initPriority

section Easing

theorem Eases.refl : Eases s s :=
  ⟨fun _ => List.Sublist.refl _, fun _ => rfl, fun _ => rfl, fun _ => rfl⟩

theorem Eases.trans (h : Eases s s') (h' : Eases s' s'') : Eases s s'' :=
  ⟨fun i => (h'.sublist i).trans (h.sublist i), fun u => (h'.eventSet u).trans (h.eventSet u),
    fun u => (h'.eventInfo u).trans (h.eventInfo u),
    fun u => (h'.initPriority u).trans (h.initPriority u)⟩

theorem eases_assertType : Eases s (s.assertType t) :=
  ⟨fun _ => List.Sublist.refl _, fun _ => rfl, fun _ => rfl, fun _ => rfl⟩

theorem Sliced.eases (h : Sliced s s') : Eases s s' := by
  have hrec : ∀ u, (s'.thread u).eventSet = (s.thread u).eventSet ∧
      (s'.thread u).eventInfo = (s.thread u).eventInfo ∧
      (s'.thread u).initPriority = (s.thread u).initPriority := by
    intro u
    obtain ⟨n, hn⟩ := h.thread u
    rw [hn]
    exact ⟨rfl, rfl, rfl⟩
  refine ⟨fun i => ?_, fun u => (hrec u).1, fun u => (hrec u).2.1, fun u => (hrec u).2.2⟩
  rw [h.waits]

variable [DecidableEq T]

/-- Writing what nobody waits for. -/
theorem eases_setThread (hset : x.eventSet = (s.thread t).eventSet)
    (hinfo : x.eventInfo = (s.thread t).eventInfo)
    (hinit : x.initPriority = (s.thread t).initPriority) : Eases s (s.setThread t x) := by
  have hfield : ∀ {β : Type} (f : RtThread B → β), f x = f (s.thread t) →
      ∀ u, f ((s.setThread t x).thread u) = f (s.thread u) := by
    intro β f hf u
    by_cases hu : u = t
    · subst hu
      rw [setThread_thread_self, hf]
    · rw [setThread_thread_of_ne hu]
  exact ⟨fun _ => List.Sublist.refl _, hfield _ hset, hfield _ hinfo, hfield _ hinit⟩

theorem eases_unlink : Eases s (s.unlink t) :=
  ⟨fun _ => List.erase_sublist, fun _ => rfl, fun _ => rfl, fun _ => rfl⟩

theorem eases_stopTimer : Eases s (s.stopTimer t) :=
  ⟨fun _ => List.Sublist.refl _, fun _ => rfl, fun _ => rfl, fun _ => rfl⟩

theorem eases_insert : Eases s (s.rtScheduleInsertThread t) := by
  have hset : Eases s (s.setThread t { s.thread t with stat := .ready }) :=
    eases_setThread rfl rfl rfl
  refine ⟨fun i => ?_, hset.eventSet, hset.eventInfo, hset.initPriority⟩
  rw [rtScheduleInsertThread_list, put_of_ne (by simp)]

theorem eases_remove : Eases s (s.rtScheduleRemoveThread t) := by
  refine ⟨fun i => ?_, fun u => ?_, fun u => ?_, fun u => ?_⟩
  · rw [rtScheduleRemoveThread_list]
    exact List.erase_sublist
  all_goals rw [rtScheduleRemoveThread_thread]

theorem eases_rtThreadSuspend : Eases s (s.rtThreadSuspend t).2 := by
  rw [rtThreadSuspend]
  split
  · have hset : Eases (s.assertType t)
        ((s.assertType t).setThread t { s.thread t with stat := .suspend }) :=
      eases_setThread rfl rfl rfl
    exact ((eases_assertType.trans hset).trans eases_remove).trans eases_stopTimer
  · exact eases_assertType

theorem eases_rtThreadResume : Eases s (s.rtThreadResume t).2 := by
  rw [rtThreadResume]
  split
  · exact ((eases_assertType.trans eases_unlink).trans eases_stopTimer).trans eases_insert
  · exact eases_assertType

theorem eases_rtThreadStartup (hs : s.rtThreadStartup t = some s') : Eases s s' := by
  rw [rtThreadStartup] at hs
  split at hs
  · rw [Option.some.injEq] at hs
    subst hs
    have hset : Eases (s.assertType t) ((s.assertType t).setThread t { s.thread t with
        currentPriority := (s.thread t).initPriority
        numberMask := BitVec.twoPow 32 (s.thread t).initPriority
        stat := .suspend }) := eases_setThread rfl rfl rfl
    exact (eases_assertType.trans hset).trans eases_rtThreadResume
  · cases hs

theorem eases_removeTimer : Eases s { s with threadTimers := s.threadTimers.remove t } :=
  ⟨fun _ => List.Sublist.refl _, fun _ => rfl, fun _ => rfl, fun _ => rfl⟩

theorem eases_rtThreadExit : Eases s s.rtThreadExit := by
  have hset : Eases (s.rtScheduleRemoveThread s.rtCurrentThread)
      ((s.rtScheduleRemoveThread s.rtCurrentThread).setThread s.rtCurrentThread
        { (s.rtScheduleRemoveThread s.rtCurrentThread).thread s.rtCurrentThread with
          stat := .close }) := eases_setThread rfl rfl rfl
  exact ((eases_remove.trans hset).trans eases_removeTimer).trans (eases_setThread rfl rfl rfl)

theorem eases_rtThreadControl : Eases s (s.rtThreadControl t p) := by
  rw [rtThreadControl]
  split
  · refine ((eases_assertType.trans eases_remove).trans (eases_setThread ?_ ?_ ?_)).trans
      eases_insert <;> rfl
  · exact eases_assertType.trans (eases_setThread rfl rfl rfl)

theorem Ticked.eases {ts : List T} (h : Ticked s s' ts) : Eases s s' := by
  have hrec : ∀ u, (s'.thread u).eventSet = (s.thread u).eventSet ∧
      (s'.thread u).eventInfo = (s.thread u).eventInfo ∧
      (s'.thread u).initPriority = (s.thread u).initPriority := by
    intro u
    by_cases hu : u ∈ ts
    · obtain ⟨n, hn⟩ := h.woken u hu
      rw [hn]
      exact ⟨rfl, rfl, rfl⟩
    · obtain ⟨n, hn⟩ := h.others u hu
      rw [hn]
      exact ⟨rfl, rfl, rfl⟩
  exact ⟨h.sublist, fun u => (hrec u).1, fun u => (hrec u).2.1, fun u => (hrec u).2.2⟩

theorem eases_startTimer {n : UInt32} (hs : s.startTimer t n = some s') : Eases s s' := by
  rw [startTimer, Option.map_eq_some_iff] at hs
  obtain ⟨timers, -, rfl⟩ := hs
  exact ⟨fun _ => List.Sublist.refl _, fun _ => rfl, fun _ => rfl, fun _ => rfl⟩

theorem eases_rtThreadSleep {n : UInt32} (hs : s.rtThreadSleep n = some s') : Eases s s' :=
  (eases_assertType.trans eases_rtThreadSuspend).trans (eases_startTimer hs)

theorem eases_resumeWithError : Eases s (resumeWithError s t) := by
  have hset : Eases s (s.setThread t { s.thread t with error := .error }) :=
    eases_setThread rfl rfl rfl
  exact hset.trans eases_rtThreadResume

theorem eases_foldl_resumeWithError {l : List T} : Eases s (l.foldl resumeWithError s) := by
  induction l generalizing s with
  | nil => exact .refl
  | cons t l ih => exact eases_resumeWithError.trans ih

omit [DecidableEq T] in
theorem eases_rtSchedule (hs : s.rtSchedule = some s') : Eases s s' := by
  rw [rtSchedule] at hs
  split at hs
  · split at hs
    · cases hs
    · split at hs
      · rw [Option.map_eq_some_iff] at hs
        obtain ⟨t, -, rfl⟩ := hs
        exact ⟨fun _ => List.Sublist.refl _, fun _ => rfl, fun _ => rfl, fun _ => rfl⟩
      · cases hs
  · rw [Option.some.injEq] at hs
    exact hs ▸ .refl

end Easing

variable [DecidableEq T]

section Resuming

/-- A suspended thread that `rt_thread_resume` makes ready. -/
structure Resumed (s s' : Scheduler T B) (t : T) : Prop where
  self : s'.thread t = { s.thread t with stat := .ready }
  others : ∀ u, u ≠ t → s'.thread u = s.thread u
  list : ∀ i, s'.list (.suspend i) = (s.list (.suspend i)).erase t
  current : s'.rtCurrentThread = s.rtCurrentThread
  locked : s'.rtSchedulerLockNest = s.rtSchedulerLockNest

theorem resumed_rtThreadResume (ht : (s.thread t).stat = .suspend) :
    Resumed s (s.rtThreadResume t).2 t := by
  rw [rtThreadResume_of_suspend ht]
  refine ⟨?_, fun u hu => ?_, fun i => ?_, rfl, rfl⟩
  · simp
  · simp [Function.update_of_ne hu]
  · dsimp only
    rw [rtScheduleInsertThread_list, put_of_ne (by simp)]
    rfl

theorem Sound.resumeWithError (h : Sound s) : Sound (resumeWithError s t) := by
  have hset : Sound (s.setThread t { s.thread t with error := .error }) :=
    h.setThread rfl (fun _ => rfl) fun hx => h.mask t hx
  exact hset.rtThreadResume

theorem Sound.foldl_resumeWithError {l : List T} (h : Sound s) :
    Sound (l.foldl NanoAt.resumeWithError s) := by
  induction l generalizing s with
  | nil => exact h
  | cons t l ih => exact ih h.resumeWithError

/-- One round of `rt_ipc_list_resume_all` on a suspended thread. -/
theorem resumed_resumeWithError (ht : (s.thread t).stat = .suspend) :
    Resumed (s.setThread t { s.thread t with error := .error }) (NanoAt.resumeWithError s t) t :=
  resumed_rtThreadResume (by rw [setThread_thread_self]; exact ht)

/-- After `rt_ipc_list_resume_all` the threads of the list are off the suspend lists. -/
theorem Sound.not_mem_foldl_resumeWithError {l : List T} (h : Sound s) (hnodup : l.Nodup)
    (hl : ∀ u ∈ l, (s.thread u).stat = .suspend) (ht : t ∈ l) :
    t ∉ (l.foldl NanoAt.resumeWithError s).list (.suspend i) := by
  induction l generalizing s with
  | nil => cases ht
  | cons v l ih =>
    rw [List.forall_mem_cons] at hl
    obtain ⟨hnot, hnodup⟩ := List.nodup_cons.mp hnodup
    have hres := resumed_resumeWithError hl.1
    obtain rfl | ht := List.mem_cons.mp ht
    · intro hm
      rw [List.foldl_cons] at hm
      have hm := (eases_foldl_resumeWithError.sublist i).subset hm
      rw [hres.list] at hm
      exact (h.linked.nodup _).not_mem_erase hm
    · refine ih h.resumeWithError hnodup (fun u hu => ?_) ht
      have huv : u ≠ v := by
        rintro rfl
        exact hnot hu
      rw [hres.others u huv, setThread_thread_of_ne huv]
      exact hl.2 u hu

theorem Sound.rtIpcListResumeAll (h : Sound s) : Sound (rtIpcListResumeAll s i) :=
  h.foldl_resumeWithError

theorem eases_rtIpcListResumeAll : Eases s (rtIpcListResumeAll s i) := eases_foldl_resumeWithError

/-- `rt_ipc_list_resume_all` empties the list. -/
theorem Sound.rtIpcListResumeAll_list (h : Sound s) :
    (NanoAt.rtIpcListResumeAll s i).list (.suspend i) = [] := by
  rw [List.eq_nil_iff_forall_not_mem]
  intro t ht
  refine h.not_mem_foldl_resumeWithError (h.linked.nodup _) (fun u hu => h.waiting u i hu) ?_ ht
  exact (eases_rtIpcListResumeAll.sublist i).subset ht

end Resuming

section Blocking

/-- A ready thread that has joined a suspend list. -/
structure Blocked (s s' : Scheduler T B) (i : IpcName) (t : T) : Prop where
  joined : (s'.list (.suspend i)).Perm (t :: s.list (.suspend i))
  lists : ∀ j, j ≠ i → s'.list (.suspend j) = s.list (.suspend j)
  self : s'.thread t = { s.thread t with stat := .suspend }
  others : ∀ u, u ≠ t → s'.thread u = s.thread u
  current : s'.rtCurrentThread = s.rtCurrentThread
  locked : s'.rtSchedulerLockNest = s.rtSchedulerLockNest

theorem Sound.rtThreadSuspend_list (h : Sound s) (ht : (s.thread t).stat = .ready) :
    (s.rtThreadSuspend t).2.list (.suspend i) = s.list (.suspend i) := by
  have hout : t ∉ s.list (.suspend i) := by
    intro hm
    have hsleep := h.waiting t i hm
    rw [ht] at hsleep
    cases hsleep
  rw [rtThreadSuspend_of_ready ht, stopTimer_list, setThread_list, rtScheduleRemoveThread_list]
  exact unlink_of_not_mem hout

theorem rtThreadSuspend_rtCurrentThread :
    (s.rtThreadSuspend t).2.rtCurrentThread = s.rtCurrentThread ∧
      (s.rtThreadSuspend t).2.rtSchedulerLockNest = s.rtSchedulerLockNest := by
  rw [rtThreadSuspend]
  split
  · show (((s.assertType t).setThread t _).rtScheduleRemoveThread t).rtCurrentThread = _ ∧
      (((s.assertType t).setThread t _).rtScheduleRemoveThread t).rtSchedulerLockNest = _
    rw [rtScheduleRemoveThread_rtCurrentThread, rtScheduleRemoveThread_rtSchedulerLockNest]
    exact ⟨rfl, rfl⟩
  · exact ⟨rfl, rfl⟩

theorem rtThreadSuspend_others (hu : u ≠ t) : (s.rtThreadSuspend t).2.thread u = s.thread u := by
  rw [rtThreadSuspend]
  split
  · show (((s.assertType t).setThread t _).rtScheduleRemoveThread t).thread u = _
    rw [rtScheduleRemoveThread_thread, setThread_thread_of_ne hu, assertType_thread]
  · rfl

/-- A suspended thread put into a suspend list, at any place. -/
theorem Sound.blocked_put {l : List T} (h : Sound s) (ht : (s.thread t).stat = .ready)
    (hl : l.Perm (t :: s.list (.suspend i))) :
    let s' := { (s.rtThreadSuspend t).2 with
      list := put (s.rtThreadSuspend t).2.list (.suspend i) l }
    Sound s' ∧ Blocked s s' i t := by
  obtain ⟨hloose, hrec⟩ := h.loose_suspend ht
  have hsame : ∀ j, (s.rtThreadSuspend t).2.list (.suspend j) = s.list (.suspend j) := fun j =>
    h.rtThreadSuspend_list ht
  refine ⟨hloose.enqueue (by rw [hrec]) (by rw [hsame]; exact hl), ?_, fun j hj => ?_, hrec,
    fun u hu => rtThreadSuspend_others hu, rtThreadSuspend_rtCurrentThread.1,
    rtThreadSuspend_rtCurrentThread.2⟩
  · show (put _ _ l _).Perm _
    rw [put_self]
    exact hl
  · show put _ _ l _ = _
    rw [put_of_ne (by simpa using hj), hsame]

/-- `rt_ipc_list_suspend` of a ready thread. -/
theorem Sound.rtIpcListSuspend (h : Sound s) (ht : (s.thread t).stat = .ready) :
    Sound (rtIpcListSuspend s i t flag) ∧ Blocked s (rtIpcListSuspend s i t flag) i t := by
  have hsame := h.rtThreadSuspend_list (i := i) ht
  cases flag with
  | fifo =>
    apply h.blocked_put ht
    rw [hsame]
    exact List.perm_append_singleton t _
  | prio =>
    apply h.blocked_put ht
    rw [hsame]
    exact insertLate_perm

theorem Blocked.startTimer {n : UInt32} (h : Blocked s s' i t)
    (hs : s'.startTimer t n = some s'') : Blocked s s'' i t := by
  rw [Scheduler.startTimer, Option.map_eq_some_iff] at hs
  obtain ⟨timers, -, rfl⟩ := hs
  exact ⟨h.joined, h.lists, h.self, h.others, h.current, h.locked⟩

/-- A ready thread joins a suspend list, its timer running or not. -/
theorem Sound.wait (h : Sound s) (ht : (s.thread t).stat = .ready)
    (hs : wait s i t flag time = some s') : Sound s' ∧ Blocked s s' i t := by
  obtain ⟨hsound, hblock⟩ : Sound (NanoAt.rtIpcListSuspend s i t flag) ∧
      Blocked s (NanoAt.rtIpcListSuspend s i t flag) i t := h.rtIpcListSuspend ht
  rw [NanoAt.wait] at hs
  split at hs
  · exact ⟨hsound.startTimer (by rw [hblock.self]) hs, hblock.startTimer hs⟩
  · rw [Option.some.injEq] at hs
    subst hs
    exact ⟨hsound, hblock⟩

/-- The assertion on the time of a timer holds for every time in range. -/
theorem startTimer_returns {n : UInt32} (hn : n.toNat < 2 ^ 31 - 1) :
    ∃ s', s.startTimer t n = some s' := by
  obtain ⟨timers, ht⟩ : ∃ timers,
      (s.threadTimers.rtTimerControl t (.setTime n)).rtTimerStart t = some timers :=
    Timers.start_returns hn
  exact ⟨_, by rw [Scheduler.startTimer, ht]; rfl⟩

theorem wait_returns (htime : time < 2 ^ 31 - 1) : ∃ s', wait s i t flag time = some s' := by
  rw [wait]
  split
  · apply startTimer_returns
    have hsize : time.toNat < UInt32.size := by
      rw [UInt32.size]
      omega
    rw [UInt32.toNat_ofNat_of_lt' hsize]
    omega
  · exact ⟨_, rfl⟩

end Blocking

end NanoAt.Scheduler
