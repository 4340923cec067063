import NanoAt.KernelRuns

/-!
# Priority inheritance

A thread that waits for a mutex lends its priority to the owner. Where every thread owns one
mutex at a time, the mutexes have `RT_IPC_FLAG_PRIO`, and nobody else sets priorities, the
owner is never behind a thread that waits for it.

## Main definitions

- `Calm` — no thread joins a suspend list, changes its priority or goes back to its start
- `Inherits` — the priorities of the owners and of all other threads

## Main results

- `Rtos.no_priority_inversion` — the owner of a mutex has the highest priority of its waiters
-/

namespace NanoAt

open DeadlineList Queues GuardedRun

namespace Scheduler

variable {T B : Type} {k k' k'' : Scheduler T B} {t u : T} {i : IpcName}
  {p : Fin 32} {x : RtThread B} {flag : IpcFlag} {time : ℤ}

/-- No thread changes its priority or goes back to its start. -/
structure Steady (k k' : Scheduler T B) : Prop where
  priority : ∀ u, (k'.thread u).currentPriority = (k.thread u).currentPriority
  started : ∀ u, (k.thread u).stat ≠ .init → (k'.thread u).stat ≠ .init

section Steadiness

theorem Steady.refl : Steady k k := ⟨fun _ => rfl, fun _ => id⟩

theorem Steady.trans (h : Steady k k') (h' : Steady k' k'') : Steady k k'' :=
  ⟨fun u => (h'.priority u).trans (h.priority u), fun u hu => h'.started u (h.started u hu)⟩

theorem steady_of_thread (h : k'.thread = k.thread) : Steady k k' := by
  constructor
  · intro u
    rw [h]
  · intro u hu
    rw [h]
    exact hu

variable [DecidableEq T]

theorem steady_setThread (hp : x.currentPriority = (k.thread t).currentPriority)
    (hx : (k.thread t).stat ≠ .init → x.stat ≠ .init) : Steady k (k.setThread t x) := by
  constructor
  · intro u
    by_cases hu : u = t
    · subst hu
      rw [setThread_thread_self, hp]
    · rw [setThread_thread_of_ne hu]
  · intro u hstat
    by_cases hu : u = t
    · subst hu
      rw [setThread_thread_self]
      exact hx hstat
    · rw [setThread_thread_of_ne hu]
      exact hstat

theorem steady_insert : Steady k (k.rtScheduleInsertThread t) := by
  have hset : Steady k (k.setThread t { k.thread t with stat := .ready }) :=
    steady_setThread rfl fun _ => by simp
  exact hset.trans (steady_of_thread (rtScheduleInsertThread_thread ..))

theorem steady_remove : Steady k (k.rtScheduleRemoveThread t) :=
  steady_of_thread rtScheduleRemoveThread_thread

theorem steady_suspend : Steady k (k.rtThreadSuspend t).2 := by
  rw [Scheduler.rtThreadSuspend]
  split
  · have hset : Steady (k.assertType t)
        ((k.assertType t).setThread t { k.thread t with stat := .suspend }) :=
      steady_setThread rfl fun _ => by simp
    have hassert : Steady k (k.assertType t) := steady_of_thread rfl
    exact ((hassert.trans hset).trans steady_remove).trans (steady_of_thread rfl)
  · exact steady_of_thread rfl

theorem steady_resume : Steady k (k.rtThreadResume t).2 := by
  rw [Scheduler.rtThreadResume]
  split
  · have hout : Steady k (((k.assertType t).unlink t).stopTimer t) := steady_of_thread rfl
    exact hout.trans steady_insert
  · exact steady_of_thread rfl

theorem steady_exit : Steady k k.rtThreadExit := by
  let k₁ := (k.rtScheduleRemoveThread k.rtCurrentThread).setThread k.rtCurrentThread
    { (k.rtScheduleRemoveThread k.rtCurrentThread).thread k.rtCurrentThread with stat := .close }
  have hclose : Steady (k.rtScheduleRemoveThread k.rtCurrentThread) k₁ :=
    steady_setThread rfl fun _ => by simp
  have htimer : Steady k₁ { k₁ with threadTimers := k₁.threadTimers.remove k.rtCurrentThread } :=
    steady_of_thread rfl
  exact ((steady_remove.trans hclose).trans htimer).trans (steady_setThread rfl id)

theorem steady_startTimer {n : UInt32} (hs : k.startTimer t n = some k') : Steady k k' := by
  rw [Scheduler.startTimer, Option.map_eq_some_iff] at hs
  obtain ⟨timers, -, rfl⟩ := hs
  exact steady_of_thread rfl

theorem Ticked.steady {ts : List T} (h : Ticked k k' ts) : Steady k k' := by
  constructor
  · intro u
    by_cases hu : u ∈ ts
    · obtain ⟨n, hn⟩ := h.woken u hu
      rw [hn]
    · obtain ⟨n, hn⟩ := h.others u hu
      rw [hn]
  · intro u hstat
    by_cases hu : u ∈ ts
    · obtain ⟨n, hn⟩ := h.woken u hu
      rw [hn]
      simp
    · obtain ⟨n, hn⟩ := h.others u hu
      rw [hn]
      exact hstat

theorem steady_resumeAll : Steady k (rtIpcListResumeAll k i) := by
  rw [NanoAt.rtIpcListResumeAll]
  generalize k.list (.suspend i) = l
  induction l generalizing k with
  | nil => exact .refl
  | cons t l ih =>
    have hset : Steady k (k.setThread t { k.thread t with error := .error }) :=
      steady_setThread rfl id
    exact (hset.trans steady_resume).trans ih

theorem Blocked.steady (h : Blocked k k' i t) : Steady k k' := by
  constructor
  · intro u
    by_cases hu : u = t
    · subst hu
      rw [h.self]
    · rw [h.others u hu]
  · intro u hstat
    by_cases hu : u = t
    · subst hu
      rw [h.self]
      simp
    · rw [h.others u hu]
      exact hstat

theorem steady_startup (hp : (k.thread t).currentPriority = (k.thread t).initPriority)
    (hs : k.rtThreadStartup t = some k') : Steady k k' := by
  rw [Scheduler.rtThreadStartup] at hs
  split at hs
  · rw [Option.some.injEq] at hs
    subst hs
    have hset : Steady (k.assertType t) ((k.assertType t).setThread t { k.thread t with
        currentPriority := (k.thread t).initPriority
        numberMask := BitVec.twoPow 32 (k.thread t).initPriority
        stat := .suspend }) := steady_setThread hp.symm fun _ => by simp
    have hassert : Steady k (k.assertType t) := steady_of_thread rfl
    exact (hassert.trans hset).trans steady_resume
  · cases hs

/-- `rt_thread_control` leaves the suspend lists alone. -/
theorem Sound.rtThreadControl_list (h : Sound k) :
    (k.rtThreadControl t p).list (.suspend i) = k.list (.suspend i) := by
  rw [Scheduler.rtThreadControl]
  dsimp only
  rw [assertType_thread]
  split
  · next ht =>
    have hout : t ∉ k.list (.suspend i) := by
      intro hm
      have hsleep := h.waiting t i hm
      rw [ht] at hsleep
      cases hsleep
    rw [rtScheduleInsertThread_list, put_of_ne (by simp), setThread_list,
      rtScheduleRemoveThread_list]
    exact unlink_of_not_mem hout
  · rfl

/-- A thread that waits in the order of priorities. -/
theorem Sound.wait_list (h : Sound k) (ht : (k.thread t).stat = .ready)
    (hs : NanoAt.wait k i t .prio time = some k') : k'.list (.suspend i) =
      insertLate (fun u => (k.thread u).currentPriority) t (k.list (.suspend i)) := by
  have hlist : (NanoAt.rtIpcListSuspend k i t .prio).list (.suspend i) =
      insertLate (fun u => (k.thread u).currentPriority) t (k.list (.suspend i)) := by
    have hkey : (fun u => ((k.rtThreadSuspend t).2.thread u).currentPriority) =
        fun u => (k.thread u).currentPriority := by
      funext u
      exact steady_suspend.priority u
    show put _ _ _ _ = _
    rw [put_self, hkey, h.rtThreadSuspend_list ht]
  rw [NanoAt.wait] at hs
  split at hs
  · rw [Scheduler.startTimer, Option.map_eq_some_iff] at hs
    obtain ⟨timers, -, rfl⟩ := hs
    exact hlist
  · rw [Option.some.injEq] at hs
    exact hs ▸ hlist

end Steadiness

end Scheduler

namespace Rtos

open Scheduler

variable {T B : Type} {s s' : Rtos T B} {t u idle : T} {n : ℕ}
  {c : RtCall T B} {a : RtAction T B} {h : History (Rtos T B) (RtAction T B)}
  {k : Scheduler T B} {m : RtMutex T}

/-- `current_priority` of a thread. -/
def priority (s : Rtos T B) (t : T) : Fin 32 := (s.scheduler.thread t).currentPriority

/-- `init_priority` of a thread. -/
def initPriority (s : Rtos T B) (t : T) : Fin 32 := (s.scheduler.thread t).initPriority

/-- The threads that wait for a mutex. -/
def waiters (s : Rtos T B) (n : ℕ) : List T := s.scheduler.list (.suspend (.mutex n))

/-- A thread without a mutex has its initial priority; the owner of one may have a higher one,
and is behind no thread that waits for it. -/
structure Inherits (s : Rtos T B) : Prop where
  plain : ∀ t, (∀ n, (s.mutex n).owner ≠ some t) → s.priority t = s.initPriority t
  lifted : ∀ n t, (s.mutex n).owner = some t → s.priority t ≤ s.initPriority t
  raised : ∀ n t, (s.mutex n).owner = some t → ∀ w ∈ s.waiters n, s.priority t ≤ s.priority w
  original : ∀ n t, (s.mutex n).owner = some t →
    (s.mutex n).originalPriority = some (s.initPriority t)
  single : ∀ n j t, (s.mutex n).owner = some t → (s.mutex j).owner = some t → n = j
  started : ∀ n t, (s.mutex n).owner = some t → (s.scheduler.thread t).stat ≠ .init
  idle : ∀ n, ∀ w ∈ s.waiters n, ∀ j, (s.mutex j).owner ≠ some w
  order : ∀ n, InOrder s.priority (s.waiters n)
  flag : ∀ n, s.ipcFlag (.mutex n) = .prio

section Frame

/-- What changes neither priorities nor owners, and adds no thread that waits for a mutex. -/
theorem Inherits.frame (h : Inherits s) (hs : Steady s.scheduler s'.scheduler)
    (hinit : ∀ u, s'.initPriority u = s.initPriority u)
    (hlist : ∀ n, (s'.waiters n).Sublist (s.waiters n)) (hm : s'.mutex = s.mutex)
    (hf : s'.ipcFlag = s.ipcFlag) : Inherits s' := by
  have hp : ∀ u, s'.priority u = s.priority u := hs.priority
  constructor
  · intro t ht
    rw [hm] at ht
    rw [hp, hinit]
    exact h.plain t ht
  · intro n t ht
    rw [hm] at ht
    rw [hp, hinit]
    exact h.lifted n t ht
  · intro n t ht w hw
    rw [hm] at ht
    rw [hp, hp]
    exact h.raised n t ht w ((hlist n).subset hw)
  · intro n t ht
    rw [hm] at ht ⊢
    rw [hinit]
    exact h.original n t ht
  · rw [hm]
    exact h.single
  · intro n t ht
    rw [hm] at ht
    exact hs.started t (h.started n t ht)
  · intro n w hw
    rw [hm]
    exact h.idle n w ((hlist n).subset hw)
  · intro n
    exact ((h.order n).sublist (hlist n)).congr fun u _ => hp u
  · rw [hf]
    exact h.flag

theorem Inherits.eases (h : Inherits s) (he : Eases s.scheduler s'.scheduler)
    (hs : Steady s.scheduler s'.scheduler) (hm : s'.mutex = s.mutex)
    (hf : s'.ipcFlag = s.ipcFlag) : Inherits s' :=
  h.frame hs he.initPriority (fun _ => he.sublist _) hm hf

theorem setMutex_self : (s.setMutex n m).mutex n = m := Function.update_self ..

theorem setMutex_of_ne {j : ℕ} (hj : j ≠ n) : (s.setMutex n m).mutex j = s.mutex j :=
  Function.update_of_ne hj ..

/-- Writing a mutex without a change of its owner. -/
theorem Inherits.sameOwner (h : Inherits s) (howner : m.owner = (s.mutex n).owner)
    (horiginal : m.originalPriority = (s.mutex n).originalPriority) :
    Inherits (s.setMutex n m) := by
  have hown : ∀ j, ((s.setMutex n m).mutex j).owner = (s.mutex j).owner := by
    intro j
    by_cases hj : j = n
    · subst hj
      rw [setMutex_self, howner]
    · rw [setMutex_of_ne hj]
  have horig : ∀ j, ((s.setMutex n m).mutex j).originalPriority =
      (s.mutex j).originalPriority := by
    intro j
    by_cases hj : j = n
    · subst hj
      rw [setMutex_self, horiginal]
    · rw [setMutex_of_ne hj]
  constructor
  · intro t ht
    exact h.plain t fun j => by rw [← hown]; exact ht j
  · intro j t ht
    rw [hown] at ht
    exact h.lifted j t ht
  · intro j t ht
    rw [hown] at ht
    exact h.raised j t ht
  · intro j t ht
    rw [hown] at ht
    rw [horig]
    exact h.original j t ht
  · intro i j t hi hj
    rw [hown] at hi hj
    exact h.single i j t hi hj
  · intro j t ht
    rw [hown] at ht
    exact h.started j t ht
  · intro i w hw j
    rw [hown]
    exact h.idle i w hw j
  · exact h.order
  · exact h.flag

/-- The owners after one mutex has been written. -/
theorem owner_setMutex {j : ℕ} (ho : ((s.setMutex n m).mutex j).owner = some u) :
    j = n ∧ m.owner = some u ∨ j ≠ n ∧ (s.mutex j).owner = some u := by
  by_cases hj : j = n
  · subst hj
    rw [setMutex_self] at ho
    exact .inl ⟨rfl, ho⟩
  · rw [setMutex_of_ne hj] at ho
    exact .inr ⟨hj, ho⟩

/-- A thread without a mutex takes one that nobody owns. -/
theorem Inherits.take [DecidableEq B] (h : Inherits s) (hs : Served s)
    (ht : (s.scheduler.thread t).stat = .ready) (hnone : (s.mutex n).owner = none)
    (hfree : ∀ j, (s.mutex j).owner ≠ some t) (howner : m.owner = some t)
    (horiginal : m.originalPriority = some (s.priority t)) : Inherits (s.setMutex n m) := by
  have hnil : s.waiters n = [] := by
    by_contra hne
    exact hs.mutex n hne hnone
  have hplain := h.plain t hfree
  have hold : ∀ {j u}, j ≠ n → (s.mutex j).owner = some u →
      ((s.setMutex n m).mutex j).owner = some u := by
    intro j u hj hu
    rw [setMutex_of_ne hj, hu]
  constructor
  · intro u hu
    refine h.plain u fun j hj => ?_
    by_cases hjn : j = n
    · subst hjn
      rw [hnone] at hj
      cases hj
    · exact hu j (hold hjn hj)
  · intro j u hu
    obtain ⟨-, hu⟩ | ⟨-, hu⟩ := owner_setMutex hu
    · rw [howner, Option.some.injEq] at hu
      subst hu
      exact le_of_eq hplain
    · exact h.lifted j u hu
  · intro j u hu w hw
    obtain ⟨rfl, hu⟩ | ⟨-, hu⟩ := owner_setMutex hu
    · have hw : w ∈ s.waiters j := hw
      rw [hnil] at hw
      cases hw
    · exact h.raised j u hu w hw
  · intro j u hu
    obtain ⟨hj, hu⟩ | ⟨hj, hu⟩ := owner_setMutex hu
    · rw [howner, Option.some.injEq] at hu
      subst hu hj
      rw [setMutex_self, horiginal]
      exact congrArg some hplain
    · rw [setMutex_of_ne hj]
      exact h.original j u hu
  · intro i j u hi hj
    obtain ⟨hin, hi⟩ | ⟨-, hi⟩ := owner_setMutex hi
    · obtain ⟨hjn, -⟩ | ⟨-, hj⟩ := owner_setMutex hj
      · rw [hin, hjn]
      · rw [howner, Option.some.injEq] at hi
        subst hi
        exact absurd hj (hfree j)
    · obtain ⟨-, hj⟩ | ⟨-, hj⟩ := owner_setMutex hj
      · rw [howner, Option.some.injEq] at hj
        subst hj
        exact absurd hi (hfree i)
      · exact h.single i j u hi hj
  · intro j u hu
    obtain ⟨-, hu⟩ | ⟨-, hu⟩ := owner_setMutex hu
    · rw [howner, Option.some.injEq] at hu
      subst hu
      show (s.scheduler.thread t).stat ≠ .init
      rw [ht]
      simp
    · exact h.started j u hu
  · intro i w hw j hj
    obtain ⟨-, hj⟩ | ⟨-, hj⟩ := owner_setMutex hj
    · rw [howner, Option.some.injEq] at hj
      subst hj
      have hsleep := hs.sound.waiting t _ hw
      rw [ht] at hsleep
      cases hsleep
    · exact h.idle i w hw j hj
  · exact h.order
  · exact h.flag

end Frame

variable [DecidableEq T]

section Taking

theorem Inherits.setError {err : RtErr} (h : Inherits s) : Inherits (s.setError t err) :=
  h.eases (eases_setThread rfl rfl rfl) (steady_setThread rfl id) rfl rfl

/-- A thread joins another suspend list. -/
theorem Inherits.blocked {i : IpcName} (h : Inherits s) (hb : Blocked s.scheduler k i t)
    (hi : ∀ n, i ≠ .mutex n) : Inherits { s with scheduler := k } := by
  refine h.frame hb.steady (fun u => ?_) (fun n => ?_) rfl rfl
  · show (k.thread u).initPriority = (s.scheduler.thread u).initPriority
    by_cases hu : u = t
    · subst hu
      rw [hb.self]
    · rw [hb.others u hu]
  · show (k.list _).Sublist (s.scheduler.list _)
    rw [hb.lists _ (Ne.symm (hi n))]

/-- What `rt_mutex_take` does to the priority of the owner. -/
theorem raisePriority_priority {p : Fin 32} :
    ((raisePriority k t p).thread t).currentPriority = min p (k.thread t).currentPriority ∧
      ∀ u, u ≠ t → ((raisePriority k t p).thread u).currentPriority =
        (k.thread u).currentPriority := by
  rw [raisePriority]
  split
  · next hlt =>
    obtain ⟨hself, -, hothers⟩ := rtThreadControl_thread (s := k) (t := t) (p := p)
    refine ⟨?_, fun u hu => by rw [hothers u hu]⟩
    rw [hself, min_eq_left (le_of_lt hlt)]
  · next hge =>
    exact ⟨(min_eq_right (not_lt.mp hge)).symm, fun _ _ => rfl⟩

/-- The owner of a mutex gets the priority of a thread, if that is higher. -/
theorem Inherits.raise {owner : T} {p : Fin 32} (h : Inherits s)
    (howner : (s.mutex n).owner = some owner) :
    Inherits { s with scheduler := raisePriority s.scheduler owner p } := by
  obtain ⟨hself, hothers⟩ := raisePriority_priority (k := s.scheduler) (t := owner) (p := p)
  have he : Eases s.scheduler (raisePriority s.scheduler owner p) := eases_raisePriority
  have hne : ∀ {j u}, (s.mutex j).owner = some u → j ≠ n → u ≠ owner := by
    rintro j u hu hj rfl
    exact hj (h.single j n u hu howner)
  have hwait : ∀ {j w}, w ∈ s.waiters j → w ≠ owner := by
    rintro j w hw rfl
    exact h.idle j w hw n howner
  have hle : ∀ u, ((raisePriority s.scheduler owner p).thread u).currentPriority ≤
      s.priority u := by
    intro u
    by_cases hu : u = owner
    · subst hu
      rw [hself]
      exact min_le_right _ _
    · exact le_of_eq (hothers u hu)
  constructor
  · intro t ht
    have hto : t ≠ owner := by
      rintro rfl
      exact ht n howner
    have hplain : s.priority t = s.initPriority t := h.plain t ht
    exact (hothers t hto).trans (hplain.trans (he.initPriority t).symm)
  · intro j t ht
    exact (hle t).trans ((h.lifted j t ht).trans (le_of_eq (he.initPriority t).symm))
  · intro j t ht w hw
    have hw := (he.sublist _).subset hw
    have hkeep := hothers w (hwait hw)
    exact (hle t).trans ((h.raised j t ht w hw).trans (le_of_eq hkeep.symm))
  · intro j t ht
    have horig := h.original j t ht
    exact horig.trans (congrArg some (he.initPriority t).symm)
  · exact h.single
  · intro j t ht
    show ((raisePriority s.scheduler owner p).thread t).stat ≠ .init
    rw [raisePriority_stat]
    exact h.started j t ht
  · intro j w hw
    exact h.idle j w ((he.sublist _).subset hw)
  · intro j
    refine ((h.order j).sublist (he.sublist _)).congr fun w hw => ?_
    exact hothers w (hwait ((he.sublist _).subset hw))
  · exact h.flag

/-- A thread without a mutex joins those that wait for one. -/
theorem Inherits.join {owner : T} (h : Inherits s) (hb : Blocked s.scheduler k (.mutex n) t)
    (hlist : k.list (.suspend (.mutex n)) = insertLate s.priority t (s.waiters n))
    (howner : (s.mutex n).owner = some owner) (hle : s.priority owner ≤ s.priority t)
    (hfree : ∀ j, (s.mutex j).owner ≠ some t) : Inherits { s with scheduler := k } := by
  have hp : ∀ u, (k.thread u).currentPriority = s.priority u := hb.steady.priority
  have hinit : ∀ u, (k.thread u).initPriority = s.initPriority u := by
    intro u
    by_cases hu : u = t
    · subst hu
      rw [hb.self]
      rfl
    · rw [hb.others u hu]
      rfl
  have hmem : ∀ {j w}, w ∈ k.list (.suspend (.mutex j)) → j = n ∧ w = t ∨ w ∈ s.waiters j := by
    intro j w hw
    by_cases hj : j = n
    · subst hj
      rw [hb.joined.mem_iff, List.mem_cons] at hw
      exact hw.imp (fun hwt => ⟨rfl, hwt⟩) id
    · rw [hb.lists _ (by simpa using hj)] at hw
      exact .inr hw
  constructor
  · intro u hu
    exact (hp u).trans ((h.plain u hu).trans (hinit u).symm)
  · intro j u hu
    exact (le_of_eq (hp u)).trans ((h.lifted j u hu).trans (le_of_eq (hinit u).symm))
  · intro j u hu w hw
    have hle' : s.priority u ≤ s.priority w := by
      obtain ⟨rfl, rfl⟩ | hw := hmem hw
      · have hu : (s.mutex j).owner = some u := hu
        rw [howner, Option.some.injEq] at hu
        subst hu
        exact hle
      · exact h.raised j u hu w hw
    exact (le_of_eq (hp u)).trans (hle'.trans (le_of_eq (hp w).symm))
  · intro j u hu
    exact (h.original j u hu).trans (congrArg some (hinit u).symm)
  · exact h.single
  · intro j u hu
    exact hb.steady.started u (h.started j u hu)
  · intro i w hw j
    obtain ⟨-, rfl⟩ | hw := hmem hw
    · exact hfree j
    · exact h.idle i w hw j
  · intro j
    have horder : InOrder s.priority (k.list (.suspend (.mutex j))) := by
      by_cases hj : j = n
      · subst hj
        rw [hlist]
        exact inOrder_insertLate (h.order j)
      · rw [hb.lists _ (by simpa using hj)]
        exact h.order j
    exact horder.congr fun w _ => hp w
  · exact h.flag

end Taking

section Releasing

/-- The owner gets its priority back and the first waiting thread, if any, the mutex. -/
structure Passed (s s' : Rtos T B) (n : ℕ) (t : T) : Prop where
  restored : s'.priority t = s.initPriority t
  priority : ∀ u, u ≠ t → s'.priority u = s.priority u
  initPriority : ∀ u, s'.initPriority u = s.initPriority u
  started : ∀ u, (s.scheduler.thread u).stat ≠ .init → (s'.scheduler.thread u).stat ≠ .init
  waiters : ∀ j, (s'.waiters j).Sublist (s.waiters j)
  others : ∀ j, j ≠ n → s'.mutex j = s.mutex j
  owner : (s'.mutex n).owner = (s.waiters n).head?
  original : ∀ w, (s'.mutex n).owner = some w →
    (s'.mutex n).originalPriority = some (s.priority w)
  out : ∀ w, (s'.mutex n).owner = some w → ∀ j, w ∉ s'.waiters j
  flag : s'.ipcFlag = s.ipcFlag

theorem Inherits.pass [DecidableEq B] (h : Inherits s) (hs : Served s) (howner : (s.mutex n).owner = some t)
    (hp : Passed s s' n t) : Inherits s' := by
  have hwait : ∀ {j w}, w ∈ s.waiters j → w ≠ t := by
    rintro j w hw rfl
    exact h.idle j w hw n howner
  -- an owner afterwards: the first of the waiting threads, or the owner of another mutex
  have hown : ∀ {j u}, (s'.mutex j).owner = some u →
      j = n ∧ (s.waiters n).head? = some u ∧ u ∈ s.waiters n ∨
        j ≠ n ∧ u ≠ t ∧ (s.mutex j).owner = some u := by
    intro j u hu
    by_cases hj : j = n
    · subst hj
      rw [hp.owner] at hu
      exact .inl ⟨rfl, hu, List.mem_of_head? hu⟩
    · rw [hp.others j hj] at hu
      refine .inr ⟨hj, ?_, hu⟩
      rintro rfl
      exact hj (h.single j n u hu howner)
  have hplain : ∀ {j w}, w ∈ s.waiters j → s.priority w = s.initPriority w := by
    intro j w hw
    exact h.plain w (h.idle j w hw)
  constructor
  · intro u hu
    rw [hp.initPriority]
    by_cases hut : u = t
    · subst hut
      exact hp.restored
    · rw [hp.priority u hut]
      refine h.plain u fun j hj => ?_
      by_cases hjn : j = n
      · subst hjn
        rw [howner, Option.some.injEq] at hj
        exact hut hj.symm
      · exact hu j (by rw [hp.others j hjn, hj])
  · intro j u hu
    rw [hp.initPriority]
    obtain ⟨-, -, hw⟩ | ⟨-, hut, hu⟩ := hown hu
    · rw [hp.priority u (hwait hw)]
      exact le_of_eq (hplain hw)
    · rw [hp.priority u hut]
      exact h.lifted j u hu
  · intro j u hu w hw
    have hw := (hp.waiters j).subset hw
    rw [hp.priority w (hwait hw)]
    obtain ⟨rfl, hhead, hmem⟩ | ⟨-, hut, hu⟩ := hown hu
    · rw [hp.priority u (hwait hmem)]
      obtain ⟨l, hl⟩ : ∃ l, s.waiters j = u :: l := by
        cases hlist : s.waiters j with
        | nil => rw [hlist] at hmem; cases hmem
        | cons v l =>
          rw [hlist, List.head?_cons, Option.some.injEq] at hhead
          exact ⟨l, by rw [hhead]⟩
      have horder := h.order j
      rw [hl] at horder hw
      exact horder.head_le hw
    · rw [hp.priority u hut]
      exact h.raised j u hu w hw
  · intro j u hu
    rw [hp.initPriority]
    obtain ⟨rfl, -, hw⟩ | ⟨hj, -, hu'⟩ := hown hu
    · rw [hp.original u hu, hplain hw]
    · rw [hp.others j hj]
      exact h.original j u hu'
  · intro i j u hi hj
    obtain ⟨rfl, -, hw⟩ | ⟨-, -, hi⟩ := hown hi
    · obtain ⟨rfl, -⟩ | ⟨-, -, hj⟩ := hown hj
      · rfl
      · exact absurd hj (h.idle _ u hw j)
    · obtain ⟨-, -, hw⟩ | ⟨-, -, hj⟩ := hown hj
      · exact absurd hi (h.idle _ u hw i)
      · exact h.single i j u hi hj
  · intro j u hu
    apply hp.started
    obtain ⟨-, -, hw⟩ | ⟨-, -, hu⟩ := hown hu
    · rw [hs.sound.waiting u _ hw]
      simp
    · exact h.started j u hu
  · intro i w hw j hj
    by_cases hjn : j = n
    · subst hjn
      exact hp.out w hj i hw
    · rw [hp.others j hjn] at hj
      exact h.idle i w ((hp.waiters i).subset hw) j hj
  · intro j
    refine ((h.order j).sublist (hp.waiters j)).congr fun w hw => ?_
    exact hp.priority w (hwait ((hp.waiters j).subset hw))
  · rw [hp.flag]
    exact h.flag

/-- What `rt_mutex_release` can do: refuse a thread that is not the owner, count down, or pass
the mutex on. -/
theorem rtMutexRelease_cases :
    (s.rtMutexRelease n).2 = s.setError s.current .error ∨
      (s.mutex n).owner = some s.current ∧
        (s.rtMutexRelease n).2 = s.setMutex n { s.mutex n with hold := (s.mutex n).hold - 1 } ∨
      ∃ m, (s.mutex n).owner = some s.current ∧
        m = { s.mutex n with hold := (s.mutex n).hold - 1 } ∧ m.hold = 0 ∧
        (s.rtMutexRelease n).2 = { s.setMutex n m with
          scheduler := restorePriority s.scheduler s.current (s.mutex n).originalPriority
          }.handOver n := by
  rw [Rtos.rtMutexRelease]
  dsimp only
  split
  · next howner =>
    split
    · next hhold =>
      refine .inr (.inr ⟨_, howner, rfl, ?_, rfl⟩)
      have hhold : (Function.update s.mutex n _ n).hold = 0 := hhold
      rwa [Function.update_self] at hhold
    · exact .inr (.inl ⟨howner, rfl⟩)
  · exact .inl rfl

/-- The priorities after the owner has got its own back. -/
theorem restorePriority_priority {p : Fin 32} :
    ((restorePriority k t (some p)).thread t).currentPriority = p ∧
      (∀ u, u ≠ t → (restorePriority k t (some p)).thread u = k.thread u) ∧
      ∀ u, ((restorePriority k t (some p)).thread u).stat = (k.thread u).stat := by
  rw [restorePriority]
  split
  · obtain ⟨hself, hstat, hothers⟩ := rtThreadControl_thread (s := k) (t := t) (p := p)
    refine ⟨hself, hothers, fun u => ?_⟩
    by_cases hu : u = t
    · subst hu
      exact hstat
    · rw [hothers u hu]
  · next hne =>
    exact ⟨(not_not.mp hne).symm, fun _ _ => rfl, fun _ => rfl⟩

theorem restorePriority_list {p : Option (Fin 32)} {i : IpcName} (hk : k.Sound) :
    (restorePriority k t p).list (.suspend i) = k.list (.suspend i) := by
  cases p with
  | none => rfl
  | some p =>
    rw [restorePriority]
    split
    · exact hk.rtThreadControl_list
    · rfl

/-- The scheduler after a thread has got its own priority back. -/
structure Restored (s : Rtos T B) (k : Scheduler T B) (t : T) : Prop where
  self : (k.thread t).currentPriority = s.initPriority t
  others : ∀ u, u ≠ t → k.thread u = s.scheduler.thread u
  stat : ∀ u, (k.thread u).stat = (s.scheduler.thread u).stat
  eases : Eases s.scheduler k
  sound : k.Sound
  list : ∀ i, k.list (.suspend i) = s.scheduler.list (.suspend i)

theorem restored_restorePriority (hs : s.scheduler.Sound) :
    Restored s (restorePriority s.scheduler t (some (s.initPriority t))) t := by
  obtain ⟨hself, hothers, hstat⟩ := restorePriority_priority (k := s.scheduler) (t := t)
    (p := s.initPriority t)
  exact ⟨hself, hothers, hstat, eases_restorePriority, sound_restorePriority hs,
    fun _ => restorePriority_list hs⟩

theorem handOver_cons {w : T} {l : List T}
    (hlist : s.scheduler.list (.suspend (.mutex n)) = w :: l) :
    s.handOver n = { s with scheduler := (s.scheduler.rtThreadResume w).2 }.setMutex n
      { s.mutex n with
        owner := some w
        originalPriority := some (s.scheduler.thread w).currentPriority
        hold := (s.mutex n).hold + 1 } := by
  rw [handOver]
  dsimp only
  rw [hlist]

theorem handOver_nil (hlist : s.scheduler.list (.suspend (.mutex n)) = []) :
    s.handOver n = s.setMutex n
      { s.mutex n with
        value := (s.mutex n).value + 1
        owner := none
        originalPriority := none } := by
  rw [handOver]
  dsimp only
  rw [hlist]

/-- Threads wait: the first of them gets the mutex. -/
theorem Restored.handed {w : T} {l : List T} (hk : Restored s k t)
    (hlist : k.list (.suspend (.mutex n)) = w :: l) (hne : w ≠ t) :
    Passed s ({ s.setMutex n m with scheduler := k }.handOver n) n t := by
  have hin : w ∈ k.list (.suspend (.mutex n)) := by
    rw [hlist]
    exact List.mem_cons_self
  have hres := resumed_rtThreadResume (s := k) (hk.sound.waiting w _ hin)
  have hease : Eases k (k.rtThreadResume w).2 := eases_rtThreadResume
  have hsteady : Steady k (k.rtThreadResume w).2 := steady_resume
  obtain ⟨m', hm', howner, horiginal⟩ : ∃ m', { s.setMutex n m with scheduler := k }.handOver n =
      { s.setMutex n m with scheduler := (k.rtThreadResume w).2 }.setMutex n m' ∧
      m'.owner = some w ∧ m'.originalPriority = some (k.thread w).currentPriority :=
    ⟨_, handOver_cons hlist, rfl, rfl⟩
  rw [hm']
  constructor
  · exact (hsteady.priority _).trans hk.self
  · intro u hu
    exact (hsteady.priority u).trans (congrArg RtThread.currentPriority (hk.others u hu))
  · intro u
    exact (hease.initPriority u).trans (hk.eases.initPriority u)
  · intro u hu
    apply hsteady.started
    rw [hk.stat]
    exact hu
  · intro j
    exact (hease.sublist _).trans (hk.eases.sublist _)
  · intro j hj
    exact (setMutex_of_ne hj).trans (setMutex_of_ne hj)
  · have hwaiting : s.waiters n = w :: l := (hk.list _).symm.trans hlist
    rw [hwaiting, setMutex_self, howner, List.head?_cons]
  · intro v hv
    rw [setMutex_self, howner, Option.some.injEq] at hv
    subst hv
    rw [setMutex_self, horiginal, hk.others w hne]
    rfl
  · intro v hv j hj
    rw [setMutex_self, howner, Option.some.injEq] at hv
    subst hv
    have hj : w ∈ (k.rtThreadResume w).2.list (.suspend (.mutex j)) := hj
    rw [hres.list] at hj
    exact (hk.sound.linked.nodup _).not_mem_erase hj
  · rfl

/-- No thread waits: nobody owns the mutex. -/
theorem Restored.freed (hk : Restored s k t) (hlist : k.list (.suspend (.mutex n)) = []) :
    Passed s ({ s.setMutex n m with scheduler := k }.handOver n) n t := by
  obtain ⟨m', hm', howner⟩ : ∃ m', { s.setMutex n m with scheduler := k }.handOver n =
      { s.setMutex n m with scheduler := k }.setMutex n m' ∧ m'.owner = none :=
    ⟨_, handOver_nil hlist, rfl⟩
  rw [hm']
  have hnone : ∀ v, ((setMutex { s.setMutex n m with scheduler := k } n m').mutex n).owner ≠
      some v := by
    intro v hv
    rw [setMutex_self, howner] at hv
    cases hv
  constructor
  · exact hk.self
  · intro u hu
    exact congrArg RtThread.currentPriority (hk.others u hu)
  · exact hk.eases.initPriority
  · intro u hu
    show (k.thread u).stat ≠ .init
    rw [hk.stat]
    exact hu
  · intro j
    exact hk.eases.sublist _
  · intro j hj
    exact (setMutex_of_ne hj).trans (setMutex_of_ne hj)
  · have hwaiting : s.waiters n = [] := (hk.list _).symm.trans hlist
    rw [hwaiting, setMutex_self, howner, List.head?_nil]
  · intro v hv
    exact absurd hv (hnone v)
  · intro v hv
    exact absurd hv (hnone v)
  · rfl

theorem Inherits.rtMutexRelease [DecidableEq B] (h : Inherits s) (hs : Served s) :
    Inherits (s.rtMutexRelease n).2 := by
  obtain heq | ⟨-, heq⟩ | ⟨m, howner, -, -, heq⟩ := rtMutexRelease_cases (s := s) (n := n)
  · rw [heq]
    exact h.setError
  · rw [heq]
    exact h.sameOwner rfl rfl
  · rw [heq, h.original n _ howner]
    have hk := restored_restorePriority (t := s.current) hs.sound
    generalize restorePriority s.scheduler s.current (some (s.initPriority s.current)) = k at *
    apply h.pass hs howner
    cases hlist : k.list (.suspend (.mutex n)) with
    | nil => exact hk.freed hlist
    | cons w l =>
      refine hk.handed hlist ?_
      rintro rfl
      refine h.idle n s.current ?_ n howner
      rw [waiters, ← hk.list, hlist]
      exact List.mem_cons_self

end Releasing

variable [DecidableEq B]

section Calls

theorem Inherits.rtMutexTake {time : ℤ} {r : Option RtErr} (h : Inherits s) (hs : Served s)
    (hready : (s.scheduler.thread s.current).stat = .ready)
    (hone : ∀ j, (s.mutex j).owner = some s.current → j = n)
    (ht : s.rtMutexTake n time = some (r, s')) : Inherits s' := by
  have h₁ : Inherits (s.setError s.current .eok) := h.setError
  have hs₁ : Served (s.setError s.current .eok) := hs.setError
  have hready₁ : ((s.setError s.current .eok).scheduler.thread s.current).stat = .ready :=
    setError_stat.trans hready
  have hprio : (s.setError s.current .eok).priority s.current = s.priority s.current := by
    show ((s.scheduler.setThread s.current _).thread s.current).currentPriority = _
    rw [setThread_thread_self]
    rfl
  obtain ⟨-, -, rfl⟩ | ⟨hother, hpos, -, rfl⟩ | ⟨-, -, rfl⟩ |
    ⟨owner, k, -, howner, hother, -, hk, rfl⟩ := rtMutexTake_cases ht
  · exact h₁.sameOwner rfl rfl
  · have hnone : (s.mutex n).owner = none := by
      by_contra hne
      rw [((hs.well n).held hne).1] at hpos
      cases hpos
    refine h₁.take hs₁ hready₁ hnone (fun j hj => ?_) rfl ?_
    · have hj : (s.mutex j).owner = some s.current := hj
      obtain rfl := hone j hj
      exact hother hj
    · rw [hprio]
      rfl
  · exact h₁.setError
  · -- the owner runs at the priority of the caller at least, then the caller waits
    have hfree : ∀ j, (s.mutex j).owner ≠ some s.current := by
      intro j hj
      obtain rfl := hone j hj
      rw [howner, Option.some.injEq] at hj
      exact hother hj
    have h₂ : Inherits { s.setError s.current .eok with
        scheduler := raisePriority (s.setError s.current .eok).scheduler owner
          (s.scheduler.thread s.current).currentPriority } := h₁.raise howner
    have hsound : (raisePriority (s.setError s.current .eok).scheduler owner
        (s.scheduler.thread s.current).currentPriority).Sound := sound_raisePriority hs₁.sound
    have hready₂ : ((raisePriority (s.setError s.current .eok).scheduler owner
        (s.scheduler.thread s.current).currentPriority).thread s.current).stat = .ready :=
      raisePriority_stat.trans hready₁
    obtain ⟨hself, hothers⟩ := raisePriority_priority
      (k := (s.setError s.current .eok).scheduler) (t := owner)
      (p := (s.scheduler.thread s.current).currentPriority)
    rw [h.flag] at hk
    have hlist := hsound.wait_list hready₂ hk
    obtain ⟨-, hblock⟩ := hsound.wait hready₂ hk
    refine h₂.join hblock hlist howner ?_ hfree
    show (Scheduler.thread _ owner).currentPriority ≤ (Scheduler.thread _ s.current).currentPriority
    rw [hself, hothers s.current (Ne.symm hother)]
    exact (min_le_left _ _).trans (le_of_eq hprio.symm)

theorem Inherits.eventWake (h : Inherits s) : Inherits (eventWake n s t) := by
  by_cases hsat : s.Satisfied n t
  · let k := s.scheduler.setThread t { s.scheduler.thread t with eventSet := s.receives n t }
    have hset : Inherits { s with scheduler := k } := by
      refine h.frame (steady_setThread rfl id) (fun u => ?_) (fun _ => List.Sublist.refl _) rfl rfl
      show ((s.scheduler.setThread t _).thread u).initPriority = _
      by_cases hu : u = t
      · subst hu
        rw [setThread_thread_self]
        rfl
      · rw [setThread_thread_of_ne hu]
        rfl
    rw [show Rtos.eventWake n s t = _ from if_pos hsat]
    exact hset.eases eases_rtThreadResume steady_resume rfl rfl
  · rw [eventWake_of_not_satisfied hsat]
    exact h

theorem Inherits.rtEventSend {set : Finset B} (h : Inherits s) :
    Inherits (s.rtEventSend n set).2 := by
  rw [Rtos.rtEventSend]
  split
  · exact h
  · have h₁ : Inherits { s with event := Function.update s.event n (s.event n ∪ set) } :=
      h.frame .refl (fun _ => rfl) (fun _ => List.Sublist.refl _) rfl rfl
    generalize { s with event := Function.update s.event n (s.event n ∪ set) } = s₁ at h₁
    show Inherits ((s₁.scheduler.list (.suspend (.event n))).foldl (Rtos.eventWake n) s₁)
    generalize s₁.scheduler.list (.suspend (.event n)) = l
    induction l generalizing s₁ with
    | nil => exact h₁
    | cons t l ih => exact ih _ h₁.eventWake

/-- A thread that owns a mutex asks for no other, and nobody sets a priority. -/
def OneMutex (s : Rtos T B) : RtAction T B → Prop
  | .call (.control _ _) => False
  | .call (.mutexTake n _) => ∀ j, (s.mutex j).owner = some s.current → j = n
  | _ => True

theorem Inherits.call (h : Inherits s) (hs : Served s) (hone : s.OneMutex (.call c))
    (hready : c.OfCurrent → (s.scheduler.thread s.current).stat = .ready)
    (hc : s.call c = some s') : Inherits s' := by
  have h₁ : Inherits (s.setError s.current .eok) := h.setError
  have hs₁ : Served (s.setError s.current .eok) := hs.setError
  cases c with
  | startup t =>
    simp only [Rtos.call, Option.map_eq_some_iff] at hc
    obtain ⟨k, hk, rfl⟩ := hc
    have hinit : (s.scheduler.thread t).stat = .init := by
      rw [Scheduler.rtThreadStartup] at hk
      split at hk
      · assumption
      · cases hk
    have hplain : s.priority t = s.initPriority t :=
      h.plain t fun n hn => h.started n t hn hinit
    exact h.eases (eases_rtThreadStartup hk) (steady_startup hplain hk) rfl rfl
  | yield =>
    simp only [Rtos.call, Option.some.injEq] at hc
    subst hc
    exact h.eases hs.sound.sliced_rtThreadYield.eases (steady_of_thread rtThreadYield_thread)
      rfl rfl
  | sleep tick =>
    simp only [Rtos.call, Option.map_eq_some_iff] at hc
    obtain ⟨k, hk, rfl⟩ := hc
    have hassert : Steady s.scheduler (s.scheduler.assertType s.current) := steady_of_thread rfl
    exact h.eases (eases_rtThreadSleep hk)
      ((hassert.trans steady_suspend).trans (steady_startTimer hk)) rfl rfl
  | suspend t =>
    simp only [Rtos.call, Option.some.injEq] at hc
    subst hc
    exact h.eases eases_rtThreadSuspend steady_suspend rfl rfl
  | resume t =>
    simp only [Rtos.call, Option.some.injEq] at hc
    subst hc
    exact h.eases eases_rtThreadResume steady_resume rfl rfl
  | control t p => exact hone.elim
  | exit =>
    simp only [Rtos.call, Option.some.injEq] at hc
    subst hc
    exact h.eases eases_rtThreadExit steady_exit rfl rfl
  | enterCritical | exitCritical =>
    simp only [Rtos.call, Option.some.injEq] at hc
    subst hc
    exact h.frame (steady_of_thread rfl) (fun _ => rfl) (fun _ => List.Sublist.refl _) rfl rfl
  | eventSend n set =>
    simp only [Rtos.call, Option.some.injEq] at hc
    exact hc ▸ h.rtEventSend
  | eventRecv n set option time =>
    simp only [Rtos.call, Option.map_eq_some_iff] at hc
    obtain ⟨⟨r, k⟩, hk, rfl⟩ := hc
    have hready₁ : ((s.setError s.current .eok).scheduler.thread s.current).stat = .ready :=
      setError_stat.trans (hready trivial)
    obtain rfl | ⟨rest, -, rfl⟩ | ⟨-, rfl⟩ | ⟨x, k', -, -, hx, hk', rfl⟩ := rtEventRecv_cases hk
    · exact h
    · exact h₁.frame .refl (fun _ => rfl) (fun _ => List.Sublist.refl _) rfl rfl
    · exact h₁.setError
    · have hs₂ := hs₁.setReady hready₁ hx
      have hready₂ := ready_setReady hready₁ hx
      have h₂ : Inherits { s.setError s.current .eok with
          scheduler := (s.setError s.current .eok).scheduler.setThread s.current x } := by
        refine h₁.frame (steady_setThread ?_ ?_) (fun u => ?_) (fun _ => List.Sublist.refl _)
          rfl rfl
        · rw [hx]
        · rw [hx]
          exact id
        · show (((s.setError s.current .eok).scheduler.setThread s.current x).thread u).initPriority
            = _
          by_cases hu : u = s.current
          · subst hu
            rw [setThread_thread_self, hx]
            rfl
          · rw [setThread_thread_of_ne hu]
            rfl
      obtain ⟨-, hblock⟩ := hs₂.sound.wait hready₂ hk'
      exact h₂.blocked hblock fun m => by simp
  | eventControl n =>
    simp only [Rtos.call, Option.some.injEq] at hc
    subst hc
    exact h.eases eases_rtIpcListResumeAll steady_resumeAll rfl rfl
  | semTake n time =>
    simp only [Rtos.call, Option.map_eq_some_iff] at hc
    obtain ⟨⟨r, k⟩, hk, rfl⟩ := hc
    obtain ⟨-, rfl⟩ | ⟨-, rfl⟩ | ⟨k', -, -, hk', rfl⟩ := rtSemTake_cases hk
    · exact h.frame .refl (fun _ => rfl) (fun _ => List.Sublist.refl _) rfl rfl
    · exact h
    · obtain ⟨-, hblock⟩ := hs₁.sound.wait (setError_stat.trans (hready trivial)) hk'
      exact h₁.blocked hblock fun m => by simp
  | semRelease n =>
    simp only [Rtos.call, Option.some.injEq] at hc
    subst hc
    rw [Rtos.rtSemRelease]
    split
    · exact h.eases eases_rtThreadResume steady_resume rfl rfl
    · exact h.frame .refl (fun _ => rfl) (fun _ => List.Sublist.refl _) rfl rfl
  | semControl n value =>
    simp only [Rtos.call, Option.some.injEq] at hc
    subst hc
    exact h.eases eases_rtIpcListResumeAll steady_resumeAll rfl rfl
  | mutexTake n time =>
    simp only [Rtos.call, Option.map_eq_some_iff] at hc
    obtain ⟨⟨r, k⟩, hk, rfl⟩ := hc
    exact h.rtMutexTake hs (hready trivial) hone hk
  | mutexRelease n =>
    simp only [Rtos.call, Option.some.injEq] at hc
    exact hc ▸ h.rtMutexRelease hs

theorem Inherits.step (h : Inherits s) (hs : Served s) (hone : s.OneMutex a)
    (ha : step a s = some s') : Inherits s' := by
  obtain ⟨c, rfl, hready, hc⟩ | ⟨k, -, hk, rfl⟩ | ⟨k, -, hk, rfl⟩ := step_cases ha
  · exact h.call hs hone hready hc
  · have he := eases_rtSchedule hk
    obtain ⟨t, rfl⟩ := rtSchedule_eq hk
    exact h.eases he (steady_of_thread rfl) rfl rfl
  · obtain ⟨k', ts, hk', -, hticked⟩ := hs.sound.rtTickIncrease
    rw [hk, Option.some.injEq] at hk'
    subst hk'
    exact h.eases hticked.eases hticked.steady rfl rfl

end Calls

/-- The start, every thread at its initial priority and the mutexes with `RT_IPC_FLAG_PRIO`. -/
structure PrioInitial (idle : T) (s : Rtos T B) : Prop extends Initial idle s where
  priority : ∀ t, s.priority t = s.initPriority t
  owner : ∀ n, (s.mutex n).owner = none
  flag : ∀ n, s.ipcFlag (.mutex n) = .prio

omit [DecidableEq T] [DecidableEq B] in
theorem PrioInitial.inherits (h : PrioInitial idle s) : Inherits s := by
  have howner : ∀ {n t}, (s.mutex n).owner ≠ some t := by
    intro n t
    rw [h.owner]
    simp
  have hnil : ∀ n, s.waiters n = [] := by
    intro n
    rw [waiters, h.list, if_neg (by simp)]
  refine ⟨fun t _ => h.priority t, fun n t ht => absurd ht howner, fun n t ht => absurd ht howner,
    fun n t ht => absurd ht howner, fun n j t ht => absurd ht howner,
    fun n t ht => absurd ht howner, fun n w hw => ?_, fun n => ?_, h.flag⟩
  · rw [hnil] at hw
    cases hw
  · rw [hnil]
    exact List.Pairwise.nil

/-- No priority inversion: in every run in which a thread that owns a mutex asks for no other,
the mutexes have `RT_IPC_FLAG_PRIO` and nobody else sets priorities, the owner of a mutex is not
behind any thread that waits for it, the threads wait in the order of their priorities, and a
thread that owns no mutex has its initial priority, so that what it was lent is given back. -/
theorem no_priority_inversion
    (hr : Run step (fun _ s a => s.OneMutex a) (PrioInitial idle) h s) :
    (∀ n t, (s.mutex n).owner = some t → ∀ w ∈ s.waiters n, s.priority t ≤ s.priority w) ∧
      (∀ n, (s.waiters n).Pairwise fun v w => s.priority v ≤ s.priority w) ∧
      ∀ t, (∀ n, (s.mutex n).owner ≠ some t) → s.priority t = s.initPriority t := by
  have hboth : Served s ∧ Inherits s := by
    refine hr.invariant (P := fun _ s => Served s ∧ Inherits s) (fun s hs => ?_) ?_
    · have hs : PrioInitial idle s := hs
      exact ⟨hs.toInitial.served, hs.inherits⟩
    · intro h s a s' _ hboth hone ha
      exact ⟨hboth.1.step ha, hboth.2.step hboth.1 hone ha⟩
  exact ⟨hboth.2.raised, hboth.2.order, hboth.2.plain⟩

/-- The idle thread owns the mutex that the other thread waits for. -/
theorem no_priority_inversion_idle : ∃ s : Rtos Bool Bool,
    (s.mutex 0).owner = some false ∧ s.initPriority false = 31 ∧ s.waiters 0 = [true] ∧
      s.priority true = 10 ∧ s.priority false ≤ s.priority true := by
  have hinit : PrioInitial false
      { (idleAlone false : Rtos Bool Bool) with ipcFlag := fun _ => .prio } := by
    refine ⟨?_, fun t => ?_, fun _ => rfl, fun _ => rfl⟩
    · have h : Initial false (idleAlone false : Rtos Bool Bool) := idleAlone_initial
      exact ⟨h.current, h.type, h.running, h.ready, h.others, h.mask, h.list, h.group, h.timerList, h.timer, h.mutex⟩
    · cases t <;> rfl
  have h₀ : Run step (fun _ s a => s.OneMutex a) (PrioInitial false) [] _ := .start hinit
  have h₁ := h₀.step (a := RtAction.call (.mutexTake 0 0)) (fun j hj => by cases hj) rfl
  have h₂ := h₁.step (a := RtAction.call (.startup true)) trivial rfl
  have h₃ := h₂.step (a := RtAction.schedule) trivial rfl
  have h₄ := h₃.step (a := RtAction.call (.mutexTake 0 (-1))) (fun j hj => by
    cases j with
    | zero => rfl
    | succ j => cases hj) rfl
  exact ⟨_, rfl, rfl, rfl, rfl, (no_priority_inversion h₄).1 0 false rfl true (by decide)⟩

end Rtos

end NanoAt
