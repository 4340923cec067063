import NanoAt.PriorityGroup
import NanoAt.ThreadTimers

/-!
# Threads in their lists

What the scheduler relies on: every ready thread is in the ready list of its priority and
every other one is not, the priority group has a bit for each list that is not empty, and
only suspended threads wait or have their timer running.

## Main definitions

- `Sound` — the kernel between two critical sections
- `Loose` — one thread is on its way from one list to another

## Main results

- `Sound.rtSchedule` — `rt_schedule` takes the first of the ready threads of highest priority
- `Sound.rtThreadSuspend`, `Sound.rtThreadResume`, ... — what the thread interface keeps
-/

namespace NanoAt

open DeadlineList Queues

namespace Scheduler

variable {T B : Type} {s s' : Scheduler T B} {t u : T} {i : ThreadList}
  {p : Fin 32} {x : RtThread B} {l : List T}

/-- The scheduler between two critical sections. -/
structure Sound (s : Scheduler T B) : Prop where
  linked : Linked s.list
  ready : ∀ t p, t ∈ s.list (.ready p) ↔
    (s.thread t).stat = .ready ∧ (s.thread t).currentPriority = p
  waiting : ∀ t i, t ∈ s.list (.suspend i) → (s.thread t).stat = .suspend
  group : ∀ p : Fin 32, s.rtThreadReadyPriorityGroup.getLsbD p = true ↔ s.list (.ready p) ≠ []
  mask : ∀ t, (s.thread t).stat = .ready ∨ (s.thread t).stat = .suspend →
    (s.thread t).numberMask = BitVec.twoPow 32 (s.thread t).currentPriority
  timed : s.threadTimers.Timed
  asleep : ∀ t ∈ s.threadTimers.timerList, (s.thread t).stat = .suspend

/-- The scheduler while `t` is in no list and its timer is not running. -/
structure Loose (s : Scheduler T B) (t : T) : Prop where
  linked : Linked s.list
  out : ∀ i, t ∉ s.list i
  ready : ∀ u, u ≠ t → ∀ p, u ∈ s.list (.ready p) ↔
    (s.thread u).stat = .ready ∧ (s.thread u).currentPriority = p
  waiting : ∀ u i, u ∈ s.list (.suspend i) → (s.thread u).stat = .suspend
  group : ∀ p : Fin 32, s.rtThreadReadyPriorityGroup.getLsbD p = true ↔ s.list (.ready p) ≠ []
  mask : ∀ u, (s.thread u).stat = .ready ∨ (s.thread u).stat = .suspend →
    (s.thread u).numberMask = BitVec.twoPow 32 (s.thread u).currentPriority
  timed : s.threadTimers.Timed
  asleep : ∀ u ∈ s.threadTimers.timerList, u ≠ t ∧ (s.thread u).stat = .suspend

section Schedule

theorem Sound.run (h : Sound s) : Sound { s with rtCurrentThread := t } :=
  ⟨h.linked, h.ready, h.waiting, h.group, h.mask, h.timed, h.asleep⟩

/-- The assertion on the type changes nothing else. -/
theorem Sound.assertType (h : Sound s) : Sound (s.assertType t) :=
  ⟨h.linked, h.ready, h.waiting, h.group, h.mask, h.timed, h.asleep⟩

/-- A thread that is neither ready nor suspended is in no list. -/
theorem Sound.outside (h : Sound s) (hready : (s.thread t).stat ≠ .ready)
    (hsuspend : (s.thread t).stat ≠ .suspend) : Loose s t := by
  refine ⟨h.linked, fun i hi => ?_, fun u _ q => h.ready u q, h.waiting, h.group, h.mask, h.timed,
    fun u hu => ⟨?_, h.asleep u hu⟩⟩
  · cases i with
    | ready q => exact hready ((h.ready t q).mp hi).1
    | suspend n => exact hsuspend (h.waiting t n hi)
  · rintro rfl
    exact hsuspend (h.asleep u hu)

theorem append_list : (s.append i t).list = put s.list i (s.list i ++ [t]) := rfl

/-- The first of the ready threads of highest priority. -/
structure Chosen (s : Scheduler T B) (t : T) : Prop where
  first : (s.list (.ready (s.thread t).currentPriority)).head? = some t
  highest : ∀ u, (s.thread u).stat = .ready →
    (s.thread t).currentPriority ≤ (s.thread u).currentPriority

theorem Chosen.ready (h : Sound s) (hc : Chosen s t) : (s.thread t).stat = .ready :=
  ((h.ready t _).mp (List.mem_of_head? hc.first)).1

theorem rtSchedule_locked (hlock : s.rtSchedulerLockNest ≠ 0) : s.rtSchedule = some s := by
  rw [rtSchedule, if_neg hlock]

/-- With a thread ready, `rt_schedule` finds the first one of highest priority. -/
theorem Sound.rtSchedule_unlocked (h : Sound s) (hu : (s.thread u).stat = .ready)
    (hlock : s.rtSchedulerLockNest = 0) :
    ∃ t, s.rtSchedule = some { s with rtCurrentThread := t } ∧ Chosen s t := by
  have hrow : ∀ v, (s.thread v).stat = .ready →
      s.rtThreadReadyPriorityGroup.getLsbD (s.thread v).currentPriority = true := by
    intro v hv
    rw [h.group]
    exact List.ne_nil_of_mem ((h.ready v _).mpr ⟨hv, rfl⟩)
  have hne : s.rtThreadReadyPriorityGroup ≠ 0 := by
    intro hzero
    have hbit := hrow u hu
    rw [hzero] at hbit
    simp at hbit
  obtain ⟨p, hp, hffs, hbit, hlow⟩ := rtFfs_spec hne
  have hlist : s.list (.ready ⟨p, hp⟩) ≠ [] := (h.group ⟨p, hp⟩).mp hbit
  obtain ⟨t, l, hcons⟩ := List.exists_cons_of_ne_nil hlist
  have ht := (h.ready t ⟨p, hp⟩).mp (by rw [hcons]; exact List.mem_cons_self)
  refine ⟨t, ?_, ?_, fun v hv => ?_⟩
  · rw [rtSchedule, if_pos hlock, hffs]
    simp [hp, hcons]
  · rw [ht.2, hcons]
    rfl
  · rw [ht.2]
    by_contra hlt
    have hout := hlow (s.thread v).currentPriority (Fin.lt_def.mp (not_le.mp hlt))
    rw [hrow v hv] at hout
    cases hout

/-- `rt_schedule` never fails while a thread is ready. -/
theorem Sound.rtSchedule (h : Sound s) (hu : (s.thread u).stat = .ready) :
    ∃ t, s.rtSchedule = some { s with rtCurrentThread := t } ∧
      (s.rtSchedulerLockNest = 0 → Chosen s t) := by
  by_cases hlock : s.rtSchedulerLockNest = 0
  · obtain ⟨t, ht, hc⟩ := h.rtSchedule_unlocked hu hlock
    exact ⟨t, ht, fun _ => hc⟩
  · exact ⟨s.rtCurrentThread, rtSchedule_locked hlock, fun hzero => absurd hzero hlock⟩

/-- `rt_schedule` writes the current thread at most. -/
theorem rtSchedule_eq (hs : s.rtSchedule = some s') :
    ∃ t, s' = { s with rtCurrentThread := t } := by
  rw [Scheduler.rtSchedule] at hs
  split at hs
  · split at hs
    · cases hs
    · split at hs
      · rw [Option.map_eq_some_iff] at hs
        obtain ⟨t, -, rfl⟩ := hs
        exact ⟨t, rfl⟩
      · cases hs
  · rw [Option.some.injEq] at hs
    exact ⟨s.rtCurrentThread, hs.symm⟩

end Schedule

@[simp] theorem assertType_thread : (s.assertType t).thread = s.thread := rfl

@[simp] theorem assertType_list : (s.assertType t).list = s.list := rfl

@[simp] theorem assertType_threadTimers : (s.assertType t).threadTimers = s.threadTimers := rfl

variable [DecidableEq T]

section Fields

@[simp] theorem setThread_thread_self : (s.setThread t x).thread t = x := Function.update_self ..

theorem setThread_thread_of_ne (h : u ≠ t) : (s.setThread t x).thread u = s.thread u :=
  Function.update_of_ne h ..

@[simp] theorem setThread_list : (s.setThread t x).list = s.list := rfl

@[simp] theorem setThread_threadTimers : (s.setThread t x).threadTimers = s.threadTimers := rfl

@[simp] theorem unlink_thread : (s.unlink t).thread = s.thread := rfl

@[simp] theorem unlink_list : (s.unlink t).list = Queues.unlink s.list t := rfl

@[simp] theorem unlink_threadTimers : (s.unlink t).threadTimers = s.threadTimers := rfl

@[simp] theorem stopTimer_thread : (s.stopTimer t).thread = s.thread := rfl

@[simp] theorem stopTimer_list : (s.stopTimer t).list = s.list := rfl

@[simp] theorem stopTimer_threadTimers :
    (s.stopTimer t).threadTimers = (s.threadTimers.rtTimerStop t).2 := rfl

@[simp] theorem rtScheduleInsertThread_thread :
    (s.rtScheduleInsertThread t).thread =
      Function.update s.thread t { s.thread t with stat := .ready } := rfl

@[simp] theorem rtScheduleInsertThread_threadTimers :
    (s.rtScheduleInsertThread t).threadTimers = s.threadTimers := rfl

@[simp] theorem rtScheduleInsertThread_rtCurrentThread :
    (s.rtScheduleInsertThread t).rtCurrentThread = s.rtCurrentThread := rfl

theorem rtScheduleInsertThread_list :
    (s.rtScheduleInsertThread t).list = Queues.put s.list (.ready (s.thread t).currentPriority)
      (s.list (.ready (s.thread t).currentPriority) ++ [t]) := by
  simp [rtScheduleInsertThread, append]

theorem rtScheduleInsertThread_group :
    (s.rtScheduleInsertThread t).rtThreadReadyPriorityGroup =
      s.rtThreadReadyPriorityGroup ||| (s.thread t).numberMask := by
  simp [rtScheduleInsertThread, append, setThread]

@[simp] theorem rtScheduleRemoveThread_thread : (s.rtScheduleRemoveThread t).thread = s.thread := by
  rw [rtScheduleRemoveThread]
  split <;> rfl

@[simp] theorem rtScheduleRemoveThread_list :
    (s.rtScheduleRemoveThread t).list = Queues.unlink s.list t := by
  rw [rtScheduleRemoveThread]
  split <;> rfl

@[simp] theorem rtScheduleRemoveThread_threadTimers :
    (s.rtScheduleRemoveThread t).threadTimers = s.threadTimers := by
  rw [rtScheduleRemoveThread]
  split <;> rfl

@[simp] theorem rtScheduleRemoveThread_rtCurrentThread :
    (s.rtScheduleRemoveThread t).rtCurrentThread = s.rtCurrentThread := by
  rw [rtScheduleRemoveThread]
  split <;> rfl

@[simp] theorem rtScheduleRemoveThread_rtSchedulerLockNest :
    (s.rtScheduleRemoveThread t).rtSchedulerLockNest = s.rtSchedulerLockNest := by
  rw [rtScheduleRemoveThread]
  split <;> rfl

theorem rtScheduleRemoveThread_group : (s.rtScheduleRemoveThread t).rtThreadReadyPriorityGroup =
    if (s.list (.ready (s.thread t).currentPriority)).erase t = [] then
      s.rtThreadReadyPriorityGroup &&& ~~~ (s.thread t).numberMask
    else s.rtThreadReadyPriorityGroup := by
  rw [rtScheduleRemoveThread]
  apply apply_ite

/-- Removing reads the priority and the mask of the thread only. -/
theorem rtScheduleRemoveThread_setThread (hp : x.currentPriority = (s.thread t).currentPriority)
    (hm : x.numberMask = (s.thread t).numberMask) :
    (s.setThread t x).rtScheduleRemoveThread t = (s.rtScheduleRemoveThread t).setThread t x := by
  by_cases hnil : Queues.unlink s.list t (.ready (s.thread t).currentPriority) = []
  · simp [rtScheduleRemoveThread, unlink, setThread, hp, hm, hnil]
  · simp [rtScheduleRemoveThread, unlink, setThread, hp, hnil]

end Fields

section Bits

theorem getLsbD_or_twoPow {g : BitVec 32} {p q : Fin 32} :
    (g ||| BitVec.twoPow 32 p).getLsbD q = true ↔ g.getLsbD q = true ∨ q = p := by
  have heq : (p : ℕ) = q ↔ q = p := by rw [Fin.val_inj, eq_comm]
  rw [BitVec.getLsbD_or, BitVec.getLsbD_twoPow, Bool.or_eq_true]
  simp only [p.isLt, decide_true, Bool.true_and, decide_eq_true_eq, heq]

theorem getLsbD_and_not_twoPow {g : BitVec 32} {p q : Fin 32} :
    (g &&& ~~~ BitVec.twoPow 32 p).getLsbD q = true ↔ g.getLsbD q = true ∧ q ≠ p := by
  have heq : (p : ℕ) = q ↔ q = p := by rw [Fin.val_inj, eq_comm]
  rw [BitVec.getLsbD_and, BitVec.getLsbD_not, BitVec.getLsbD_twoPow, Bool.and_eq_true]
  simp only [p.isLt, q.isLt, decide_true, Bool.true_and, Bool.not_eq_true', decide_eq_false_iff_not,
    heq, ne_eq]

end Bits

/-- A ready thread taken out of its list. -/
theorem Sound.remove (h : Sound s) (ht : (s.thread t).stat = .ready) :
    Loose (s.rtScheduleRemoveThread t) t := by
  have hmem : t ∈ s.list (.ready (s.thread t).currentPriority) := (h.ready t _).mpr ⟨ht, rfl⟩
  constructor
  · rw [rtScheduleRemoveThread_list]
    exact linked_unlink h.linked
  · intro i
    rw [rtScheduleRemoveThread_list]
    exact not_mem_unlink h.linked
  · intro u hu q
    rw [rtScheduleRemoveThread_list, rtScheduleRemoveThread_thread, mem_unlink h.linked, h.ready]
    simp [hu]
  · intro u i hi
    rw [rtScheduleRemoveThread_list, mem_unlink h.linked] at hi
    rw [rtScheduleRemoveThread_thread]
    exact h.waiting u i hi.2
  · intro q
    rw [rtScheduleRemoveThread_group, rtScheduleRemoveThread_list]
    show _ ↔ (s.list (.ready q)).erase t ≠ []
    by_cases hq : q = (s.thread t).currentPriority
    · -- the list the thread was in
      subst hq
      split
      · next hnil =>
        rw [h.mask t (.inl ht), getLsbD_and_not_twoPow, hnil]
        simp
      · next hne =>
        rw [h.group]
        exact ⟨fun _ => hne, fun _ => List.ne_nil_of_mem hmem⟩
    · have hsame : (s.list (.ready q)).erase t = s.list (.ready q) := by
        apply List.erase_of_not_mem
        rw [h.ready]
        exact fun hr => hq hr.2.symm
      rw [hsame, ← h.group q]
      split
      · rw [h.mask t (.inl ht), getLsbD_and_not_twoPow]
        simp [hq]
      · rfl
  · intro u hu
    rw [rtScheduleRemoveThread_thread] at hu ⊢
    exact h.mask u hu
  · rw [rtScheduleRemoveThread_threadTimers]
    exact h.timed
  · intro u hu
    rw [rtScheduleRemoveThread_threadTimers] at hu
    rw [rtScheduleRemoveThread_thread]
    have hsleep := h.asleep u hu
    refine ⟨?_, hsleep⟩
    rintro rfl
    rw [ht] at hsleep
    cases hsleep

/-- Writing the thread that is on its way. -/
theorem Loose.setThread (h : Loose s t) (hx : x.stat = .ready ∨ x.stat = .suspend →
    x.numberMask = BitVec.twoPow 32 x.currentPriority) : Loose (s.setThread t x) t := by
  have hne : ∀ u j, u ∈ s.list j → u ≠ t := by
    rintro u j hu rfl
    exact h.out j hu
  constructor
  · exact h.linked
  · exact h.out
  · intro u hu q
    rw [setThread_thread_of_ne hu]
    exact h.ready u hu q
  · intro u i hi
    rw [setThread_thread_of_ne (hne u _ hi)]
    exact h.waiting u i hi
  · exact h.group
  · intro u hu
    by_cases hut : u = t
    · subst hut
      rw [setThread_thread_self] at hu ⊢
      exact hx hu
    · rw [setThread_thread_of_ne hut] at hu ⊢
      exact h.mask u hu
  · exact h.timed
  · intro u hu
    obtain ⟨hut, hsleep⟩ := h.asleep u hu
    exact ⟨hut, by rw [setThread_thread_of_ne hut]; exact hsleep⟩

/-- The thread on its way goes to the ready list of its priority. -/
theorem Loose.insert (h : Loose s t)
    (hmask : (s.thread t).numberMask = BitVec.twoPow 32 (s.thread t).currentPriority) :
    Sound (s.rtScheduleInsertThread t) := by
  have hperm : (s.list (.ready (s.thread t).currentPriority) ++ [t]).Perm
      (t :: s.list (.ready (s.thread t).currentPriority)) := List.perm_append_singleton t _
  have hother : ∀ u, u ≠ t → (s.rtScheduleInsertThread t).thread u = s.thread u := by
    intro u hu
    rw [rtScheduleInsertThread_thread, Function.update_of_ne hu]
  constructor
  · rw [rtScheduleInsertThread_list]
    exact linked_put h.linked h.out hperm
  · intro u q
    rw [rtScheduleInsertThread_list, mem_put hperm]
    by_cases hu : u = t
    · subst hu
      simp [h.out, eq_comm]
    · rw [hother u hu, ← h.ready u hu q]
      simp [hu]
  · intro u i hi
    rw [rtScheduleInsertThread_list, mem_put hperm] at hi
    obtain ⟨-, hi⟩ | hi := hi
    · cases hi
    · have hu : u ≠ t := by
        rintro rfl
        exact h.out _ hi
      rw [hother u hu]
      exact h.waiting u i hi
  · intro q
    rw [rtScheduleInsertThread_group, rtScheduleInsertThread_list, hmask, getLsbD_or_twoPow]
    by_cases hq : q = (s.thread t).currentPriority
    · subst hq
      simp [put_self]
    · have hne : ThreadList.ready q ≠ .ready (s.thread t).currentPriority := by
        simpa using hq
      rw [put_of_ne hne, h.group]
      simp [hq]
  · intro u hu
    by_cases hut : u = t
    · subst hut
      rw [rtScheduleInsertThread_thread, Function.update_self]
      exact hmask
    · rw [hother u hut] at hu ⊢
      exact h.mask u hu
  · exact h.timed
  · intro u hu
    obtain ⟨hut, hsleep⟩ := h.asleep u hu
    rw [hother u hut]
    exact hsleep

/-- The thread on its way stays out of every list. -/
theorem Loose.settle (h : Loose s t) (ht : (s.thread t).stat ≠ .ready) : Sound s := by
  refine ⟨h.linked, fun u q => ?_, h.waiting, h.group, h.mask, h.timed, fun u hu => (h.asleep u hu).2⟩
  by_cases hu : u = t
  · subst hu
    simp [h.out, ht]
  · exact h.ready u hu q

/-- The thread on its way goes to a suspend list. -/
theorem Loose.enqueue {n : IpcName} (h : Loose s t) (ht : (s.thread t).stat = .suspend)
    (hl : l.Perm (t :: s.list (.suspend n))) :
    Sound { s with list := put s.list (.suspend n) l } := by
  have hready : ∀ q, put s.list (.suspend n) l (.ready q) = s.list (.ready q) := fun q =>
    put_of_ne (by simp)
  constructor
  · exact linked_put h.linked h.out hl
  · intro u q
    show u ∈ put s.list (.suspend n) l (.ready q) ↔ _
    rw [hready]
    by_cases hu : u = t
    · subst hu
      simp [h.out, ht]
    · exact h.ready u hu q
  · intro u i hi
    have hi : u ∈ put s.list (.suspend n) l (.suspend i) := hi
    rw [mem_put hl] at hi
    obtain ⟨rfl, -⟩ | hi := hi
    · exact ht
    · exact h.waiting u i hi
  · intro q
    show _ ↔ put s.list (.suspend n) l (.ready q) ≠ []
    rw [hready]
    exact h.group q
  · exact h.mask
  · exact h.timed
  · exact fun u hu => (h.asleep u hu).2

section Functions

/-- Stopping the timer of a thread. -/
theorem Sound.stopTimer (h : Sound s) :
    Sound (s.stopTimer t) ∧ t ∉ (s.stopTimer t).threadTimers.timerList := by
  obtain ⟨htimed, hlist⟩ := h.timed.stop (t := t)
  refine ⟨⟨h.linked, h.ready, h.waiting, h.group, h.mask, htimed, fun u hu => ?_⟩, fun ht => ?_⟩
  · exact h.asleep u ((hlist u).mp hu).2
  · exact ((hlist t).mp ht).1 rfl

theorem Loose.stopTimer (h : Loose s t) : Loose (s.stopTimer t) t := by
  obtain ⟨htimed, hlist⟩ := h.timed.stop (t := t)
  refine ⟨h.linked, h.out, h.ready, h.waiting, h.group, h.mask, htimed, fun u hu => ?_⟩
  exact h.asleep u ((hlist u).mp hu).2

/-- A suspended thread whose timer is not running, taken off its suspend list. -/
theorem Sound.loosen (h : Sound s) (ht : (s.thread t).stat = .suspend)
    (hout : t ∉ s.threadTimers.timerList) : Loose (s.unlink t) t := by
  have hrow : ∀ q, t ∉ s.list (.ready q) := by
    intro q hq
    rw [h.ready, ht] at hq
    cases hq.1
  have hsame : ∀ q, Queues.unlink s.list t (.ready q) = s.list (.ready q) := fun q =>
    unlink_of_not_mem (hrow q)
  constructor
  · exact linked_unlink h.linked
  · intro i
    exact not_mem_unlink h.linked
  · intro u _ q
    show u ∈ Queues.unlink s.list t (.ready q) ↔ _
    rw [hsame]
    exact h.ready u q
  · intro u i hi
    exact h.waiting u i ((mem_unlink h.linked).mp hi).2
  · intro q
    show _ ↔ Queues.unlink s.list t (.ready q) ≠ []
    rw [hsame]
    exact h.group q
  · exact h.mask
  · exact h.timed
  · intro u hu
    refine ⟨?_, h.asleep u hu⟩
    rintro rfl
    exact hout hu

/-- Writing a thread without moving it. -/
theorem Sound.setThread (h : Sound s) (hstat : x.stat = (s.thread t).stat)
    (hprio : x.stat = .ready → x.currentPriority = (s.thread t).currentPriority)
    (hmask : x.stat = .ready ∨ x.stat = .suspend →
      x.numberMask = BitVec.twoPow 32 x.currentPriority) : Sound (s.setThread t x) := by
  have hkeep : ∀ u, ((s.setThread t x).thread u).stat = (s.thread u).stat := by
    intro u
    by_cases hu : u = t
    · subst hu
      rw [setThread_thread_self, hstat]
    · rw [setThread_thread_of_ne hu]
  constructor
  · exact h.linked
  · intro u q
    show u ∈ s.list (.ready q) ↔ _
    rw [h.ready, hkeep]
    by_cases hu : u = t
    · subst hu
      rw [setThread_thread_self]
      refine and_congr_right fun hr => ?_
      rw [hprio (hstat.trans hr)]
    · rw [setThread_thread_of_ne hu]
  · intro u i hi
    rw [hkeep]
    exact h.waiting u i hi
  · exact h.group
  · intro u hu
    by_cases hut : u = t
    · subst hut
      rw [setThread_thread_self] at hu ⊢
      exact hmask hu
    · rw [setThread_thread_of_ne hut] at hu ⊢
      exact h.mask u hu
  · exact h.timed
  · intro u hu
    rw [hkeep]
    exact h.asleep u hu

theorem rtThreadSuspend_of_ready (ht : (s.thread t).stat = .ready) :
    (s.rtThreadSuspend t).2 = (((s.assertType t).rtScheduleRemoveThread t).setThread t
      { s.thread t with stat := .suspend }).stopTimer t := by
  have hremove := rtScheduleRemoveThread_setThread (s := s.assertType t) (t := t)
    (x := { s.thread t with stat := .suspend }) rfl rfl
  rw [rtThreadSuspend, assertType_thread, if_pos ht, ← hremove]

theorem rtThreadSuspend_of_not_ready (ht : (s.thread t).stat ≠ .ready) :
    s.rtThreadSuspend t = (.error, s.assertType t) := by
  rw [rtThreadSuspend, assertType_thread, if_neg ht]

theorem rtThreadResume_of_suspend (ht : (s.thread t).stat = .suspend) : s.rtThreadResume t =
    (.eok, (((s.assertType t).unlink t).stopTimer t).rtScheduleInsertThread t) := by
  rw [rtThreadResume, assertType_thread, if_pos ht]

theorem rtThreadResume_of_not_suspend (ht : (s.thread t).stat ≠ .suspend) :
    s.rtThreadResume t = (.error, s.assertType t) := by
  rw [rtThreadResume, assertType_thread, if_neg ht]

/-- `rt_thread_suspend` takes a ready thread out of its list. -/
theorem Sound.loose_suspend (h : Sound s) (ht : (s.thread t).stat = .ready) :
    Loose (s.rtThreadSuspend t).2 t ∧
      (s.rtThreadSuspend t).2.thread t = { s.thread t with stat := .suspend } := by
  have hloose := ((h.assertType (t := t)).remove ht).setThread
    (x := { s.thread t with stat := .suspend }) fun _ => h.mask t (.inl ht)
  rw [rtThreadSuspend_of_ready ht]
  exact ⟨hloose.stopTimer, setThread_thread_self⟩

theorem Sound.rtThreadSuspend (h : Sound s) : Sound (s.rtThreadSuspend t).2 := by
  by_cases ht : (s.thread t).stat = .ready
  · obtain ⟨hloose, hrec⟩ := h.loose_suspend ht
    apply hloose.settle
    rw [hrec]
    simp
  · rw [rtThreadSuspend_of_not_ready ht]
    exact h.assertType

theorem Sound.rtThreadResume (h : Sound s) : Sound (s.rtThreadResume t).2 := by
  by_cases ht : (s.thread t).stat = .suspend
  · obtain ⟨hstop, hout⟩ := (h.assertType (t := t)).stopTimer (t := t)
    have hloose : Loose (((s.assertType t).unlink t).stopTimer t) t := hstop.loosen ht hout
    rw [rtThreadResume_of_suspend ht]
    exact hloose.insert (h.mask t (.inr ht))
  · rw [rtThreadResume_of_not_suspend ht]
    exact h.assertType

theorem Sound.rtThreadStartup (h : Sound s) (hs : s.rtThreadStartup t = some s') : Sound s' := by
  rw [Scheduler.rtThreadStartup] at hs
  split at hs
  · next ht =>
    rw [Option.some.injEq] at hs
    subst hs
    have hloose := (h.assertType (t := t)).outside (t := t) (by simp [ht]) (by simp [ht])
    have hsound := (hloose.setThread (x := { s.thread t with
      currentPriority := (s.thread t).initPriority
      numberMask := BitVec.twoPow 32 (s.thread t).initPriority
      stat := .suspend }) fun _ => rfl).settle (by simp)
    exact hsound.rtThreadResume
  · cases hs

theorem rtThreadExit_others (hu : u ≠ s.rtCurrentThread) :
    s.rtThreadExit.thread u = s.thread u := by
  simp [rtThreadExit, rtObjectDetach, setThread, Function.update_of_ne hu]

theorem Sound.rtThreadExit (h : Sound s) (ht : (s.thread s.rtCurrentThread).stat = .ready) :
    Sound s.rtThreadExit := by
  have hloose := (h.remove ht).setThread
    (x := { s.thread s.rtCurrentThread with stat := .close, type := .null }) fun hx => by simp at hx
  have hsound := hloose.settle (by simp)
  have hidle : s.threadTimers.timerList.erase s.rtCurrentThread = s.threadTimers.timerList := by
    apply List.erase_of_not_mem
    intro hm
    have hsleep := h.asleep _ hm
    rw [ht] at hsleep
    cases hsleep
  have hremove : s.threadTimers.remove s.rtCurrentThread = s.threadTimers := by
    rw [Timers.remove, hidle]
  have heq : s.rtThreadExit = (s.rtScheduleRemoveThread s.rtCurrentThread).setThread
      s.rtCurrentThread { s.thread s.rtCurrentThread with stat := .close, type := .null } := by
    simp [Scheduler.rtThreadExit, rtObjectDetach, Scheduler.setThread, hremove]
  rw [heq]
  exact hsound

/-- Yielding is leaving the ready list and coming back at its end. -/
theorem Sound.rtThreadYield_eq (h : Sound s) (hy : s.Yields) :
    s.rtThreadYield =
      (s.rtScheduleRemoveThread s.rtCurrentThread).rtScheduleInsertThread s.rtCurrentThread := by
  obtain ⟨t, ht⟩ : ∃ t, t = s.rtCurrentThread := ⟨_, rfl⟩
  obtain ⟨hready, hlen⟩ := hy
  rw [← ht] at hready hlen ⊢
  have hmem : t ∈ s.list (.ready (s.thread t).currentPriority) := (h.ready t _).mpr ⟨hready, rfl⟩
  have hne : (s.list (.ready (s.thread t).currentPriority)).erase t ≠ [] := by
    intro hnil
    have herase := List.length_erase_of_mem hmem
    rw [hnil] at herase
    simp only [List.length_nil] at herase
    omega
  have hremove : s.rtScheduleRemoveThread t = s.unlink t := by
    rw [rtScheduleRemoveThread]
    exact if_neg hne
  have hthread : Function.update s.thread t { s.thread t with stat := .ready } = s.thread := by
    rw [← hready]
    exact Function.update_eq_self t s.thread
  have hbit : s.rtThreadReadyPriorityGroup ||| (s.thread t).numberMask =
      s.rtThreadReadyPriorityGroup := by
    have hset := (h.group (s.thread t).currentPriority).mpr (List.ne_nil_of_mem hmem)
    ext i hi
    rw [← BitVec.getLsbD_eq_getElem, ← BitVec.getLsbD_eq_getElem, h.mask t (.inl hready),
      Bool.eq_iff_iff, getLsbD_or_twoPow (q := ⟨i, hi⟩)]
    refine ⟨?_, Or.inl⟩
    rintro (hg | heq)
    · exact hg
    · rw [← heq] at hset
      exact hset
  rw [hremove, rtThreadYield, if_pos ⟨ht ▸ hready, ht ▸ hlen⟩, ← ht]
  simp [rtScheduleInsertThread, append, Scheduler.setThread, hthread, hbit, unlink]

theorem Sound.rtThreadYield (h : Sound s) : Sound s.rtThreadYield := by
  by_cases hy : s.Yields
  · rw [h.rtThreadYield_eq hy]
    apply (h.remove hy.1).insert
    rw [rtScheduleRemoveThread_thread]
    exact h.mask _ (.inl hy.1)
  · rw [Scheduler.rtThreadYield, if_neg hy]
    exact h

theorem Sound.rtThreadControl (h : Sound s) : Sound (s.rtThreadControl t p) := by
  rw [Scheduler.rtThreadControl]
  split
  · next ht =>
    apply ((h.assertType.remove ht).setThread _).insert
    · rw [setThread_thread_self]
    · exact fun _ => rfl
  · next ht =>
    exact h.assertType.setThread rfl (fun hx => absurd hx ht) fun _ => rfl

/-- `rt_thread_control` changes one priority and nothing else of it. -/
theorem rtThreadControl_thread : ((s.rtThreadControl t p).thread t).currentPriority = p ∧
    ((s.rtThreadControl t p).thread t).stat = (s.thread t).stat ∧
    ∀ u, u ≠ t → (s.rtThreadControl t p).thread u = s.thread u := by
  rw [Scheduler.rtThreadControl]
  dsimp only
  rw [assertType_thread]
  split
  · next ht =>
    refine ⟨?_, ?_, fun u hu => ?_⟩
    · rw [rtScheduleInsertThread_thread, Function.update_self, setThread_thread_self]
    · rw [rtScheduleInsertThread_thread, Function.update_self, ht]
    · rw [rtScheduleInsertThread_thread, Function.update_of_ne hu, setThread_thread_of_ne hu,
        rtScheduleRemoveThread_thread, assertType_thread]
  · refine ⟨?_, ?_, fun u hu => setThread_thread_of_ne hu⟩
    · rw [setThread_thread_self]
    · rw [setThread_thread_self]

theorem rtThreadControl_stat :
    ((s.rtThreadControl t p).thread u).stat = (s.thread u).stat := by
  obtain ⟨-, hself, hothers⟩ := rtThreadControl_thread (s := s) (t := t) (p := p)
  by_cases hu : u = t
  · subst hu
    exact hself
  · rw [hothers u hu]

theorem rtThreadControl_threadTimers :
    (s.rtThreadControl t p).threadTimers = s.threadTimers := by
  rw [rtThreadControl]
  dsimp only
  split
  · rw [rtScheduleInsertThread_threadTimers, setThread_threadTimers,
      rtScheduleRemoveThread_threadTimers, assertType_threadTimers]
  · rfl

/-- A suspended thread may start its timer. -/
theorem Sound.startTimer {time : UInt32} (h : Sound s) (ht : (s.thread t).stat = .suspend)
    (hs : s.startTimer t time = some s') : Sound s' := by
  rw [Scheduler.startTimer, Option.map_eq_some_iff] at hs
  obtain ⟨timers, htimers, rfl⟩ := hs
  obtain ⟨htimed, hlist⟩ := h.timed.start htimers
  refine ⟨h.linked, h.ready, h.waiting, h.group, h.mask, htimed, fun u hu => ?_⟩
  obtain rfl | hu := (hlist u).mp hu
  · exact ht
  · exact h.asleep u hu

theorem Sound.rtThreadSleep {tick : UInt32} (h : Sound s)
    (ht : (s.thread s.rtCurrentThread).stat = .ready) (hs : s.rtThreadSleep tick = some s') :
    Sound s' := by
  obtain ⟨-, hrec⟩ := (h.assertType (t := s.rtCurrentThread)).loose_suspend ht
  exact h.assertType.rtThreadSuspend.startTimer (by rw [hrec]) hs

end Functions

end Scheduler

end NanoAt
