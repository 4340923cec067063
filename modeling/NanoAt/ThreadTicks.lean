import NanoAt.ThreadLists

/-!
# Ticks

What a tick does to the threads: the running one may go to the end of its ready list, and
those whose timers are due get ready with `-RT_ETIMEOUT`.

## Main definitions

- `Ticked` — the threads after a tick

## Main results

- `Sound.rtTickIncrease` — every tick returns and keeps the threads in their lists
-/

namespace NanoAt.Scheduler

open Queues

variable {T B : Type} [DecidableEq T] {s s' : Scheduler T B} {t u : T} {ts : List T}

/-- What a timeout leaves as it is. -/
structure WokenOnly (s s' : Scheduler T B) (ts : List T) : Prop where
  others : ∀ u, u ∉ ts → s'.thread u = s.thread u
  woken : ∀ u ∈ ts, s'.thread u = { s.thread u with stat := .ready, error := .etimeout }
  waits : ∀ u i, u ∈ s'.list (.suspend i) ↔ u ∉ ts ∧ u ∈ s.list (.suspend i)
  sublist : ∀ i, (s'.list (.suspend i)).Sublist (s.list (.suspend i))
  threadTimers : s'.threadTimers = s.threadTimers
  locked : s'.rtSchedulerLockNest = s.rtSchedulerLockNest

/-- A timeout makes its thread ready. -/
theorem Sound.timeOut (h : Sound s) (ht : (s.thread t).stat = .suspend)
    (hout : t ∉ s.threadTimers.timerList) :
    ∃ s', s.timeOut t = some s' ∧ Sound s' ∧ WokenOnly s s' [t] := by
  have hset := (h.assertType (t := t)).setThread (t := t)
    (x := { s.thread t with error := .etimeout }) rfl (fun _ => rfl) fun hx => h.mask t hx
  have hloose := hset.loosen (t := t) (by rw [setThread_thread_self]; exact ht) hout
  have hsound := hloose.insert (by
    rw [unlink_thread, setThread_thread_self]
    exact h.mask t (.inr ht))
  have hrec : ∀ u, ((((s.assertType t).setThread t { s.thread t with error := .etimeout }).unlink
      t).rtScheduleInsertThread t).thread u =
        if u = t then { s.thread t with stat := .ready, error := .etimeout } else s.thread u := by
    intro u
    rw [rtScheduleInsertThread_thread, unlink_thread]
    by_cases hu : u = t
    · subst hu
      rw [Function.update_self, setThread_thread_self, if_pos rfl]
    · rw [Function.update_of_ne hu, setThread_thread_of_ne hu, if_neg hu, assertType_thread]
  have hlist : ∀ i, ((((s.assertType t).setThread t { s.thread t with error := .etimeout }).unlink
      t).rtScheduleInsertThread t).list (.suspend i) = (s.list (.suspend i)).erase t := by
    intro i
    rw [rtScheduleInsertThread_list, put_of_ne (by simp)]
    rfl
  refine ⟨_, ?_, hsound, ⟨fun u hu => ?_, fun u hu => ?_, fun u i => ?_, fun i => ?_, rfl, rfl⟩⟩
  · rw [Scheduler.timeOut, if_pos ht]
    rfl
  · exact (hrec u).trans (if_neg (by simpa using hu))
  · obtain rfl := List.mem_singleton.mp hu
    exact (hrec u).trans (if_pos rfl)
  · show u ∈ ((((s.assertType t).setThread t _).unlink t).rtScheduleInsertThread t).list (.suspend i) ↔ _
    rw [hlist, (h.linked.nodup _).mem_erase_iff, List.mem_singleton]
  · show (((((s.assertType t).setThread t _).unlink t).rtScheduleInsertThread t).list (.suspend i)).Sublist _
    rw [hlist]
    exact List.erase_sublist

/-- `rt_schedule` finds a thread after a timeout, the one that has timed out if no other. -/
theorem Sound.rtThreadTimeout (h : Sound s) (ht : (s.thread t).stat = .suspend)
    (hout : t ∉ s.threadTimers.timerList) :
    ∃ s', s.rtThreadTimeout t = some s' ∧ Sound s' ∧ WokenOnly s s' [t] := by
  obtain ⟨k, hk, hsound, hw⟩ := h.timeOut ht hout
  obtain ⟨v, hv, -⟩ := hsound.rtSchedule (u := t)
    (by rw [hw.woken t (List.mem_singleton_self t)])
  exact ⟨_, by rw [Scheduler.rtThreadTimeout, hk, Option.bind_some, hv], hsound.run (t := v),
    ⟨hw.others, hw.woken, hw.waits, hw.sublist, hw.threadTimers, hw.locked⟩⟩

/-- The timeouts of a tick, one after the other. -/
theorem Sound.timeouts (h : Sound s) (hnodup : ts.Nodup)
    (hts : ∀ t ∈ ts, (s.thread t).stat = .suspend ∧ t ∉ s.threadTimers.timerList) :
    ∃ s', s.timeouts ts = some s' ∧ Sound s' ∧ WokenOnly s s' ts := by
  induction ts generalizing s with
  | nil =>
    refine ⟨s, rfl, h, ⟨fun u _ => rfl, ?_, ?_, fun i => List.Sublist.refl _, rfl, rfl⟩⟩
    · simp
    · simp
  | cons t ts ih =>
    rw [List.forall_mem_cons] at hts
    obtain ⟨hnot, hnodup⟩ := List.nodup_cons.mp hnodup
    obtain ⟨s₁, hs₁, h₁, hw₁⟩ := h.rtThreadTimeout hts.1.1 hts.1.2
    have hother : ∀ u ∈ ts, s₁.thread u = s.thread u := by
      intro u hu
      apply hw₁.others
      rintro hut
      obtain rfl := List.mem_singleton.mp hut
      exact hnot hu
    obtain ⟨s', hs', h', hw'⟩ := ih h₁ hnodup fun u hu => by
      rw [hother u hu, hw₁.threadTimers]
      exact hts.2 u hu
    refine ⟨s', by rw [Scheduler.timeouts, hs₁, Option.bind_some, hs'], h', ⟨fun u hu => ?_,
      fun u hu => ?_, fun u i => ?_, fun i => (hw'.sublist i).trans (hw₁.sublist i),
      hw'.threadTimers.trans hw₁.threadTimers, hw'.locked.trans hw₁.locked⟩⟩
    · rw [List.mem_cons, not_or] at hu
      rw [hw'.others u hu.2, hw₁.others u (by simpa using hu.1)]
    · obtain rfl | hu := List.mem_cons.mp hu
      · rw [hw'.others u hnot, hw₁.woken u (List.mem_singleton_self u)]
      · rw [hw'.woken u hu, hother u hu]
    · rw [hw'.waits, hw₁.waits]
      simp only [List.mem_cons, List.not_mem_nil, or_false, not_or]
      tauto

/-- Writing the time slice of the running thread. -/
theorem Sound.setRemainingTick {n : UInt32} (h : Sound s) :
    Sound (s.setThread t { s.thread t with remainingTick := n }) :=
  h.setThread rfl (fun _ => rfl) fun hx => h.mask _ hx

theorem exists_remainingTick {n : UInt32} : ∃ k, (s.setThread t
    { s.thread t with remainingTick := n }).thread u = { s.thread u with remainingTick := k } := by
  by_cases hu : u = t
  · subst hu
    exact ⟨n, setThread_thread_self⟩
  · exact ⟨(s.thread u).remainingTick, setThread_thread_of_ne hu⟩

/-- What the time slice leaves as it is. -/
structure Sliced (s s' : Scheduler T B) : Prop where
  thread : ∀ u, ∃ n, s'.thread u = { s.thread u with remainingTick := n }
  waits : ∀ i, s'.list (.suspend i) = s.list (.suspend i)
  threadTimers : s'.threadTimers = s.threadTimers
  locked : s'.rtSchedulerLockNest = s.rtSchedulerLockNest

theorem sliced_countDown : Sliced s s.countDown :=
  ⟨fun _ => exists_remainingTick, fun _ => rfl, rfl, rfl⟩

theorem sliced_refill : Sliced s s.refill :=
  ⟨fun _ => exists_remainingTick, fun _ => rfl, rfl, rfl⟩

omit [DecidableEq T] in
theorem Sliced.trans {s'' : Scheduler T B} (h : Sliced s s') (h' : Sliced s' s'') :
    Sliced s s'' := by
  refine ⟨fun u => ?_, fun i => (h'.waits i).trans (h.waits i),
    h'.threadTimers.trans h.threadTimers, h'.locked.trans h.locked⟩
  obtain ⟨n, hn⟩ := h'.thread u
  obtain ⟨k, hk⟩ := h.thread u
  exact ⟨n, by rw [hn, hk]⟩

theorem rtThreadYield_thread : s.rtThreadYield.thread = s.thread := by
  rw [Scheduler.rtThreadYield]
  split <;> rfl

/-- Yielding moves a thread within its ready list. -/
theorem Sound.sliced_rtThreadYield (h : Sound s) : Sliced s s.rtThreadYield := by
  refine ⟨fun u => ⟨(s.thread u).remainingTick, by rw [rtThreadYield_thread]⟩, fun i => ?_, ?_, ?_⟩
  · rw [Scheduler.rtThreadYield]
    split
    · next hy =>
      have hout : s.rtCurrentThread ∉ s.list (.suspend i) := by
        intro hm
        have hsleep := h.waiting _ i hm
        rw [hy.1] at hsleep
        cases hsleep
      have hne : ThreadList.suspend i ≠ .ready (s.thread s.rtCurrentThread).currentPriority := by simp
      rw [append_list, put_of_ne hne]
      exact unlink_of_not_mem hout
    · rfl
  · rw [Scheduler.rtThreadYield]
    split <;> rfl
  · rw [Scheduler.rtThreadYield]
    split <;> rfl

/-- The time slice moves the running thread within its list at most. -/
theorem Sound.timeSlice (h : Sound s) :
    ∃ s', s.timeSlice = some s' ∧ Sound s' ∧ Sliced s s' := by
  have h₁ : Sound s.countDown := h.setRemainingTick
  have h₂ : Sound s.countDown.refill := h₁.setRemainingTick
  have hs₂ := sliced_countDown.trans (sliced_refill (s := s.countDown))
  rw [Scheduler.timeSlice]
  dsimp only
  split
  · split
    · next hy =>
      obtain ⟨v, hv, -⟩ := h₂.rtThreadYield.rtSchedule (u := s.countDown.refill.rtCurrentThread)
        (by rw [rtThreadYield_thread]; exact hy.1)
      have hs := hs₂.trans h₂.sliced_rtThreadYield
      exact ⟨_, hv, h₂.rtThreadYield.run, ⟨hs.thread, hs.waits, hs.threadTimers, hs.locked⟩⟩
    · exact ⟨_, rfl, h₂, hs₂⟩
  · exact ⟨_, rfl, h₁, sliced_countDown⟩

/-- What a tick does to the threads other than their time slices: those whose timers are due
are ready then, with `-RT_ETIMEOUT`. -/
structure Ticked (s s' : Scheduler T B) (ts : List T) : Prop where
  others : ∀ u, u ∉ ts → ∃ n, s'.thread u = { s.thread u with remainingTick := n }
  woken : ∀ u ∈ ts, ∃ n, s'.thread u =
    { s.thread u with stat := .ready, error := .etimeout, remainingTick := n }
  waits : ∀ u i, u ∈ s'.list (.suspend i) ↔ u ∉ ts ∧ u ∈ s.list (.suspend i)
  sublist : ∀ i, (s'.list (.suspend i)).Sublist (s.list (.suspend i))
  due : ∀ u ∈ ts, u ∈ s.threadTimers.timerList
  threadTimers : s.threadTimers.rtTickIncrease [] = some (ts, s'.threadTimers)
  locked : s'.rtSchedulerLockNest = s.rtSchedulerLockNest

/-- The timers of a tick belong to suspended threads, and are off the list then. -/
theorem Sound.tickTimers {r : List T × Timers T} (h : Sound s)
    (htick : s.threadTimers.rtTickIncrease [] = some r) :
    Sound { s with threadTimers := r.2 } ∧ r.1.Nodup ∧
      ∀ t ∈ r.1, (s.thread t).stat = .suspend ∧ t ∉ r.2.timerList := by
  obtain ⟨htimed, hnodup, hdue, hmem⟩ := h.timed.tick htick
  refine ⟨⟨h.linked, h.ready, h.waiting, h.group, h.mask, htimed, fun u hu =>
    h.asleep u ((hmem u).mp hu).2⟩, hnodup, fun t ht => ⟨h.asleep t (hdue t ht), fun hm => ?_⟩⟩
  exact ((hmem t).mp hm).1 ht

/-- Every tick returns: no assertion of `rt_thread_timeout` on the state fails. -/
theorem Sound.rtTickIncrease (h : Sound s) :
    ∃ s' ts, s.rtTickIncrease = some s' ∧ Sound s' ∧ Ticked s s' ts := by
  obtain ⟨s₁, hs₁, h₁, hrec, hlist, htimers, hlock⟩ := h.timeSlice
  obtain ⟨ts, timers, htick⟩ := h₁.timed.tick_returns
  obtain ⟨-, -, hdue, -⟩ := h₁.timed.tick htick
  obtain ⟨h₂, hnodup, hts⟩ := h₁.tickTimers htick
  obtain ⟨s', hs', h', hw⟩ := h₂.timeouts hnodup hts
  refine ⟨s', ts, ?_, h', ⟨fun u hu => ?_, fun u hu => ?_, fun u i => ?_, fun i => ?_, fun u hu => ?_,
    ?_, ?_⟩⟩
  · rw [Scheduler.rtTickIncrease, hs₁, Option.bind_some, htick, Option.bind_some, hs']
  · rw [hw.others u hu]
    exact hrec u
  · obtain ⟨n, hn⟩ := hrec u
    refine ⟨n, ?_⟩
    rw [hw.woken u hu, hn]
  · rw [hw.waits, hlist]
  · rw [← hlist]
    exact hw.sublist i
  · rw [← htimers]
    exact hdue u hu
  · rw [← htimers, htick, hw.threadTimers]
  · rw [hw.locked, hlock]

end NanoAt.Scheduler
