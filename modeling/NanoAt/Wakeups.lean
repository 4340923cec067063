import NanoAt.Waiting

/-!
# No lost wakeups

Between two critical sections no thread waits for what is there: the bits of an event, a
unit of a semaphore, or a mutex without an owner.

## Main definitions

- `Served` — no thread waits for what is there
- `RtMutex.Well` — a mutex with its owner, its value and its hold count in accordance

## Main results

- `Served.eventSend` — after `rt_event_send` no waiting thread's condition holds
- `Served.call`, `Served.step` — every action keeps it
-/

namespace NanoAt

open DeadlineList Queues Scheduler

/-- The owner, the value and the hold count of a mutex are in accordance. -/
structure RtMutex.Well {T : Type} (m : RtMutex T) : Prop where
  free : m.owner = none → m.value = 1 ∧ m.hold = 0 ∧ m.originalPriority = none
  held : m.owner ≠ none → m.value = 0 ∧ m.originalPriority ≠ none

namespace EventFlag

variable {B : Type} [DecidableEq B] {flag : EventFlag} {mask set set' : Finset B}

/-- More bits satisfy whatever fewer bits satisfy. -/
theorem satisfied_mono (hsub : set ⊆ set') (h : flag.satisfied mask set) :
    flag.satisfied mask set' := by
  cases flag with
  | and => exact Finset.Subset.trans h hsub
  | or => exact Finset.Nonempty.mono (Finset.inter_subset_inter_left hsub) h

end EventFlag

namespace Rtos

variable {T B : Type} {s s' : Rtos T B} {t u : T} {n : ℕ} {k : Scheduler T B} {err : RtErr}

/-- The suspend lists shrink at most. -/
theorem ne_nil_of_eases (he : Eases s.scheduler k) {i : IpcName}
    (hne : k.list (.suspend i) ≠ []) : s.scheduler.list (.suspend i) ≠ [] := by
  intro hnil
  apply hne
  have hsub := he.sublist i
  rw [hnil] at hsub
  exact List.sublist_nil.mp hsub

variable [DecidableEq T]

section Writing

variable {set : Finset B} {option : EventInfo} {time : ℤ}

theorem setError_stat :
    ((s.setError t err).scheduler.thread u).stat = (s.scheduler.thread u).stat := by
  show ((s.scheduler.setThread t _).thread u).stat = _
  by_cases hu : u = t
  · subst hu
    rw [setThread_thread_self]
  · rw [setThread_thread_of_ne hu]

/-- A ready thread stays ready while it notes what it is going to wait for. -/
theorem ready_setReady {x : RtThread B} (ht : (s.scheduler.thread t).stat = .ready)
    (hx : x = { s.scheduler.thread t with eventSet := set, eventInfo := option }) :
    ((s.scheduler.setThread t x).thread t).stat = .ready := by
  rw [setThread_thread_self, hx]
  exact ht

theorem eases_raisePriority {p : Fin 32} : Eases k (raisePriority k t p) := by
  rw [raisePriority]
  split
  · exact eases_rtThreadControl
  · exact .refl

theorem sound_raisePriority {p : Fin 32} (hk : k.Sound) : (raisePriority k t p).Sound := by
  rw [raisePriority]
  split
  · exact hk.rtThreadControl
  · exact hk

theorem eases_restorePriority {p : Option (Fin 32)} : Eases k (restorePriority k t p) := by
  cases p with
  | none => exact .refl
  | some p =>
    rw [restorePriority]
    split
    · exact eases_rtThreadControl
    · exact .refl

theorem sound_restorePriority {p : Option (Fin 32)} (hk : k.Sound) :
    (restorePriority k t p).Sound := by
  cases p with
  | none => exact hk
  | some p =>
    rw [restorePriority]
    split
    · exact hk.rtThreadControl
    · exact hk

/-- `rt_mutex_take` raises a priority at most before it suspends the caller. -/
theorem raisePriority_stat {p : Fin 32} :
    ((raisePriority k t p).thread u).stat = (k.thread u).stat := by
  rw [raisePriority]
  split
  · exact rtThreadControl_stat
  · rfl

/-- What `rt_sem_take` can do: take a unit, give up, or wait. -/
theorem rtSemTake_cases {r : Option RtErr} (hs : s.rtSemTake n time = some (r, s')) :
    0 < s.sem n ∧ s' = { s with sem := Function.update s.sem n (s.sem n - 1) } ∨
      time = 0 ∧ s' = s ∨
      ∃ k, time ≠ 0 ∧ s.sem n = 0 ∧
        wait (s.setError s.current .eok).scheduler (.sem n) s.current (s.ipcFlag (.sem n)) time =
          some k ∧
        s' = { s.setError s.current .eok with scheduler := k } := by
  rw [Rtos.rtSemTake] at hs
  split at hs
  · next hpos =>
    simp only [Option.some.injEq, Prod.mk.injEq] at hs
    exact .inl ⟨hpos, hs.2.symm⟩
  · next hzero =>
    split at hs
    · next htime =>
      simp only [Option.some.injEq, Prod.mk.injEq] at hs
      exact .inr (.inl ⟨htime, hs.2.symm⟩)
    · next htime =>
      dsimp only at hs
      rw [Option.map_eq_some_iff] at hs
      obtain ⟨k, hk, hs⟩ := hs
      simp only [Prod.mk.injEq] at hs
      refine .inr (.inr ⟨k, htime, ?_, hk, hs.2.symm⟩)
      by_contra hne
      exact hzero (UInt16.pos_iff_ne_zero.mpr hne)

/-- What `rt_mutex_take` can do: take the mutex once more, take it from nobody, give up, or
raise the priority of the owner and wait. -/
theorem rtMutexTake_cases {r : Option RtErr} (hs : s.rtMutexTake n time = some (r, s')) :
    (s.mutex n).owner = some s.current ∧ r = some .eok ∧
        s' = (s.setError s.current .eok).setMutex n
          { s.mutex n with hold := (s.mutex n).hold + 1 } ∨
      (s.mutex n).owner ≠ some s.current ∧ 0 < (s.mutex n).value ∧ r = some .eok ∧
        s' = (s.setError s.current .eok).setMutex n
          { value := (s.mutex n).value - 1
            owner := some s.current
            originalPriority := some (s.scheduler.thread s.current).currentPriority
            hold := (s.mutex n).hold + 1 } ∨
      time = 0 ∧ r = some .etimeout ∧
        s' = (s.setError s.current .eok).setError s.current .etimeout ∨
      ∃ owner k, time ≠ 0 ∧ (s.mutex n).owner = some owner ∧ owner ≠ s.current ∧ r = none ∧
        wait (raisePriority (s.setError s.current .eok).scheduler owner
          (s.scheduler.thread s.current).currentPriority) (.mutex n) s.current
          (s.ipcFlag (.mutex n)) time = some k ∧
        s' = { s.setError s.current .eok with scheduler := k } := by
  have hprio : ((s.setError s.current .eok).scheduler.thread s.current).currentPriority =
      (s.scheduler.thread s.current).currentPriority := by
    show ((s.scheduler.setThread s.current _).thread s.current).currentPriority = _
    rw [setThread_thread_self]
  rw [Rtos.rtMutexTake] at hs
  dsimp only at hs
  rw [hprio] at hs
  split at hs
  · next howner =>
    simp only [Option.some.injEq, Prod.mk.injEq] at hs
    exact .inl ⟨howner, hs.1.symm, hs.2.symm⟩
  · next howner =>
    split at hs
    · next hpos =>
      simp only [Option.some.injEq, Prod.mk.injEq] at hs
      exact .inr (.inl ⟨howner, hpos, hs.1.symm, hs.2.symm⟩)
    · split at hs
      · next htime =>
        simp only [Option.some.injEq, Prod.mk.injEq] at hs
        exact .inr (.inr (.inl ⟨htime, hs.1.symm, hs.2.symm⟩))
      · next htime =>
        rw [Option.bind_eq_some_iff] at hs
        obtain ⟨owner, hown, hs⟩ := hs
        rw [Option.map_eq_some_iff] at hs
        obtain ⟨k, hk, hs⟩ := hs
        simp only [Prod.mk.injEq] at hs
        refine .inr (.inr (.inr ⟨owner, k, htime, hown, ?_, hs.1.symm, hk, hs.2.symm⟩))
        rintro rfl
        exact howner hown

end Writing

variable [DecidableEq B]

/-- Whether an event satisfies what a thread waits for. -/
def Satisfied (s : Rtos T B) (n : ℕ) (t : T) : Prop :=
  (s.scheduler.thread t).eventInfo.flag.satisfied (s.scheduler.thread t).eventSet (s.event n)

/-- No thread waits for what is there. -/
structure Served (s : Rtos T B) : Prop where
  sound : s.scheduler.Sound
  event : ∀ n, ∀ t ∈ s.scheduler.list (.suspend (.event n)), ¬ s.Satisfied n t
  sem : ∀ n, s.scheduler.list (.suspend (.sem n)) ≠ [] → s.sem n = 0
  well : ∀ n, (s.mutex n).Well
  mutex : ∀ n, s.scheduler.list (.suspend (.mutex n)) ≠ [] → (s.mutex n).owner ≠ none

section Scheduler

omit [DecidableEq T] in
/-- Whatever the scheduler does to wake threads. -/
theorem Served.eases (h : Served s) (hk : k.Sound) (he : Eases s.scheduler k) :
    Served { s with scheduler := k } := by
  refine ⟨hk, fun n t ht hsat => ?_, fun n hne => ?_, h.well, fun n hne => ?_⟩
  · apply h.event n t ((he.sublist _).subset ht)
    have hsat : (k.thread t).eventInfo.flag.satisfied (k.thread t).eventSet (s.event n) := hsat
    rw [he.eventInfo, he.eventSet] at hsat
    exact hsat
  · exact h.sem n (ne_nil_of_eases he hne)
  · exact h.mutex n (ne_nil_of_eases he hne)

/-- Writing the error of a thread. -/
theorem Served.setError (h : Served s) : Served (s.setError t err) :=
  h.eases (h.sound.setThread rfl (fun _ => rfl) fun hx => h.sound.mask t hx)
    (eases_setThread rfl rfl rfl)

end Scheduler

section Events

omit [DecidableEq T] in
/-- Taking bits away keeps every thread waiting. -/
theorem Served.shrinkEvent {set : Finset B} (h : Served s) (hsub : set ⊆ s.event n) :
    Served { s with event := Function.update s.event n set } := by
  refine ⟨h.sound, fun m t ht hsat => ?_, h.sem, h.well, h.mutex⟩
  apply h.event m t ht
  have hsat : (s.scheduler.thread t).eventInfo.flag.satisfied (s.scheduler.thread t).eventSet
      (Function.update s.event n set m) := hsat
  by_cases hm : m = n
  · subst hm
    rw [Function.update_self] at hsat
    exact EventFlag.satisfied_mono hsub hsat
  · rw [Function.update_of_ne hm] at hsat
    exact hsat

/-- The event while `rt_event_send` is on its way through the threads `l`: the others wait in
vain. -/
structure Sending (s : Rtos T B) (n : ℕ) (l : List T) : Prop where
  sound : s.scheduler.Sound
  event : ∀ m, ∀ t ∈ s.scheduler.list (.suspend (.event m)), m = n ∧ t ∈ l ∨ ¬ s.Satisfied m t
  sem : ∀ n, s.scheduler.list (.suspend (.sem n)) ≠ [] → s.sem n = 0
  well : ∀ n, (s.mutex n).Well
  mutex : ∀ n, s.scheduler.list (.suspend (.mutex n)) ≠ [] → (s.mutex n).owner ≠ none
  members : ∀ t ∈ l, t ∈ s.scheduler.list (.suspend (.event n))

theorem eventWake_of_not_satisfied (h : ¬ s.Satisfied n t) : eventWake n s t = s := if_neg h

/-- The bits that a waiting thread receives. -/
def receives (s : Rtos T B) (n : ℕ) (t : T) : Finset B :=
  match (s.scheduler.thread t).eventInfo.flag with
  | .and => (s.scheduler.thread t).eventSet
  | .or => (s.scheduler.thread t).eventSet ∩ s.event n

theorem eventWake_of_satisfied (h : s.Satisfied n t) : eventWake n s t = { s with
    scheduler := ((s.scheduler.setThread t
      { s.scheduler.thread t with eventSet := s.receives n t }).rtThreadResume t).2
    event := Function.update s.event n
      (if (s.scheduler.thread t).eventInfo.clear then s.event n \ s.receives n t
        else s.event n) } := if_pos h

/-- What a waiting thread receives replaces what it waits for. -/
theorem sound_setReceives (hs : s.scheduler.Sound) : (s.scheduler.setThread t
    { s.scheduler.thread t with eventSet := s.receives n t }).Sound :=
  hs.setThread rfl (fun _ => rfl) fun hx => hs.mask t hx

theorem sound_eventWake (hs : s.scheduler.Sound) : (eventWake n s t).scheduler.Sound := by
  by_cases hsat : s.Satisfied n t
  · rw [eventWake_of_satisfied hsat]
    exact (sound_setReceives hs).rtThreadResume
  · rw [eventWake_of_not_satisfied hsat]
    exact hs

/-- A thread whose condition holds, with the bits it receives. -/
structure Woken (s s' : Rtos T B) (n : ℕ) (t : T) : Prop where
  self : s'.scheduler.thread t =
    { s.scheduler.thread t with stat := .ready, eventSet := s.receives n t }
  others : ∀ u, u ≠ t → s'.scheduler.thread u = s.scheduler.thread u
  list : ∀ i, s'.scheduler.list (.suspend i) = (s.scheduler.list (.suspend i)).erase t
  event : s'.event n = if (s.scheduler.thread t).eventInfo.clear then s.event n \ s.receives n t
    else s.event n
  events : ∀ m, m ≠ n → s'.event m = s.event m
  sem : s'.sem = s.sem
  mutex : s'.mutex = s.mutex
  ipcFlag : s'.ipcFlag = s.ipcFlag
  current : s'.current = s.current
  locked : s'.scheduler.rtSchedulerLockNest = s.scheduler.rtSchedulerLockNest

/-- `rt_event_send` wakes a thread whose condition holds. -/
theorem woken_eventWake (hs : s.scheduler.Sound) (ht : (s.scheduler.thread t).stat = .suspend)
    (hsat : s.Satisfied n t) :
    (eventWake n s t).scheduler.Sound ∧ Woken s (eventWake n s t) n t := by
  have hres := resumed_rtThreadResume (s := s.scheduler.setThread t
    { s.scheduler.thread t with eventSet := s.receives n t }) (t := t)
    (by rw [setThread_thread_self]; exact ht)
  refine ⟨sound_eventWake hs, ?_⟩
  rw [eventWake_of_satisfied hsat]
  refine ⟨?_, fun u hu => ?_, hres.list, ?_, fun m hm => ?_, rfl, rfl, rfl,
    hres.current, hres.locked⟩
  · rw [hres.self, setThread_thread_self]
  · rw [hres.others u hu, setThread_thread_of_ne hu]
  · exact Function.update_self ..
  · exact Function.update_of_ne hm ..

theorem Woken.event_subset (h : Woken s s' n t) (m : ℕ) : s'.event m ⊆ s.event m := by
  by_cases hm : m = n
  · subst hm
    rw [h.event]
    split
    · exact Finset.sdiff_subset
    · exact Finset.Subset.refl _
  · rw [h.events m hm]

/-- One round of the loop of `rt_event_send`. -/
theorem Sending.wake {l : List T} (h : Sending s n (t :: l)) (hnodup : (t :: l).Nodup) :
    Sending (eventWake n s t) n l := by
  obtain ⟨hnot, -⟩ := List.nodup_cons.mp hnodup
  have hin := h.members t List.mem_cons_self
  by_cases hsat : s.Satisfied n t
  · obtain ⟨hsound, hw⟩ := woken_eventWake h.sound (h.sound.waiting t _ hin) hsat
    have hshrink : ∀ {i}, (eventWake n s t).scheduler.list (.suspend i) ≠ [] →
        s.scheduler.list (.suspend i) ≠ [] := by
      intro i hne hnil
      apply hne
      rw [hw.list, hnil]
      rfl
    refine ⟨hsound, fun m u hu => ?_, fun m hne => ?_, fun m => ?_, fun m hne => ?_, fun u hu => ?_⟩
    · rw [hw.list] at hu
      have hut : u ≠ t := by
        rintro rfl
        exact (h.sound.linked.nodup _).not_mem_erase hu
      obtain ⟨rfl, hmem⟩ | hidle := h.event m u (List.mem_of_mem_erase hu)
      · left
        exact ⟨rfl, (List.mem_cons.mp hmem).resolve_left hut⟩
      · right
        intro hsat'
        apply hidle
        rw [Satisfied, hw.others u hut] at hsat'
        exact EventFlag.satisfied_mono (hw.event_subset m) hsat'
    · rw [hw.sem]
      exact h.sem m (hshrink hne)
    · rw [hw.mutex]
      exact h.well m
    · rw [hw.mutex]
      exact h.mutex m (hshrink hne)
    · have hut : u ≠ t := by
        rintro rfl
        exact hnot hu
      rw [hw.list]
      exact (List.mem_erase_of_ne hut).mpr (h.members u (List.mem_cons_of_mem t hu))
  · rw [eventWake_of_not_satisfied hsat]
    refine ⟨h.sound, fun m u hu => ?_, h.sem, h.well, h.mutex, fun u hu =>
      h.members u (List.mem_cons_of_mem t hu)⟩
    obtain ⟨rfl, hmem⟩ | hidle := h.event m u hu
    · obtain rfl | hmem := List.mem_cons.mp hmem
      · exact .inr hsat
      · exact .inl ⟨rfl, hmem⟩
    · exact .inr hidle

theorem Sending.foldl {l : List T} (h : Sending s n l) (hnodup : l.Nodup) :
    Served (l.foldl (eventWake n) s) := by
  induction l generalizing s with
  | nil => exact ⟨h.sound, fun m t ht => by simpa using h.event m t ht, h.sem, h.well, h.mutex⟩
  | cons t l ih => exact ih (h.wake hnodup) (List.nodup_cons.mp hnodup).2

/-- After `rt_event_send` no waiting thread's condition holds. -/
theorem Served.rtEventSend {set : Finset B} (h : Served s) : Served (s.rtEventSend n set).2 := by
  rw [Rtos.rtEventSend]
  split
  · exact h
  · refine Sending.foldl (n := n) ⟨h.sound, fun m t ht => ?_, h.sem, h.well, h.mutex, fun t => id⟩
      (h.sound.linked.nodup _)
    by_cases hm : m = n
    · subst hm
      exact .inl ⟨rfl, ht⟩
    · right
      rw [Satisfied]
      show ¬ EventFlag.satisfied _ _ (Function.update s.event n _ m)
      rw [Function.update_of_ne hm]
      exact h.event m t ht

/-- A thread joins a suspend list. -/
theorem Served.blocked {i : IpcName} (h : Served s) (hk : k.Sound)
    (hb : Blocked s.scheduler k i t) (ht : (s.scheduler.thread t).stat = .ready)
    (hevent : ∀ n, i = .event n → ¬ s.Satisfied n t) (hsem : ∀ n, i = .sem n → s.sem n = 0)
    (hmutex : ∀ n, i = .mutex n → (s.mutex n).owner ≠ none) :
    Served { s with scheduler := k } := by
  have hother : ∀ j, j ≠ i → k.list (.suspend j) ≠ [] → s.scheduler.list (.suspend j) ≠ [] := by
    intro j hj hne
    rw [← hb.lists j hj]
    exact hne
  refine ⟨hk, fun n u hu hsat => ?_, fun n hne => ?_, h.well, fun n hne => ?_⟩
  · have hsat : (k.thread u).eventInfo.flag.satisfied (k.thread u).eventSet (s.event n) := hsat
    by_cases hut : u = t
    · subst hut
      rw [hb.self] at hsat
      by_cases hi : i = .event n
      · exact hevent n hi hsat
      · have hu : u ∈ k.list (.suspend (.event n)) := hu
        rw [hb.lists _ (Ne.symm hi)] at hu
        have hsleep := h.sound.waiting u _ hu
        rw [ht] at hsleep
        cases hsleep
    · rw [hb.others u hut] at hsat
      apply h.event n u _ hsat
      have hu : u ∈ k.list (.suspend (.event n)) := hu
      by_cases hi : i = .event n
      · subst hi
        rw [hb.joined.mem_iff, List.mem_cons] at hu
        exact hu.resolve_left hut
      · rwa [hb.lists _ (Ne.symm hi)] at hu
  · by_cases hi : i = .sem n
    · exact hsem n hi
    · exact h.sem n (hother _ (Ne.symm hi) hne)
  · by_cases hi : i = .mutex n
    · exact hmutex n hi
    · exact h.mutex n (hother _ (Ne.symm hi) hne)

end Events

section Calls

variable {set : Finset B} {option : EventInfo} {time : ℤ} {value : UInt16}

/-- What a ready thread is going to wait for. -/
theorem Served.setReady {x : RtThread B} (h : Served s)
    (ht : (s.scheduler.thread t).stat = .ready)
    (hx : x = { s.scheduler.thread t with eventSet := set, eventInfo := option }) :
    Served { s with scheduler := s.scheduler.setThread t x } := by
  subst hx
  refine ⟨h.sound.setThread rfl (fun _ => rfl) fun hx => h.sound.mask t hx, fun m u hu hsat => ?_,
    h.sem, h.well, h.mutex⟩
  have hut : u ≠ t := by
    rintro rfl
    have hsleep := h.sound.waiting u _ hu
    rw [ht] at hsleep
    cases hsleep
  rw [Satisfied, setThread_thread_of_ne hut] at hsat
  exact h.event m u hu hsat

/-- What `rt_event_recv` can do: refuse an empty set, take bits that are there, give up, or
wait. -/
theorem rtEventRecv_cases {r : Option (RtErr × Finset B)}
    (hs : s.rtEventRecv n set option time = some (r, s')) :
    s' = s ∨
      (∃ rest ⊆ s.event n, s' =
        { s.setError s.current .eok with event := Function.update s.event n rest }) ∨
      time = 0 ∧ s' = (s.setError s.current .eok).setError s.current .etimeout ∨
      ∃ x k, time ≠ 0 ∧ ¬ option.flag.satisfied set (s.event n) ∧
        x = { (s.setError s.current .eok).scheduler.thread s.current with
          eventSet := set
          eventInfo := option } ∧
        wait ((s.setError s.current .eok).scheduler.setThread s.current x) (.event n) s.current
          (s.ipcFlag (.event n)) time = some k ∧
        s' = { s.setError s.current .eok with scheduler := k } := by
  rw [Rtos.rtEventRecv] at hs
  split at hs
  · simp only [Option.some.injEq, Prod.mk.injEq] at hs
    exact .inl hs.2.symm
  · dsimp only at hs
    split at hs
    · simp only [Option.some.injEq, Prod.mk.injEq] at hs
      refine .inr (.inl ⟨_, ?_, hs.2.symm⟩)
      split
      · exact Finset.sdiff_subset
      · exact Finset.Subset.refl _
    · next hsat =>
      split at hs
      · next htime =>
        simp only [Option.some.injEq, Prod.mk.injEq] at hs
        exact .inr (.inr (.inl ⟨htime, hs.2.symm⟩))
      · next htime =>
        rw [Option.map_eq_some_iff] at hs
        obtain ⟨k, hk, hs⟩ := hs
        simp only [Prod.mk.injEq] at hs
        exact .inr (.inr (.inr ⟨_, k, htime, hsat, rfl, hk, hs.2.symm⟩))

theorem Served.rtEventRecv {r : Option (RtErr × Finset B)} (h : Served s)
    (hready : (s.scheduler.thread s.current).stat = .ready)
    (hs : s.rtEventRecv n set option time = some (r, s')) : Served s' := by
  have h₁ : Served (s.setError s.current .eok) := h.setError
  obtain rfl | ⟨rest, hrest, rfl⟩ | ⟨-, rfl⟩ | ⟨x, k, -, hsat, hx, hk, rfl⟩ := rtEventRecv_cases hs
  · exact h
  · exact h₁.shrinkEvent hrest
  · exact h₁.setError
  · -- the caller joins the suspend list
    have hready₁ : ((s.setError s.current .eok).scheduler.thread s.current).stat = .ready :=
      setError_stat.trans hready
    have h₂ := h₁.setReady hready₁ hx
    have hready₂ := ready_setReady hready₁ hx
    obtain ⟨hsound, hblock⟩ := h₂.sound.wait hready₂ hk
    refine h₂.blocked hsound hblock hready₂ (fun m hm => ?_) (fun m hm => by cases hm)
      fun m hm => by cases hm
    cases hm
    rw [Satisfied, setThread_thread_self, hx]
    exact hsat

theorem Served.rtSemTake {r : Option RtErr} (h : Served s)
    (hready : (s.scheduler.thread s.current).stat = .ready)
    (hs : s.rtSemTake n time = some (r, s')) : Served s' := by
  obtain ⟨hpos, rfl⟩ | ⟨-, rfl⟩ | ⟨k, -, hzero, hk, rfl⟩ := rtSemTake_cases hs
  · refine ⟨h.sound, h.event, fun m hne => ?_, h.well, h.mutex⟩
    have hzero := h.sem m hne
    have hm : m ≠ n := by
      rintro rfl
      rw [hzero] at hpos
      cases hpos
    exact (Function.update_of_ne hm ..).trans hzero
  · exact h
  · have h₁ : Served (s.setError s.current .eok) := h.setError
    have hready₁ : ((s.setError s.current .eok).scheduler.thread s.current).stat = .ready :=
      setError_stat.trans hready
    obtain ⟨hsound, hblock⟩ := h₁.sound.wait hready₁ hk
    refine h₁.blocked hsound hblock hready₁ (fun m hm => by cases hm) (fun m hm => ?_)
      fun m hm => by cases hm
    cases hm
    exact hzero

theorem Served.rtSemRelease (h : Served s) : Served (s.rtSemRelease n) := by
  rw [Rtos.rtSemRelease]
  split
  · exact h.eases h.sound.rtThreadResume eases_rtThreadResume
  · next hnil =>
    refine ⟨h.sound, h.event, fun m hne => ?_, h.well, h.mutex⟩
    have hm : m ≠ n := by
      rintro rfl
      exact hne hnil
    exact (Function.update_of_ne hm ..).trans (h.sem m hne)

theorem Served.rtSemControl (h : Served s) : Served (s.rtSemControl n value) := by
  have he : Eases s.scheduler (rtIpcListResumeAll s.scheduler (.sem n)) := eases_rtIpcListResumeAll
  have h₁ := h.eases h.sound.rtIpcListResumeAll he
  refine ⟨h₁.sound, h₁.event, fun m hne => ?_, h.well, h₁.mutex⟩
  have hm : m ≠ n := by
    rintro rfl
    exact hne h.sound.rtIpcListResumeAll_list
  exact (Function.update_of_ne hm ..).trans (h₁.sem m hne)

theorem Served.rtEventControl (h : Served s) : Served (s.rtEventControl n) := by
  have he : Eases s.scheduler (rtIpcListResumeAll s.scheduler (.event n)) :=
    eases_rtIpcListResumeAll
  have h₁ := h.eases h.sound.rtIpcListResumeAll he
  exact h₁.shrinkEvent (n := n) (Finset.empty_subset _)

omit [DecidableEq T] in
/-- Writing a mutex that stays in accordance, and keeps an owner if threads wait for it. -/
theorem Served.setMutex {m : RtMutex T} (h : Served s) (hwell : m.Well)
    (howner : s.scheduler.list (.suspend (.mutex n)) ≠ [] → m.owner ≠ none) :
    Served (s.setMutex n m) := by
  refine ⟨h.sound, h.event, h.sem, fun j => ?_, fun j hne => ?_⟩
  · show (Function.update s.mutex n m j).Well
    by_cases hj : j = n
    · subst hj
      rwa [Function.update_self]
    · rw [Function.update_of_ne hj]
      exact h.well j
  · show (Function.update s.mutex n m j).owner ≠ none
    by_cases hj : j = n
    · subst hj
      rw [Function.update_self]
      exact howner hne
    · rw [Function.update_of_ne hj]
      exact h.mutex j hne

theorem Served.rtMutexTake {r : Option RtErr} (h : Served s)
    (hready : (s.scheduler.thread s.current).stat = .ready)
    (hs : s.rtMutexTake n time = some (r, s')) : Served s' := by
  have h₁ : Served (s.setError s.current .eok) := h.setError
  have hready₁ : ((s.setError s.current .eok).scheduler.thread s.current).stat = .ready :=
    setError_stat.trans hready
  have hwell := h.well n
  obtain ⟨howner, -, rfl⟩ | ⟨-, hpos, -, rfl⟩ | ⟨-, -, rfl⟩ |
    ⟨owner, k, -, howner, -, -, hk, rfl⟩ := rtMutexTake_cases hs
  · refine h₁.setMutex ⟨fun hnone => ?_, fun hne => hwell.held hne⟩ fun _ => ?_
    · rw [howner] at hnone
      cases hnone
    · rw [howner]
      exact Option.some_ne_none _
  · have hnone : (s.mutex n).owner = none := by
      by_contra hne
      rw [(hwell.held hne).1] at hpos
      cases hpos
    refine h₁.setMutex ⟨fun hsome => absurd hsome (Option.some_ne_none _), fun _ => ?_⟩
      fun _ => Option.some_ne_none _
    rw [(hwell.free hnone).1]
    exact ⟨rfl, Option.some_ne_none _⟩
  · exact h₁.setError
  · -- the priority of the owner first, then the suspend list
    have h₂ := h₁.eases (k := raisePriority (s.setError s.current .eok).scheduler owner
      (s.scheduler.thread s.current).currentPriority) (sound_raisePriority h₁.sound)
      eases_raisePriority
    have hready₂ : ((raisePriority (s.setError s.current .eok).scheduler owner
        (s.scheduler.thread s.current).currentPriority).thread s.current).stat = .ready :=
      raisePriority_stat.trans hready₁
    obtain ⟨hsound, hblock⟩ := h₂.sound.wait hready₂ hk
    refine h₂.blocked hsound hblock hready₂ (fun m hm => by cases hm) (fun m hm => by cases hm)
      fun m hm => ?_
    cases hm
    show (s.mutex n).owner ≠ none
    rw [howner]
    exact Option.some_ne_none _

theorem Served.handOver (h : Served s) (howner : (s.mutex n).owner ≠ none)
    (hhold : (s.mutex n).hold = 0) : Served (s.handOver n) := by
  have hwell := (h.well n).held howner
  rw [Rtos.handOver]
  split
  · next w l hlist =>
    have h₁ := h.eases (k := (s.scheduler.rtThreadResume w).2) h.sound.rtThreadResume
      eases_rtThreadResume
    exact h₁.setMutex ⟨fun hsome => absurd hsome (Option.some_ne_none _),
      fun _ => ⟨hwell.1, Option.some_ne_none _⟩⟩ fun _ => Option.some_ne_none _
  · next hnil =>
    refine h.setMutex ⟨fun _ => ?_, fun hne => absurd rfl hne⟩ fun hne => absurd hnil hne
    exact ⟨by rw [hwell.1]; rfl, hhold, rfl⟩

theorem Served.rtMutexRelease (h : Served s) : Served (s.rtMutexRelease n).2 := by
  rw [Rtos.rtMutexRelease]
  dsimp only
  split
  · next howner =>
    have hwell := (h.well n).held (by rw [howner]; exact Option.some_ne_none _)
    have h₁ : Served (s.setMutex n { s.mutex n with hold := (s.mutex n).hold - 1 }) := by
      refine h.setMutex ⟨fun hnone => ?_, fun _ => hwell⟩ fun _ => ?_
      · rw [howner] at hnone
        cases hnone
      · rw [howner]
        exact Option.some_ne_none _
    split
    · next hhold =>
      have h₂ := h₁.eases (k := restorePriority s.scheduler s.current (s.mutex n).originalPriority)
        (sound_restorePriority h.sound) eases_restorePriority
      refine h₂.handOver ?_ hhold
      show (Function.update s.mutex n _ n).owner ≠ none
      rw [Function.update_self, howner]
      exact Option.some_ne_none _
    · exact h₁
  · exact h.setError

end Calls

end Rtos

end NanoAt
