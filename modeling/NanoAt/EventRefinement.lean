import NanoAt.KernelRuns
import NanoAt.Scheduling

/-!
# `rx1_event` in the kernel

The firmware model has `rt_event_send` wake the four threads of the program in a fixed order,
each with its own mask. The kernel goes through the suspend list of `rx1_event`, which is in
the order in which the threads came, and reads the masks from the thread records. No two
threads wait for one bit, so the two do the same.

## Main definitions

- `EventSystem`, `EventSystem.step` — `rx1_event` in the kernel, used by the program's threads
- `Displays` — the kernel and the firmware agree on the event

## Main results

- `Sys.wake_comm` — the order in which threads are woken does not matter
- `EventSystem.refines_firmware` — every run of the kernel's event is one of the firmware's
-/

namespace NanoAt

open DeadlineList Queues Scheduler GuardedRun

/-- A satisfied receiver takes its bits of those that are posted. -/
theorem Waiter.take_eq {B : Type} [DecidableEq B] {w : Waiter B} {set : Finset B} :
    w.take set = if w.eventInfo.satisfied w.eventSet set then
      some (w.eventSet ∩ set, set \ (w.eventSet ∩ set)) else none := by
  obtain ⟨mask, flag⟩ := w
  rw [take]
  split
  · next hsat =>
    cases flag with
    | and =>
      have hall : mask ∩ set = mask := Finset.inter_eq_left.mpr hsat
      dsimp only
      rw [hall]
    | or => rfl
  · rfl

namespace Sys

variable {s : Sys} {t u : Thread} {set received : Finset Rx1Event}

/-- Whether `rt_event_send` wakes a thread. -/
def Fires (s : Sys) (t : Thread) : Prop :=
  s.suspended t ∧ (waiterOf t).eventInfo.satisfied (waiterOf t).eventSet s.rx1Event

instance : Decidable (s.Fires t) := inferInstanceAs (Decidable (_ ∧ _))

/-- The bits a woken thread receives. -/
def receives (s : Sys) (t : Thread) : Finset Rx1Event := (waiterOf t).eventSet ∩ s.rx1Event

theorem wake_eq : s.wake t =
    if s.Fires t then { s with rx1Event := s.rx1Event \ s.receives t }.resume (s.receives t) t
    else s := by
  rw [wake, Waiter.take_eq]
  by_cases hs : s.suspended t
  · by_cases hsat : (waiterOf t).eventInfo.satisfied (waiterOf t).eventSet s.rx1Event
    · rw [if_pos hs, if_pos hsat, if_pos ⟨hs, hsat⟩]
      rfl
    · rw [if_pos hs, if_neg hsat, if_neg fun h => hsat h.2]
  · rw [if_neg hs, if_neg fun h => hs h.1]

/-- No two threads wait for one bit. -/
theorem disjoint_waiterOf (h : t ≠ u) : Disjoint (waiterOf t).eventSet (waiterOf u).eventSet := by
  revert h
  cases t <;> cases u <;> decide

theorem suspended_resume : (s.resume received t).suspended u ↔ u ≠ t ∧ s.suspended u := by
  cases t <;> cases u <;> simp [resume, suspended]

theorem rx1Event_resume : (s.resume received t).rx1Event = s.rx1Event := by
  cases t <;> rfl

theorem resume_comm {r : Finset Rx1Event} (h : t ≠ u) :
    (s.resume received t).resume r u = (s.resume r u).resume received t := by
  revert h
  cases t <;> cases u <;> simp [resume]

/-- Waking one thread leaves the bits of another one posted. -/
theorem receives_wake (h : t ≠ u) : (s.wake t).receives u = s.receives u := by
  rw [wake_eq]
  split
  · rw [receives, rx1Event_resume, receives, receives]
    ext b
    have hdisj : b ∈ (waiterOf t).eventSet → b ∉ (waiterOf u).eventSet := fun hb =>
      Finset.disjoint_left.mp (disjoint_waiterOf h) hb
    simp only [Finset.mem_inter, Finset.mem_sdiff]
    tauto
  · rfl

theorem satisfied_iff {w : Waiter Rx1Event} {set set' : Finset Rx1Event}
    (h : w.eventSet ∩ set = w.eventSet ∩ set') :
    w.eventInfo.satisfied w.eventSet set ↔ w.eventInfo.satisfied w.eventSet set' := by
  cases hflag : w.eventInfo with
  | and =>
    show w.eventSet ⊆ set ↔ w.eventSet ⊆ set'
    rw [← Finset.inter_eq_left, ← Finset.inter_eq_left, h]
  | or =>
    show (w.eventSet ∩ set).Nonempty ↔ (w.eventSet ∩ set').Nonempty
    rw [h]

theorem fires_wake (h : t ≠ u) : (s.wake t).Fires u ↔ s.Fires u := by
  have hsat := satisfied_iff (w := waiterOf u) (receives_wake (s := s) h)
  have hsusp : (s.wake t).suspended u ↔ s.suspended u := by
    rw [wake_eq]
    split
    · rw [suspended_resume]
      simp only [ne_eq, h.symm, not_false_eq_true, true_and]
      cases u <;> rfl
    · rfl
  rw [Fires, Fires, hsat, hsusp]

/-- The order in which two threads are woken does not matter. -/
theorem wake_comm : (s.wake t).wake u = (s.wake u).wake t := by
  by_cases h : t = u
  · rw [h]
  · have ht := fires_wake (s := s) (Ne.symm h)
    have hu := fires_wake (s := s) h
    rw [wake_eq (s := s.wake t), wake_eq (s := s.wake u), receives_wake h,
      receives_wake (Ne.symm h)]
    by_cases hft : s.Fires t
    · by_cases hfu : s.Fires u
      · rw [if_pos (hu.mpr hfu), if_pos (ht.mpr hft), wake_eq (t := t), wake_eq (t := u),
          if_pos hft, if_pos hfu]
        have hset : ∀ (x : Sys) (r : Finset Rx1Event) (v : Thread) (set : Finset Rx1Event),
            { x.resume r v with rx1Event := set } = { x with rx1Event := set }.resume r v := by
          intro x r v set
          cases v <;> rfl
        rw [hset, hset, rx1Event_resume, rx1Event_resume, resume_comm h, sdiff_right_comm]
      · rw [if_neg fun hf => hfu (hu.mp hf), if_pos (ht.mpr hft), wake_eq (t := u), if_neg hfu,
          wake_eq (t := t), if_pos hft]
    · by_cases hfu : s.Fires u
      · rw [if_pos (hu.mpr hfu), if_neg fun hf => hft (ht.mp hf), wake_eq (t := t), if_neg hft,
          wake_eq (t := u), if_pos hfu]
      · rw [if_neg fun hf => hfu (hu.mp hf), if_neg fun hf => hft (ht.mp hf), wake_eq (t := t),
          if_neg hft, wake_eq (t := u), if_neg hfu]

theorem e_resume : (s.resume received t).e = if t = .atProcess then received else s.e := by
  cases t <;> rfl

theorem suspended_wake : (s.wake t).suspended u ↔ s.suspended u ∧ ¬ (u = t ∧ s.Fires t) := by
  rw [wake_eq]
  by_cases hf : s.Fires t
  · rw [if_pos hf, suspended_resume]
    have hsame : ∀ set, { s with rx1Event := set }.suspended u ↔ s.suspended u := by
      intro set
      cases u <;> rfl
    rw [hsame]
    tauto
  · rw [if_neg hf]
    tauto

theorem suspended_suspend : (s.suspend t).suspended u ↔ u = t ∨ s.suspended u := by
  cases t <;> cases u <;> simp [suspend, suspended]

end Sys

section Displaying

variable {T : Type} [DecidableEq T] {name : Thread ↪ T} {n : ℕ} {k k' : Rtos T Rx1Event}
  {s s₀ : Sys} {t : Thread}

/-- The kernel and the firmware agree on the event and on who waits for which of its bits. -/
structure Displays (name : Thread ↪ T) (n : ℕ) (k : Rtos T Rx1Event) (s : Sys) : Prop where
  sound : k.scheduler.Sound
  event : k.event n = s.rx1Event
  waits : ∀ u, u ∈ k.scheduler.list (.suspend (.event n)) ↔ ∃ t, u = name t ∧ s.suspended t
  awaited : ∀ t, s.suspended t →
    (k.scheduler.thread (name t)).eventSet = (Sys.waiterOf t).eventSet ∧
      (k.scheduler.thread (name t)).eventInfo = ⟨(Sys.waiterOf t).eventInfo, true⟩

omit [DecidableEq T] in
theorem Displays.mem (h : Displays name n k s) :
    name t ∈ k.scheduler.list (.suspend (.event n)) ↔ s.suspended t := by
  rw [h.waits]
  constructor
  · rintro ⟨u, hu, hs⟩
    rw [name.injective hu]
    exact hs
  · intro hs
    exact ⟨t, rfl, hs⟩

omit [DecidableEq T] in
theorem Displays.fires (h : Displays name n k s) (hs : s.suspended t) :
    k.Satisfied n (name t) ↔ s.Fires t := by
  obtain ⟨hset, hinfo⟩ := h.awaited t hs
  rw [Rtos.Satisfied, hset, hinfo, h.event]
  exact ⟨fun hsat => ⟨hs, hsat⟩, And.right⟩

omit [DecidableEq T] in
theorem Displays.receives (h : Displays name n k s) (hf : s.Fires t) :
    k.receives n (name t) = s.receives t := by
  obtain ⟨hset, hinfo⟩ := h.awaited t hf.1
  have hsat := hf.2
  rw [Rtos.receives, hset, hinfo, h.event, Sys.receives]
  cases hflag : (Sys.waiterOf t).eventInfo with
  | and =>
    rw [hflag] at hsat
    exact (Finset.inter_eq_left.mpr hsat).symm
  | or => rfl

/-- `e` of the firmware is what the kernel has for `at_process` if it was woken. -/
structure Carried (name : Thread ↪ T) (k : Rtos T Rx1Event) (s₀ s : Sys) : Prop where
  woken : s₀.suspended .atProcess → ¬ s.suspended .atProcess →
    s.e = (k.scheduler.thread (name .atProcess)).eventSet
  kept : ¬ (s₀.suspended .atProcess ∧ ¬ s.suspended .atProcess) → s.e = s₀.e

/-- One round of the loop of `rt_event_send`. -/
theorem Displays.wake (h : Displays name n k s) (hs : s.suspended t) (hs₀ : s₀.suspended t)
    (hc : Carried name k s₀ s) :
    Displays name n (k.eventWake n (name t)) (s.wake t) ∧
      Carried name (k.eventWake n (name t)) s₀ (s.wake t) := by
  by_cases hf : s.Fires t
  · have hin := h.mem.mpr hs
    obtain ⟨hsound, hw⟩ := Rtos.woken_eventWake h.sound (h.sound.waiting _ _ hin)
      ((h.fires hs).mpr hf)
    have hrec := h.receives hf
    have hwake : s.wake t = { s with rx1Event := s.rx1Event \ s.receives t }.resume
        (s.receives t) t := by rw [Sys.wake_eq, if_pos hf]
    have hsusp : ∀ u, (s.wake t).suspended u ↔ u ≠ t ∧ s.suspended u := by
      intro u
      rw [Sys.suspended_wake]
      tauto
    have hother : ∀ u, u ≠ t → (k.eventWake n (name t)).scheduler.thread (name u) =
        k.scheduler.thread (name u) := fun u hu =>
      hw.others _ fun heq => hu (name.injective heq)
    refine ⟨⟨hsound, ?_, fun u => ?_, fun u hu => ?_⟩, ?_⟩
    · rw [hw.event, (h.awaited t hs).2, if_pos rfl, hrec, h.event, hwake, Sys.rx1Event_resume]
    · rw [hw.list, (h.sound.linked.nodup _).mem_erase_iff, h.waits]
      constructor
      · rintro ⟨hne, v, rfl, hv⟩
        refine ⟨v, rfl, (hsusp v).mpr ⟨?_, hv⟩⟩
        rintro rfl
        exact hne rfl
      · rintro ⟨v, rfl, hv⟩
        obtain ⟨hne, hv⟩ := (hsusp v).mp hv
        exact ⟨fun heq => hne (name.injective heq), v, rfl, hv⟩
    · obtain ⟨hne, hu⟩ := (hsusp u).mp hu
      rw [hother u hne]
      exact h.awaited u hu
    · by_cases ht : t = .atProcess
      · subst ht
        have hout : ¬ (s.wake .atProcess).suspended .atProcess := fun hu => ((hsusp _).mp hu).1 rfl
        refine ⟨fun _ _ => ?_, fun hnot => absurd ⟨hs₀, hout⟩ hnot⟩
        rw [hw.self, hrec, hwake, Sys.e_resume, if_pos rfl]
      · have hp : Thread.atProcess ≠ t := fun heq => ht heq.symm
        have hkeep : (s.wake t).suspended .atProcess ↔ s.suspended .atProcess := by
          rw [hsusp]
          simp [hp]
        have he : (s.wake t).e = s.e := by rw [hwake, Sys.e_resume, if_neg ht]
        refine ⟨fun hp₀ hout => ?_, fun hnot => ?_⟩
        · rw [he, hother _ hp]
          exact hc.woken hp₀ fun hin => hout (hkeep.mpr hin)
        · rw [he]
          exact hc.kept fun hin => hnot ⟨hin.1, fun hin' => hin.2 (hkeep.mp hin')⟩
  · rw [Rtos.eventWake_of_not_satisfied fun hsat => hf ((h.fires hs).mp hsat), Sys.wake_eq,
      if_neg hf]
    exact ⟨h, hc⟩

/-- The loop of `rt_event_send` over threads that wait. -/
theorem Displays.foldl {l : List Thread} (h : Displays name n k s) (hnodup : l.Nodup)
    (hl : ∀ t ∈ l, s.suspended t ∧ s₀.suspended t) (hc : Carried name k s₀ s) :
    Displays name n ((l.map name).foldl (Rtos.eventWake n) k) (l.foldl Sys.wake s) ∧
      Carried name ((l.map name).foldl (Rtos.eventWake n) k) s₀ (l.foldl Sys.wake s) := by
  induction l generalizing k s with
  | nil => exact ⟨h, hc⟩
  | cons t l ih =>
    rw [List.forall_mem_cons] at hl
    obtain ⟨hnot, hnodup⟩ := List.nodup_cons.mp hnodup
    obtain ⟨h', hc'⟩ := h.wake hl.1.1 hl.1.2 hc
    refine ih h' hnodup (fun u hu => ⟨?_, (hl.2 u hu).2⟩) hc'
    rw [Sys.suspended_wake]
    refine ⟨(hl.2 u hu).1, ?_⟩
    rintro ⟨rfl, -⟩
    exact hnot hu

/-- Waking threads that do not wait does nothing. -/
theorem Sys.foldl_wake_of_not_suspended {l : List Thread} (hl : ∀ t ∈ l, ¬ s.suspended t) :
    l.foldl Sys.wake s = s := by
  induction l with
  | nil => rfl
  | cons t l ih =>
    rw [List.forall_mem_cons] at hl
    rw [List.foldl_cons, wake_eq, if_neg fun hf => hl.1 hf.1]
    exact ih hl.2

theorem Sys.suspended_foldl_wake {l : List Thread} (h : (l.foldl Sys.wake s).suspended t) :
    s.suspended t := by
  induction l generalizing s with
  | nil => exact h
  | cons u l ih => exact (suspended_wake.mp (ih h)).1

/-- The fixed order of the firmware model is as good as the order in which the threads wait. -/
theorem Sys.foldl_wake_eq {l : List Thread} (hnodup : l.Nodup)
    (hl : ∀ t, t ∉ l → ¬ s.suspended t) :
    [Thread.serial, .atProcess, .atSendThread, .shell].foldl Sys.wake s = l.foldl Sys.wake s := by
  have hall : ∀ t : Thread, t ∈ [Thread.serial, .atProcess, .atSendThread, .shell] := by
    intro t
    cases t <;> simp
  have hperm : [Thread.serial, .atProcess, .atSendThread, .shell].Perm
      (l ++ [Thread.serial, .atProcess, .atSendThread, .shell].filter (· ∉ l)) := by
    refine (List.perm_ext_iff_of_nodup (by decide) ?_).mpr fun t => ?_
    · refine List.nodup_append'.mpr ⟨hnodup, (by decide : List.Nodup _).filter _, ?_⟩
      intro t ht ht'
      simpa [ht] using (List.mem_filter.mp ht').2
    · rw [List.mem_append, List.mem_filter]
      simp only [hall, true_and, true_iff]
      by_cases ht : t ∈ l
      · exact .inl ht
      · exact .inr (by simpa using ht)
  rw [hperm.foldl_eq' (fun t _ u _ s => wake_comm) s, List.foldl_append]
  apply foldl_wake_of_not_suspended
  intro t ht hs
  exact hl t (by simpa using (List.mem_filter.mp ht).2) (suspended_foldl_wake hs)

omit [DecidableEq T] in
/-- The threads of a suspend list, by their names. -/
theorem exists_map_eq {l : List T} (hl : ∀ u ∈ l, ∃ t, u = name t) :
    ∃ l' : List Thread, l = l'.map name := by
  induction l with
  | nil => exact ⟨[], rfl⟩
  | cons u l ih =>
    rw [List.forall_mem_cons] at hl
    obtain ⟨t, rfl⟩ := hl.1
    obtain ⟨l', rfl⟩ := ih hl.2
    exact ⟨t :: l', rfl⟩

/-- `rt_event_send` on `rx1_event`. -/
theorem Displays.rtEventSend {set : Finset Rx1Event} (h : Displays name n k s) (hset : set ≠ ∅) :
    Displays name n (k.rtEventSend n set).2 (s.rtEventSend set) ∧
      Carried name (k.rtEventSend n set).2 s (s.rtEventSend set) := by
  have hevent : (Function.update k.event n (k.event n ∪ set)) n = s.rx1Event ∪ set := by
    rw [Function.update_self, h.event]
  have hsame : ∀ t, { s with rx1Event := s.rx1Event ∪ set }.suspended t ↔ s.suspended t := by
    intro t
    cases t <;> rfl
  have hposted : Displays name n { k with event := Function.update k.event n (k.event n ∪ set) }
      { s with rx1Event := s.rx1Event ∪ set } := by
    refine ⟨h.sound, hevent, fun u => ?_, fun t ht => h.awaited t ((hsame t).mp ht)⟩
    exact (h.waits u).trans (exists_congr fun t => and_congr_right fun _ => (hsame t).symm)
  obtain ⟨l, hl⟩ : ∃ l : List Thread, k.scheduler.list (.suspend (.event n)) = l.map name := by
    apply exists_map_eq
    intro u hu
    obtain ⟨t, ht, -⟩ := (h.waits u).mp hu
    exact ⟨t, ht⟩
  have hnodup : l.Nodup := by
    have hn := h.sound.linked.nodup (.suspend (.event n))
    rw [hl] at hn
    exact hn.of_map name
  have hmem : ∀ t, t ∈ l ↔ s.suspended t := by
    intro t
    rw [← h.mem, hl]
    exact (List.mem_map_of_injective name.injective).symm
  have hfirm : s.rtEventSend set = l.foldl Sys.wake { s with rx1Event := s.rx1Event ∪ set } := by
    apply Sys.foldl_wake_eq hnodup
    intro t ht hs
    exact ht ((hmem t).mpr ((hsame t).mp hs))
  have hkernel : (k.rtEventSend n set).2 = (l.map name).foldl (Rtos.eventWake n)
      { k with event := Function.update k.event n (k.event n ∪ set) } := by
    rw [← hl, Rtos.rtEventSend, if_neg hset]
  rw [hfirm, hkernel]
  exact hposted.foldl hnodup (fun t ht => ⟨(hsame t).mpr ((hmem t).mp ht), (hmem t).mp ht⟩)
    ⟨fun hs hout => absurd ((hsame _).mpr hs) hout, fun _ => rfl⟩

/-- `rt_event_recv` on `rx1_event`: the bits, if they are there. -/
theorem Displays.recv_satisfied (h : Displays name n k s) (hcur : k.current = name t)
    (hs : ¬ s.suspended t)
    (hsat : (Sys.waiterOf t).eventInfo.satisfied (Sys.waiterOf t).eventSet s.rx1Event) :
    ∃ k', k.rtEventRecv n (Sys.waiterOf t).eventSet ⟨(Sys.waiterOf t).eventInfo, true⟩ (-1) =
        some (some (.eok, s.rx1Event ∩ (Sys.waiterOf t).eventSet), k') ∧
      Displays name n k' (s.rtEventRecv t) ∧
      (s.rtEventRecv t).e =
        if t = .atProcess then s.rx1Event ∩ (Sys.waiterOf t).eventSet else s.e := by
  have hne : (Sys.waiterOf t).eventSet ≠ ∅ := by cases t <;> decide
  have hfirm : s.rtEventRecv t =
      { s with rx1Event := s.rx1Event \ (Sys.waiterOf t).eventSet }.resume
        (s.rx1Event ∩ (Sys.waiterOf t).eventSet) t := by
    rw [Sys.rtEventRecv, eventRecv, if_pos hsat]
  have hkernel : k.rtEventRecv n (Sys.waiterOf t).eventSet ⟨(Sys.waiterOf t).eventInfo, true⟩ (-1) =
      some (some (.eok, k.event n ∩ (Sys.waiterOf t).eventSet), { k.setError (name t) .eok with
        event := Function.update k.event n (k.event n \ (Sys.waiterOf t).eventSet) }) := by
    rw [Rtos.rtEventRecv, if_neg hne, hcur]
    refine (if_pos ?_).trans rfl
    show EventFlag.satisfied _ _ (k.event n)
    rw [h.event]
    exact hsat
  have hsame : ∀ u, (s.rtEventRecv t).suspended u ↔ s.suspended u := by
    intro u
    have hset : ∀ set, { s with rx1Event := set }.suspended u ↔ s.suspended u := by
      intro set
      cases u <;> rfl
    rw [hfirm, Sys.suspended_resume, hset]
    refine ⟨And.right, fun hu => ⟨?_, hu⟩⟩
    rintro rfl
    exact hs hu
  have hkeep : ∀ {β : Type} (f : RtThread Rx1Event → β) (u : T),
      (∀ x err, f { x with error := err } = f x) →
      f ((k.setError (name t) .eok).scheduler.thread u) = f (k.scheduler.thread u) := by
    intro β f u hf
    show f ((k.scheduler.setThread (name t) _).thread u) = _
    by_cases hu : u = name t
    · rw [hu, setThread_thread_self, hf]
    · rw [setThread_thread_of_ne hu]
  refine ⟨_, by rw [hkernel, h.event], ⟨?_, ?_, fun u => ?_, fun u hu => ?_⟩, ?_⟩
  · exact h.sound.setThread rfl (fun _ => rfl) fun hx => h.sound.mask _ hx
  · rw [hfirm, Sys.rx1Event_resume]
    exact Function.update_self ..
  · exact (h.waits u).trans (exists_congr fun v => and_congr_right fun _ => (hsame v).symm)
  · obtain ⟨hset, hinfo⟩ := h.awaited u ((hsame u).mp hu)
    exact ⟨(hkeep RtThread.eventSet _ fun _ _ => rfl).trans hset,
      (hkeep RtThread.eventInfo _ fun _ _ => rfl).trans hinfo⟩
  · rw [hfirm, Sys.e_resume]

/-- `rt_event_recv` on `rx1_event`: the caller waits. -/
theorem Displays.recv_unsatisfied (h : Displays name n k s) (hcur : k.current = name t)
    (hready : (k.scheduler.thread (name t)).stat = .ready)
    (hsat : ¬ (Sys.waiterOf t).eventInfo.satisfied (Sys.waiterOf t).eventSet s.rx1Event) :
    ∃ k', k.rtEventRecv n (Sys.waiterOf t).eventSet ⟨(Sys.waiterOf t).eventInfo, true⟩ (-1) =
        some (none, k') ∧
      Displays name n k' (s.rtEventRecv t) ∧ (s.rtEventRecv t).e = s.e := by
  have hne : (Sys.waiterOf t).eventSet ≠ ∅ := by cases t <;> decide
  have hfirm : s.rtEventRecv t = s.suspend t := by
    rw [Sys.rtEventRecv, eventRecv, if_neg hsat]
  obtain ⟨x, hx⟩ : ∃ x, x = { (k.setError (name t) .eok).scheduler.thread (name t) with
      eventSet := (Sys.waiterOf t).eventSet
      eventInfo := ⟨(Sys.waiterOf t).eventInfo, true⟩ } := ⟨_, rfl⟩
  obtain ⟨k', hk'⟩ : ∃ k', wait ((k.setError (name t) .eok).scheduler.setThread (name t) x)
      (.event n) (name t) (k.ipcFlag (.event n)) (-1) = some k' := wait_returns (by norm_num)
  have hkernel : k.rtEventRecv n (Sys.waiterOf t).eventSet ⟨(Sys.waiterOf t).eventInfo, true⟩ (-1) =
      some (none, { k.setError (name t) .eok with scheduler := k' }) := by
    have hout : ¬ EventFlag.satisfied (Sys.waiterOf t).eventInfo (Sys.waiterOf t).eventSet
        (k.event n) := by
      rw [h.event]
      exact hsat
    rw [Rtos.rtEventRecv, if_neg hne, hcur]
    refine (if_neg hout).trans ((if_neg (by norm_num)).trans ?_)
    subst hx
    exact (congrArg (Option.map _) hk').trans rfl
  have hready₁ : (((k.setError (name t) .eok).scheduler.setThread (name t) x).thread
      (name t)).stat = .ready := by
    rw [setThread_thread_self, hx]
    exact Rtos.setError_stat.trans hready
  have hsound₁ : ((k.setError (name t) .eok).scheduler.setThread (name t) x).Sound := by
    have hsound₀ : (k.setError (name t) .eok).scheduler.Sound :=
      h.sound.setThread rfl (fun _ => rfl) fun hx => h.sound.mask _ hx
    subst hx
    exact hsound₀.setThread rfl (fun _ => rfl) fun hx => hsound₀.mask _ hx
  obtain ⟨hsound, hblock⟩ := hsound₁.wait hready₁ hk'
  have hself : k'.thread (name t) = { x with stat := .suspend } := by
    rw [hblock.self, setThread_thread_self]
  have hother : ∀ u, u ≠ name t → k'.thread u = k.scheduler.thread u := by
    intro u hu
    rw [hblock.others u hu, setThread_thread_of_ne hu]
    exact setThread_thread_of_ne hu
  refine ⟨_, hkernel, ⟨hsound, ?_, fun u => ?_, fun u hu => ?_⟩, ?_⟩
  · rw [hfirm]
    show k.event n = _
    rw [h.event]
    cases t <;> rfl
  · rw [hfirm]
    show u ∈ k'.list (.suspend (.event n)) ↔ _
    rw [hblock.joined.mem_iff, List.mem_cons]
    have hold : u ∈ ((k.setError (name t) .eok).scheduler.setThread (name t) x).list
        (.suspend (.event n)) ↔ ∃ v, u = name v ∧ s.suspended v := h.waits u
    rw [hold]
    simp only [Sys.suspended_suspend]
    constructor
    · rintro (rfl | ⟨v, rfl, hv⟩)
      · exact ⟨t, rfl, .inl rfl⟩
      · exact ⟨v, rfl, .inr hv⟩
    · rintro ⟨v, rfl, rfl | hv⟩
      · exact .inl rfl
      · exact .inr ⟨v, rfl, hv⟩
  · show (k'.thread (name u)).eventSet = _ ∧ (k'.thread (name u)).eventInfo = _
    rw [hfirm, Sys.suspended_suspend] at hu
    by_cases hut : u = t
    · subst hut
      rw [hself, hx]
      exact ⟨rfl, rfl⟩
    · rw [hother _ fun heq => hut (name.injective heq)]
      exact h.awaited u (hu.resolve_left hut)
  · rw [hfirm]
    cases t <;> rfl

end Displaying

/-- `rt_event_send` by anyone, or `rt_event_recv` by one of the program's threads. -/
inductive EventAction where
  | send (set : Finset Rx1Event)
  | recv (t : Thread)

/-- One action of the firmware on its event. -/
def Sys.eventStep (a : EventAction) (s : Sys) : Option Sys :=
  match a with
  | .send set => some (s.rtEventSend set)
  | .recv t => if s.suspended t then none else some (s.rtEventRecv t)

/-- The kernel, and for each thread what its last return from `rt_event_recv` had in `*recved`. -/
structure EventSystem (T : Type) where
  kernel : Rtos T Rx1Event
  recved : Thread → Finset Rx1Event

namespace EventSystem

variable {T : Type} [DecidableEq T] {name : Thread ↪ T} {n : ℕ} {x x' : EventSystem T} {s : Sys}
  {a : EventAction} {t : Thread} {h : History (EventSystem T) EventAction}

/-- `rt_event_send` on event `n`, and what the threads it wakes receive. -/
def send (name : Thread ↪ T) (n : ℕ) (set : Finset Rx1Event) (x : EventSystem T) :
    EventSystem T where
  kernel := (x.kernel.rtEventSend n set).2
  recved t :=
    if name t ∈ x.kernel.scheduler.list (.suspend (.event n)) ∧
        name t ∉ (x.kernel.rtEventSend n set).2.scheduler.list (.suspend (.event n)) then
      ((x.kernel.rtEventSend n set).2.scheduler.thread (name t)).eventSet
    else x.recved t

/-- One action on event `n`; a thread that receives is ready, and has been scheduled. -/
def step (name : Thread ↪ T) (n : ℕ) (a : EventAction) (x : EventSystem T) :
    Option (EventSystem T) :=
  match a with
  | .send set => some (x.send name n set)
  | .recv t =>
    if (x.kernel.scheduler.thread (name t)).stat = .ready then
      let w := Sys.waiterOf t
      let k := { x.kernel.scheduler with rtCurrentThread := name t }
      let kernel := { x.kernel with scheduler := k }
      (kernel.rtEventRecv n w.eventSet ⟨w.eventInfo, true⟩ (-1)).map fun r =>
        match r with
        | (some (_, bits), kernel) => ⟨kernel, Function.update x.recved t bits⟩
        | (none, kernel) => ⟨kernel, x.recved⟩
    else none

/-- The start: nothing is posted, no thread waits for the event, nothing has been received. -/
structure Initial (n : ℕ) (x : EventSystem T) : Prop where
  sound : x.kernel.scheduler.Sound
  event : x.kernel.event n = ∅
  list : x.kernel.scheduler.list (.suspend (.event n)) = []
  recved : ∀ t, x.recved t = ∅

/-- The system shows the firmware's event, and `e` of `at_process`. -/
structure Refines (name : Thread ↪ T) (n : ℕ) (x : EventSystem T) (s : Sys) : Prop where
  displays : Displays name n x.kernel s
  e : x.recved .atProcess = s.e

omit [DecidableEq T] in
theorem Initial.refines {behind : CString.Ram} (hx : Initial n x) :
    Refines name n x (Sys.init behind) := by
  have hnot : ∀ t, ¬ (Sys.init behind).suspended t := by
    intro t
    cases t <;> simp [Sys.init, Sys.suspended]
  refine ⟨⟨hx.sound, hx.event, fun u => ?_, fun t ht => absurd ht (hnot t)⟩, hx.recved _⟩
  rw [hx.list]
  simp [hnot]

theorem Refines.send {set : Finset Rx1Event} (hx : Refines name n x s) (hset : set ≠ ∅) :
    Refines name n (x.send name n set) (s.rtEventSend set) := by
  obtain ⟨hd, hc⟩ := hx.displays.rtEventSend hset
  refine ⟨hd, ?_⟩
  show (if _ then _ else _) = _
  split
  · next hw =>
    rw [hx.displays.mem, hd.mem] at hw
    exact (hc.woken hw.1 hw.2).symm
  · next hw =>
    rw [hx.displays.mem, hd.mem] at hw
    exact hx.e.trans (hc.kept hw).symm

theorem Refines.recv (hx : Refines name n x s) (hs : step name n (.recv t) x = some x') :
    ¬ s.suspended t ∧ Refines name n x' (s.rtEventRecv t) := by
  simp only [step] at hs
  split at hs
  · next hready =>
    have hnot : ¬ s.suspended t := by
      intro hsusp
      have hsleep := hx.displays.sound.waiting _ _ (hx.displays.mem.mpr hsusp)
      rw [hready] at hsleep
      cases hsleep
    have hd : Displays name n
        { x.kernel with scheduler := { x.kernel.scheduler with rtCurrentThread := name t } } s :=
      ⟨hx.displays.sound.run, hx.displays.event, hx.displays.waits, hx.displays.awaited⟩
    refine ⟨hnot, ?_⟩
    by_cases hsat : (Sys.waiterOf t).eventInfo.satisfied (Sys.waiterOf t).eventSet s.rx1Event
    · obtain ⟨k', hk, hd', he⟩ := hd.recv_satisfied (t := t) rfl hnot hsat
      rw [hk, Option.map_some, Option.some.injEq] at hs
      subst hs
      refine ⟨hd', ?_⟩
      rw [he]
      show Function.update x.recved t _ .atProcess = _
      by_cases ht : t = .atProcess
      · subst ht
        rw [Function.update_self, if_pos rfl]
      · rw [Function.update_of_ne (Ne.symm ht), if_neg ht]
        exact hx.e
    · obtain ⟨k', hk, hd', he⟩ := hd.recv_unsatisfied (t := t) rfl hready hsat
      rw [hk, Option.map_some, Option.some.injEq] at hs
      subst hs
      exact ⟨hd', hx.e.trans he.symm⟩
  · cases hs

/-- The program posts no empty set. -/
def Posts (a : EventAction) : Prop := ∀ set, a = .send set → set ≠ ∅

/-- Every run of `rt_event_send` and `rt_event_recv` on `rx1_event` in the kernel, its suspend
list in whatever order the threads came, is a run of the firmware's event: the same bits stay
posted, the same threads wait, and `at_process` receives the same bits. -/
theorem refines_firmware (hr : Run (step name n) (fun _ _ a => Posts a) (Initial n) h x) :
    ∃ (h' : History Sys EventAction) (s : Sys), Run Sys.eventStep free NanoAt.Initial h' s ∧
      h'.map Prod.snd = h.map Prod.snd ∧ Refines name n x s := by
  induction hr with
  | start hx => exact ⟨[], Sys.init zeroRam, .start ⟨zeroRam, rfl⟩, rfl, Initial.refines hx⟩
  | @step h x x' a _ hp hs ih =>
    obtain ⟨h', s, hr', hsame, hx⟩ := ih
    cases a with
    | send set =>
      have hset : set ≠ ∅ := hp set rfl
      simp only [step, Option.some.injEq] at hs
      subst hs
      exact ⟨_, _, hr'.step (a := EventAction.send set) trivial rfl, by simp [hsame], hx.send hset⟩
    | recv t =>
      obtain ⟨hnot, hx'⟩ := hx.recv hs
      exact ⟨_, _, hr'.step (a := EventAction.recv t) trivial (if_neg hnot), by simp [hsame], hx'⟩

/-- `at_process` waits, and a timeout is posted. -/
theorem refines_firmware_timeout : ∃ (x : EventSystem Thread) (s : Sys),
    x.recved .atProcess = {.atTimeoutEvent} ∧
      Refines (Function.Embedding.refl Thread) 0 x s := by
  have hsound : (Rtos.idleAlone Thread.atProcess : Rtos Thread Rx1Event).scheduler.Sound :=
    Rtos.idleAlone_initial.sound
  have h₀ : Run (step (Function.Embedding.refl Thread) 0) (fun _ _ a => Posts a) (Initial 0) []
      ⟨Rtos.idleAlone .atProcess, fun _ => ∅⟩ := .start ⟨hsound, rfl, rfl, fun _ => rfl⟩
  have h₁ := h₀.step (a := EventAction.recv .atProcess) (fun set hset => by cases hset) rfl
  have h₂ := h₁.step (a := EventAction.send {.atTimeoutEvent}) (fun set hset => by
    cases hset
    decide) rfl
  obtain ⟨h', s, -, -, hx⟩ := refines_firmware h₂
  exact ⟨_, s, by decide, hx⟩

end EventSystem

end NanoAt
