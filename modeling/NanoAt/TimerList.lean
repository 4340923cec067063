import NanoAt.Timers

/-!
# The timer list in order

While no timer is overdue by more than a tick, the comparisons of `rt_timer_start` and
`rt_timer_check`, made modulo 2^32, order the timers by the time that is left to them.

## Main definitions

- `left` — the ticks left to a timer
- `Armed` — the timer list is in order, and how far its timers may be overdue
- `Pass`, `Check` — what `rt_timer_check` does, pass by pass

## Main results

- `Armed.calls` — whatever a timeout function calls, the list stays in order
- `check_of_checkLoop` — `rt_timer_check` makes passes until no timer is due
-/

namespace NanoAt

open SerialTime DeadlineList

namespace Timers

variable {T : Type} {s s' s'' : Timers T} {t u : T} {lo : ℤ} {c : TimerCall T}
  {cs : List (TimerCall T)} {script : List (List (TimerCall T))} {fuel : ℕ} {fired : List T}

/-- The ticks left to a timer, negative when it is overdue. -/
def left (s : Timers T) (t : T) : ℤ := ahead (s.timer t).timeoutTick s.rtTick

/-- The listed timers are in order and within half the circle of the present, none of them
below `lo`. -/
structure Armed (s : Timers T) (lo : ℤ) : Prop where
  nodup : s.timerList.Nodup
  window : ∀ t ∈ s.timerList, lo ≤ s.left t ∧ s.left t < 2 ^ 31 - 1
  ordered : InOrder s.left s.timerList

/-- Inside the window the list is searched by the ticks left. -/
theorem rowInsert_eq {l : List T} (hlo : -1 ≤ lo)
    (hl : ∀ u ∈ l, lo ≤ s.left u ∧ s.left u < 2 ^ 31 - 1)
    (ht : 0 ≤ s.left t ∧ s.left t < 2 ^ 31 - 1) :
    rowInsert s.timer t l = insertLate s.left t l := by
  induction l with
  | nil => rfl
  | cons p l ih =>
    rw [List.forall_mem_cons] at hl
    have hd : ahead (s.timer p).timeoutTick (s.timer t).timeoutTick = s.left p - s.left t :=
      ahead_eq_sub (c := s.rtTick) (by rw [left] at *; omega) (by rw [left] at *; omega)
    have hzero : (s.timer p).timeoutTick - (s.timer t).timeoutTick = 0 ↔ s.left p = s.left t := by
      rw [← UInt32.toNat_inj, UInt32.toNat_zero, sub_eq_zero_iff, hd]
      omega
    have hlater : (s.timer p).timeoutTick - (s.timer t).timeoutTick < rtTickHalf ↔
        s.left t ≤ s.left p := by
      rw [UInt32.lt_iff_toNat_lt]
      have hiff := toNat_sub_lt_iff (a := (s.timer p).timeoutTick) (b := (s.timer t).timeoutTick)
        (n := 2 ^ 31 - 1) (by norm_num)
      rw [show rtTickHalf.toNat = 2 ^ 31 - 1 from rfl, hiff, hd]
      omega
    simp only [rowInsert, insertLate, hzero, hlater, ih hl.2]
    split
    · next heq => rw [if_neg (by omega)]
    · next hne =>
      by_cases hlt : s.left t < s.left p
      · rw [if_pos hlt, if_pos hlt.le]
      · rw [if_neg hlt, if_neg (by omega)]

/-- Whether `rt_timer_check` takes a timer for due. -/
theorem due_iff (hlo : -1 ≤ s.left t) (hhi : s.left t < 2 ^ 31 - 1) :
    s.rtTick - (s.timer t).timeoutTick < rtTickHalf ↔ s.left t ≤ 0 := by
  have hswap : ahead s.rtTick (s.timer t).timeoutTick = - s.left t :=
    ahead_swap (by rw [left] at hlo; omega)
  have hiff := toNat_sub_lt_iff (a := s.rtTick) (b := (s.timer t).timeoutTick)
    (n := 2 ^ 31 - 1) (by norm_num)
  rw [UInt32.lt_iff_toNat_lt, show rtTickHalf.toNat = 2 ^ 31 - 1 from rfl, hiff, hswap]
  omega

theorem Armed.mono {lo' : ℤ} (ha : s.Armed lo) (h : lo' ≤ lo) : s.Armed lo' :=
  ⟨ha.nodup, fun t ht => ⟨h.trans (ha.window t ht).1, (ha.window t ht).2⟩, ha.ordered⟩

/-- A list with the same times and fewer timers. -/
theorem Armed.sublist (ha : s.Armed lo) (hl : s'.timerList.Sublist s.timerList)
    (hleft : ∀ t ∈ s'.timerList, s'.left t = s.left t) : s'.Armed lo := by
  refine ⟨ha.nodup.sublist hl, fun t ht => ?_, ?_⟩
  · rw [hleft t ht]
    exact ha.window t (hl.subset ht)
  · exact (ha.ordered.sublist hl).congr hleft

/-- The tick itself, before `rt_timer_check`. -/
def advance (s : Timers T) : Timers T := { s with rtTick := s.rtTick + 1 }

theorem left_advance (ha : s.Armed 0) (ht : t ∈ s.timerList) :
    s.advance.left t = s.left t - 1 := by
  have hw : 0 ≤ ahead (s.timer t).timeoutTick s.rtTick := (ha.window t ht).1
  exact ahead_succ (a := (s.timer t).timeoutTick) (by omega)

/-- The search compares times only. -/
theorem rowInsert_congr {timer timer' : T → Timer} {l : List T}
    (h : ∀ u, (timer u).timeoutTick = (timer' u).timeoutTick) :
    rowInsert timer t l = rowInsert timer' t l := by
  induction l with
  | nil => rfl
  | cons p l ih => simp only [rowInsert, h, ih]

variable [DecidableEq T]

section Fields

@[simp] theorem setTimer_timer_self {x : Timer} : (s.setTimer t x).timer t = x :=
  Function.update_self ..

theorem setTimer_timer_of_ne {x : Timer} (h : u ≠ t) : (s.setTimer t x).timer u = s.timer u :=
  Function.update_of_ne h ..

@[simp] theorem setTimer_rtTick {x : Timer} : (s.setTimer t x).rtTick = s.rtTick := rfl

@[simp] theorem setTimer_timerList {x : Timer} : (s.setTimer t x).timerList = s.timerList := rfl

@[simp] theorem remove_timer : (s.remove t).timer = s.timer := rfl

@[simp] theorem remove_rtTick : (s.remove t).rtTick = s.rtTick := rfl

@[simp] theorem remove_timerList : (s.remove t).timerList = s.timerList.erase t := rfl

/-- Writing the flags or the time of a timer leaves the ticks left to it. -/
theorem left_setTimer {x : Timer} (h : x.timeoutTick = (s.timer t).timeoutTick) :
    (s.setTimer t x).left u = s.left u := by
  by_cases hu : u = t
  · subst hu
    rw [left, left, setTimer_timer_self, h]
    rfl
  · rw [left, left, setTimer_timer_of_ne hu]
    rfl

end Fields

section Interface

/-- What `rt_timer_start` does. -/
structure Started (s s' : Timers T) (t : T) : Prop where
  time : (s.timer t).initTick.toNat < 2 ^ 31 - 1
  rtTick : s'.rtTick = s.rtTick
  self : s'.timer t = { s.timer t with
    activated := true
    timeoutTick := s.rtTick + (s.timer t).initTick }
  others : ∀ u, u ≠ t → s'.timer u = s.timer u
  list : s'.timerList = rowInsert s'.timer t (s.timerList.erase t)

theorem started_of_start (hs : s.rtTimerStart t = some s') : Started s s' t := by
  unfold rtTimerStart at hs
  simp only [setTimer_timer_self, setTimer_rtTick, setTimer_timerList, remove_timer, remove_rtTick,
    remove_timerList] at hs
  split at hs
  · next htime =>
    rw [Option.some.injEq] at hs
    subst hs
    refine ⟨?_, rfl, by simp, fun u hu => ?_, rowInsert_congr fun u => ?_⟩
    · rwa [UInt32.lt_iff_toNat_lt] at htime
    · simp [setTimer, Function.update_of_ne hu]
    · by_cases hu : u = t
      · subst hu
        simp [setTimer]
      · simp [setTimer, Function.update_of_ne hu]
  · simp at hs

theorem start_enabled (ht : (s.timer t).initTick.toNat < 2 ^ 31 - 1) :
    ∃ s', s.rtTimerStart t = some s' := by
  unfold rtTimerStart
  simp only [setTimer_timer_self, remove_timer]
  rw [if_pos (by rw [UInt32.lt_iff_toNat_lt]; exact ht)]
  exact ⟨_, rfl⟩

theorem Started.left_self (h : Started s s' t) : s'.left t = (s.timer t).initTick.toNat := by
  have htime := h.time
  rw [left, h.self, h.rtTick]
  exact ahead_add (by omega) rfl

theorem Started.left_others (h : Started s s' t) (hu : u ≠ t) : s'.left u = s.left u := by
  rw [left, left, h.others u hu, h.rtTick]

theorem Armed.remove (ha : s.Armed lo) : (s.remove t).Armed lo :=
  ha.sublist List.erase_sublist fun _ _ => rfl

theorem Armed.setTimer {x : Timer} (ha : s.Armed lo)
    (hx : x.timeoutTick = (s.timer t).timeoutTick) : (s.setTimer t x).Armed lo :=
  ha.sublist (.refl _) fun _ _ => left_setTimer hx

/-- The list after `rt_timer_start`. -/
theorem Started.list_eq (h : Started s s' t) (ha : s.Armed lo) (hlo : -1 ≤ lo) :
    s'.timerList = insertLate s'.left t (s.timerList.erase t) := by
  rw [h.list]
  have htime := h.time
  refine rowInsert_eq hlo (fun u hu => ?_) (by rw [h.left_self]; omega)
  have hne : u ≠ t := by
    rintro rfl
    exact ha.nodup.not_mem_erase hu
  rw [h.left_others hne]
  exact ha.window u (List.mem_of_mem_erase hu)

theorem Started.mem_iff (h : Started s s' t) (ha : s.Armed lo) (hlo : -1 ≤ lo) :
    u ∈ s'.timerList ↔ u = t ∨ u ∈ s.timerList := by
  rw [h.list_eq ha hlo, mem_insertLate, ha.nodup.mem_erase_iff]
  tauto

/-- Starting a timer keeps the list in order. -/
theorem Started.armed (h : Started s s' t) (ha : s.Armed lo) (hlo : -1 ≤ lo) (hlo' : lo ≤ 0) :
    s'.Armed lo := by
  have hlist := h.list_eq ha hlo
  have htime := h.time
  have hself := h.left_self
  have hrest : (s.timerList.erase t).Sublist s.timerList := List.erase_sublist
  have hne : ∀ u ∈ s.timerList.erase t, u ≠ t := by
    rintro u hu rfl
    exact ha.nodup.not_mem_erase hu
  refine ⟨?_, fun u hu => ?_, ?_⟩
  · rw [hlist]
    exact nodup_insertLate (ha.nodup.sublist hrest) ha.nodup.not_mem_erase
  · rw [hlist, mem_insertLate] at hu
    rcases hu with rfl | hu
    · rw [hself]
      omega
    · rw [h.left_others (hne u hu)]
      exact ha.window u (hrest.subset hu)
  · rw [hlist]
    exact inOrder_insertLate ((ha.ordered.sublist hrest).congr fun u hu => h.left_others (hne u hu))

/-- Whatever call is made, the list stays in order. -/
theorem Armed.call (ha : s.Armed lo) (hlo : -1 ≤ lo) (hlo' : lo ≤ 0)
    (hs : s.call c = some s') : s'.Armed lo ∧ s'.rtTick = s.rtTick := by
  cases c with
  | start t =>
    have hst := started_of_start hs
    exact ⟨hst.armed ha hlo hlo', hst.rtTick⟩
  | stop t =>
    rw [Timers.call, Option.some.injEq] at hs
    subst hs
    unfold rtTimerStop
    split
    · exact ⟨ha.remove.setTimer rfl, rfl⟩
    · exact ⟨ha, rfl⟩
  | control t ctrl =>
    rw [Timers.call, Option.some.injEq] at hs
    subst hs
    cases ctrl <;> exact ⟨ha.setTimer rfl, rfl⟩

theorem Armed.calls (ha : s.Armed lo) (hlo : -1 ≤ lo) (hlo' : lo ≤ 0)
    (hs : s.calls cs = some s') : s'.Armed lo ∧ s'.rtTick = s.rtTick := by
  induction cs generalizing s with
  | nil =>
    rw [Timers.calls, Option.some.injEq] at hs
    exact hs ▸ ⟨ha, rfl⟩
  | cons c cs ih =>
    rw [Timers.calls, Option.bind_eq_some_iff] at hs
    obtain ⟨s₁, hs₁, hs⟩ := hs
    obtain ⟨ha₁, ht₁⟩ := ha.call hlo hlo' hs₁
    obtain ⟨ha', ht'⟩ := ih ha₁ hs
    exact ⟨ha', ht'.trans ht₁⟩

theorem Armed.afterTimeout (ha : s.Armed lo) (hlo : -1 ≤ lo) (hlo' : lo ≤ 0)
    (hs : s.afterTimeout t = some s') : s'.Armed lo ∧ s'.rtTick = s.rtTick := by
  unfold Timers.afterTimeout at hs
  split at hs
  · have hst := started_of_start hs
    exact ⟨hst.armed (ha.setTimer rfl) hlo hlo', hst.rtTick⟩
  · rw [Option.some.injEq] at hs
    exact hs ▸ ⟨ha.setTimer rfl, rfl⟩

/-- One pass of the loop of `rt_timer_check`: the function of `t` makes the calls `cs`. -/
structure Pass (s s' : Timers T) (t : T) (cs : List (TimerCall T)) : Prop where
  head : s.timerList.head? = some t
  due : s.left t ≤ 0
  run : ∃ s₁, (s.remove t).calls cs = some s₁ ∧ s₁.afterTimeout t = some s'

/-- The passes of `rt_timer_check`, until no timer is due. -/
inductive Check : Timers T → List (List (TimerCall T)) → List T → Timers T → Prop
  | done {s : Timers T} {script : List (List (TimerCall T))} :
      (∀ t ∈ s.timerList, 0 < s.left t) → Check s script [] s
  | pass {s s₁ s' : Timers T} {t : T} {script : List (List (TimerCall T))} {fired : List T} :
      Pass s s₁ t (script.headD []) → Check s₁ script.tail fired s' →
      Check s script (t :: fired) s'

theorem Pass.mem (h : Pass s s' t cs) : t ∈ s.timerList := List.mem_of_head? h.head

theorem Pass.armed (h : Pass s s' t cs) (ha : s.Armed (-1)) :
    s'.Armed (-1) ∧ s'.rtTick = s.rtTick := by
  obtain ⟨s₁, hs₁, hs'⟩ := h.run
  obtain ⟨ha₁, ht₁⟩ := ha.remove.calls le_rfl (by norm_num) hs₁
  obtain ⟨ha', ht'⟩ := ha₁.afterTimeout le_rfl (by norm_num) hs'
  exact ⟨ha', by rw [ht', ht₁, remove_rtTick]⟩

/-- While the list is in order, the loop makes passes until no timer is due. -/
theorem check_of_checkLoop (ha : s.Armed (-1))
    (hs : s.checkLoop fuel script = some (fired, s')) : Check s script fired s' := by
  induction fuel generalizing s script fired with
  | zero => simp [Timers.checkLoop] at hs
  | succ fuel ih =>
    unfold Timers.checkLoop at hs
    split at hs
    · next hnil =>
      rw [Option.some.injEq, Prod.mk.injEq] at hs
      obtain ⟨rfl, rfl⟩ := hs
      exact .done (by simp [hnil])
    · next t l hcons =>
      have ht := ha.window t (by simp [hcons])
      split at hs
      · -- the first timer is due
        next hdue =>
        simp only [Option.bind_eq_some_iff, Option.map_eq_some_iff, Prod.mk.injEq] at hs
        obtain ⟨s₁, hs₁, s₂, hs₂, ⟨fired', s₃⟩, hs₃, rfl, rfl⟩ := hs
        have hpass : Pass s s₂ t (script.headD []) :=
          ⟨by simp [hcons], (due_iff ht.1 ht.2).mp hdue, s₁, hs₁, hs₂⟩
        exact .pass hpass (ih (hpass.armed ha).1 hs₃)
      · -- the first timer is not due, and none is earlier
        next hdue =>
        rw [Option.some.injEq, Prod.mk.injEq] at hs
        obtain ⟨rfl, rfl⟩ := hs
        rw [due_iff ht.1 ht.2] at hdue
        refine .done fun u hu => ?_
        have hord := ha.ordered
        rw [hcons] at hord hu
        have hle := hord.head_le hu
        omega

/-- The loop makes one pass more than it calls timeout functions. -/
theorem checkLoop_of_check (ha : s.Armed (-1)) (hc : Check s script fired s') (fuel : ℕ)
    (hfuel : fired.length < fuel) : s.checkLoop fuel script = some (fired, s') := by
  induction hc generalizing fuel with
  | @done s script hidle =>
    obtain ⟨fuel, rfl⟩ : ∃ n, fuel = n + 1 := ⟨fuel - 1, by omega⟩
    unfold Timers.checkLoop
    split
    · rfl
    · next t l hcons =>
      have ht := ha.window t (by simp [hcons])
      have hleft := hidle t (by simp [hcons])
      rw [if_neg (by rw [due_iff ht.1 ht.2]; omega)]
  | @pass s s₁ s' t script fired hpass _ ih =>
    obtain ⟨fuel, rfl⟩ : ∃ n, fuel = n + 1 := ⟨fuel - 1, by simp at hfuel; omega⟩
    obtain ⟨l, hcons⟩ : ∃ l, s.timerList = t :: l := List.head?_eq_some_iff.mp hpass.head
    have ht := ha.window t hpass.mem
    have hrest := ih (hpass.armed ha).1 fuel (by simp at hfuel; omega)
    obtain ⟨s₀, hs₀, hs₁⟩ := hpass.run
    unfold Timers.checkLoop
    simp only [hcons]
    rw [if_pos ((due_iff ht.1 ht.2).mpr hpass.due), hs₀, Option.bind_some, hs₁,
      Option.bind_some, hrest]
    rfl

theorem Check.unique {fired' : List T} (hc : Check s script fired s') (ha : s.Armed (-1))
    (hc' : Check s script fired' s'') : fired = fired' ∧ s' = s'' := by
  have hrun := checkLoop_of_check ha hc (fired.length + fired'.length + 1) (by omega)
  have hrun' := checkLoop_of_check ha hc' (fired.length + fired'.length + 1) (by omega)
  rw [hrun, Option.some.injEq, Prod.mk.injEq] at hrun'
  exact hrun'

/-- When `rt_timer_check` returns no timer is due. -/
theorem Check.armed (hc : Check s script fired s') (ha : s.Armed (-1)) :
    s'.Armed 1 ∧ s'.rtTick = s.rtTick := by
  induction hc with
  | done hidle =>
    exact ⟨⟨ha.nodup, fun t ht => ⟨hidle t ht, (ha.window t ht).2⟩, ha.ordered⟩, rfl⟩
  | pass hpass _ ih =>
    obtain ⟨ha₁, ht₁⟩ := hpass.armed ha
    obtain ⟨ha', ht'⟩ := ih ha₁
    exact ⟨ha', ht'.trans ht₁⟩

omit [DecidableEq T] in
theorem Armed.advance (ha : s.Armed 0) : s.advance.Armed (-1) := by
  refine ⟨ha.nodup, fun t ht => ?_, ha.ordered.imp_of_mem fun {t u} ht hu hle => ?_⟩
  · have hw := ha.window t ht
    rw [left_advance ha ht]
    omega
  · rw [left_advance ha ht, left_advance ha hu]
    omega

/-- A tick keeps the list in order and leaves no timer due. -/
theorem Armed.rtTickIncrease (ha : s.Armed 0)
    (hs : s.rtTickIncrease script = some (fired, s')) :
    Check s.advance script fired s' ∧ s'.Armed 1 := by
  have hc := check_of_checkLoop ha.advance hs
  exact ⟨hc, (hc.armed ha.advance).1⟩

end Interface

end Timers

end NanoAt
