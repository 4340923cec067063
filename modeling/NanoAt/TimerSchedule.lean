import NanoAt.TimerList

/-!
# Timers on time

What a run of the timer interface and of ticks does to one timer that nobody calls the
interface for. The tick starts anywhere and wraps around as often as it likes.

## Main definitions

- `Untouched`, `TimedOut` — what a tick does to a timer that is not due, and to one that is
- `Expires` — the ticks at which a timer times out
- `TimerSystem.Initial` — the timers before the first action

## Main results

- `TimerSystem.armed_run` — between the actions of a run no timer is overdue
- `TimerSystem.fired_iff_expires` — a timer left alone times out on time, once each
-/

namespace NanoAt

open SerialTime DeadlineList GuardedRun

namespace Timers

variable {T : Type} {s s' s₁ s₂ : Timers T} {t u : T} {lo : ℤ}
  {c : TimerCall T} {cs : List (TimerCall T)} {script : List (List (TimerCall T))}
  {fired : List T}

/-- Nothing has happened to `u`. -/
structure Untouched (s s' : Timers T) (u : T) : Prop where
  record : s'.timer u = s.timer u
  listed : u ∈ s'.timerList ↔ u ∈ s.timerList
  rtTick : s'.rtTick = s.rtTick

theorem Untouched.refl : Untouched s s u := ⟨rfl, Iff.rfl, rfl⟩

theorem Untouched.trans (h : Untouched s s₁ u) (h' : Untouched s₁ s' u) : Untouched s s' u :=
  ⟨h'.record.trans h.record, h'.listed.trans h.listed, h'.rtTick.trans h.rtTick⟩

theorem Untouched.left (h : Untouched s s' u) : s'.left u = s.left u := by
  rw [Timers.left, Timers.left, h.record, h.rtTick]

/-- No function of the script calls the interface for `u`. -/
def Quiet (script : List (List (TimerCall T))) (u : T) : Prop :=
  ∀ cs ∈ script, ∀ c ∈ cs, c.timer ≠ u

theorem Quiet.head (h : Quiet script u) : ∀ c ∈ script.headD [], c.timer ≠ u := by
  cases script with
  | nil => simp
  | cons cs script => exact h cs (by simp)

theorem Quiet.tail (h : Quiet script u) : Quiet script.tail u :=
  fun cs hcs => h cs (List.mem_of_mem_tail hcs)

variable [DecidableEq T]

section Alone

theorem untouched_setTimer {x : Timer} (hne : u ≠ t) : Untouched s (s.setTimer t x) u :=
  ⟨setTimer_timer_of_ne hne, Iff.rfl, rfl⟩

theorem untouched_remove (hne : u ≠ t) : Untouched s (s.remove t) u :=
  ⟨rfl, List.mem_erase_of_ne hne, rfl⟩

theorem Started.untouched (h : Started s s' t) (ha : s.Armed lo) (hlo : -1 ≤ lo) (hne : u ≠ t) :
    Untouched s s' u := by
  refine ⟨h.others u hne, ?_, h.rtTick⟩
  rw [h.mem_iff ha hlo]
  tauto

theorem Untouched.call (ha : s.Armed lo) (hlo : -1 ≤ lo) (hne : c.timer ≠ u)
    (hs : s.call c = some s') : Untouched s s' u := by
  cases c with
  | start t => exact (started_of_start hs).untouched ha hlo hne.symm
  | stop t =>
    rw [Timers.call, Option.some.injEq] at hs
    subst hs
    unfold rtTimerStop
    split
    · exact (untouched_remove hne.symm).trans (untouched_setTimer hne.symm)
    · exact .refl
  | control t ctrl =>
    rw [Timers.call, Option.some.injEq] at hs
    subst hs
    cases ctrl <;> exact untouched_setTimer hne.symm

theorem Untouched.calls (ha : s.Armed lo) (hlo : -1 ≤ lo) (hlo' : lo ≤ 0)
    (hne : ∀ c ∈ cs, c.timer ≠ u) (hs : s.calls cs = some s') : Untouched s s' u := by
  induction cs generalizing s with
  | nil =>
    rw [Timers.calls, Option.some.injEq] at hs
    exact hs ▸ .refl
  | cons c cs ih =>
    rw [List.forall_mem_cons] at hne
    rw [Timers.calls, Option.bind_eq_some_iff] at hs
    obtain ⟨s₁, hs₁, hs⟩ := hs
    exact (Untouched.call ha hlo hne.1 hs₁).trans (ih (ha.call hlo hlo' hs₁).1 hne.2 hs)

theorem Untouched.afterTimeout (ha : s.Armed lo) (hlo : -1 ≤ lo) (hne : u ≠ t)
    (hs : s.afterTimeout t = some s') : Untouched s s' u := by
  unfold Timers.afterTimeout at hs
  split at hs
  · exact (untouched_setTimer hne).trans
      ((started_of_start hs).untouched (ha.setTimer rfl) hlo hne)
  · rw [Option.some.injEq] at hs
    exact hs ▸ untouched_setTimer hne

/-- A pass leaves the other timers alone that its timeout function leaves alone. -/
theorem Pass.untouched (h : Pass s s' t cs) (ha : s.Armed (-1)) (hcs : ∀ c ∈ cs, c.timer ≠ u)
    (hne : u ≠ t) : Untouched s s' u := by
  obtain ⟨s₁, hs₁, hs'⟩ := h.run
  have hrun := Untouched.calls ha.remove le_rfl (by norm_num) hcs hs₁
  have ha₁ := (ha.remove.calls le_rfl (by norm_num) hs₁).1
  exact ((untouched_remove hne).trans hrun).trans (Untouched.afterTimeout ha₁ le_rfl hne hs')

/-- The timer after its own timeout, when its function leaves it alone. -/
structure TimedOut (s s' : Timers T) (t : T) : Prop where
  periodic : (s.timer t).periodic = true → (s.timer t).activated = true →
    t ∈ s'.timerList ∧ s'.left t = (s.timer t).initTick.toNat ∧
      s'.timer t = { s.timer t with timeoutTick := s.rtTick + (s.timer t).initTick }
  oneshot : (s.timer t).periodic = false →
    t ∉ s'.timerList ∧ s'.timer t = { s.timer t with activated := false }

theorem Pass.timedOut (h : Pass s s' t cs) (ha : s.Armed (-1)) (hcs : ∀ c ∈ cs, c.timer ≠ t) :
    TimedOut s s' t := by
  obtain ⟨s₁, hs₁, hs'⟩ := h.run
  have hrun := Untouched.calls ha.remove le_rfl (by norm_num) hcs hs₁
  have ha₁ := (ha.remove.calls le_rfl (by norm_num) hs₁).1
  have hgone : t ∉ s₁.timerList := by
    rw [hrun.listed]
    exact ha.nodup.not_mem_erase
  have hrec : s₁.timer t = s.timer t := hrun.record
  have htick : s₁.rtTick = s.rtTick := hrun.rtTick
  unfold Timers.afterTimeout at hs'
  rw [hrec] at hs'
  constructor
  · intro hper hact
    rw [if_pos ⟨hper, hact⟩] at hs'
    have hst := started_of_start hs'
    refine ⟨?_, ?_, ?_⟩
    · rw [hst.mem_iff (ha₁.setTimer (by rw [hrec])) le_rfl]
      exact .inl rfl
    · rw [hst.left_self, setTimer_timer_self]
    · rw [hst.self, setTimer_timer_self, setTimer_rtTick, htick, ← hact]
  · intro hper
    rw [if_neg (by simp [hper]), Option.some.injEq] at hs'
    subst hs'
    exact ⟨hgone, setTimer_timer_self⟩

/-- A timer that is not due does not time out. -/
theorem Check.untouched (hc : Check s script fired s') (ha : s.Armed (-1)) (hq : Quiet script u)
    (hidle : u ∈ s.timerList → 0 < s.left u) : fired.count u = 0 ∧ Untouched s s' u := by
  induction hc with
  | done _ => exact ⟨rfl, .refl⟩
  | @pass s s₁ s' t script fired hpass _ ih =>
    have hne : u ≠ t := by
      rintro rfl
      have hlate := hidle hpass.mem
      have hdue := hpass.due
      omega
    have hu := hpass.untouched ha hq.head hne
    obtain ⟨hcount, hrest⟩ := ih (hpass.armed ha).1 hq.tail fun hm => by
      rw [hu.left]
      exact hidle (hu.listed.mp hm)
    exact ⟨by rw [List.count_cons_of_ne hne.symm, hcount], hu.trans hrest⟩

/-- A timer that is due times out once, if a periodic one has a positive time. -/
theorem Check.timedOut (hc : Check s script fired s') (ha : s.Armed (-1)) (hq : Quiet script u)
    (hmem : u ∈ s.timerList) (hdue : s.left u ≤ 0)
    (hper : (s.timer u).periodic = true →
      (s.timer u).activated = true ∧ 0 < (s.timer u).initTick.toNat) :
    fired.count u = 1 ∧ TimedOut s s' u := by
  induction hc with
  | done hidle =>
    have hlate := hidle u hmem
    omega
  | @pass s s₁ s' t script fired hpass hrest ih =>
    have ha₁ := (hpass.armed ha).1
    by_cases hut : u = t
    · subst hut
      have hout := hpass.timedOut ha hq.head
      -- from here on it is not due again
      have hidle : u ∈ s₁.timerList → 0 < s₁.left u := by
        intro hm
        cases hp : (s.timer u).periodic with
        | true =>
          rw [(hout.periodic hp (hper hp).1).2.1]
          have hpos := (hper hp).2
          omega
        | false => exact absurd hm (hout.oneshot hp).1
      obtain ⟨hcount, hun⟩ := hrest.untouched ha₁ hq.tail hidle
      refine ⟨by rw [List.count_cons_self, hcount], fun hp hact => ?_, fun hp => ?_⟩
      · rw [hun.listed, hun.left, hun.record]
        exact hout.periodic hp hact
      · rw [hun.listed, hun.record]
        exact hout.oneshot hp
    · have hun := hpass.untouched ha hq.head hut
      obtain ⟨hcount, hout⟩ := ih ha₁ hq.tail (hun.listed.mpr hmem) (hun.left ▸ hdue)
        (by rw [hun.record]; exact hper)
      refine ⟨by rw [List.count_cons_of_ne (Ne.symm hut), hcount], fun hp hact => ?_, fun hp => ?_⟩
      · rw [← hun.record] at hp hact ⊢
        rw [← hun.rtTick]
        exact hout.periodic hp hact
      · rw [← hun.record] at hp ⊢
        exact hout.oneshot hp

end Alone

section Schedule

/-- Whether a timer started with the record `x` times out at the `k`-th tick from then on. -/
def Expires (x : Timer) (k : ℕ) : Prop :=
  if x.periodic then x.initTick.toNat ∣ k else k = max x.initTick.toNat 1

instance (x : Timer) (k : ℕ) : Decidable (Expires x k) := by
  unfold Expires
  infer_instance

/-- Timer `t`, `k` ticks after it was started with the record `x` and left alone. -/
structure OnTime (x : Timer) (k : ℕ) (s : Timers T) (t : T) : Prop where
  periodic : x.periodic = true →
    t ∈ s.timerList ∧ s.left t = (x.initTick.toNat : ℤ) - (k % x.initTick.toNat : ℕ) ∧
      (s.timer t).periodic = true ∧ (s.timer t).activated = true ∧
      (s.timer t).initTick = x.initTick
  pending : x.periodic = false → k < max x.initTick.toNat 1 →
    t ∈ s.timerList ∧ s.left t = (x.initTick.toNat : ℤ) - k ∧ (s.timer t).periodic = false
  finished : x.periodic = false → max x.initTick.toNat 1 ≤ k → t ∉ s.timerList

theorem Started.onTime (h : Started s s' t) (ha : s.Armed lo) (hlo : -1 ≤ lo) :
    OnTime (s.timer t) 0 s' t := by
  have hmem : t ∈ s'.timerList := (h.mem_iff ha hlo).mpr (.inl rfl)
  refine ⟨fun hper => ⟨hmem, ?_, ?_⟩, fun hper _ => ⟨hmem, ?_, ?_⟩, fun _ hk => ?_⟩
  · rw [h.left_self, Nat.zero_mod]
    simp
  · rw [h.self]
    exact ⟨hper, rfl, rfl⟩
  · rw [h.left_self]
    simp
  · rw [h.self]
    exact hper
  · omega

omit [DecidableEq T] in
theorem OnTime.untouched {x : Timer} {k : ℕ} (h : OnTime x k s t) (hu : Untouched s s' t) :
    OnTime x k s' t := by
  constructor
  · rw [hu.listed, hu.left, hu.record]
    exact h.periodic
  · rw [hu.listed, hu.left, hu.record]
    exact h.pending
  · rw [hu.listed]
    exact h.finished

/-- Counting on modulo a period. -/
theorem succ_mod_cases {k n : ℕ} (hn : 0 < n) :
    n ∣ k + 1 ∧ k % n + 1 = n ∧ (k + 1) % n = 0 ∨
      ¬ n ∣ k + 1 ∧ k % n + 1 < n ∧ (k + 1) % n = k % n + 1 := by
  have hlt := Nat.mod_lt k hn
  have hk : k + 1 = n * (k / n) + (k % n + 1) := by
    rw [← Nat.add_assoc, Nat.div_add_mod]
  rcases Nat.lt_or_ge (k % n + 1) n with hr | hr
  · right
    have hmod : (k + 1) % n = k % n + 1 := by
      rw [hk, Nat.mul_add_mod, Nat.mod_eq_of_lt hr]
    exact ⟨by rw [Nat.dvd_iff_mod_eq_zero]; omega, hr, hmod⟩
  · left
    have heq : k % n + 1 = n := by omega
    have hmod : (k + 1) % n = 0 := by
      rw [hk, heq, Nat.mul_add_mod, Nat.mod_self]
    exact ⟨Nat.dvd_of_mod_eq_zero hmod, heq, hmod⟩

/-- A tick brings the timer one tick on. -/
theorem OnTime.tick {x : Timer} {k : ℕ} (h : OnTime x k s t) (ha : s.Armed 0)
    (hq : Quiet script t) (hpos : x.periodic = true → 0 < x.initTick.toNat)
    (hs : s.rtTickIncrease script = some (fired, s')) :
    fired.count t = (if Expires x (k + 1) then 1 else 0) ∧ OnTime x (k + 1) s' t := by
  have hc := (ha.rtTickIncrease hs).1
  have ha' := ha.advance
  cases hper : x.periodic with
  | true =>
    obtain ⟨hmem, hleft, hp, hact, hinit⟩ := h.periodic hper
    have hadv := left_advance ha hmem
    have hn := hpos hper
    rcases succ_mod_cases (k := k) hn with ⟨hdvd, hr, hr'⟩ | ⟨hdvd, hr, hr'⟩
    · -- the period is over
      obtain ⟨hcount, hout⟩ := hc.timedOut ha' hq hmem (by omega) fun _ =>
        ⟨hact, by rw [← hinit] at hn; exact hn⟩
      obtain ⟨hmem', hleft', hrec⟩ := hout.periodic hp hact
      rw [if_pos (by rwa [Expires, if_pos hper])]
      refine ⟨hcount, fun _ => ⟨hmem', ?_, ?_, ?_, ?_⟩, by simp [hper], by simp [hper]⟩
      · rw [hleft', hr', show (s.advance.timer t).initTick = x.initTick from hinit]
        simp
      · rw [hrec]
        exact hp
      · rw [hrec]
        exact hact
      · rw [hrec]
        exact hinit
    · obtain ⟨hcount, hun⟩ := hc.untouched ha' hq fun _ => by omega
      rw [if_neg (by rwa [Expires, if_pos hper])]
      refine ⟨hcount, fun _ => ⟨hun.listed.mpr hmem, ?_, ?_⟩, by simp [hper], by simp [hper]⟩
      · rw [hun.left, hadv, hleft, hr']
        omega
      · rw [hun.record]
        exact ⟨hp, hact, hinit⟩
  | false =>
    have hexp : Expires x (k + 1) ↔ k + 1 = max x.initTick.toNat 1 := by
      rw [Expires, if_neg (by simp [hper])]
    rcases Nat.lt_or_ge k (max x.initTick.toNat 1) with hk | hk
    · obtain ⟨hmem, hleft, hp⟩ := h.pending hper hk
      have hadv := left_advance ha hmem
      by_cases hend : k + 1 = max x.initTick.toNat 1
      · -- the time is up
        obtain ⟨hcount, hout⟩ := hc.timedOut ha' hq hmem (by omega) fun hp' => by
          rw [show (s.advance.timer t).periodic = false from hp] at hp'
          exact absurd hp' (by simp)
        rw [if_pos (hexp.mpr hend)]
        exact ⟨hcount, by simp [hper], fun _ hk' => by omega, fun _ _ => (hout.oneshot hp).1⟩
      · obtain ⟨hcount, hun⟩ := hc.untouched ha' hq fun _ => by omega
        rw [if_neg (by rwa [hexp])]
        refine ⟨hcount, by simp [hper], fun _ _ => ⟨hun.listed.mpr hmem, ?_, ?_⟩,
          fun _ hk' => by omega⟩
        · rw [hun.left, hadv, hleft]
          omega
        · rw [hun.record]
          exact hp
    · -- it has timed out before
      have hgone := h.finished hper hk
      obtain ⟨hcount, hun⟩ := hc.untouched ha' hq fun hm => absurd hm hgone
      rw [if_neg (by rw [hexp]; omega)]
      exact ⟨hcount, by simp [hper], fun _ hk' => by omega, fun _ _ => by rwa [hun.listed]⟩

end Schedule

end Timers

/-- Whether an action makes no call for `t`, its timeout functions included. -/
def TimerAction.LeavesAlone {T : Type} (t : T) : TimerAction T → Prop
  | .call c => c.timer ≠ t
  | .tick script => Timers.Quiet script t

/-- Whether an action is a tick. -/
def TimerAction.isTick {T : Type} : TimerAction T → Bool
  | .tick _ => true
  | .call _ => false

namespace TimerSystem

variable {T : Type} [DecidableEq T] {s s' s₀ s₁ : TimerSystem T} {t : T}
  {h h₁ h₂ : History (TimerSystem T) (TimerAction T)} {a : TimerAction T}

/-- No timer is active; the tick may stand anywhere. -/
def Initial (s : TimerSystem T) : Prop :=
  s.timers.timerList = [] ∧ ∀ t, (s.timers.timer t).activated = false

/-- The ticks of a history. -/
def ticks (h : History (TimerSystem T) (TimerAction T)) : ℕ := h.countP fun x => x.2.isTick

/-- What an action can do. -/
theorem step_cases (hs : step a s = some s') :
    (∃ c, a = .call c ∧ s.timers.call c = some s'.timers ∧ s'.fired = []) ∨
      ∃ script, a = .tick script ∧ s.timers.rtTickIncrease script = some (s'.fired, s'.timers) := by
  cases a with
  | call c =>
    simp only [step, Option.map_eq_some_iff] at hs
    obtain ⟨timers, hcall, rfl⟩ := hs
    exact .inl ⟨c, rfl, hcall, rfl⟩
  | tick script =>
    simp only [step, Option.map_eq_some_iff] at hs
    obtain ⟨r, htick, rfl⟩ := hs
    exact .inr ⟨script, rfl, htick⟩

theorem armed_step (ha : s.timers.Armed 0) (hs : step a s = some s') : s'.timers.Armed 0 := by
  obtain ⟨c, rfl, hcall, -⟩ | ⟨script, rfl, htick⟩ := step_cases hs
  · exact (ha.call (by norm_num) le_rfl hcall).1
  · exact (ha.rtTickIncrease htick).2.mono (by norm_num)

/-- Between the actions of a run the list is in order and no timer is overdue. -/
theorem armed_run {guard : History (TimerSystem T) (TimerAction T) → TimerSystem T →
    TimerAction T → Prop} {start : TimerSystem T → Prop} (hstart : ∀ s, start s → s.Initial)
    (hr : Run step guard start h s) : s.timers.Armed 0 := by
  refine hr.stateInvariant (fun s hs => ?_) fun s a s' => armed_step
  have hnil := (hstart s hs).1
  exact ⟨by simp [hnil], by simp [hnil], by simp [hnil, InOrder]⟩

/-- A timer left alone since it was started is on time. -/
theorem onTime_run (hr : Run step free Initial (h₁ ++ (s₀, .call (.start t)) :: h₂) s)
    (hquiet : ∀ x ∈ h₁, x.2.LeavesAlone t)
    (hpos : (s₀.timers.timer t).periodic = true → 0 < (s₀.timers.timer t).initTick.toNat) :
    Timers.OnTime (s₀.timers.timer t) (ticks h₁) s.timers t := by
  induction h₁ generalizing s with
  | nil =>
    cases hr with
    | step hr _ hs =>
      have ha := armed_run (fun _ => id) hr
      obtain ⟨c, hc, hcall, -⟩ | ⟨script, hc, -⟩ := step_cases hs
      · cases hc
        exact (Timers.started_of_start hcall).onTime ha (by norm_num)
      · cases hc
  | cons x h₁ ih =>
    rw [List.forall_mem_cons] at hquiet
    cases hr with
    | @step _ s₁ _ a hr _ hs =>
      have ha := armed_run (fun _ => id) hr
      have htime := ih hr hquiet.2
      obtain ⟨c, rfl, hcall, -⟩ | ⟨script, rfl, htick⟩ := step_cases hs
      · exact htime.untouched (.call ha (by norm_num) hquiet.1 hcall)
      · have hnext := (htime.tick ha hquiet.1 hpos htick).2
        rwa [ticks, List.countP_cons_of_pos rfl]

/-- A timer that is started outside a tick, a periodic one with a positive time, and after that
touched neither from outside nor by a timeout function, times out at the ticks its record names
and at no other, once each: a periodic one at every multiple of its time, a one-shot one when
its time is up (at the next tick if its time is zero). It does so whatever the other timers do,
wherever the tick stands and when it wraps around. -/
theorem fired_iff_expires {script : List (List (TimerCall T))}
    (hr : Run step free Initial
      ((s₁, .tick script) :: (h₁ ++ (s₀, .call (.start t)) :: h₂)) s)
    (hquiet : ∀ x ∈ (s₁, .tick script) :: h₁, x.2.LeavesAlone t)
    (hpos : (s₀.timers.timer t).periodic = true → 0 < (s₀.timers.timer t).initTick.toNat) :
    s.fired.count t = if Timers.Expires (s₀.timers.timer t) (ticks h₁ + 1) then 1 else 0 := by
  rw [List.forall_mem_cons] at hquiet
  cases hr with
  | step hr _ hs =>
    have ha := armed_run (fun _ => id) hr
    have htime := onTime_run hr hquiet.2 hpos
    obtain ⟨c, hc, -⟩ | ⟨script', hc, htick⟩ := step_cases hs
    · cases hc
    · cases hc
      exact (htime.tick ha hquiet.1 hpos htick).1

/-- A periodic timer of two ticks, the tick just below its wrap-around. -/
def nearWrap : TimerSystem Unit where
  timers := ⟨0xFFFFFFFE, [], fun _ => ⟨false, true, 0, 2⟩⟩
  fired := []

theorem nearWrap_initial : nearWrap.Initial := ⟨rfl, fun _ => rfl⟩

theorem fired_iff_expires_wrapped :
    ∃ s : TimerSystem Unit, s.timers.rtTick = 0 ∧ s.fired.count () = 1 := by
  have h₀ : Run step free Initial [] nearWrap := .start nearWrap_initial
  have h₁ := h₀.step (a := .call (.start ())) trivial rfl
  have h₂ := h₁.step (a := .tick []) trivial rfl
  have h₃ := h₂.step (a := .tick []) trivial rfl
  have hr : Run step free Initial (_ :: ([_] ++ (_, .call (.start ())) :: [])) _ := h₃
  refine ⟨_, rfl, (fired_iff_expires hr ?_ fun _ => ?_).trans ?_⟩
  · simp [TimerAction.LeavesAlone, Timers.Quiet]
  · decide
  · decide

end TimerSystem

end NanoAt
