import NanoAt.Commands

/-!
# The HAL time base

`HAL_GetTick` of `drv_common.c` converts the tick counter to milliseconds in 32-bit
arithmetic, so that its product wraps every 4294967 or 4294968 ticks while the counter
itself runs for 2^32. The wait loop of `stm32f1xx_hal_uart.c` subtracts two of its values. It
sees ticks only: what it does before a time has passed is stated over `Moment`, which has the
real time of a check.

## Main definitions

- `halGetTick` — `HAL_GetTick`
- `uartWaitOnFlagUntilTimeout`, `halUartTransmit` — the wait loop and the transmission over it
- `wraps` — how often the product has wrapped
- `Moment` — a check of the flag in real time
- `NeverEarly`, `NeverCutShort` — no timeout before the time
-/

namespace NanoAt
open CString

/-- `RT_TICK_PER_SECOND`. -/
abbrev rtTickPerSecond : UInt32 := 1000

/-- `HAL_MAX_DELAY`. -/
abbrev halMaxDelay : UInt32 := 0xFFFFFFFF

/-- `rt_tick_increase`, called by `SysTick_Handler`. -/
def rtTickIncrease (rtTick : UInt32) : UInt32 := rtTick + 1

/-- `HAL_GetTick`. -/
def halGetTick (rtTick : UInt32) : UInt32 := rtTick * 1000 / rtTickPerSecond

/-- `HAL_StatusTypeDef`. -/
inductive HalStatus where
  | ok | error | busy | timeout
  deriving DecidableEq, Repr

/-- `gState` of a UART handle. -/
inductive HalUartState where
  | ready | busyTx
  deriving DecidableEq, Repr

/-- `Lock` of a UART handle. -/
inductive HalLock where
  | unlocked | locked
  deriving DecidableEq, Repr

/-- `UART_HandleTypeDef`, as far as a transmission reads it. -/
structure UartHandle where
  gState : HalUartState
  lock : HalLock
  deriving DecidableEq, Repr

/-- One round of a wait loop: whether the flag still has the status that is waited out,
and the ticks since `Tickstart` was read. -/
structure Poll where
  waiting : Bool
  ticks : ℕ
  deriving DecidableEq, Repr

/-- `rt_tick` when `n` ticks have passed. -/
def tickAfter (rtTick : UInt32) (n : ℕ) : UInt32 := rtTickIncrease^[n] rtTick

/-- `UART_WaitOnFlagUntilTimeout` with `Tickstart` read at tick `start`; nothing while the
loop has not ended. -/
def uartWaitOnFlagUntilTimeout (start timeout : UInt32) : List Poll → Option HalStatus
  | [] => none
  | p :: polls =>
    if p.waiting then
      if timeout ≠ halMaxDelay ∧ (timeout = 0 ∨
          halGetTick (tickAfter start p.ticks) - halGetTick start > timeout) then
        some .timeout
      else uartWaitOnFlagUntilTimeout start timeout polls
    else some .ok

/-- The loop of `HAL_UART_Transmit` over 8-bit words: a wait for TXE before each byte and one
for TC after the last, all from one `tickstart`. The result is the status and the bytes
written to the data register. -/
def halUartTransmitLoop (start timeout : UInt32) :
    List UInt8 → List (List Poll) → Option HalStatus × List UInt8
  | _, [] => (none, [])
  | [], polls :: _ => (uartWaitOnFlagUntilTimeout start timeout polls, [])
  | b :: pData, polls :: waits =>
    match uartWaitOnFlagUntilTimeout start timeout polls with
    | some .ok =>
      let (status, sent) := halUartTransmitLoop start timeout pData waits
      (status, b :: sent)
    | status => (status, [])

/-- `HAL_UART_Transmit`; the list `pData` has the `Size` bytes, none also where the pointer is
`NULL`. -/
def halUartTransmit (huart : UartHandle) (start timeout : UInt32) (pData : List UInt8)
    (waits : List (List Poll)) : Option HalStatus × List UInt8 :=
  if huart.gState = .ready then
    if pData.length = 0 then (some .error, [])
    else if huart.lock = .locked then (some .busy, [])
    else halUartTransmitLoop start timeout pData waits
  else (some .busy, [])

/-- How often the product `rt_tick * 1000` has wrapped at tick `t`. -/
def wraps (t : UInt32) : ℕ := t.toNat * 1000 / 2 ^ 32

/-- A check of the flag in real time: the milliseconds since `Tickstart` was read. -/
structure Moment where
  waiting : Bool
  elapsed : ℝ

/-- What the loop sees of a moment, where `Tickstart` was read `phase` milliseconds after a
tick. -/
noncomputable def Moment.poll (phase : ℝ) (m : Moment) : Poll where
  waiting := m.waiting
  ticks := ⌊phase + m.elapsed⌋₊

/-- A check before `timeout` milliseconds have passed. -/
def Moment.before (timeout : UInt32) (m : Moment) : Prop :=
  0 ≤ m.elapsed ∧ m.elapsed < timeout.toNat

/-- A wait begun at tick `start`, anywhere between it and the next, does not report a timeout
before `timeout` milliseconds have passed. -/
def NeverEarly (start timeout : UInt32) : Prop :=
  ∀ phase : ℝ, 0 ≤ phase → phase < 1 → ∀ moments : List Moment,
    (∀ m ∈ moments, m.before timeout) →
      uartWaitOnFlagUntilTimeout start timeout (moments.map (·.poll phase)) ≠ some .timeout

/-- A transmission begun at tick `start` is not cut short before `timeout` milliseconds have
passed. -/
def NeverCutShort (start timeout : UInt32) : Prop :=
  ∀ phase : ℝ, 0 ≤ phase → phase < 1 → ∀ (huart : UartHandle) (pData : List UInt8)
    (waits : List (List Moment)), (∀ moments ∈ waits, ∀ m ∈ moments, m.before timeout) →
      (halUartTransmit huart start timeout pData
        (waits.map fun moments => moments.map (·.poll phase))).1 ≠ some .timeout

/-- The ticks that the clock is behind after `q` wraps. -/
def lostTicks (q : ℕ) : ℕ := (2 ^ 32 * q + 999) / 1000

theorem toNat_mul_thousand (t : UInt32) : (t * 1000).toNat = t.toNat * 1000 % 2 ^ 32 := by
  rw [UInt32.toNat_mul]
  rfl

theorem toNat_halGetTick (t : UInt32) : (halGetTick t).toNat = (t * 1000).toNat / 1000 := by
  rw [halGetTick, UInt32.toNat_div]
  rfl

theorem toNat_tickAfter (t : UInt32) (n : ℕ) :
    (tickAfter t n).toNat = (t.toNat + n) % 2 ^ 32 := by
  induction n with
  | zero => simp [tickAfter, Nat.mod_eq_of_lt t.toNat_lt]
  | succ n ih =>
    have hsucc : tickAfter t (n + 1) = tickAfter t n + 1 := by
      rw [tickAfter, Function.iterate_succ_apply']
      rfl
    rw [hsucc, UInt32.toNat_add, ih]
    simp only [UInt32.toNat_one]
    omega

/-- The clock after `n` ticks, by the wrapped product at tick `t`. -/
theorem toNat_halGetTick_tickAfter (t : UInt32) (n : ℕ) :
    (halGetTick (tickAfter t n)).toNat = ((t * 1000).toNat + 1000 * n) % 2 ^ 32 / 1000 := by
  rw [toNat_halGetTick, toNat_mul_thousand, toNat_mul_thousand, toNat_tickAfter]
  omega

/-- Up to the ticks lost at its wraps the clock is the tick counter. -/
theorem halGetTick_add_lostTicks (t : UInt32) :
    (halGetTick t).toNat + lostTicks (wraps t) = t.toNat := by
  rw [toNat_halGetTick, toNat_mul_thousand, lostTicks, wraps]
  omega

theorem lostTicks_injective : Function.Injective lostTicks := by
  intro q r h
  simp only [lostTicks] at h
  omega

/-- Between two wraps of the product, and only there, the clock counts milliseconds. -/
theorem halGetTick_sub_eq_iff (t d : UInt32) :
    halGetTick (t + d) - halGetTick t = d ↔ wraps (t + d) = wraps t := by
  have hstart := halGetTick_add_lostTicks t
  have hend := halGetTick_add_lostTicks (t + d)
  have ht := t.toNat_lt
  have hd := d.toNat_lt
  rw [UInt32.toNat_add] at hend
  rw [← UInt32.toNat_inj, UInt32.toNat_sub]
  constructor
  · intro h
    apply lostTicks_injective
    omega
  · intro h
    rw [h] at hend
    omega

section Wait

variable {t timeout : UInt32} {n : ℕ}

/-- The difference of two values of the clock, the later one not smaller. -/
theorem toNat_sub_of_le {a b : UInt32} (h : a.toNat ≤ b.toNat) :
    (b - a).toNat = b.toNat - a.toNat := by
  have hb := b.toNat_lt
  rw [UInt32.toNat_sub, show 2 ^ 32 - a.toNat + b.toNat = b.toNat - a.toNat + 2 ^ 32 by omega,
    Nat.add_mod_right, Nat.mod_eq_of_lt (by omega)]

/-- The difference of two values of the clock, the later one smaller. -/
theorem toNat_sub_of_lt {a b : UInt32} (h : b.toNat < a.toNat) :
    (b - a).toNat = 2 ^ 32 - a.toNat + b.toNat := by
  have ha := a.toNat_lt
  rw [UInt32.toNat_sub, Nat.mod_eq_of_lt (by omega)]

/-- Before `timeout` milliseconds have passed, `timeout` ticks can be seen but not more. -/
theorem Moment.before.ticks_le {m : Moment} {phase : ℝ} (hm : m.before timeout) (h1 : phase < 1) :
    (m.poll phase).ticks ≤ timeout.toNat := by
  have hlt : phase + m.elapsed < ((timeout.toNat + 1 : ℕ) : ℝ) := by
    push_cast
    linarith [hm.2]
  exact Nat.lt_succ_iff.mp (Nat.floor_lt' (Nat.succ_ne_zero _) |>.mpr hlt)

/-- Each of these ticks is seen by some check, the last one only where the wait began between
two ticks. -/
theorem exists_moment_of_le (hpos : 0 < timeout.toNat) (hn : n ≤ timeout.toNat) :
    ∃ phase : ℝ, 0 ≤ phase ∧ phase < 1 ∧ ∃ m : Moment, m.before timeout ∧
      m.poll phase = ⟨true, n⟩ := by
  rcases hn.lt_or_eq with hlt | rfl
  · have hbefore : (n : ℝ) < timeout.toNat := by exact_mod_cast hlt
    refine ⟨0, le_rfl, one_pos, ⟨true, n⟩, ⟨Nat.cast_nonneg n, hbefore⟩, ?_⟩
    simp [Moment.poll]
  · have hone : (1 : ℝ) ≤ timeout.toNat := by exact_mod_cast hpos
    refine ⟨1 / 2, by norm_num, by norm_num, ⟨true, timeout.toNat - 1 / 2⟩,
      ⟨by linarith, by linarith⟩, ?_⟩
    simp [Moment.poll]

/-- A wait is never early when none of its checks finds the time elapsed too soon. -/
theorem neverEarly_iff_checks : NeverEarly t timeout ↔ timeout = halMaxDelay ∨
    ∀ n ≤ timeout.toNat, (halGetTick (tickAfter t n) - halGetTick t).toNat ≤ timeout.toNat := by
  constructor
  · intro h
    by_cases hmax : timeout = halMaxDelay
    · exact .inl hmax
    right
    intro n hn
    rcases Nat.eq_zero_or_pos timeout.toNat with h0 | hpos
    · obtain rfl : n = 0 := by omega
      simp [tickAfter]
    by_contra hlate
    obtain ⟨phase, h0, h1, m, hm, hpoll⟩ := exists_moment_of_le hpos hn
    apply h phase h0 h1 [m] (by simpa using hm)
    have hlate : halGetTick (tickAfter t n) - halGetTick t > timeout := by
      simpa [UInt32.lt_iff_toNat_lt] using hlate
    simp [uartWaitOnFlagUntilTimeout, hpoll, hmax, hlate]
  · intro h phase h0 h1 moments
    induction moments with
    | nil => simp [uartWaitOnFlagUntilTimeout]
    | cons m moments ih =>
      intro hmoments
      have hm := hmoments m List.mem_cons_self
      have hrest := ih fun q hq => hmoments q (List.mem_cons_of_mem _ hq)
      have hcheck : ¬ (timeout ≠ halMaxDelay ∧ (timeout = 0 ∨
          halGetTick (tickAfter t (m.poll phase).ticks) - halGetTick t > timeout)) := by
        rintro ⟨hmax, rfl | hlate⟩
        · have hnone := hm.1.trans_lt hm.2
          simp at hnone
        · have hle := h.resolve_left hmax _ (hm.ticks_le h1)
          rw [gt_iff_lt, UInt32.lt_iff_toNat_lt] at hlate
          omega
      rw [List.map_cons, uartWaitOnFlagUntilTimeout, if_neg hcheck]
      split
      · exact hrest
      · simp

/-- A wait is never early exactly when it waits for ever, begins at the first tick after a
wrap of the product, or the product does not wrap within the ticks of its time. -/
theorem neverEarly_iff : NeverEarly t timeout ↔ timeout = halMaxDelay ∨
    (t * 1000).toNat < 1000 ∨ (t * 1000).toNat + 1000 * timeout.toNat < 2 ^ 32 := by
  have hp := (t * 1000).toNat_lt
  have hT := timeout.toNat_lt
  rw [neverEarly_iff_checks]
  constructor
  · intro h
    by_contra hwrap
    obtain ⟨hmax, hwrap⟩ := not_or.mp hwrap
    obtain ⟨hlate, hover⟩ := not_or.mp hwrap
    replace h := h.resolve_left hmax
    replace hmax : timeout.toNat ≠ 2 ^ 32 - 1 := fun he => hmax (UInt32.toNat_inj.mp he)
    -- the product wraps at tick `first`; until tick `last` the clock stays behind its start
    obtain ⟨first, hfirst⟩ : ∃ first, first = (2 ^ 32 - (t * 1000).toNat + 999) / 1000 :=
      ⟨_, rfl⟩
    obtain ⟨last, hlast⟩ : ∃ last, last = first + (t * 1000).toNat / 1000 - 1 := ⟨_, rfl⟩
    have hstart := toNat_halGetTick t
    have hwrapped : (halGetTick (tickAfter t first)).toNat = 0 := by
      rw [toNat_halGetTick_tickAfter]
      omega
    have hbehind : (halGetTick (tickAfter t last)).toNat = (t * 1000).toNat / 1000 - 1 := by
      rw [toNat_halGetTick_tickAfter]
      omega
    have hcheck := h first (by omega)
    rw [toNat_sub_of_lt (by omega)] at hcheck
    have hcheck' := h last (by omega)
    rw [toNat_sub_of_lt (by omega)] at hcheck'
    omega
  · rintro (h | h | h)
    · exact .inl h
    · right
      intro n hn
      have hend := toNat_halGetTick_tickAfter t n
      have hle := Nat.mod_le ((t * 1000).toNat + 1000 * n) (2 ^ 32)
      have hstart := toNat_halGetTick t
      rw [toNat_sub_of_le (by omega)]
      omega
    · right
      intro n hn
      have hend := toNat_halGetTick_tickAfter t n
      have hstart := toNat_halGetTick t
      rw [Nat.mod_eq_of_lt (by omega)] at hend
      rw [toNat_sub_of_le (by omega)]
      omega

theorem NeverEarly.neverCutShort (h : NeverEarly t timeout) : NeverCutShort t timeout := by
  intro phase h0 h1 huart pData waits hwaits
  have hloop : (halUartTransmitLoop t timeout pData
      (waits.map fun moments => moments.map (·.poll phase))).1 ≠ some .timeout := by
    induction waits generalizing pData with
    | nil => cases pData <;> simp [halUartTransmitLoop]
    | cons moments waits ih =>
      have hfirst := h phase h0 h1 moments (hwaits moments List.mem_cons_self)
      cases pData with
      | nil => simpa [halUartTransmitLoop] using hfirst
      | cons b pData =>
        have hrest := ih pData fun l hl => hwaits l (List.mem_cons_of_mem _ hl)
        rw [List.map_cons, halUartTransmitLoop]
        split
        · exact hrest
        · exact hfirst
  rw [halUartTransmit]
  split_ifs
  · simp
  · simp
  · exact hloop
  · simp

/-- A wait that is early cuts short the transmission of a single byte. -/
theorem NeverCutShort.neverEarly (h : NeverCutShort t timeout) : NeverEarly t timeout := by
  intro phase h0 h1 moments hmoments hlate
  apply h phase h0 h1 ⟨.ready, .unlocked⟩ [0] [moments] (by simpa using hmoments)
  simp [halUartTransmit, halUartTransmitLoop, hlate]

theorem neverCutShort_iff : NeverCutShort t timeout ↔ NeverEarly t timeout :=
  ⟨NeverCutShort.neverEarly, NeverEarly.neverCutShort⟩

end Wait

/-- The clock counts the milliseconds from `t` to `t + d` exactly when as many wraps of the
product lie before the one as before the other. A wait, and a transmission, begun at tick `t`
never times out early exactly when it waits for ever, `t` is the first tick after a wrap, or
there is no wrap within the ticks of its time. -/
theorem halGetTick_modular_clock_iff (t d timeout : UInt32) :
    (halGetTick (t + d) - halGetTick t = d ↔ wraps (t + d) = wraps t) ∧
      (NeverEarly t timeout ↔ timeout = halMaxDelay ∨ (t * 1000).toNat < 1000 ∨
        (t * 1000).toNat + 1000 * timeout.toNat < 2 ^ 32) ∧
      (NeverCutShort t timeout ↔ timeout = halMaxDelay ∨ (t * 1000).toNat < 1000 ∨
        (t * 1000).toNat + 1000 * timeout.toNat < 2 ^ 32) :=
  ⟨halGetTick_sub_eq_iff t d, neverEarly_iff, neverCutShort_iff.trans neverEarly_iff⟩

/-- 4294967 ticks after power-on the clock falls back to zero, and the command that is being
sent is cut off after one byte and one millisecond. -/
theorem clock_falls_back_at_wrap :
    (¬ ∀ t d : UInt32, halGetTick (t + d) - halGetTick t = d) ∧
      (¬ ∀ start timeout : UInt32, NeverEarly start timeout) ∧
      halUartTransmit ⟨.ready, .unlocked⟩ 4294967 0xff (atCmds .atRole).atSendStr
        [[⟨false, 0⟩], [⟨true, 1⟩]] = (some .timeout, ascii "A") := by
  refine ⟨?_, ?_, by decide⟩
  · intro h
    exact absurd (h 4294967 1) (by decide)
  · intro h
    have hlate : (⟨true, 1⟩ : Moment).poll 0 = ⟨true, 1⟩ := by simp [Moment.poll]
    refine h 4294967 0xff 0 le_rfl one_pos [⟨true, 1⟩] ?_ ?_
    · have hbefore : (⟨true, 1⟩ : Moment).before 0xff := ⟨zero_le_one, by simp⟩
      simpa using hbefore
    · rw [List.map_singleton, hlate]
      decide

end NanoAt
