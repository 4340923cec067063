import NanoAt.ReceiveQueue

/-!
# The end of the packet string

`Rec_WaitAT` treats `process_buff` as a C string, but nothing writes a terminator. `strstr`
and the `rt_strlen` of the printing find one inside the array whatever is copied meanwhile,
as long as the copy loop of `serial_entry` leaves the last place of the array alone.

## Main definitions

- `Sys.inRecWaitAT` — `at_process` is inside `Rec_WaitAT`
- `Sys.terminated` — `process_buff` contains a zero byte
- `Sys.reads` — the indices at which a statement reads the string
- `sparesLastPlace` — no byte but zero is copied to the last place
-/

namespace NanoAt
open CString GuardedRun

namespace Sys

/-- `at_process` is inside `Rec_WaitAT`. -/
def inRecWaitAT (s : Sys) : Prop :=
  match s.atProcess with
  | .recWait | .search .. | .disarm | .select | .print .. | .clear _ | .ack => True
  | _ => False

instance (s : Sys) : Decidable s.inRecWaitAT := by
  unfold inRecWaitAT
  generalize s.atProcess = pc
  apply @ProcessPc.casesOn _ pc <;> intros <;> infer_instance

/-- A zero byte stands in `process_buff`. -/
def terminated (s : Sys) : Prop := ∃ k < usart1ProSize, s.processBuff.read k = 0

instance (s : Sys) : Decidable s.terminated := by
  unfold terminated; infer_instance

/-- The indices at which the next statement of `at_process` reads the string: a comparison of
`strstr` reads the byte compared and, where it differs, the byte at which the search stands. -/
def reads (s : Sys) : List ℕ :=
  match s.atProcess with
  | .search c i j => if j = (atCmds c).atRecStr.length then [] else [i + j, i]
  | .print _ k => [k]
  | _ => []

end Sys

/-- `serial` copies no byte but zero to the last place of `process_buff`. -/
def sparesLastPlace (_ : History Sys Action) (s : Sys) (a : Action) : Prop :=
  a = .run .serial → s.serial = .copy → s.processP = usart1ProSize - 1 →
    s.dmaRecBuffer.read s.usartDMARecQRear = 0

instance (h : History Sys Action) (s : Sys) (a : Action) : Decidable (sparesLastPlace h s a) := by
  unfold sparesLastPlace; infer_instance

namespace Event

/-- `at_process` enters `Rec_WaitAT`. -/
def enters : Event → Bool := processAt .recWait

/-- `at_process` reads bytes of the string. -/
def looks (x : Event) : Bool := x.2 = .run .atProcess ∧ x.1.reads ≠ []

end Event

/-- How many statements have read the string since `Rec_WaitAT` was entered. -/
def looks (h : History Sys Action) : ℕ := (since Event.enters h).countP Event.looks

section Invariants

variable {h : History Sys Action} {s s' : Sys} {a : Action}

@[simp] theorem looks_cons : looks ((s, a) :: h) =
    if a = .run .atProcess ∧ s.atProcess = .recWait then 0
    else looks h + if a = .run .atProcess ∧ s.reads ≠ [] then 1 else 0 := by
  by_cases he : a = .run .atProcess ∧ s.atProcess = .recWait <;>
    simp [looks, Event.enters, Event.looks, Event.processAt, he, List.countP_cons]

/-- The last place of the buffer holds a zero byte, and neither the search nor the printing
has gone beyond it. -/
structure Terminated (s : Sys) : Prop where
  last : s.processBuff.read (usart1ProSize - 1) = 0
  search : ∀ c i j, s.atProcess = .search c i j →
    j ≤ (atCmds c).atRecStr.length ∧ i + j < usart1ProSize
  print : ∀ clears k, s.atProcess = .print clears k → k < usart1ProSize

namespace Terminated

theorem init {behind : Ram} : Terminated (Sys.init behind) := by
  refine ⟨?_, by simp [Sys.init], by simp [Sys.init]⟩
  simp [Sys.init, Buffer.read]

theorem frame (hi : Terminated s) (hbuff : s'.processBuff = s.processBuff)
    (hsearch : ∀ c i j, s'.atProcess = .search c i j → s.atProcess = .search c i j)
    (hprint : ∀ clears k, s'.atProcess = .print clears k → s.atProcess = .print clears k) :
    Terminated s' :=
  ⟨hbuff ▸ hi.last, fun c i j hs => hi.search c i j (hsearch c i j hs),
    fun b k hs => hi.print b k (hprint b k hs)⟩

/-- The zero byte in the last place ends the string in memory. -/
theorem memory_last (hi : Terminated s) : s.memory.getD (usart1ProSize - 1) 0 = 0 := by
  rw [Sys.memory, Buffer.getD_memory _ _ (by decide), hi.last]

theorem trans (hi : Terminated s) (hg : sparesLastPlace h s a) (ht : Trans s a s') :
    Terminated s' := by
  cases ht
  case serialCopy hpc =>
    refine ⟨?_, hi.search, hi.print⟩
    rw [Buffer.read_write]
    split
    case isTrue hlast => exact hg rfl hpc hlast.1
    case isFalse => exact hi.last
  case clearByte k hpc hk =>
    refine ⟨?_, by simp, by simp⟩
    rw [Buffer.read_write]
    split
    · rfl
    · exact hi.last
  case recWait =>
    refine ⟨hi.last, ?_, by simp⟩
    intro c i j hsearch
    obtain ⟨-, rfl, rfl⟩ : s.atRecCmdNum = c ∧ 0 = i ∧ 0 = j := by simpa using hsearch
    exact ⟨Nat.zero_le _, by decide⟩
  case searchNext d i j i' j' hpc hnext =>
    refine ⟨hi.last, ?_, by simp⟩
    intro c i₁ j₁ hsearch
    obtain ⟨rfl, rfl, rfl⟩ : d = c ∧ i' = i₁ ∧ j' = j₁ := by simpa using hsearch
    obtain ⟨hj, hij⟩ := hi.search d i j hpc
    obtain ⟨hj', hle⟩ :=
      probe_next_le (atRecStr_valid d).2 hj hnext (Nat.le_sub_one_of_lt hij) hi.memory_last
    exact ⟨hj', Nat.lt_of_le_sub_one (by decide) hle⟩
  case select =>
    refine ⟨hi.last, by simp, ?_⟩
    intro clears k hprint
    obtain ⟨-, rfl⟩ : Sys.clearsProcessBuff s.atCurrentCmdNum = clears ∧ 0 = k := by
      simpa using hprint
    decide
  case printByte clears k hpc hne =>
    refine ⟨hi.last, by simp, ?_⟩
    intro clears₁ k₁ hprint
    obtain ⟨-, rfl⟩ : clears = clears₁ ∧ k + 1 = k₁ := by simpa using hprint
    have hk := hi.print clears k hpc
    have hlast : k ≠ usart1ProSize - 1 := by
      rintro rfl
      exact hne hi.memory_last
    omega
  all_goals exact hi.frame rfl (by simp) (by simp)

/-- A statement of `Rec_WaitAT` reads inside the array. -/
theorem reads_lt (hi : Terminated s) : ∀ k ∈ s.reads, k < usart1ProSize := by
  intro k hk
  unfold Sys.reads at hk
  split at hk
  case h_1 c i j hpc =>
    have hij := (hi.search c i j hpc).2
    split at hk <;> simp at hk
    omega
  case h_2 clears n hpc =>
    obtain rfl : k = n := by simpa using hk
    exact hi.print clears k hpc
  case h_3 => simp at hk

end Terminated

/-- How often the string has been read is bounded by where the search and the printing
stand: at each of the 196 places the search makes at most 16 comparisons. -/
structure Looks (h : History Sys Action) (s : Sys) : Prop where
  search : ∀ c i j, s.atProcess = .search c i j → looks h ≤ 16 * i + j
  found : s.atProcess = .disarm ∨ s.atProcess = .select → looks h ≤ 16 * usart1ProSize
  print : ∀ clears k, s.atProcess = .print clears k → looks h ≤ 16 * usart1ProSize + k
  done : (∃ k, s.atProcess = .clear k) ∨ s.atProcess = .ack → looks h ≤ 17 * usart1ProSize

/-- No keyword is longer than 15 bytes. -/
theorem length_atRecStr_le (c : TeATCmdNum) : (atCmds c).atRecStr.length ≤ 15 := by
  cases c <;> decide

namespace Looks

theorem init {behind : Ram} : Looks [] (Sys.init behind) := by
  constructor <;> simp [Sys.init]

theorem frame (hl : Looks h s) (hpc : s'.atProcess = s.atProcess) (ha : a ≠ .run .atProcess) :
    Looks ((s, a) :: h) s' := by
  have hlooks : looks ((s, a) :: h) = looks h := by simp [ha]
  constructor <;> simp only [hpc, hlooks]
  · exact hl.search
  · exact hl.found
  · exact hl.print
  · exact hl.done

theorem trans (hi : Terminated s) (hl : Looks h s) (ht : Trans s a s') :
    Looks ((s, a) :: h) s' := by
  cases ht
  case recWait hpc =>
    refine ⟨?_, by simp, by simp, by simp⟩
    intro c i j _
    simp [hpc]
  case searchNext c i j i' j' hpc hnext =>
    have hlooks := hl.search c i j hpc
    have hlen := length_atRecStr_le c
    have hj := (hi.search c i j hpc).1
    refine ⟨?_, by simp, by simp, by simp⟩
    intro d i₁ j₁ hsearch
    obtain ⟨-, rfl, rfl⟩ : c = d ∧ i' = i₁ ∧ j' = j₁ := by simpa using hsearch
    have hcount : looks ((s, .run .atProcess) :: h) ≤ looks h + 1 := by
      rw [looks_cons]
      split_ifs <;> omega
    rcases probe_next hnext with ⟨rfl, rfl⟩ | ⟨rfl, rfl⟩ <;> omega
  case searchFound c i j hpc hfound =>
    have hlooks := hl.search c i j hpc
    have hlen := length_atRecStr_le c
    obtain ⟨hj, hij⟩ := hi.search c i j hpc
    have hend : j = (atCmds c).atRecStr.length := by
      unfold probe at hfound
      split_ifs at hfound with hend
      exact hend
    refine ⟨by simp, ?_, by simp, by simp⟩
    intro _
    simp only [looks_cons, hpc, Sys.reads, hend]
    simp
    omega
  case disarm hpc =>
    have hlooks := hl.found (.inl hpc)
    exact ⟨by simp, by simpa [hpc, Sys.reads] using hlooks, by simp, by simp⟩
  case select hpc =>
    have hlooks := hl.found (.inr hpc)
    refine ⟨by simp, by simp, ?_, by simp⟩
    intro clears k hprint
    have hcount : looks ((s, .run .atProcess) :: h) = looks h := by simp [hpc, Sys.reads]
    omega
  case printByte clears k hpc _ =>
    have hlooks := hl.print clears k hpc
    refine ⟨by simp, by simp, ?_, by simp⟩
    intro clears₁ k₁ hprint
    obtain ⟨-, rfl⟩ : clears = clears₁ ∧ k + 1 = k₁ := by simpa using hprint
    have hcount : looks ((s, .run .atProcess) :: h) = looks h + 1 := by simp [hpc, Sys.reads]
    omega
  case printClear k hpc _ | printKeep k hpc _ =>
    have hlooks := hl.print _ k hpc
    have hk := hi.print _ k hpc
    have hcount : looks ((s, .run .atProcess) :: h) = looks h + 1 := by simp [hpc, Sys.reads]
    refine ⟨by simp, by simp, by simp, fun _ => ?_⟩
    omega
  case clearByte k hpc _ | clearDone k hpc _ =>
    have hlooks := hl.done (.inl ⟨k, hpc⟩)
    exact ⟨by simp, by simp, by simp, fun _ => by simpa [hpc, Sys.reads] using hlooks⟩
  all_goals
    first
      | exact hl.frame rfl (by simp)
      | exact ⟨by simp, by simp, by simp, by simp⟩

/-- Inside `Rec_WaitAT` the string has been read at most 17 times 196 times. -/
theorem le (hi : Terminated s) (hl : Looks h s) (hin : s.inRecWaitAT)
    (hpc : s.atProcess ≠ .recWait) : looks h ≤ 17 * usart1ProSize := by
  unfold Sys.inRecWaitAT at hin
  split at hin
  case h_1 h0 => exact absurd h0 hpc
  case h_2 c i j h0 =>
    have hlooks := hl.search c i j h0
    have hij := (hi.search c i j h0).2
    omega
  case h_3 h0 => exact (hl.found (.inl h0)).trans (by decide)
  case h_4 h0 => exact (hl.found (.inr h0)).trans (by decide)
  case h_5 clears k h0 =>
    have hlooks := hl.print clears k h0
    have hk := hi.print clears k h0
    omega
  case h_6 k h0 => exact hl.done (.inl ⟨k, h0⟩)
  case h_7 h0 => exact hl.done (.inr h0)
  case h_8 => exact hin.elim

end Looks

theorem Run.terminated (hr : SysRun sparesLastPlace h s) : Terminated s ∧ Looks h s := by
  refine hr.invariant (P := fun h s => Terminated s ∧ Looks h s) (fun _ => ⟨.init, .init⟩) ?_
  rintro h s a s' _ ⟨hi, hl⟩ hg hm
  exact ⟨hi.trans hg hm.trans, hl.trans hi hm.trans⟩

end Invariants

/-- Where no byte but zero is copied to the last place of `process_buff`, `Rec_WaitAT` always
finds a terminator inside the array: its statements read no byte behind it, and `strstr` and
`rt_strlen` together come to an end after at most 17 reads a place. -/
theorem packet_string_terminated {h h₁ h₂ : History Sys Action} {s : Sys} {x : Event}
    (hr : SysRun sparesLastPlace h s) (hh : h = h₁ ++ x :: h₂) (ha : x.2 = .run .atProcess)
    (hin : x.1.inRecWaitAT) :
    x.1.terminated ∧ (∀ k ∈ x.1.reads, k < usart1ProSize) ∧
      (x.1.atProcess ≠ .recWait → looks h₂ ≤ 17 * usart1ProSize) := by
  subst hh
  obtain ⟨s₀, a⟩ := x
  obtain ⟨hi, hl⟩ := Run.terminated hr.prior.1
  exact ⟨⟨usart1ProSize - 1, by decide, hi.last⟩, hi.reads_lt, hl.le hi hin⟩

/-- A burst of 195 bytes, of which the first one matches: the printing reads the byte behind
the last one copied. -/
theorem packet_string_terminated_longest_packet :
    ∃ h s, SysRun sparesLastPlace h s ∧ ∃ h₁ x h₂, h = h₁ ++ x :: h₂ ∧
      x.1.packet = ascii "ROLE:" ++ List.replicate 190 65 ∧ 195 ∈ x.1.reads ∧
      x.1.terminated ∧ (∀ k ∈ x.1.reads, k < usart1ProSize) := by
  obtain ⟨h, s, hr, ht⟩ := SysRun.exists_of_exec sparesLastPlace
    (startUp ++ packetIn (ascii "ROLE:" ++ List.replicate 190 65) ++ runs .atProcess 206)
    (fun h _ => ∃ x ∈ h, x.2 = .run .atProcess ∧ x.1.inRecWaitAT ∧
      x.1.packet = ascii "ROLE:" ++ List.replicate 190 65 ∧ 195 ∈ x.1.reads)
    (by decide +kernel)
  obtain ⟨x, hx, ha, hin, hp, hread⟩ : ∃ x ∈ h, x.2 = .run .atProcess ∧ x.1.inRecWaitAT ∧
    x.1.packet = ascii "ROLE:" ++ List.replicate 190 65 ∧ 195 ∈ x.1.reads := by simpa using ht
  obtain ⟨h₁, h₂, rfl⟩ := List.append_of_mem hx
  have hinside := packet_string_terminated hr rfl ha hin
  exact ⟨_, s, hr, h₁, x, h₂, rfl, hp, hread, hinside.1, hinside.2.1⟩

/-- One burst of 196 bytes fills the buffer to its end. -/
theorem full_burst_leaves_no_terminator :
    ¬ ∀ h s, SysRun free h s → ∀ x ∈ h, x.2 = .run .atProcess → x.1.inRecWaitAT →
      x.1.terminated := by
  intro hall
  obtain ⟨h, s, hr, ht⟩ := SysRun.exists_of_exec free
    (startUp ++ List.replicate 196 (.receive 86) ++ [.usart1] ++ runs .serial 788 ++
      runs .atProcess 2)
    (fun h _ => ∃ x ∈ h, x.2 = .run .atProcess ∧ x.1.inRecWaitAT ∧ ¬ x.1.terminated)
    (by decide +kernel)
  obtain ⟨x, hx, ha, hin, hno⟩ : ∃ x ∈ h, x.2 = .run .atProcess ∧ x.1.inRecWaitAT ∧
    ¬ x.1.terminated := by simpa using ht
  exact hno (hall h s hr x hx ha hin)

end NanoAt
