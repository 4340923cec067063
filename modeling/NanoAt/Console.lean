import NanoAt.TimeBase
import NanoAt.State
import NanoAt.Lib.GuardedRun
import NanoAt.Lib.Interleaving

/-!
# The console

The threads and `timeout1`, which runs in the SysTick interrupt, write to UART4:
`rt_kprintf` formats into one static buffer and hands it to `rt_hw_console_output`, which
transmits byte by byte and ignores the status, and `serial_entry` echoes `process_buff` by a
transmission of its own. `undisturbed` is the condition on the steps under which the bytes
sent are an interleaving of whole messages.

## Main definitions

- `Writer`, `Text`, `WriterPc` — the writers, what they print and where they stand
- `Console.step` — one store, one test or one byte of a writer
- `expand` — the bytes of a text on the line
- `messages` — what a writer has been asked to write
- `undisturbed` — the condition
-/

namespace NanoAt
open CString GuardedRun Interleave

/-- `RT_CONSOLEBUF_SIZE`. -/
abbrev rtConsolebufSize : ℕ := 512

/-- `'\n'`. -/
abbrev newline : UInt8 := 10

/-- `'\r'`. -/
abbrev carriageReturn : UInt8 := 13

/-- The writers of UART4. -/
inductive Writer where
  | thread (t : Thread)
  | timeout1
  deriving DecidableEq, Repr

instance : Fintype Writer :=
  ⟨insert .timeout1 (Finset.univ.image .thread), fun w => by cases w <;> simp⟩

/-- The text that a call of `rt_kprintf` formats: a C string. -/
structure Text where
  bytes : List UInt8
  nonzero : 0 ∉ bytes
  deriving DecidableEq

/-- The text of a format without arguments. -/
def Text.ofString (fmt : String) : Text where
  bytes := cstr (ascii fmt)
  nonzero := by
    intro hzero
    simpa using List.mem_takeWhile_imp hzero

/-- Statements of `HAL_UART_Transmit`: the test of `gState` and of `Size`, the test and the
store of `__HAL_LOCK`, the store to `gState`, the wait for TXE and the write to the data
register with `k` bytes written before, the wait for TC with the store to `gState`, and
`__HAL_UNLOCK`. -/
inductive TransmitPc where
  | test | lock | setLock | setBusy | write (k : ℕ) | complete | unlock (status : HalStatus)
  | returned (status : HalStatus)
  deriving DecidableEq, Repr

/-- The calls of `HAL_UART_Transmit` on `huart4`: of `&a` and of `str++` by
`rt_hw_console_output`, where `str` stands at index `i` of `rt_log_buf`, and of
`process_buff` by `serial_entry`. Nothing writes to `process_buff` during the echo: `serial`
has the highest priority. -/
inductive Output where
  | carriage (i : ℕ) | character (i : ℕ) | echo (data : List UInt8)
  deriving DecidableEq, Repr

/-- Where a writer stands: in `rt_vsnprintf` with `i` bytes formatted, at the head of the
loop of `rt_hw_console_output`, or in `HAL_UART_Transmit`. -/
inductive WriterPc where
  | idle | format (text : Text) (i : ℕ) | scan (i : ℕ) | transmit (o : Output) (p : TransmitPc)
  deriving DecidableEq

structure Console where
  rtLogBuf : Buffer rtConsolebufSize
  /-- `huart4` -/
  huart : UartHandle
  /-- the bytes written to the data register of UART4 -/
  sent : List UInt8
  pc : Writer → WriterPc

namespace Console

/-- `rt_log_buf` is static, and `HAL_UART_Init` has set `gState` and `Lock`. -/
def init : Console where
  rtLogBuf := Vector.replicate _ 0
  huart := ⟨.ready, .unlocked⟩
  sent := []
  pc := fun _ => .idle

/-- Writer `w` goes on at `pc`. -/
def goto (s : Console) (w : Writer) (pc : WriterPc) : Console :=
  { s with pc := Function.update s.pc w pc }

/-- One store of `rt_vsnprintf(rt_log_buf, sizeof(rt_log_buf) - 1, ...)`; a text that does
not fit is cut. -/
def format (s : Console) (w : Writer) (text : Text) (i : ℕ) : Console :=
  match text.bytes[i]? with
  | some c =>
    if i < rtConsolebufSize - 1 then
      { s with rtLogBuf := s.rtLogBuf.write i c }.goto w (.format text (i + 1))
    else s.goto w (.format text (i + 1))
  | none =>
    let last := if i < rtConsolebufSize - 1 then i else rtConsolebufSize - 2
    { s with rtLogBuf := s.rtLogBuf.write last 0 }.goto w (.scan 0)

/-- The head of the loop of `rt_hw_console_output`. -/
def scan (s : Console) (w : Writer) (i : ℕ) : Console :=
  if s.rtLogBuf.read i = 0 then s.goto w .idle
  else if s.rtLogBuf.read i = newline then s.goto w (.transmit (.carriage i) .test)
  else s.goto w (.transmit (.character i) .test)

/-- The bytes at `pData`. -/
def pData (s : Console) : Output → List UInt8
  | .carriage _ => [carriageReturn]
  | .character i => [s.rtLogBuf.read i]
  | .echo data => data

/-- The statement after a transmission; no caller looks at the status. -/
def next : Output → WriterPc
  | .carriage i => .transmit (.character i) .test
  | .character i => .scan (i + 1)
  | .echo _ => .idle

/-- One statement of `HAL_UART_Transmit`. -/
def transmit (s : Console) (w : Writer) (o : Output) : TransmitPc → Console
  | .test =>
    if s.huart.gState = .ready then
      if (s.pData o).length = 0 then s.goto w (.transmit o (.returned .error))
      else s.goto w (.transmit o .lock)
    else s.goto w (.transmit o (.returned .busy))
  | .lock =>
    if s.huart.lock = .locked then s.goto w (.transmit o (.returned .busy))
    else s.goto w (.transmit o .setLock)
  | .setLock => { s with huart.lock := .locked }.goto w (.transmit o .setBusy)
  | .setBusy => { s with huart.gState := .busyTx }.goto w (.transmit o (.write 0))
  | .write k =>
    { s with sent := s.sent ++ [(s.pData o).getD k 0] }.goto w
      (.transmit o (if k + 1 < (s.pData o).length then .write (k + 1) else .complete))
  | .complete => { s with huart.gState := .ready }.goto w (.transmit o (.unlock .ok))
  | .unlock status => { s with huart.lock := .unlocked }.goto w (.transmit o (.returned status))
  | .returned _ => s.goto w (next o)

end Console

/-- A writer calls `rt_kprintf`, `serial` calls `HAL_UART_Transmit` on `process_buff`, a
writer executes its next statement, or the wait for a flag of UART4 that it is in ends with a
timeout. -/
inductive ConsoleAction where
  | kprintf (w : Writer) (text : Text)
  | echo (data : List UInt8)
  | run (w : Writer)
  | expire (w : Writer)

/-- The step relation of the console; any writer may take the next step. -/
def Console.step : ConsoleAction → Console → Option Console
  | .kprintf w text, s =>
    match s.pc w with
    | .idle => some (s.goto w (.format text 0))
    | _ => none
  | .echo data, s =>
    match s.pc (.thread .serial) with
    | .idle => some (s.goto (.thread .serial) (.transmit (.echo data) .test))
    | _ => none
  | .run w, s =>
    match s.pc w with
    | .idle => none
    | .format text i => some (s.format w text i)
    | .scan i => some (s.scan w i)
    | .transmit o p => some (s.transmit w o p)
  | .expire w, s =>
    match s.pc w with
    | .transmit o (.write _) | .transmit o .complete =>
      some ({ s with huart.gState := .ready }.goto w (.transmit o (.unlock .timeout)))
    | _ => none

/-- The bytes of a text on the line: a carriage return before each newline. -/
def expand (text : List UInt8) : List UInt8 :=
  text.flatMap fun c => if c = newline then [carriageReturn, c] else [c]

/-- What an action asks writer `w` to write. -/
def ConsoleAction.message (w : Writer) : ConsoleAction → List UInt8
  | .kprintf v text => if v = w then expand text.bytes else []
  | .echo data => if w = .thread .serial then data else []
  | _ => []

/-- What writer `w` has been asked to write. -/
def messages (w : Writer) (h : History Console ConsoleAction) : List UInt8 :=
  h.reverse.flatMap fun x => x.2.message w

/-- The bytes at `pData` are, or are followed by, bytes of `rt_log_buf`. -/
def Output.holdsBuffer : Output → Prop
  | .carriage _ | .character _ => True
  | .echo _ => False

instance (o : Output) : Decidable o.holdsBuffer := by
  unfold Output.holdsBuffer
  cases o <;> infer_instance

/-- A writer needs `rt_log_buf`: `rt_vsnprintf` has stored a byte of its text, or the text
is being output. -/
def WriterPc.holdsBuffer : WriterPc → Prop
  | .idle => False
  | .format _ i => 0 < i
  | .scan _ => True
  | .transmit o _ => o.holdsBuffer

instance (pc : WriterPc) : Decidable pc.holdsBuffer := by
  unfold WriterPc.holdsBuffer
  apply @WriterPc.casesOn _ pc <;> intros <;> infer_instance

/-- The next statement is the first store of `rt_vsnprintf`. -/
def WriterPc.stores : WriterPc → Prop
  | .format _ i => i = 0
  | _ => False

instance (pc : WriterPc) : Decidable pc.stores := by
  unfold WriterPc.stores
  apply @WriterPc.casesOn _ pc <;> intros <;> infer_instance

/-- The next statement makes `HAL_UART_Transmit` return `HAL_BUSY` and leave its bytes unsent. -/
def WriterPc.refused (s : Console) : WriterPc → Prop
  | .transmit o .test => s.huart.gState ≠ .ready ∧ s.pData o ≠ []
  | .transmit _ .lock => s.huart.lock = .locked
  | _ => False

instance (s : Console) (pc : WriterPc) : Decidable (pc.refused s) := by
  unfold WriterPc.refused
  split <;> infer_instance

/-- `HAL_UART_Transmit` finds `gState` of `huart4` ready and its `Lock` free, and its waits do
not time out; `rt_kprintf` stores its first byte only while no other call needs `rt_log_buf`,
and its text fits. -/
def undisturbed (_ : History Console ConsoleAction) (s : Console) : ConsoleAction → Prop
  | .kprintf _ text => text.bytes.length ≤ rtConsolebufSize - 2
  | .echo _ => True
  | .run w => ¬ (s.pc w).refused s ∧ ((s.pc w).stores → ∀ v, ¬ (s.pc v).holdsBuffer)
  | .expire _ => False

instance (h : History Console ConsoleAction) (s : Console) (a : ConsoleAction) :
    Decidable (undisturbed h s a) := by
  unfold undisturbed
  apply @ConsoleAction.casesOn _ a <;> intros <;> infer_instance

/-- The bytes of the string at index `i` of the buffer. -/
def stringAt (b : Buffer rtConsolebufSize) (i : ℕ) : List UInt8 := cstr (b.toList.drop i)

/-- The bytes that remain to be written of the call `o`. -/
def TransmitPc.pending (pData : List UInt8) : TransmitPc → List UInt8
  | .test | .lock | .setLock | .setBusy => pData
  | .write k => pData.drop k
  | .complete | .unlock _ | .returned _ => []

/-- A call that has passed its tests has bytes to write, and does not write beyond them. -/
def TransmitPc.within (size : ℕ) : TransmitPc → Prop
  | .lock | .setLock | .setBusy => 0 < size
  | .write k => k < size
  | .test | .complete | .unlock _ | .returned _ => True

/-- The bytes to be written after the call `o`. -/
def Output.pending (b : Buffer rtConsolebufSize) : Output → List UInt8
  | .carriage i => b.read i :: expand (stringAt b (i + 1))
  | .character i => expand (stringAt b (i + 1))
  | .echo _ => []

/-- The bytes that writer `w` has still to write of its message. -/
def Console.pending (s : Console) (w : Writer) : List UInt8 :=
  match s.pc w with
  | .idle => []
  | .format text _ => expand text.bytes
  | .scan i => expand (stringAt s.rtLogBuf i)
  | .transmit o p => p.pending (s.pData o) ++ o.pending s.rtLogBuf

section Lemmas

variable {s s' : Console} {h : History Console ConsoleAction} {v w : Writer} {pc : WriterPc}
  {b : Buffer rtConsolebufSize} {i : ℕ}

@[simp] theorem Console.goto_pc_self : (s.goto w pc).pc w = pc := by simp [Console.goto]

@[simp] theorem expand_nil : expand [] = [] := rfl

@[simp] theorem expand_cons (c : UInt8) (text : List UInt8) : expand (c :: text) =
    (if c = newline then [carriageReturn, c] else [c]) ++ expand text := rfl

@[simp] theorem messages_cons (a : ConsoleAction) :
    messages w ((s, a) :: h) = messages w h ++ a.message w := by
  simp [messages]

theorem stringAt_of_zero (hz : b.read i = 0) : stringAt b i = [] := by
  rw [Buffer.read, List.getD_eq_getElem?_getD, ← List.head?_drop] at hz
  rw [stringAt]
  cases hd : b.toList.drop i with
  | nil => rfl
  | cons x l =>
    have hx : x = 0 := by simpa [hd] using hz
    simp [hx]

theorem stringAt_of_ne_zero (hz : b.read i ≠ 0) :
    stringAt b i = b.read i :: stringAt b (i + 1) := by
  have hlt : i < b.toList.length := by
    by_contra hge
    exact hz (List.getD_eq_default _ _ (le_of_not_gt hge))
  have hread : b.read i = b.toList[i] := by
    rw [Buffer.read, List.getD_eq_getElem _ _ hlt]
  rw [stringAt, List.drop_eq_getElem_cons hlt, cstr_cons, ← hread, if_neg hz, stringAt]

/-- A text that stands at the front of the buffer with its terminator is its string. -/
theorem stringAt_zero_of_front {text : List UInt8} (hfront : b.front i = text)
    (hnonzero : 0 ∉ text) (hz : b.read i = 0) : stringAt b 0 = text := by
  subst hfront
  have hsplit : b.toList = b.front i ++ b.toList.drop i := (List.take_append_drop _ _).symm
  rw [stringAt, List.drop_zero, hsplit, cstr_append hnonzero, ← stringAt, stringAt_of_zero hz,
    List.append_nil]

theorem length_pData (o : Output) : (s'.pData o).length = (s.pData o).length := by
  cases o <;> rfl

/-- A transmission of no bytes returns at once, whatever its status. -/
theorem Console.transmit_test_of_nil {o : Output} (w : Writer) (hempty : s.pData o = []) :
    ∃ status, s.transmit w o .test = s.goto w (.transmit o (.returned status)) := by
  rw [Console.transmit]
  split_ifs with hready hsize
  · exact ⟨_, rfl⟩
  · simp [hempty] at hsize
  · exact ⟨_, rfl⟩

/-- Behind a transmission its writer has still to write what follows it. -/
theorem Console.pending_of_next {o : Output} (hpc : s.pc w = Console.next o) :
    s.pending w = o.pending s.rtLogBuf := by
  cases o <;>
    simp [Console.pending, hpc, Console.next, TransmitPc.pending, Output.pending, Console.pData]

/-- A writer that does not need the buffer does not notice changes of it. -/
theorem Console.pending_congr (hpc : s'.pc v = s.pc v)
    (hbuf : s'.rtLogBuf = s.rtLogBuf ∨ ¬ (s.pc v).holdsBuffer) : s'.pending v = s.pending v := by
  rcases hbuf with hbuf | hfree
  · have hdata : s'.pData = s.pData := by
      funext o
      cases o <;> simp [Console.pData, hbuf]
    rw [Console.pending, Console.pending, hpc, hbuf, hdata]
  · rw [Console.pending, Console.pending, hpc]
    cases hv : s.pc v with
    | idle => rfl
    | format text i => rfl
    | scan i => simp [hv, WriterPc.holdsBuffer] at hfree
    | transmit o p =>
      cases o with
      | carriage i | character i => simp [hv, WriterPc.holdsBuffer, Output.holdsBuffer] at hfree
      | echo data => rfl

end Lemmas

section LogBuffer

/-- `rt_vsnprintf` leaves the last byte of `rt_log_buf` zero, so that the output stays inside. -/
structure InLogBuf (s : Console) : Prop where
  last : s.rtLogBuf.read (rtConsolebufSize - 1) = 0
  scan : ∀ w i, s.pc w = .scan i → i < rtConsolebufSize
  carriage : ∀ w i p, s.pc w = .transmit (.carriage i) p → i + 1 < rtConsolebufSize
  character : ∀ w i p, s.pc w = .transmit (.character i) p → i + 1 < rtConsolebufSize

variable {s s' : Console} {w : Writer} {pc : WriterPc}

theorem InLogBuf.init : InLogBuf Console.init := by
  constructor <;> simp [Console.init, Buffer.read]

/-- A step of writer `w` to `pc` that leaves the last byte of the buffer alone. -/
theorem InLogBuf.goto (hi : InLogBuf s) (hgoes : s'.pc = Function.update s.pc w pc)
    (hlast : s'.rtLogBuf.read (rtConsolebufSize - 1) = s.rtLogBuf.read (rtConsolebufSize - 1))
    (hscan : ∀ i, pc = .scan i → i < rtConsolebufSize)
    (hcarriage : ∀ i p, pc = .transmit (.carriage i) p → i + 1 < rtConsolebufSize)
    (hcharacter : ∀ i p, pc = .transmit (.character i) p → i + 1 < rtConsolebufSize) :
    InLogBuf s' := by
  have hat : ∀ v, s'.pc v = if v = w then pc else s.pc v := by
    intro v
    rw [hgoes, Function.update_apply]
  refine ⟨hlast.trans hi.last, ?_, ?_, ?_⟩ <;> intro v
  · intro i hv
    rw [hat] at hv
    split at hv
    · exact hscan i hv
    · exact hi.scan v i hv
  · intro i p hv
    rw [hat] at hv
    split at hv
    · exact hcarriage i p hv
    · exact hi.carriage v i p hv
  · intro i p hv
    rw [hat] at hv
    split at hv
    · exact hcharacter i p hv
    · exact hi.character v i p hv

/-- A statement inside a call of `HAL_UART_Transmit`. -/
theorem InLogBuf.transmitGoto {o : Output} {p q : TransmitPc} (hi : InLogBuf s)
    (hpc : s.pc w = .transmit o p) (hgoes : s'.pc = Function.update s.pc w (.transmit o q))
    (hbuf : s'.rtLogBuf = s.rtLogBuf) : InLogBuf s' := by
  refine hi.goto hgoes (by rw [hbuf]) (by simp) ?_ ?_ <;> intro i p' hq
  · obtain ⟨rfl, -⟩ : o = .carriage i ∧ q = p' := by simpa using hq
    exact hi.carriage w i p hpc
  · obtain ⟨rfl, -⟩ : o = .character i ∧ q = p' := by simpa using hq
    exact hi.character w i p hpc

/-- The return from `HAL_UART_Transmit`. -/
theorem InLogBuf.returned {o : Output} {p : TransmitPc} (hi : InLogBuf s)
    (hpc : s.pc w = .transmit o p) : InLogBuf (s.goto w (Console.next o)) := by
  cases o with
  | carriage i =>
    refine hi.goto rfl rfl (by simp [Console.next]) (by simp [Console.next]) ?_
    intro j q hq
    obtain ⟨rfl, -⟩ : i = j ∧ .test = q := by simpa [Console.next] using hq
    exact hi.carriage w i p hpc
  | character i =>
    refine hi.goto rfl rfl ?_ (by simp [Console.next]) (by simp [Console.next])
    intro j hq
    obtain rfl : i + 1 = j := by simpa [Console.next] using hq
    exact hi.character w i p hpc
  | echo data =>
    exact hi.goto rfl rfl (by simp [Console.next]) (by simp [Console.next]) (by simp [Console.next])

theorem InLogBuf.step {a : ConsoleAction} (hi : InLogBuf s) (hs : Console.step a s = some s') :
    InLogBuf s' := by
  cases a with
  | kprintf w text =>
    simp only [Console.step] at hs
    split at hs <;> simp only [Option.some.injEq, reduceCtorEq] at hs
    subst hs
    exact hi.goto rfl rfl (by simp) (by simp) (by simp)
  | echo data =>
    simp only [Console.step] at hs
    split at hs <;> simp only [Option.some.injEq, reduceCtorEq] at hs
    subst hs
    exact hi.goto rfl rfl (by simp) (by simp) (by simp)
  | expire w =>
    simp only [Console.step] at hs
    split at hs <;> simp only [Option.some.injEq, reduceCtorEq] at hs
    all_goals
      next hpc =>
      subst hs
      exact hi.transmitGoto hpc rfl rfl
  | run w =>
    simp only [Console.step] at hs
    split at hs <;> simp only [Option.some.injEq, reduceCtorEq] at hs
    · next text i hpc =>
      subst hs
      rw [Console.format]
      split
      · split
        · exact hi.goto rfl (Buffer.read_write_ne _ _ (by omega)) (by simp) (by simp) (by simp)
        · exact hi.goto rfl rfl (by simp) (by simp) (by simp)
      · have hlt : (if i < rtConsolebufSize - 1 then i else rtConsolebufSize - 2) ≠
            rtConsolebufSize - 1 := by
          simp only [rtConsolebufSize]
          split_ifs <;> omega
        exact hi.goto rfl (Buffer.read_write_ne _ _ hlt) (by simp) (by simp) (by simp)
    · next i hpc =>
      subst hs
      have hi512 := hi.scan w i hpc
      rw [Console.scan]
      by_cases hzero : s.rtLogBuf.read i = 0
      · rw [if_pos hzero]
        exact hi.goto rfl rfl (by simp) (by simp) (by simp)
      have hlast : i ≠ rtConsolebufSize - 1 := by
        rintro rfl
        exact hzero hi.last
      rw [if_neg hzero]
      split
      · refine hi.goto rfl rfl (by simp) ?_ (by simp)
        intro j q hq
        obtain ⟨rfl, -⟩ : i = j ∧ .test = q := by simpa using hq
        omega
      · refine hi.goto rfl rfl (by simp) (by simp) ?_
        intro j q hq
        obtain ⟨rfl, -⟩ : i = j ∧ .test = q := by simpa using hq
        omega
    · next o p hpc =>
      subst hs
      cases p with
      | returned status => exact hi.returned hpc
      | test | lock =>
        rw [Console.transmit]
        split_ifs <;> exact hi.transmitGoto hpc rfl rfl
      | _ => exact hi.transmitGoto hpc rfl rfl

end LogBuffer

/-- What an undisturbed writer has written and has still to write are its messages, and at
most one writer needs the buffer. -/
structure Intact (h : History Console ConsoleAction) (s : Console) : Prop where
  sent : ∃ f, Interleaving f s.sent ∧ ∀ w, f w ++ s.pending w = messages w h
  holder : ∀ v w, (s.pc v).holdsBuffer → (s.pc w).holdsBuffer → v = w
  formatted : ∀ w text i, s.pc w = .format text i →
    text.bytes.length ≤ rtConsolebufSize - 2 ∧ i ≤ text.bytes.length ∧
      s.rtLogBuf.front i = text.bytes.take i
  written : ∀ w o p, s.pc w = .transmit o p → p.within (s.pData o).length

/-- A step of writer `w` to `pc`, in which it writes the bytes `new` to UART4. -/
structure WriterStep (s : Console) (a : ConsoleAction) (w : Writer) (pc : WriterPc)
    (new : List UInt8) (s' : Console) : Prop where
  sent : s'.sent = s.sent ++ new
  goes : s'.pc = Function.update s.pc w pc
  buffer : s'.rtLogBuf = s.rtLogBuf ∨ ∀ v, v ≠ w → ¬ (s.pc v).holdsBuffer
  message : ∀ v, v ≠ w → a.message v = []
  pending : new ++ s'.pending w = s.pending w ++ a.message w
  holder : pc.holdsBuffer → ∀ v, v ≠ w → ¬ (s.pc v).holdsBuffer
  formatted : ∀ text i, pc = .format text i →
    text.bytes.length ≤ rtConsolebufSize - 2 ∧ i ≤ text.bytes.length ∧
      s'.rtLogBuf.front i = text.bytes.take i
  written : ∀ o p, pc = .transmit o p → p.within (s'.pData o).length

section Invariant

variable {s s' : Console} {h : History Console ConsoleAction} {a : ConsoleAction} {w : Writer}
  {pc : WriterPc} {new : List UInt8}

theorem Intact.init : Intact [] Console.init where
  sent := ⟨fun _ => [], .nil, fun _ => rfl⟩
  holder := by simp [Console.init, WriterPc.holdsBuffer]
  formatted := by simp [Console.init]
  written := by simp [Console.init]

theorem Intact.writerStep (hi : Intact h s) (w : Writer) (pc : WriterPc) (new : List UInt8)
    (hw : WriterStep s a w pc new s') : Intact ((s, a) :: h) s' := by
  have hself : s'.pc w = pc := by simp [hw.goes]
  have hother : ∀ v, v ≠ w → s'.pc v = s.pc v := fun v hv => by simp [hw.goes, hv]
  constructor
  · obtain ⟨f, hf, hmsgs⟩ := hi.sent
    refine ⟨_, hw.sent ▸ hf.append w new, ?_⟩
    intro v
    rw [messages_cons, ← hmsgs v]
    by_cases hv : v = w
    · subst hv
      rw [Function.update_self, List.append_assoc, hw.pending, List.append_assoc]
    · have hpend := Console.pending_congr (hother v hv) (hw.buffer.imp_right fun hb => hb v hv)
      rw [Function.update_of_ne hv, hw.message v hv, hpend, List.append_nil]
  · intro u v hu hv
    by_cases huw : u = w <;> by_cases hvw : v = w
    · rw [huw, hvw]
    · rw [huw, hself] at hu
      rw [hother v hvw] at hv
      exact absurd hv (hw.holder hu v hvw)
    · rw [hvw, hself] at hv
      rw [hother u huw] at hu
      exact absurd hu (hw.holder hv u huw)
    · exact hi.holder u v (hother u huw ▸ hu) (hother v hvw ▸ hv)
  · intro v text i hpc
    by_cases hv : v = w
    · exact hw.formatted text i (by rw [← hpc, hv, hself])
    · rw [hother v hv] at hpc
      obtain ⟨hfits, hle, hfront⟩ := hi.formatted v text i hpc
      refine ⟨hfits, hle, ?_⟩
      rcases hw.buffer with hb | hfree
      · rw [hb, hfront]
      · have hfree := hfree v hv
        simp only [hpc, WriterPc.holdsBuffer, Nat.pos_iff_ne_zero, not_not] at hfree
        subst hfree
        simp
  · intro v o p hpc
    by_cases hv : v = w
    · exact hw.written o p (by rw [← hpc, hv, hself])
    · rw [hother v hv] at hpc
      rw [length_pData]
      exact hi.written v o p hpc

/-- A step that leaves the buffer alone, of a writer that needs it already if it needs it
afterwards. -/
theorem Intact.quietStep (hi : Intact h s) (w : Writer) (pc : WriterPc) (new : List UInt8)
    (hsent : s'.sent = s.sent ++ new) (hpc : s'.pc = Function.update s.pc w pc)
    (hbuf : s'.rtLogBuf = s.rtLogBuf)
    (hmsg : ∀ v, a.message v = []) (hpend : new ++ s'.pending w = s.pending w)
    (hholds : pc.holdsBuffer → (s.pc w).holdsBuffer) (hformat : ∀ text i, pc ≠ .format text i)
    (hwrite : ∀ o p, pc = .transmit o p → p.within (s.pData o).length) :
    Intact ((s, a) :: h) s' := by
  refine hi.writerStep w pc new ⟨hsent, hpc, .inl hbuf, ?_, ?_, ?_, ?_, ?_⟩
  · exact fun v _ => hmsg v
  · rw [hmsg, List.append_nil, hpend]
  · exact fun hp v hv hholder => hv (hi.holder v w hholder (hholds hp))
  · exact fun text i hp => absurd hp (hformat text i)
  · intro o p hp
    rw [length_pData]
    exact hwrite o p hp

/-- A step that moves a writer and writes nothing. -/
theorem Intact.goto (hi : Intact h s) (w : Writer) (pc : WriterPc)
    (huart : UartHandle) (hmsg : ∀ v, a.message v = [])
    (hpend : ({ s with huart := huart }.goto w pc).pending w = s.pending w)
    (hholds : pc.holdsBuffer → (s.pc w).holdsBuffer) (hformat : ∀ text i, pc ≠ .format text i)
    (hwrite : ∀ o p, pc = .transmit o p → p.within (s.pData o).length) :
    Intact ((s, a) :: h) ({ s with huart := huart }.goto w pc) :=
  hi.quietStep w pc [] (List.append_nil _).symm rfl rfl hmsg hpend hholds hformat hwrite

/-- A statement of `HAL_UART_Transmit` that writes nothing to the data register. -/
theorem Intact.transmitGoto (hi : Intact h s) {o : Output} {p q : TransmitPc}
    (huart : UartHandle) (hpc : s.pc w = .transmit o p)
    (hpend : q.pending (s.pData o) = p.pending (s.pData o))
    (hwithin : q.within (s.pData o).length) :
    Intact ((s, .run w) :: h) ({ s with huart := huart }.goto w (.transmit o q)) := by
  have hdata : ({ s with huart := huart }.goto w (.transmit o q)).pData o = s.pData o := by
    cases o <;> rfl
  refine hi.goto w (.transmit o q) huart (fun _ => rfl) ?_ ?_ (by simp) ?_
  · rw [Console.pending, Console.goto_pc_self, Console.pending, hpc]
    simp only [hdata, hpend]
    rfl
  · simp [hpc, WriterPc.holdsBuffer]
  · intro o' p' hp
    obtain ⟨rfl, rfl⟩ : o = o' ∧ q = p' := by simpa using hp
    exact hwithin

/-- A store of `rt_vsnprintf`. -/
theorem Intact.format (hi : Intact h s) {text : Text} {i : ℕ} (hpc : s.pc w = .format text i)
    (hfree : i = 0 → ∀ v, ¬ (s.pc v).holdsBuffer) :
    Intact ((s, .run w) :: h) (s.format w text i) := by
  obtain ⟨hfits, hle, hfront⟩ := hi.formatted w text i hpc
  have hsize : rtConsolebufSize = 512 := rfl
  have hi511 : i < rtConsolebufSize - 1 := by omega
  have hi512 : i < rtConsolebufSize := by omega
  have hother : ∀ v, v ≠ w → ¬ (s.pc v).holdsBuffer := by
    intro v hv hholds
    rcases Nat.eq_zero_or_pos i with h0 | hpos
    · exact hfree h0 v hholds
    · exact hv (hi.holder v w hholds (by simpa [hpc, WriterPc.holdsBuffer] using hpos))
  have hmsg : ∀ v, (ConsoleAction.run w).message v = [] := fun _ => rfl
  rcases hle.lt_or_eq with hlt | rfl
  · have hget : text.bytes[i]? = some text.bytes[i] := List.getElem?_eq_getElem hlt
    rw [Console.format, hget]
    simp only [hi511, if_true]
    refine hi.writerStep w (.format text (i + 1)) []
      ⟨by simp [Console.goto], rfl, .inr hother, fun v _ => hmsg v, ?_, fun _ => hother, ?_,
        by simp⟩
    · simp [Console.pending, hpc, hmsg]
    · intro text' i' hp
      obtain ⟨rfl, rfl⟩ : text = text' ∧ i + 1 = i' := by simpa using hp
      refine ⟨hfits, hlt, ?_⟩
      change (s.rtLogBuf.write i text.bytes[i]).front (i + 1) = _
      rw [Buffer.front_write_succ _ _ hi512, hfront, List.take_add_one, hget]
      rfl
  · rw [Console.format, List.getElem?_eq_none le_rfl]
    simp only [hi511, if_true]
    refine hi.writerStep w (.scan 0) []
      ⟨by simp [Console.goto], rfl, .inr hother, fun v _ => hmsg v, ?_, fun _ => hother, by simp,
        by simp⟩
    have hstring : stringAt (s.rtLogBuf.write text.bytes.length 0) 0 = text.bytes := by
      refine stringAt_zero_of_front ?_ text.nonzero (Buffer.read_write_self _ _ hi512)
      rw [Buffer.front_write_of_le _ _ le_rfl, hfront, List.take_length]
    simp [Console.pending, hpc, hmsg, Console.goto, hstring]

/-- The head of the loop of `rt_hw_console_output`. -/
theorem Intact.scan (hi : Intact h s) {i : ℕ} (hpc : s.pc w = .scan i) :
    Intact ((s, .run w) :: h) (s.scan w i) := by
  have hholds : (s.pc w).holdsBuffer := by simp [hpc, WriterPc.holdsBuffer]
  have hpend : s.pending w = expand (stringAt s.rtLogBuf i) := by simp [Console.pending, hpc]
  rw [Console.scan]
  split_ifs with hzero hnewline
  · refine hi.goto w .idle s.huart (fun _ => rfl) ?_ (fun _ => hholds) (by simp) (by simp)
    rw [hpend, stringAt_of_zero hzero]
    simp [Console.pending]
  · refine hi.goto w (.transmit (.carriage i) .test) s.huart (fun _ => rfl) ?_
      (fun _ => hholds) (by simp) (by simp [TransmitPc.within])
    rw [hpend, stringAt_of_ne_zero hzero]
    simp [Console.pending, TransmitPc.pending, Output.pending, Console.pData, hnewline,
      Console.goto]
  · refine hi.goto w (.transmit (.character i) .test) s.huart (fun _ => rfl) ?_
      (fun _ => hholds) (by simp) (by simp [TransmitPc.within])
    rw [hpend, stringAt_of_ne_zero hzero]
    simp [Console.pending, TransmitPc.pending, Output.pending, Console.pData, hnewline,
      Console.goto]

/-- A statement of `HAL_UART_Transmit` that does not find the UART busy. -/
theorem Intact.transmit (hi : Intact h s) {o : Output} {p : TransmitPc}
    (hpc : s.pc w = .transmit o p) (hready : ¬ (s.pc w).refused s) :
    Intact ((s, .run w) :: h) (s.transmit w o p) := by
  have hin := hi.written w o p hpc
  rw [hpc] at hready
  cases p with
  | test =>
    by_cases hempty : s.pData o = []
    · obtain ⟨status, hs⟩ := Console.transmit_test_of_nil w hempty
      rw [hs]
      exact hi.transmitGoto s.huart hpc (by simp [TransmitPc.pending, hempty]) trivial
    · have hpos : 0 < (s.pData o).length := List.length_pos_iff.mpr hempty
      have hgState : s.huart.gState = .ready := by
        by_contra hbusy
        exact hready ⟨hbusy, hempty⟩
      rw [Console.transmit, if_pos hgState, if_neg hpos.ne']
      exact hi.transmitGoto s.huart hpc rfl hpos
  | lock =>
    have hfree : s.huart.lock ≠ .locked := hready
    rw [Console.transmit, if_neg hfree]
    exact hi.transmitGoto s.huart hpc rfl hin
  | setLock => exact hi.transmitGoto { s.huart with lock := .locked } hpc rfl hin
  | setBusy => exact hi.transmitGoto { s.huart with gState := .busyTx } hpc rfl hin
  | write k =>
    have hk : k < (s.pData o).length := hin
    have hpend : s.pending w = (s.pData o).drop k ++ o.pending s.rtLogBuf := by
      simp [Console.pending, hpc, TransmitPc.pending]
    rw [Console.transmit]
    refine hi.quietStep w _ [(s.pData o).getD k 0] rfl rfl rfl (fun _ => rfl) ?_ ?_ (by simp) ?_
    · rw [hpend, List.drop_eq_getElem_cons hk, List.getD_eq_getElem _ _ hk, Console.pending,
        Console.goto_pc_self]
      split_ifs with hmore
      · rfl
      · have hlast : (s.pData o).drop (k + 1) = [] := List.drop_eq_nil_of_le (by omega)
        rw [hlast]
        rfl
    · simp [hpc, WriterPc.holdsBuffer]
    · intro o' p' hp
      split_ifs at hp with hmore
      · obtain ⟨rfl, rfl⟩ : o = o' ∧ .write (k + 1) = p' := by simpa using hp
        exact hmore
      · obtain ⟨rfl, rfl⟩ : o = o' ∧ .complete = p' := by simpa using hp
        trivial
  | complete => exact hi.transmitGoto { s.huart with gState := .ready } hpc rfl trivial
  | unlock status => exact hi.transmitGoto { s.huart with lock := .unlocked } hpc rfl trivial
  | returned status =>
    rw [Console.transmit]
    refine hi.goto w (Console.next o) s.huart (fun _ => rfl) ?_ ?_ ?_ ?_
    · rw [Console.pending_of_next (Console.goto_pc_self)]
      simp [Console.pending, hpc, TransmitPc.pending, Console.goto]
    · cases o <;> simp [hpc, Console.next, WriterPc.holdsBuffer, Output.holdsBuffer]
    · cases o <;> simp [Console.next]
    · cases o <;> simp [Console.next, TransmitPc.within]

theorem Intact.step (hi : Intact h s) (hg : undisturbed h s a)
    (hs : Console.step a s = some s') : Intact ((s, a) :: h) s' := by
  cases a with
  | kprintf w text =>
    simp only [Console.step] at hs
    split at hs
    · next hpc =>
      obtain rfl : s.goto w (.format text 0) = s' := by simpa using hs
      refine hi.writerStep w (.format text 0) []
        ⟨by simp [Console.goto], rfl, .inl rfl, ?_, ?_, by simp [WriterPc.holdsBuffer], ?_, by simp⟩
      · intro v hv
        simp [ConsoleAction.message, hv.symm]
      · simp [Console.pending, hpc, ConsoleAction.message]
      · intro text' i hp
        obtain ⟨rfl, rfl⟩ : text = text' ∧ 0 = i := by simpa using hp
        exact ⟨hg, Nat.zero_le _, rfl⟩
    · simp at hs
  | echo data =>
    simp only [Console.step] at hs
    split at hs
    · next hpc =>
      obtain rfl : s.goto (.thread .serial) (.transmit (.echo data) .test) = s' := by
        simpa using hs
      refine hi.writerStep (.thread .serial) (.transmit (.echo data) .test) []
        ⟨by simp [Console.goto], rfl, .inl rfl, ?_, ?_, ?_, by simp, by simp [TransmitPc.within]⟩
      · intro v hv
        simp [ConsoleAction.message, hv]
      · simp [Console.pending, hpc, ConsoleAction.message, TransmitPc.pending, Output.pending,
          Console.pData]
      · simp [WriterPc.holdsBuffer, Output.holdsBuffer]
    · simp at hs
  | run w =>
    obtain ⟨hready, hfree⟩ := hg
    simp only [Console.step] at hs
    split at hs
    · simp at hs
    · next text i hpc =>
      obtain rfl : s.format w text i = s' := by simpa using hs
      exact hi.format hpc fun h0 => hfree (by simpa [hpc, WriterPc.stores] using h0)
    · next i hpc =>
      obtain rfl : s.scan w i = s' := by simpa using hs
      exact hi.scan hpc
    · next o p hpc =>
      obtain rfl : s.transmit w o p = s' := by simpa using hs
      exact hi.transmit hpc hready
  | expire w => exact hg.elim

end Invariant

/-- The runs of the console whose steps all meet `guard`. -/
abbrev ConsoleRun (guard : History Console ConsoleAction → Console → ConsoleAction → Prop) :=
  Run Console.step guard (· = Console.init)

/-- Whatever the writers do, `rt_hw_console_output` reads no byte behind `rt_log_buf`. -/
theorem ConsoleRun.inLogBuf
    {guard : History Console ConsoleAction → Console → ConsoleAction → Prop}
    {h : History Console ConsoleAction} {s : Console} (hr : ConsoleRun guard h s) : InLogBuf s :=
  hr.stateInvariant (fun _ hs => hs.symm ▸ .init) fun _ _ _ hi hs => hi.step hs

/-- `n` statements of writer `w`. -/
def statements (w : Writer) (n : ℕ) : List ConsoleAction := List.replicate n (.run w)

theorem ConsoleRun.exists_of_exec
    (guard : History Console ConsoleAction → Console → ConsoleAction → Prop)
    [∀ h s a, Decidable (guard h s a)] (as : List ConsoleAction)
    (test : History Console ConsoleAction → Console → Bool)
    (he : (exec Console.step guard as [] Console.init).any (fun r => test r.1 r.2) = true) :
    ∃ h s, ConsoleRun guard h s ∧ test h s = true :=
  @exists_run_of_exec _ _ Console.step guard _ (· = Console.init) _ rfl as test he

end NanoAt
