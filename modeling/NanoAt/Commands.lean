import NanoAt.Lib.CString

/-!
# The AT command list

The command numbers of `teATCmdNum` and the table `ATCmds` of `myat_sever.c`. The
status field of a table entry is never read and is left out.

## Main definitions

- `TeATCmdNum` — the command numbers
- `atCmds` — retry count, transmitted string, reply keyword and timeout of each command
-/

namespace NanoAt
open CString

/-- `teATCmdNum`: the rows of the command list. -/
inductive TeATCmdNum where
  | atRole | atVers | atGnam | atGurt | atGsta | atGpwd | atConb | atAdvl | atAdvb
  | atRest | atTnocmd | atTnocmd1
  deriving DecidableEq, Repr

namespace TeATCmdNum

/-- The enumeration value. -/
def val : TeATCmdNum → ℕ
  | atRole => 0 | atVers => 1 | atGnam => 2 | atGurt => 3 | atGsta => 4 | atGpwd => 5
  | atConb => 6 | atAdvl => 7 | atAdvb => 8 | atRest => 9 | atTnocmd => 10 | atTnocmd1 => 11

/-- The increment of an enumeration variable. The last row has no successor in the
enumeration; `at_comtest` stops well before it. -/
def succ : TeATCmdNum → TeATCmdNum
  | atRole => atVers | atVers => atGnam | atGnam => atGurt | atGurt => atGsta
  | atGsta => atGpwd | atGpwd => atConb | atConb => atAdvl | atAdvl => atAdvb
  | atAdvb => atRest | atRest => atTnocmd | atTnocmd => atTnocmd1 | atTnocmd1 => atTnocmd1

theorem val_succ {c : TeATCmdNum} (h : c ≠ atTnocmd1) : c.succ.val = c.val + 1 := by
  cases c <;> simp_all [succ, val]

end TeATCmdNum

/-- `tsATCmds`: a row of the command list. -/
structure TsATCmds where
  rtyNum : ℕ
  atSendStr : List UInt8
  atRecStr : List UInt8
  timeOut : ℕ
  deriving DecidableEq, Repr

/-- `ATCmds`: the command list. -/
def atCmds : TeATCmdNum → TsATCmds
  | .atRole => ⟨3, ascii "AT+ROLE\r\n", ascii "ROLE:", 200⟩
  | .atVers => ⟨3, ascii "AT+VERS\r\n", ascii "V", 200⟩
  | .atGnam => ⟨3, ascii "AT+GNAM\r\n", ascii "NAME:", 200⟩
  | .atGurt => ⟨3, ascii "AT+GURT\r\n", ascii "UART:", 200⟩
  | .atGsta => ⟨3, ascii "AT+GSTA\r\n", ascii "ADVE", 200⟩
  | .atGpwd => ⟨3, ascii "AT+GPWD\r\n", ascii "Pair code", 200⟩
  | .atConb => ⟨3, ascii "AT+CONB\r\n", ascii "OK", 200⟩
  | .atAdvl => ⟨3, ascii "AT+ADVL\r\n ", ascii "ADVERTISING_ON", 200⟩
  | .atAdvb => ⟨3, ascii "AT+ADVB\r\n", ascii "ADVERTISING_OFF", 200⟩
  | .atRest => ⟨3, ascii "AT+REST\r\n", ascii "OK", 200⟩
  | .atTnocmd => ⟨3, ascii "AT+TNOCMD\r\n", ascii "OK", 200⟩
  | .atTnocmd1 => ⟨3, ascii "AT+TNOCMD1\r\n", ascii "OK", 200⟩

/-- Every keyword is a nonempty C string. -/
theorem atRecStr_valid (c : TeATCmdNum) :
    0 < (atCmds c).atRecStr.length ∧ (0 : UInt8) ∉ (atCmds c).atRecStr := by
  cases c <;> decide

theorem rtyNum_eq (c : TeATCmdNum) : (atCmds c).rtyNum = 3 := by
  cases c <;> rfl

theorem atRecStr_length_le (c : TeATCmdNum) : (atCmds c).atRecStr.length ≤ 15 := by
  cases c <;> decide

end NanoAt
