import TerminalMarkup.Text

/-!
# Reading numerals

A numeral is a run of ASCII decimal digits, with a plus sign allowed in front.
It is read for a type with a greatest value, the limit, and reading proceeds
from the left: the first character that is no digit and the first digit that
carries the value past the limit each end it, whichever comes first.  So
`300x` is too large for a limit of 255, and `30x0` has an invalid digit.
-/

set_option autoImplicit false

namespace TerminalMarkup

/-- Why a text is no numeral within the limit. -/
inductive NumeralFault where
  | empty
  | invalidDigit
  | tooLarge
  deriving DecidableEq, Repr

/-- The wording of a fault. -/
def NumeralFault.message : NumeralFault → String
  | .empty => "cannot parse integer from empty string"
  | .invalidDigit => "invalid digit found in string"
  | .tooLarge => "number too large to fit in target type"

namespace Numeral

/-- The value of a decimal digit. -/
def digitValue (digit : Char) : Nat := digit.toNat - '0'.toNat

/-- The value of a run of digits that follows digits of value `value`. -/
def valueFrom (value : Nat) : Text → Nat
  | [] => value
  | digit :: rest => valueFrom (10 * value + digitValue digit) rest

/-- The value of a run of digits, leading zeros included. -/
def value (digits : Text) : Nat := valueFrom 0 digits

/-- Reads on, after digits of value `value`. -/
def readFrom (limit value : Nat) : Text → Except NumeralFault Nat
  | [] => .ok value
  | character :: rest =>
      if character.isDigit then
        let next := 10 * value + digitValue character
        if next ≤ limit then readFrom limit next rest else .error .tooLarge
      else .error .invalidDigit

/-- The value of a numeral that does not exceed the limit. -/
def read (limit : Nat) : Text → Except NumeralFault Nat
  | [] => .error .empty
  | ['+'] => .error .invalidDigit
  | '+' :: digits => readFrom limit 0 digits
  | digits => readFrom limit 0 digits

/-- Reads a number of one byte. -/
def readUInt8 (digits : Text) : Except NumeralFault UInt8 :=
  (read (UInt8.size - 1) digits).map UInt8.ofNat

/-- Reads a number of two bytes. -/
def readUInt16 (digits : Text) : Except NumeralFault UInt16 :=
  (read (UInt16.size - 1) digits).map UInt16.ofNat

/-- Reading on only ever makes the value larger. -/
theorem le_valueFrom (value : Nat) (digits : Text) : value ≤ valueFrom value digits := by
  induction digits generalizing value with
  | nil => exact Nat.le_refl _
  | cons digit rest ih =>
      have grows : value ≤ 10 * value + digitValue digit := by omega
      exact Nat.le_trans grows (ih _)

/-- Digits whose value is within the limit are read as that value. -/
theorem readFrom_eq_ok {limit value : Nat} {digits : Text} (allDigits : digits.all Char.isDigit)
    (within : valueFrom value digits ≤ limit) :
    readFrom limit value digits = .ok (valueFrom value digits) := by
  induction digits generalizing value with
  | nil => rfl
  | cons digit rest ih =>
      simp only [List.all_cons, Bool.and_eq_true] at allDigits
      have fits : 10 * value + digitValue digit ≤ limit :=
        Nat.le_trans (le_valueFrom _ rest) within
      simp only [readFrom, allDigits.1, fits, ↓reduceIte]
      exact ih allDigits.2 within

/-- A run of digits within the limit reads as its value. -/
theorem read_eq_ok {limit : Nat} {digits : Text} (nonempty : digits ≠ [])
    (allDigits : digits.all Char.isDigit) (within : value digits ≤ limit) :
    read limit digits = .ok (value digits) := by
  cases digits with
  | nil => exact absurd rfl nonempty
  | cons first rest =>
      have unsigned : first ≠ '+' := by
        rintro rfl
        simp at allDigits
      have plain : read limit (first :: rest) = readFrom limit 0 (first :: rest) := by
        unfold read
        split <;> simp_all
      rw [plain]
      exact readFrom_eq_ok allDigits within

end Numeral

end TerminalMarkup
