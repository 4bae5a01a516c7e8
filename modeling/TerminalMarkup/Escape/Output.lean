import TerminalMarkup.Fault

/-!
# Output in bytes

Escape sequences carry their numbers as decimals: the ASCII digits of the
number, the highest first, without leading zeros and with a single zero for
zero.  Digits are found from the lowest up, so each is put in front of the
digits found before (`Decimal.digitsBefore`).  How many there will be is known
beforehand from the size of the number alone (`Decimal.digitCount`,
`Decimal.length_digits`).

An output is a buffer that bytes are appended to, together with a count of the
bytes appended.  The buffer may hold bytes from before, which the count leaves
out.  Plain bytes are appended as they are (`EscapeOutput.append`), and appending
twice is appending once what comes of both (`EscapeOutput.append_append`).  A
control sequence has an encoder, which puts the parts of the sequence at the end
of a buffer and counts as it goes.  An output hands its buffer to the encoder and
adds the count that comes back to its own (`EscapeOutput.appendEncoded`), so the
count is never read off the buffer.

A writer takes bytes too, all that it is given or only up to a limit.  A writer
that cannot take everything takes as much as there is room for, and fails.
-/

set_option autoImplicit false

namespace TerminalMarkup

/-! ## Decimals -/

namespace Decimal

/-- The digits of a number, in front of digits that follow them. -/
def digitsBefore (value : Nat) (following : List UInt8) : List UInt8 :=
  let digits := UInt8.ofNat ('0'.toNat + value % 10) :: following
  if value < 10 then digits else digitsBefore (value / 10) digits
termination_by value

/-- The digits of a number. -/
def digits (value : UInt16) : List UInt8 := digitsBefore value.toNat []

/-- How many digits a number has. -/
def digitCount (value : UInt16) : Nat :=
  if value < 10 then 1
  else if value < 100 then 2
  else if value < 1000 then 3
  else if value < 10000 then 4
  else 5

theorem digitsBefore_of_lt {value : Nat} (small : value < 10) (following : List UInt8) :
    digitsBefore value following = UInt8.ofNat ('0'.toNat + value % 10) :: following := by
  rw [digitsBefore]
  simp only [small, ↓reduceIte]

/-- Any other number is the digits of its tenth and one more. -/
theorem digitsBefore_of_le {value : Nat} (large : 10 ≤ value) (following : List UInt8) :
    digitsBefore value following =
      digitsBefore (value / 10) (UInt8.ofNat ('0'.toNat + value % 10) :: following) := by
  have notSmall : ¬ value < 10 := by omega
  rw [digitsBefore]
  simp only [notSmall, ↓reduceIte]

/-- What follows the digits of a number has no influence on them. -/
theorem digitsBefore_eq_append (value : Nat) (following : List UInt8) :
    digitsBefore value following = digitsBefore value [] ++ following := by
  induction value using Nat.strongRecOn generalizing following with
  | ind value ih =>
      by_cases small : value < 10
      · rw [digitsBefore_of_lt small, digitsBefore_of_lt small]
        rfl
      · have large : 10 ≤ value := by omega
        rw [digitsBefore_of_le large, digitsBefore_of_le large, ih _ (by omega),
          ih _ (by omega) [_], List.append_assoc]
        rfl

theorem length_digitsBefore_of_lt {value : Nat} (small : value < 10) :
    (digitsBefore value []).length = 1 := by
  rw [digitsBefore_of_lt small]
  rfl

theorem length_digitsBefore_of_le {value : Nat} (large : 10 ≤ value) :
    (digitsBefore value []).length = (digitsBefore (value / 10) []).length + 1 := by
  rw [digitsBefore_of_le large, digitsBefore_eq_append, List.length_append]
  rfl

/-- A number has as many digits as its size says. -/
theorem length_digits (value : UInt16) : (digits value).length = digitCount value := by
  have bound : value.toNat < 65536 := value.toNat_lt
  simp only [digits, digitCount, UInt16.lt_iff_toNat_lt]
  change _ = if value.toNat < 10 then 1 else if value.toNat < 100 then 2
    else if value.toNat < 1000 then 3 else if value.toNat < 10000 then 4 else 5
  generalize value.toNat = number at bound
  split
  next small => exact length_digitsBefore_of_lt small
  next =>
    rw [length_digitsBefore_of_le (by omega)]
    split
    next => rw [length_digitsBefore_of_lt (by omega)]
    next =>
      rw [length_digitsBefore_of_le (by omega)]
      split
      next => rw [length_digitsBefore_of_lt (by omega)]
      next =>
        rw [length_digitsBefore_of_le (by omega)]
        split
        next => rw [length_digitsBefore_of_lt (by omega)]
        next =>
          rw [length_digitsBefore_of_le (by omega), length_digitsBefore_of_lt (by omega)]

end Decimal

/-! ## Outputs -/

/-- A buffer, and how many of its bytes were appended to it as an output. -/
structure EscapeOutput where
  bytes : ByteArray
  /-- How many bytes were appended. -/
  written : Nat

namespace EscapeOutput

/-- An output at the end of a buffer. -/
def onto (buffer : ByteArray) : EscapeOutput := ⟨buffer, 0⟩

/-- An output of its own. -/
def empty : EscapeOutput := onto ByteArray.empty

/-- Whether nothing was appended. -/
def isEmpty (output : EscapeOutput) : Bool := output.written == 0

/-- Appends bytes. -/
def append (output : EscapeOutput) (bytes : ByteArray) : EscapeOutput :=
  ⟨output.bytes ++ bytes, output.written + bytes.size⟩

@[simp] theorem bytes_append (output : EscapeOutput) (bytes : ByteArray) :
    (output.append bytes).bytes = output.bytes ++ bytes := rfl

@[simp] theorem written_append (output : EscapeOutput) (bytes : ByteArray) :
    (output.append bytes).written = output.written + bytes.size := rfl

@[simp] theorem append_append (output : EscapeOutput) (first second : ByteArray) :
    (output.append first).append second = output.append (first ++ second) := by
  simp [append, ByteArray.append_assoc, ByteArray.size_append, Nat.add_assoc]

/-- Appends the bytes of a text. -/
def appendText (output : EscapeOutput) (text : Text) : EscapeOutput :=
  output.append (Text.utf8 text)

/-- Appends what an encoder puts at the end of the buffer, as many bytes as the
encoder counts. -/
def appendEncoded (output : EscapeOutput) (encoder : ByteArray → EscapeOutput) : EscapeOutput :=
  let encoded := encoder output.bytes
  ⟨encoded.bytes, output.written + encoded.written⟩

/-! ## The parts of a control sequence

A control sequence is an introducer, numbers with semicolons between them, and
a final byte that says what the numbers are for. -/

/-- Appends one byte and counts one. -/
def push (output : EscapeOutput) (byte : UInt8) : EscapeOutput :=
  ⟨output.bytes.push byte, output.written + 1⟩

/-- Appends a number as a decimal and counts its digits. -/
def appendDecimal (output : EscapeOutput) (value : UInt16) : EscapeOutput :=
  let digits := Decimal.digits value
  ⟨output.bytes ++ digits.toByteArray, output.written + digits.length⟩

/-- Appends the escape character and the opening bracket. -/
def introduce (output : EscapeOutput) : EscapeOutput := output.append [0x1b, 0x5b].toByteArray

/-- Appends the semicolon between two numbers. -/
def separate (output : EscapeOutput) : EscapeOutput := output.push 0x3b

/-- Appends the final byte, an ASCII letter. -/
def conclude (output : EscapeOutput) (letter : Char) : EscapeOutput := output.push letter.toUInt8

end EscapeOutput

/-! ## Writers -/

/-- A place where bytes are written to. -/
structure Writer where
  /-- How many bytes fit in all; none if there is no limit. -/
  limit : Option Nat
  output : ByteArray

namespace Writer

/-- A writer that has not taken anything. -/
def withLimit (limit : Option Nat) : Writer := ⟨limit, ByteArray.empty⟩

/-- The error of a writer that did not take everything. -/
def incomplete : RenderError := .io "failed to write whole buffer"

/-- Writes bytes, as many as there is room for. -/
def writeAll (writer : Writer) (bytes : ByteArray) : Except RenderError Unit × Writer :=
  match writer.limit with
  | none => (.ok (), { writer with output := writer.output ++ bytes })
  | some limit =>
      let room := limit - writer.output.size
      if bytes.size ≤ room then (.ok (), { writer with output := writer.output ++ bytes })
      else (.error incomplete, { writer with output := writer.output ++ bytes.extract 0 room })

end Writer

end TerminalMarkup
