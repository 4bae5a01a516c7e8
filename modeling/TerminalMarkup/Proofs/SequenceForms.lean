import TerminalMarkup.Proofs.Emissions
import TerminalMarkup.Proofs.Spellings

/-!
# The forms of a control sequence

A control sequence can be put at the end of a buffer, shown as a text and written to a
writer, and it has a length.  Each of these is computed from the sequence in its own way.
Digits for a buffer are found from the lowest up, those of a text from the highest down, and
the length comes from the sizes of the numbers without any digits at all.

All of them agree with the emission of the sequence (`EscapeSequence.encodings_agree`): the
text is the emission, a buffer or a writer receives its bytes, and the length is the number
of these bytes.  The numbers in it are decimals, which have no zero in front and are read
back as the numbers they were (`Numeral.isDecimal_toDigits`).
-/

set_option autoImplicit false

namespace TerminalMarkup

/-! ## Decimals -/

namespace Numeral

/-- The decimal of a number: few enough digits for two bytes, no zero in front unless it
stands alone, and the number is what any reader makes of it whose limit allows. -/
structure IsDecimal (digits : Text) (number : Nat) : Prop where
  numeral : Shape.IsNumeral 5 digits
  noZeroInFront : digits.head? = some '0' → digits = ['0']
  reads : ∀ limit, number ≤ limit → read limit digits = .ok number

theorem eq_zero_of_digitChar_eq : ∀ digit < 10, Nat.digitChar digit = '0' → digit = 0 := by
  decide

/-- Only the decimal of zero begins with a zero. -/
theorem eq_zero_of_head?_toDigits {number : Nat}
    (zero : (Nat.toDigits 10 number).head? = some '0') : number = 0 := by
  induction number using Nat.strongRecOn with
  | ind number ih =>
      by_cases small : number < 10
      · rw [Nat.toDigits_of_lt_base small, List.head?_cons, Option.some.injEq] at zero
        exact eq_zero_of_digitChar_eq number small zero
      · have large : 10 ≤ number := Nat.le_of_not_lt small
        rw [Nat.toDigits_of_base_le (by decide) large,
          List.head?_append_of_ne_nil _ Nat.toDigits_ne_nil] at zero
        have tenth := ih (number / 10) (by omega) zero
        omega

theorem isDecimal_toDigits {number : Nat} (fits : number < 65536) :
    IsDecimal (Nat.toDigits 10 number) number := by
  have numeral : Shape.IsNumeral 5 (Nat.toDigits 10 number) :=
    isNumeral_toDigits (by decide) (by omega)
  refine ⟨numeral, ?_, ?_⟩
  · intro zero
    rw [eq_zero_of_head?_toDigits zero, Nat.toDigits_zero]
  · intro limit within
    have valued := value_toDigits number
    have read := read_eq_ok numeral.1 (List.all_eq_true.mpr numeral.2.2) (valued.symm ▸ within)
    rwa [valued] at read

end Numeral

/-! ## Lengths -/

theorem Text.byteLength_toDigits (number : Nat) :
    Text.byteLength (Nat.toDigits 10 number) = (Nat.toDigits 10 number).length := by
  apply Shape.byteLength_of_all_isDigit
  intro digit found
  exact Nat.isDigit_of_mem_toDigits (by decide) (by decide) found

/-- The number of digits is known from the size of the number. -/
theorem Decimal.digitCount_eq (value : UInt16) :
    digitCount value = (Nat.toDigits 10 value.toNat).length := by
  have sizes := congrArg ByteArray.size (toByteArray_digits value)
  rw [List.size_toByteArray, Text.size_utf8, Text.byteLength_toDigits, length_digits] at sizes
  exact sizes

/-- A code has as many digits as the number of two bytes that is put into a buffer for it. -/
theorem RenditionParameter.digitCount_eq (parameter : RenditionParameter) :
    parameter.digitCount = (Nat.toDigits 10 parameter.code.toNat).length := by
  rw [← UInt8.toNat_toUInt16, ← Decimal.digitCount_eq]
  simp only [digitCount, Decimal.digitCount, UInt8.lt_iff_toNat_lt, UInt16.lt_iff_toNat_lt,
    UInt8.toNat_toUInt16]
  have bound : parameter.code.toNat < 256 := parameter.code.toNat_lt
  generalize parameter.code.toNat = code at bound
  change (if code < 10 then 1 else if code < 100 then 2 else 3) =
    if code < 10 then 1 else if code < 100 then 2 else if code < 1000 then 3
      else if code < 10000 then 4 else 5
  have below : code < 1000 := by omega
  simp only [below, ↓reduceIte]

/-- Parts with a separator between them are as long as the parts with a separator behind
each, the last of which is missing. -/
theorem Text.byteLength_intercalate {separator : Char} (single : separator.utf8Size = 1)
    {parts : List Text} (nonempty : parts ≠ []) :
    Text.byteLength ([separator].intercalate parts) + 1 =
      (parts.map fun part => Text.byteLength part + 1).sum := by
  induction parts with
  | nil => exact absurd rfl nonempty
  | cons first rest ih =>
      cases rest with
      | nil => simp
      | cons second others =>
          have later := ih (List.cons_ne_nil second others)
          rw [List.map_cons, List.sum_cons, ← later, List.intercalate_cons_cons,
            Text.byteLength_append, Text.byteLength_append, Text.byteLength_cons,
            Text.byteLength_nil, single]
          omega

/-- Each number of a sequence is followed by one more character, a semicolon or the final
one. -/
theorem Emission.byteLength_sequence {numbers : List Nat} {final : Char} (nonempty : numbers ≠ [])
    (single : final.utf8Size = 1) :
    Text.byteLength (sequence numbers final).characters =
      2 + (numbers.map fun number => (Nat.toDigits 10 number).length + 1).sum := by
  have separated : Text.byteLength (parameters numbers) + 1 =
      ((numbers.map (Nat.toDigits 10)).map fun part => Text.byteLength part + 1).sum :=
    Text.byteLength_intercalate rfl (by simpa using nonempty)
  simp only [List.map_map, Function.comp_def, Text.byteLength_toDigits] at separated
  have escape : '\x1b'.utf8Size = 1 := rfl
  have bracket : '['.utf8Size = 1 := rfl
  rw [← separated, characters, Text.byteLength_cons, Text.byteLength_cons,
    Text.byteLength_append, Text.byteLength_cons, Text.byteLength_nil, escape, bracket, single]
  omega

theorem ControlSequence.length_eq (sequence : ControlSequence) :
    sequence.length = Text.byteLength sequence.emission.characters := by
  cases sequence with
  | cursorUp | cursorDown | cursorForward | cursorBack | cursorPosition =>
      rw [emission, Emission.byteLength_sequence (List.cons_ne_nil _ _) rfl]
      simp only [length, Decimal.digitCount_eq, List.map_cons, List.map_nil, List.sum_cons,
        List.sum_nil]
      omega
  | eraseInDisplay extent | eraseInLine extent => cases extent <;> rfl

theorem Rendition.length_eq (rendition : Rendition) :
    rendition.length = Text.byteLength rendition.emission.characters := by
  obtain ⟨first, second⟩ := rendition
  rw [emission, Emission.byteLength_sequence (by simp [parameters]) rfl]
  cases second with
  | none =>
      simp only [length, parameters, RenditionParameter.digitCount_eq, Option.toList_none,
        List.map_cons, List.map_nil, List.sum_cons, List.sum_nil]
      omega
  | some second =>
      simp only [length, parameters, RenditionParameter.digitCount_eq, Option.toList_some,
        List.map_cons, List.map_nil, List.sum_cons, List.sum_nil]
      omega

/-! ## Texts -/

theorem ControlSequence.toList_display (sequence : ControlSequence) :
    sequence.display.toList = sequence.emission.characters := by
  cases sequence <;> simp [display, emission, Emission.characters, Emission.parameters]

theorem Rendition.toList_display (rendition : Rendition) :
    rendition.display.toList = rendition.emission.characters := by
  obtain ⟨first, second⟩ := rendition
  cases second <;>
    simp [display, RenditionParameter.display, emission, parameters, Emission.characters,
      Emission.parameters]

/-! ## Buffers -/

namespace EscapeOutput

theorem bytes_appendText_onto (buffer : ByteArray) (text : Text) :
    ((onto buffer).appendText text).bytes = buffer ++ Text.utf8 text :=
  bytes_append (onto buffer) (Text.utf8 text)

theorem written_appendText_onto (buffer : ByteArray) (text : Text) :
    ((onto buffer).appendText text).written = Text.byteLength text := by
  rw [appendText, written_append, Text.size_utf8]
  exact Nat.zero_add _

end EscapeOutput

/-! ## Sequences of either kind -/

/-- A control sequence. -/
inductive EscapeSequence where
  /-- For the cursor or the screen. -/
  | control (sequence : ControlSequence)
  /-- For the look of characters. -/
  | rendition (sequence : Rendition)
  deriving DecidableEq, Repr

namespace EscapeSequence

/-- How many bytes a sequence has. -/
def length : EscapeSequence → Nat
  | control sequence => sequence.length
  | rendition sequence => sequence.length

/-- Puts a sequence at the end of a buffer and counts its bytes. -/
def encode : EscapeSequence → ByteArray → EscapeOutput
  | control sequence => sequence.encode
  | rendition sequence => sequence.encode

/-- A sequence as a text. -/
def display : EscapeSequence → String
  | control sequence => sequence.display
  | rendition sequence => sequence.display

/-- Writes a sequence and answers how many bytes it has. -/
def write : EscapeSequence → Writer → Except RenderError Nat × Writer
  | control sequence => sequence.write
  | rendition sequence => sequence.write

/-- What a sequence is made of. -/
def emission : EscapeSequence → Emission
  | control sequence => sequence.emission
  | rendition sequence => sequence.emission

/-- A sequence emits one number or more, each small enough for two bytes, and then a final
character, which takes one byte. -/
theorem emission_cases (sequence : EscapeSequence) :
    ∃ numbers final, sequence.emission = .sequence numbers final ∧ numbers ≠ [] ∧
      (∀ number ∈ numbers, number < 65536) ∧ final.utf8Size = 1 := by
  cases sequence with
  | control sequence =>
      cases sequence with
      | cursorPosition row column =>
          refine ⟨[row.toNat, column.toNat], 'H', rfl, List.cons_ne_nil _ _, ?_, rfl⟩
          have rowFits := row.toNat_lt
          have columnFits := column.toNat_lt
          simp [rowFits, columnFits]
      | cursorUp amount | cursorDown amount | cursorForward amount | cursorBack amount =>
          refine ⟨[amount.toNat], _, rfl, List.cons_ne_nil _ _, ?_, rfl⟩
          have fits := amount.toNat_lt
          simp [fits]
      | eraseInDisplay extent | eraseInLine extent =>
          refine ⟨[extent.code.toNat], _, rfl, List.cons_ne_nil _ _, ?_, rfl⟩
          have fits := extent.code.toNat_lt
          simp [fits]
  | rendition sequence =>
      refine ⟨_, 'm', rfl, List.cons_ne_nil _ _, ?_, rfl⟩
      intro number found
      obtain ⟨parameter, -, rfl⟩ := List.mem_map.mp found
      have fits := parameter.code.toNat_lt
      omega

theorem encode_eq (sequence : EscapeSequence) (buffer : ByteArray) :
    sequence.encode buffer =
      (EscapeOutput.onto buffer).appendText sequence.emission.characters := by
  cases sequence with
  | control sequence => exact sequence.encode_eq buffer
  | rendition sequence => exact sequence.encode_eq buffer

theorem toList_display (sequence : EscapeSequence) :
    sequence.display.toList = sequence.emission.characters := by
  cases sequence with
  | control sequence => exact sequence.toList_display
  | rendition sequence => exact sequence.toList_display

theorem length_eq (sequence : EscapeSequence) :
    sequence.length = Text.byteLength sequence.emission.characters := by
  cases sequence with
  | control sequence => exact sequence.length_eq
  | rendition sequence => exact sequence.length_eq

/-- A writer is given the bytes of the emission, and their number is answered. -/
theorem write_eq (sequence : EscapeSequence) (writer : Writer) :
    sequence.write writer =
      let written := writer.writeAll (Text.utf8 sequence.emission.characters)
      (written.1.map fun _ => sequence.length, written.2) := by
  have encoded := sequence.encode_eq ByteArray.empty
  have bytes : (sequence.encode ByteArray.empty).bytes =
      Text.utf8 sequence.emission.characters := by
    rw [encoded, EscapeOutput.bytes_appendText_onto, ByteArray.empty_append]
  have counted : (sequence.encode ByteArray.empty).written = sequence.length := by
    rw [encoded, EscapeOutput.written_appendText_onto, length_eq]
  rw [← bytes, ← counted]
  cases sequence <;> rfl

/-- The numbers of a sequence are written as decimals. -/
theorem exists_decimals (sequence : EscapeSequence) :
    ∃ numbers final decimals, sequence.emission = .sequence numbers final ∧
      List.Forall₂ Numeral.IsDecimal decimals numbers ∧
      sequence.emission.characters =
        '\x1b' :: '[' :: ([';'].intercalate decimals ++ [final]) := by
  obtain ⟨numbers, final, emits, -, fit, -⟩ := sequence.emission_cases
  refine ⟨numbers, final, numbers.map (Nat.toDigits 10), emits, ?_, ?_⟩
  · rw [List.forall₂_map_left_iff, List.forall₂_same]
    intro number found
    exact Numeral.isDecimal_toDigits (fit number found)
  · rw [emits]
    rfl

/-- **All forms of a control sequence agree.**  Encoding a sequence appends the bytes of its
text, whatever the buffer holds, and counts as many as the sequence is long.  The text
consists of the introducer, the decimals of the numbers with semicolons between them, and the
final character.  A writer without a limit receives the same bytes, and so does a writer with
room for them; the length is answered.  Any other writer receives as many of the bytes as
there is room for, and fails. -/
theorem encodings_agree (sequence : EscapeSequence) (buffer taken : ByteArray) (limit : Nat) :
    let text := sequence.display.toList
    let encoded := sequence.encode buffer
    let room := limit - taken.size
    encoded.bytes = buffer ++ Text.utf8 text ∧ encoded.written = sequence.length ∧
      Text.byteLength text = sequence.length ∧
      (∃ numbers final decimals, sequence.emission = .sequence numbers final ∧
        List.Forall₂ Numeral.IsDecimal decimals numbers ∧
        text = '\x1b' :: '[' :: ([';'].intercalate decimals ++ [final])) ∧
      sequence.write ⟨none, taken⟩ = (.ok sequence.length, ⟨none, taken ++ Text.utf8 text⟩) ∧
      sequence.write ⟨some limit, taken⟩ =
        if sequence.length ≤ room then
          (.ok sequence.length, ⟨some limit, taken ++ Text.utf8 text⟩)
        else
          (.error (.io "failed to write whole buffer"),
            ⟨some limit, taken ++ (Text.utf8 text).extract 0 room⟩) := by
  intro text encoded room
  have shown : text = sequence.emission.characters := sequence.toList_display
  have measured : Text.byteLength text = sequence.length := by
    rw [shown, length_eq]
  have puts : encoded = (EscapeOutput.onto buffer).appendText text := by
    rw [shown]
    exact sequence.encode_eq buffer
  refine ⟨?_, ?_, measured, ?_, ?_, ?_⟩
  · rw [puts, EscapeOutput.bytes_appendText_onto]
  · rw [puts, EscapeOutput.written_appendText_onto, measured]
  · rw [shown]
    exact sequence.exists_decimals
  · rw [write_eq, ← shown]
    rfl
  · rw [write_eq, ← shown, Writer.writeAll, Text.size_utf8, measured]
    dsimp only
    split <;> rfl

end EscapeSequence

end TerminalMarkup
