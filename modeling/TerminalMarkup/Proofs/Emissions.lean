import TerminalMarkup.Proofs.Decomposition
import TerminalMarkup.Interpreter.Rendering
import TerminalMarkup.Sink.Recording

/-!
# What calls emit

An output receives a call by appending characters, and which characters these are
depends on the call alone.  A call that shows a text emits the text as it is, and a
call for the next line emits a line feed.  Every other call emits a control sequence,
which is the escape character and an opening bracket, then numbers in decimal with
semicolons between them, then a final character:

| call                             | numbers                      | final character    |
|----------------------------------|------------------------------|--------------------|
| attribute or color               | its codes                    | `m`                |
| cursor up, down, forward, back   | the amount                   | `A`, `B`, `C`, `D` |
| cursor to a place                | the row, the column          | `H`                |
| erase in the display, in a line  | 0 after, 1 before, 2 whole   | `J`, `K`           |

`Command.emission` is this table in full.  `Command.applyTo_output` says that an output
does what the table says, and `Command.playAll_output` says it for a list of calls.  No
character of the numbers is one that ends a sequence
(`Emission.endsSequence_of_mem_parameters`), so that the characters alone tell where a
sequence ends.
-/

set_option autoImplicit false

namespace TerminalMarkup

universe u

/-- What a call appends to an output. -/
inductive Emission where
  | text (characters : Text)
  | lineFeed
  /-- A control sequence, by its numbers and its final character. -/
  | sequence (numbers : List Nat) (final : Char)
  deriving DecidableEq, Repr

namespace Emission

/-- Numbers in decimal, with semicolons between them. -/
def parameters (numbers : List Nat) : Text := [';'].intercalate (numbers.map (Nat.toDigits 10))

/-- The characters that are appended. -/
def characters : Emission → Text
  | text characters => characters
  | lineFeed => ['\n']
  | sequence numbers final => '\x1b' :: '[' :: (parameters numbers ++ [final])

end Emission

/-! ## The table -/

/-- The codes that set a paint. -/
def Paint.codes : Paint → List Nat
  | foreground color => [(if color.bright then 90 else 30) + color.offset]
  | weightedForeground .normal color => [22, 30 + color.offset]
  | weightedForeground .bold color => [1, 30 + color.offset]
  | background color => [(if color.bright then 100 else 40) + color.offset]

/-- What a call emits. -/
def Command.emission : Command → Emission
  | reset => .sequence [0] 'm'
  | bold => .sequence [1] 'm'
  | faint => .sequence [2] 'm'
  | italic => .sequence [3] 'm'
  | underline => .sequence [4] 'm'
  | blink => .sequence [5] 'm'
  | negative => .sequence [7] 'm'
  | strikethrough => .sequence [9] 'm'
  | normal => .sequence [22] 'm'
  | paint selected => .sequence selected.codes 'm'
  | moveCursor .up amount => .sequence [amount.toNat] 'A'
  | moveCursor .down amount => .sequence [amount.toNat] 'B'
  | moveCursor .forward amount => .sequence [amount.toNat] 'C'
  | moveCursor .back amount => .sequence [amount.toNat] 'D'
  | placeCursor row column => .sequence [row.toNat, column.toNat] 'H'
  | eraseDisplayBelow => .sequence [0] 'J'
  | eraseDisplayAbove => .sequence [1] 'J'
  | eraseDisplay => .sequence [2] 'J'
  | eraseLineAfter => .sequence [0] 'K'
  | eraseLineBefore => .sequence [1] 'K'
  | eraseLine => .sequence [2] 'K'
  | lineFeed => .lineFeed
  | text characters => .text characters

/-- The characters that calls emit, in order. -/
def Command.emitted (commands : List Command) : Text :=
  commands.flatMap fun command => command.emission.characters

/-! ## The shape of sequences -/

/-- Whether the character or byte of a code, one from `@` to `~`, ends a control
sequence. -/
def endsSequence (code : Nat) : Bool := 0x40 ≤ code && code ≤ 0x7e

theorem mem_intercalate {α : Type u} {separator item : α} {parts : List (List α)}
    (found : item ∈ [separator].intercalate parts) :
    item = separator ∨ ∃ part ∈ parts, item ∈ part := by
  induction parts with
  | nil => simp at found
  | cons first rest ih =>
      cases rest with
      | nil =>
          rw [List.intercalate_singleton] at found
          exact .inr ⟨first, by simp, found⟩
      | cons second others =>
          rw [List.intercalate_cons_cons, List.append_assoc, List.mem_append, List.mem_append,
            List.mem_singleton] at found
          rcases found with within | same | later
          · exact .inr ⟨first, by simp, within⟩
          · exact .inl same
          · refine (ih later).imp_right ?_
            rintro ⟨part, member, within⟩
            exact ⟨part, List.mem_cons_of_mem first member, within⟩

/-- Numbers are written with digits and semicolons. -/
theorem Emission.semicolon_or_isDigit_of_mem_parameters {numbers : List Nat} {character : Char}
    (found : character ∈ parameters numbers) : character = ';' ∨ character.isDigit = true := by
  rcases mem_intercalate found with same | ⟨decimal, member, within⟩
  · exact .inl same
  · obtain ⟨number, -, rfl⟩ := List.mem_map.mp member
    exact .inr (Nat.isDigit_of_mem_toDigits (by decide) (by decide) within)

/-- Digits and semicolons end no sequence. -/
theorem Emission.endsSequence_of_mem_parameters {numbers : List Nat} {character : Char}
    (found : character ∈ parameters numbers) : endsSequence character.toNat = false := by
  rcases semicolon_or_isDigit_of_mem_parameters found with rfl | digit
  · rfl
  · have low := (Char.isDigit_iff_toNat.mp digit).2
    have below : ¬ 0x40 ≤ character.toNat := by
      have nine : '9'.toNat = 0x39 := rfl
      omega
    simp [endsSequence, below]

/-- Calls other than for texts and line feeds emit sequences, which have numbers and
are ended by their final character. -/
theorem Command.emission_cases (command : Command) :
    (∃ characters, command = .text characters) ∨ command = .lineFeed ∨
      ∃ numbers final, command.emission = .sequence numbers final ∧ numbers ≠ [] ∧
        endsSequence final.toNat = true := by
  cases command with
  | text characters => exact .inl ⟨characters, rfl⟩
  | lineFeed => exact .inr (.inl rfl)
  | paint selected =>
      refine .inr (.inr ⟨selected.codes, 'm', rfl, ?_, rfl⟩)
      cases selected with
      | foreground | background => exact List.cons_ne_nil _ _
      | weightedForeground intensity => cases intensity <;> exact List.cons_ne_nil _ _
  | moveCursor direction amount =>
      cases direction <;> exact .inr (.inr ⟨_, _, rfl, List.cons_ne_nil _ _, rfl⟩)
  | _ => exact .inr (.inr ⟨_, _, rfl, List.cons_ne_nil _ _, rfl⟩)

/-! ## Bytes -/

theorem Text.utf8_injective : Function.Injective Text.utf8 := by
  intro first second same
  have read : some first = some second := by
    rw [← Text.ofUtf8?_utf8 first, same, Text.ofUtf8?_utf8]
  exact Option.some.inj read

/-- An ASCII character is one byte. -/
theorem Text.utf8_singleton_of_ascii {character : Char} (ascii : character.toNat < 128) :
    Text.utf8 [character] = [character.toUInt8].toByteArray := by
  have one : character.utf8Size = 1 := by
    rw [Char.utf8Size_eq_one_iff, UInt32.le_iff_toNat_le]
    exact Nat.le_of_lt_succ ascii
  have encoded : String.utf8EncodeChar character = [character.toUInt8] :=
    String.utf8EncodeChar_eq_singleton one
  have alone : Text.utf8 [character] = (String.utf8EncodeChar character).toByteArray :=
    List.utf8Encode_singleton
  rw [alone, encoded]

namespace Decimal

theorem utf8_digitChar : ∀ digit < 10,
    Text.utf8 [Nat.digitChar digit] = [UInt8.ofNat ('0'.toNat + digit)].toByteArray := by
  decide

/-- The digits found from the lowest up are the decimal of the number. -/
theorem toByteArray_digitsBefore (value : Nat) :
    (digitsBefore value []).toByteArray = Text.utf8 (Nat.toDigits 10 value) := by
  induction value using Nat.strongRecOn with
  | ind value ih =>
      by_cases small : value < 10
      · rw [digitsBefore_of_lt small, Nat.toDigits_of_lt_base small, utf8_digitChar value small,
          Nat.mod_eq_of_lt small]
      · have large : 10 ≤ value := Nat.le_of_not_lt small
        have lowest : value % 10 < 10 := Nat.mod_lt value (by decide)
        rw [digitsBefore_of_le large, digitsBefore_eq_append, List.toByteArray_append,
          ih (value / 10) (by omega), Nat.toDigits_of_base_le (by decide) large,
          Text.utf8_append, utf8_digitChar _ lowest]

theorem toByteArray_digits (value : UInt16) :
    (digits value).toByteArray = Text.utf8 (Nat.toDigits 10 value.toNat) :=
  toByteArray_digitsBefore value.toNat

end Decimal

/-! ## Appending is by characters -/

namespace EscapeOutput

@[simp] theorem appendText_nil (output : EscapeOutput) : output.appendText [] = output := by
  simp [appendText, append]

@[simp] theorem appendText_appendText (output : EscapeOutput) (first second : Text) :
    (output.appendText first).appendText second = output.appendText (first ++ second) := by
  rw [appendText, appendText, append_append, appendText, Text.utf8_append]

theorem introduce_eq (output : EscapeOutput) : output.introduce = output.appendText ['\x1b', '['] :=
  rfl

/-- One byte that is put and counted is one byte appended. -/
theorem push_eq (output : EscapeOutput) {character : Char} (ascii : character.toNat < 128) :
    output.push character.toUInt8 = output.appendText [character] := by
  rw [push, appendText, append, Text.utf8_singleton_of_ascii ascii, List.size_toByteArray,
    ByteArray.append_toByteArray_singleton, List.length_singleton]

theorem separate_eq (output : EscapeOutput) : output.separate = output.appendText [';'] := by
  have ascii : ';'.toNat < 128 := by decide
  exact output.push_eq ascii

/-- The digits that are put and counted are the decimal appended. -/
theorem appendDecimal_eq (output : EscapeOutput) (value : UInt16) :
    output.appendDecimal value = output.appendText (Nat.toDigits 10 value.toNat) := by
  simp only [appendDecimal, appendText, append, ← Decimal.toByteArray_digits, List.size_toByteArray]

theorem conclude_eq (output : EscapeOutput) {letter : Char} (ascii : letter.toNat < 128) :
    output.conclude letter = output.appendText [letter] :=
  output.push_eq ascii

/-- An encoder that counts what it puts at the end of a buffer appends just that. -/
theorem appendEncoded_eq {encoder : ByteArray → EscapeOutput} {text : Text}
    (counts : ∀ buffer, encoder buffer = (onto buffer).appendText text) (output : EscapeOutput) :
    output.appendEncoded encoder = output.appendText text := by
  simp only [appendEncoded, counts, appendText, append, onto, Nat.zero_add]

/-- A control sequence of one number. -/
theorem conclude_one (output : EscapeOutput) (number : UInt16) {final : Char}
    (ascii : final.toNat < 128) :
    (output.introduce.appendDecimal number).conclude final =
      output.appendText (Emission.sequence [number.toNat] final).characters := by
  rw [introduce_eq, appendDecimal_eq, conclude_eq _ ascii, appendText_appendText,
    appendText_appendText]
  simp [Emission.characters, Emission.parameters]

/-- A control sequence of two numbers. -/
theorem conclude_two (output : EscapeOutput) (first second : UInt16) {final : Char}
    (ascii : final.toNat < 128) :
    ((output.introduce.appendDecimal first).separate.appendDecimal second).conclude final =
      output.appendText (Emission.sequence [first.toNat, second.toNat] final).characters := by
  rw [introduce_eq, appendDecimal_eq, appendDecimal_eq, separate_eq, conclude_eq _ ascii]
  simp [Emission.characters, Emission.parameters]

end EscapeOutput

/-- A sequence for the cursor or the screen, as an emission. -/
def ControlSequence.emission : ControlSequence → Emission
  | cursorUp amount => .sequence [amount.toNat] 'A'
  | cursorDown amount => .sequence [amount.toNat] 'B'
  | cursorForward amount => .sequence [amount.toNat] 'C'
  | cursorBack amount => .sequence [amount.toNat] 'D'
  | cursorPosition row column => .sequence [row.toNat, column.toNat] 'H'
  | eraseInDisplay extent => .sequence [extent.code.toNat] 'J'
  | eraseInLine extent => .sequence [extent.code.toNat] 'K'

/-- The encoder of a sequence puts the characters of its emission and counts their bytes. -/
theorem ControlSequence.encode_eq (sequence : ControlSequence) (buffer : ByteArray) :
    sequence.encode buffer =
      (EscapeOutput.onto buffer).appendText sequence.emission.characters := by
  cases sequence with
  | cursorPosition row column =>
      exact (EscapeOutput.onto buffer).conclude_two row column (by decide)
  | cursorUp | cursorDown | cursorForward | cursorBack | eraseInDisplay | eraseInLine =>
      exact (EscapeOutput.onto buffer).conclude_one _ (by decide)

theorem ControlSequence.appendTo_eq (sequence : ControlSequence) (output : EscapeOutput) :
    sequence.appendTo output = output.appendText sequence.emission.characters :=
  EscapeOutput.appendEncoded_eq sequence.encode_eq output

/-- A rendition sequence, as an emission. -/
def Rendition.emission (rendition : Rendition) : Emission :=
  .sequence (rendition.parameters.map fun parameter => parameter.code.toNat) 'm'

theorem Rendition.encode_eq (rendition : Rendition) (buffer : ByteArray) :
    rendition.encode buffer =
      (EscapeOutput.onto buffer).appendText rendition.emission.characters := by
  obtain ⟨first, second⟩ := rendition
  cases second with
  | none => exact (EscapeOutput.onto buffer).conclude_one _ (by decide)
  | some second => exact (EscapeOutput.onto buffer).conclude_two _ _ (by decide)

theorem Rendition.appendTo_eq (rendition : Rendition) (output : EscapeOutput) :
    rendition.appendTo output = output.appendText rendition.emission.characters :=
  EscapeOutput.appendEncoded_eq rendition.encode_eq output

theorem Rendition.emission_ofPaint (selected : Paint) :
    (Rendition.ofPaint selected).emission = .sequence selected.codes 'm' := by
  cases selected with
  | foreground color | background color =>
      obtain ⟨hue, bright⟩ := color
      cases hue <;> cases bright <;> rfl
  | weightedForeground intensity color =>
      obtain ⟨hue, bright⟩ := color
      cases intensity <;> cases hue <;> rfl

namespace Command

/-- **An output does what the table says.** -/
theorem applyTo_output (command : Command) (output : EscapeOutput) :
    command.applyTo output = output.appendText command.emission.characters := by
  cases command with
  | bold => exact Rendition.appendTo_eq (.ofAttribute .bold) output
  | normal => exact Rendition.appendTo_eq (.ofAttribute .normal) output
  | faint => exact Rendition.appendTo_eq (.ofAttribute .faint) output
  | italic => exact Rendition.appendTo_eq (.ofAttribute .italic) output
  | underline => exact Rendition.appendTo_eq (.ofAttribute .underline) output
  | blink => exact Rendition.appendTo_eq (.ofAttribute .blink) output
  | negative => exact Rendition.appendTo_eq (.ofAttribute .negative) output
  | strikethrough => exact Rendition.appendTo_eq (.ofAttribute .strikethrough) output
  | reset => exact Rendition.appendTo_eq (.ofAttribute .reset) output
  | paint selected =>
      have same := Rendition.appendTo_eq (.ofPaint selected) output
      rwa [Rendition.emission_ofPaint] at same
  | eraseDisplay => exact ControlSequence.appendTo_eq (.eraseInDisplay .whole) output
  | eraseDisplayAbove => exact ControlSequence.appendTo_eq (.eraseInDisplay .beforeCursor) output
  | eraseDisplayBelow => exact ControlSequence.appendTo_eq (.eraseInDisplay .afterCursor) output
  | eraseLine => exact ControlSequence.appendTo_eq (.eraseInLine .whole) output
  | eraseLineAfter => exact ControlSequence.appendTo_eq (.eraseInLine .afterCursor) output
  | eraseLineBefore => exact ControlSequence.appendTo_eq (.eraseInLine .beforeCursor) output
  | moveCursor direction amount =>
      have same := ControlSequence.appendTo_eq (.ofMove direction amount) output
      cases direction <;> exact same
  | placeCursor row column => exact ControlSequence.appendTo_eq (.cursorPosition row column) output
  | lineFeed => rfl
  | text characters => rfl

@[simp] theorem emitted_nil : emitted [] = [] := rfl

@[simp] theorem emitted_cons (command : Command) (rest : List Command) :
    emitted (command :: rest) = command.emission.characters ++ emitted rest :=
  List.flatMap_cons

/-- Calls made in order append what they emit, in order. -/
theorem playAll_output (commands : List Command) (output : EscapeOutput) :
    playAll commands output = output.appendText (emitted commands) := by
  induction commands generalizing output with
  | nil => simp
  | cons command rest ih =>
      rw [playAll_cons, ih, applyTo_output, EscapeOutput.appendText_appendText, emitted_cons]

end Command

end TerminalMarkup
