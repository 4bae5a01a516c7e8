import TerminalMarkup.Proofs.Renderings
import TerminalMarkup.Proofs.SequenceForms

/-!
# How much longer a rendering is

A rendering can be longer than its text, because a command of two bytes can ask for a
sequence of eight.  It cannot be much longer.  Each content is set apart from the next by a
delimiter at least, and with this one more byte it has three bytes for every eight that its
call emits (`Interpreter.size_le_of_read`).  All contents together have one byte more than
the text at most (`Text.sum_room_contents_le`), and so the sum over them is the bound on the
whole (`Interpreter.renderOnto_growth`).

The bound is exact.  Foreground selections of two bytes with single delimiters between them
reach it on terminals without codes for bright foregrounds, where each selection is rendered
as an intensity of two digits and a color.
-/

set_option autoImplicit false

namespace TerminalMarkup

/-! ## The room that contents take -/

namespace Text

/-- What a content takes in a text, together with the delimiter that sets it apart. -/
def room (content : Text) : Nat := byteLength content + 1

/-- Cut at every delimiter, a text takes one byte more, as no delimiter follows the last
part. -/
theorem sum_room_splitOn (text : Text) :
    ((text.splitOn delimiter).map room).sum = byteLength text + 1 := by
  have single : delimiter.utf8Size = 1 := rfl
  have measured := byteLength_intercalate single (List.splitOn_ne_nil delimiter text)
  rw [List.intercalate_splitOn] at measured
  exact measured.symm

theorem sum_room_contents_le (text : Text) :
    (text.contents.map room).sum ≤ byteLength text + 1 := by
  rw [← sum_room_splitOn]
  have fewer : (text.contents.map room).Sublist ((text.splitOn delimiter).map room) :=
    List.filter_sublist.map room
  exact fewer.sum_le_sum fun _ _ => Nat.zero_le _

end Text

/-! ## The size of emissions -/

namespace Command

/-- How many bytes a call emits. -/
def size (command : Command) : Nat := Text.byteLength command.emission.characters

theorem byteLength_emitted (commands : List Command) :
    Text.byteLength (emitted commands) = (commands.map size).sum := by
  induction commands with
  | nil => rfl
  | cons command rest ih =>
      rw [emitted_cons, Text.byteLength_append, ih, List.map_cons, List.sum_cons, size]

/-- A sequence is as long as its numbers make it, and numbers of few digits are short. -/
theorem size_le_of_sequence (width : Nat) {command : Command} {numbers : List Nat} {final : Char}
    (emits : command.emission = .sequence numbers final) (nonempty : numbers ≠ [])
    (single : final.utf8Size = 1) (positive : 0 < width)
    (fit : ∀ number ∈ numbers, number < 10 ^ width) :
    command.size ≤ 2 + numbers.length * (width + 1) := by
  have parts : ∀ part ∈ numbers.map fun number => (Nat.toDigits 10 number).length + 1,
      part ≤ width + 1 := by
    intro part found
    obtain ⟨number, member, rfl⟩ := List.mem_map.mp found
    exact Nat.succ_le_succ
      ((Nat.length_toDigits_le_iff (by decide) positive).mpr (fit number member))
  have total := List.sum_le_card_nsmul _ _ parts
  rw [List.length_map, smul_eq_mul] at total
  rw [size, emits, Emission.byteLength_sequence nonempty single]
  exact Nat.add_le_add_left total 2

theorem size_one_le (width : Nat) {command : Command} {number : Nat} {final : Char}
    (emits : command.emission = .sequence [number] final) (single : final.utf8Size = 1)
    (positive : 0 < width) (fits : number < 10 ^ width) : command.size ≤ 3 + width := by
  have bound := size_le_of_sequence width emits (List.cons_ne_nil _ _) single positive
    (by simpa using fits)
  rw [List.length_singleton] at bound
  omega

theorem size_two_le (width : Nat) {command : Command} {first second : Nat} {final : Char}
    (emits : command.emission = .sequence [first, second] final) (single : final.utf8Size = 1)
    (positive : 0 < width) (firstFits : first < 10 ^ width) (secondFits : second < 10 ^ width) :
    command.size ≤ 4 + 2 * width := by
  have bound := size_le_of_sequence width emits (List.cons_ne_nil _ _) single positive
    (by simpa using ⟨firstFits, secondFits⟩)
  simp only [List.length_cons, List.length_nil] at bound
  omega

theorem size_attribute_le (change : Attribute) : change.command.size ≤ 5 := by
  cases change <;> decide

theorem size_screen_le (action : ScreenAction) : action.command.size ≤ 5 := by
  cases action <;> decide

theorem size_paint_le (selected : Paint) : size (.paint selected) ≤ 8 := by
  cases selected with
  | foreground color =>
      have offset := color.offset.isLt
      have code : (if color.bright then 90 else 30) + color.offset.val < 10 ^ 2 := by
        split <;> omega
      exact Nat.le_trans (size_one_le 2 rfl rfl (by decide) code) (by decide)
  | background color =>
      have offset := color.offset.isLt
      have code : (if color.bright then 100 else 40) + color.offset.val < 10 ^ 3 := by
        split <;> omega
      exact Nat.le_trans (size_one_le 3 rfl rfl (by decide) code) (by decide)
  | weightedForeground intensity color =>
      have offset := color.offset.isLt
      have code : 30 + color.offset.val < 10 ^ 2 := by omega
      cases intensity with
      | normal => exact size_two_le 2 rfl rfl (by decide) (by decide) code
      | bold => exact size_two_le 2 rfl rfl (by decide) (by decide) code

end Command

/-! ## What a content makes up for -/

theorem Shape.IsNumeral.byteLength_pos {width : Nat} {digits : Text}
    (numeral : IsNumeral width digits) : 0 < Text.byteLength digits :=
  Nat.pos_of_ne_zero (mt Text.byteLength_eq_zero_iff.mp numeral.1)

namespace Interpreter

/-- A command makes up for what its call emits. -/
theorem size_le_of_spells (interpreter : Interpreter) {content : Text} {token : Token}
    {command : Command} (spelled : Token.Spells content token)
    (calls : interpreter.command token = .ok command) : 3 * command.size ≤ 8 * content.room := by
  cases spelled with
  | @setAttribute content keyword change named agrees =>
      cases calls
      have positive : 0 < Text.byteLength keyword := by
        cases change <;> cases named <;> decide
      have small := Command.size_attribute_le change
      rw [Text.room, ← Text.byteLength_foldCase content, agrees]
      omega
  | @screen content action agrees =>
      cases calls
      have positive : 0 < Text.byteLength action.keyword := by
        cases action <;> decide
      have small := Command.size_screen_le action
      rw [Text.room, ← Text.byteLength_foldCase content, agrees]
      omega
  | @selectColor front digits channel index agrees numeral value =>
      have positive : 0 < Text.byteLength channel.keyword := by
        cases channel <;> decide
      have more := numeral.byteLength_pos
      obtain ⟨selected, rfl⟩ : ∃ selected, command = .paint selected := by
        rcases Nat.lt_or_ge index.toNat 16 with known | beyond
        · rw [interpreter.command_selectColor_of_lt channel known] at calls
          cases calls
          exact ⟨_, rfl⟩
        · rw [interpreter.command_selectColor_of_le channel beyond] at calls
          cases calls
      have small := Command.size_paint_le selected
      rw [Text.room, Text.byteLength_append, ← Text.byteLength_foldCase front, agrees]
      omega
  | @moveCursor front digits direction amount agrees numeral value =>
      cases calls
      have positive : 0 < Text.byteLength direction.keyword := by
        cases direction <;> decide
      have more := numeral.byteLength_pos
      have fits : amount.toNat < 10 ^ 3 := value ▸ Numeral.value_lt_of_isNumeral numeral
      have small : (Command.moveCursor direction amount).size ≤ 3 + 3 := by
        cases direction <;> exact Command.size_one_le 3 rfl rfl (by decide) fits
      rw [Text.room, Text.byteLength_append, ← Text.byteLength_foldCase front, agrees]
      omega
  | @placeCursor front rowDigits columnDigits row column agrees rowNumeral columnNumeral rowValue
      columnValue =>
      cases calls
      have rowMore := rowNumeral.byteLength_pos
      have columnMore := columnNumeral.byteLength_pos
      have rowFits : row.toNat < 10 ^ 3 := rowValue ▸ Numeral.value_lt_of_isNumeral rowNumeral
      have columnFits : column.toNat < 10 ^ 3 :=
        columnValue ▸ Numeral.value_lt_of_isNumeral columnNumeral
      have small : (Command.placeCursor row column).size ≤ 4 + 2 * 3 :=
        Command.size_two_le 3 rfl rfl (by decide) rowFits columnFits
      have letters : Text.byteLength ['x', 'y'] = 2 := rfl
      rw [Text.room, Text.byteLength_append, Text.byteLength_append, Text.byteLength_cons,
        ← Text.byteLength_foldCase front, agrees, letters]
      omega

theorem size_le_of_read (interpreter : Interpreter) {content : Text} {command : Command}
    (reads : interpreter.read content = .ok command) : 3 * command.size ≤ 8 * content.room := by
  obtain ⟨token, classified⟩ := Token.exists_ofContent_eq_ok content
  have calls : interpreter.command token = .ok command := by
    rw [read, classified] at reads
    exact reads
  rcases Token.ofContent_eq_ok_iff.mp classified with spelled | ⟨rfl, -⟩
  · exact interpreter.size_le_of_spells spelled calls
  · cases calls
    have asItIs : (Command.text content).size = Text.byteLength content := rfl
    rw [asItIs, Text.room]
    omega

theorem sum_size_map_read_le (interpreter : Interpreter) (contents : List Text) :
    3 * ((callsOf (contents.map interpreter.read)).map Command.size).sum ≤
      8 * (contents.map Text.room).sum := by
  induction contents with
  | nil => exact Nat.le_refl _
  | cons content rest ih =>
      rw [List.map_cons, List.map_cons, List.sum_cons]
      cases reads : interpreter.read content with
      | ok command =>
          have first := interpreter.size_le_of_read reads
          rw [callsOf_ok_cons, List.map_cons, List.sum_cons]
          omega
      | error fault =>
          rw [callsOf_error_cons]
          omega

/-- What a text is read as emits no more than the text makes up for. -/
theorem sum_size_readings_le (interpreter : Interpreter) (text : Text) :
    3 * ((callsOf (interpreter.readings text)).map Command.size).sum ≤
      8 * (Text.byteLength text + 1) := by
  rw [readings]
  split
  next =>
    have contents := interpreter.sum_size_map_read_le text.contents
    have room := Text.sum_room_contents_le text
    omega
  next =>
    split
    next => exact Nat.zero_le _
    next =>
      have asItIs : (Command.text text).size = Text.byteLength text := rfl
      rw [callsOf_ok_cons, callsOf_nil, List.map_singleton, List.sum_singleton, asItIs]
      omega

end Interpreter

/-! ## What is appended -/

/-- Under either policy the calls made are among those that are read. -/
theorem FaultPolicy.commands_sublist (faults : FaultPolicy) (readings : List Reading) :
    (faults.transcript readings).commands.Sublist (callsOf readings) := by
  induction readings with
  | nil => exact .slnil
  | cons reading rest ih =>
      cases reading with
      | ok command => exact ih.cons_cons command
      | error fault =>
          cases faults with
          | abort => exact List.nil_sublist _
          | skip => exact ih

namespace Interpreter

theorem byteLength_emitted_le (interpreter : Interpreter) (text : Text) :
    3 * Text.byteLength (Command.emitted (interpreter.transcript text).commands) ≤
      8 * (Text.byteLength text + 1) := by
  have made : ((interpreter.transcript text).commands.map Command.size).sum ≤
      ((callsOf (interpreter.readings text)).map Command.size).sum := by
    have among := (interpreter.settings.faults.commands_sublist (interpreter.readings text)).map
      Command.size
    exact among.sum_le_sum fun _ _ => Nat.zero_le _
  have bound := interpreter.sum_size_readings_le text
  rw [Command.byteLength_emitted]
  omega

/-- Rendering appends what the calls emit, or nothing. -/
theorem exists_renderOnto_append (interpreter : Interpreter) (text : Text) (buffer : ByteArray) :
    ∃ appended, (interpreter.renderOnto text buffer).buffer = buffer ++ appended ∧
      3 * appended.size ≤ 8 * (Text.byteLength text + 1) := by
  cases went : (interpreter.transcript text).result with
  | ok summary =>
      refine ⟨_, (interpreter.renderOnto_of_ok went buffer).2, ?_⟩
      rw [Text.size_utf8]
      exact interpreter.byteLength_emitted_le text
  | error fault =>
      have unchanged := (interpreter.renderOnto_of_error went buffer).2
      exact ⟨ByteArray.empty, by rw [unchanged, ByteArray.append_empty], Nat.zero_le _⟩

end Interpreter

/-! ## The bound is reached -/

/-- Foreground selections of two bytes, with single delimiters between them. -/
def Text.selections (copies : Nat) : Text :=
  [delimiter].intercalate (List.replicate copies ['f', '1'])

namespace Text

theorem splitOn_selections {copies : Nat} (positive : 0 < copies) :
    (selections copies).splitOn delimiter = List.replicate copies ['f', '1'] := by
  apply List.splitOn_intercalate
  · intro part found
    rw [List.eq_of_mem_replicate found]
    decide
  · rw [Ne, List.replicate_eq_nil_iff]
    omega

theorem contents_selections {copies : Nat} (positive : 0 < copies) :
    (selections copies).contents = List.replicate copies ['f', '1'] := by
  rw [contents, splitOn_selections positive, List.filter_eq_self]
  intro part found
  rw [List.eq_of_mem_replicate found]
  rfl

theorem delimiter_mem_selections {copies : Nat} (several : 2 ≤ copies) :
    delimiter ∈ selections copies := by
  by_contra plain
  have positive : 0 < copies := by omega
  have parts := splitOn_selections positive
  rw [List.splitOn_eq_singleton plain] at parts
  have number := congrArg List.length parts
  rw [List.length_replicate, List.length_singleton] at number
  omega

theorem byteLength_selections {copies : Nat} (positive : 0 < copies) :
    byteLength (selections copies) + 1 = 3 * copies := by
  rw [← sum_room_splitOn, splitOn_selections positive, List.map_replicate, List.sum_replicate,
    smul_eq_mul, Nat.mul_comm]
  rfl

end Text

namespace Interpreter

theorem transcript_selections (faults : FaultPolicy) {copies : Nat} (several : 2 ≤ copies) :
    (withSettings ⟨.intensityBit, faults⟩).transcript (Text.selections copies) =
      ⟨.ok ⟨copies, []⟩,
        List.replicate copies (.paint (.weightedForeground .normal ⟨.red, false⟩))⟩ := by
  have positive : 0 < copies := by omega
  have one : (withSettings ⟨.intensityBit, faults⟩).read ['f', '1'] =
      .ok (.paint (.weightedForeground .normal ⟨.red, false⟩)) := rfl
  rw [transcript, readings, if_pos (Text.delimiter_mem_selections several),
    Text.contents_selections positive, List.map_replicate, one,
    ← List.map_replicate, FaultPolicy.transcript_map_ok, List.length_replicate]

/-- **A rendering is hardly longer than eight thirds of its text.**  Rendering a text onto a
buffer appends at most eight bytes for every three that the text and one more byte have,
whatever the settings, the palettes and the buffer.  Two or more foreground selections of two
bytes, with single delimiters between them, reach this bound under the intensity-bit coding
and the standard palettes. -/
theorem renderOnto_growth (interpreter : Interpreter) (text : Text) (buffer : ByteArray) :
    (∃ appended, (interpreter.renderOnto text buffer).buffer = buffer ++ appended ∧
      3 * appended.size ≤ 8 * (Text.byteLength text + 1)) ∧
      ∀ (faults : FaultPolicy) (copies : Nat), 2 ≤ copies →
        let selections := Text.selections copies
        let legacy := withSettings ⟨.intensityBit, faults⟩
        ∃ appended, (legacy.renderOnto selections buffer).buffer = buffer ++ appended ∧
          3 * appended.size = 8 * (Text.byteLength selections + 1) := by
  refine ⟨interpreter.exists_renderOnto_append text buffer, ?_⟩
  intro faults copies several selections legacy
  have transcript : legacy.transcript selections = _ := transcript_selections faults several
  have renders := legacy.renderOnto_of_ok (congrArg Transcript.result transcript) buffer
  refine ⟨_, renders.2, ?_⟩
  have measured : Text.byteLength selections + 1 = 3 * copies :=
    Text.byteLength_selections (by omega)
  have eight : (Command.paint (.weightedForeground .normal ⟨.red, false⟩)).size = 8 := rfl
  rw [transcript, Text.size_utf8, Command.byteLength_emitted, List.map_replicate,
    List.sum_replicate, smul_eq_mul, eight, measured]
  omega

/-- Two selections of five bytes in all are rendered as two sequences of eight. -/
theorem renderOnto_growth_of_two_selections :
    2 ≤ 2 ∧ Text.selections 2 = ['f', '1', '%', 'f', '1'] ∧
      ∃ appended, ((withSettings .legacy).renderOnto (Text.selections 2) ByteArray.empty).buffer =
        ByteArray.empty ++ appended ∧ appended.size = 16 := by
  have bound := renderOnto_growth (withSettings .legacy) [] ByteArray.empty
  obtain ⟨appended, final, reached⟩ := bound.2 .abort 2 (Nat.le_refl 2)
  have five : Text.byteLength (Text.selections 2) = 5 := by decide
  refine ⟨Nat.le_refl 2, by decide, appended, final, ?_⟩
  rw [five] at reached
  omega

end Interpreter

end TerminalMarkup
