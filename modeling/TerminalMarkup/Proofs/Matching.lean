import TerminalMarkup.Proofs.Decomposition
import TerminalMarkup.Proofs.Shapes

/-!
# Exact matching

A shape says how content of it is put together, and its keyword can be any text.  Matching
finds the digits wherever there is a way to put the content together, and there is only one
(`Shape.match?_exact`).

The keyword is found by cutting content after as many bytes as the keyword has.  That byte may
lie past the end or inside a character, and then content is not cut and does not match
(`Text.exists_splitAtByte?_iff`).  Whether a character begins at a byte can be told from that
byte alone.  The parts that matching cuts off, in content that matches or not, are the bytes
between two places where characters begin or the text ends (`Shape.cutsCleanly`).
-/

set_option autoImplicit false

namespace TerminalMarkup

namespace Text

/-! ## Boundaries of characters -/

/-- A byte of a text at which a character begins, or the end of the text. -/
def IsBoundary (text : Text) (position : Nat) : Prop :=
  position = (utf8 text).size ∨
    ∃ inside : position < (utf8 text).size, (utf8 text)[position].IsUTF8FirstByte

/-- A character begins where the characters before it end. -/
theorem isBoundary_iff {text : Text} {position : Nat} :
    text.IsBoundary position ↔
      ∃ front back, text = front ++ back ∧ byteLength front = position := by
  have valid : text.IsBoundary position ↔
      String.Pos.Raw.IsValid (String.ofList text) ⟨position⟩ := by
    rw [String.Pos.Raw.isValid_iff_isUTF8FirstByte, String.Pos.Raw.ext_iff]
    rfl
  rw [valid, String.Pos.Raw.isValid_ofList]
  constructor
  · rintro ⟨count, measured⟩
    refine ⟨text.take count, text.drop count, (List.take_append_drop count text).symm, ?_⟩
    rw [← size_utf8]
    exact measured.symm
  · rintro ⟨front, back, rfl, rfl⟩
    refine ⟨front.length, ?_⟩
    rw [List.take_left, ← size_utf8]
    rfl

/-- **A text is cut at boundaries only.**  Cutting is refused past the end and inside a
character, and nowhere else. -/
theorem exists_splitAtByte?_iff {text : Text} {position : Nat} :
    (∃ parts, splitAtByte? position text = some parts) ↔ text.IsBoundary position := by
  simp only [isBoundary_iff, Prod.exists, splitAtByte?_eq_some_iff]

/-- A part of a text that is found in its bytes between two boundaries. -/
structure IsSlice (part text : Text) (start stop : Nat) : Prop where
  starts : text.IsBoundary start
  stops : text.IsBoundary stop
  bytes : (utf8 text).extract start stop = utf8 part

/-- What stands between two parts of a text is a slice. -/
theorem isSlice_append (before part after : Text) :
    IsSlice part (before ++ part ++ after) (byteLength before)
      (byteLength before + byteLength part) where
  starts := isBoundary_iff.mpr ⟨before, part ++ after, List.append_assoc .., rfl⟩
  stops := isBoundary_iff.mpr ⟨before ++ part, after, rfl, byteLength_append ..⟩
  bytes := extract_utf8_append before part after

theorem isSlice_append_right (before part : Text) :
    IsSlice part (before ++ part) (byteLength before) (byteLength (before ++ part)) := by
  have slice := isSlice_append before part []
  rwa [List.append_nil, ← byteLength_append] at slice

theorem isSlice_append_left (part after : Text) :
    IsSlice part (part ++ after) 0 (byteLength part) := by
  have slice := isSlice_append [] part after
  rwa [List.nil_append, byteLength_nil, Nat.zero_add] at slice

end Text

namespace Shape

/-! ## Where matching cuts -/

/-- Content is cut only where its characters begin, whether it is of a shape with a certain
keyword or not. -/
structure CutsCleanly (keyword content : Text) : Prop where
  /-- There is a cut behind the keyword exactly if a character begins or the content ends
  there. -/
  guarded : (∃ parts, Text.splitAtByte? (Text.byteLength keyword) content = some parts) ↔
    content.IsBoundary (Text.byteLength keyword)
  /-- Without a cut nothing follows the keyword. -/
  refused : ¬ content.IsBoundary (Text.byteLength keyword) → afterKeyword? keyword content = none
  /-- The two parts of a cut are slices of the content. -/
  cut : ∀ front rest, Text.splitAtByte? (Text.byteLength keyword) content = some (front, rest) →
    front.IsSlice content 0 (Text.byteLength keyword) ∧
      rest.IsSlice content (Text.byteLength keyword) (Text.byteLength content)
  /-- What follows the keyword is cut before and behind the one byte of its first comma. -/
  comma : ∀ rest row column, afterKeyword? keyword content = some rest →
    splitAtComma? rest = some (row, column) →
      row.IsSlice rest 0 (Text.byteLength row) ∧
        Text.IsSlice [','] rest (Text.byteLength row) (Text.byteLength row + 1) ∧
        column.IsSlice rest (Text.byteLength row + 1) (Text.byteLength rest)

theorem cutsCleanly (keyword content : Text) : CutsCleanly keyword content where
  guarded := Text.exists_splitAtByte?_iff
  refused := by
    intro inside
    rw [Option.eq_none_iff_forall_ne_some]
    intro rest found
    obtain ⟨front, whole, agrees⟩ := afterKeyword?_eq_some_iff.mp found
    exact inside (Text.isBoundary_iff.mpr
      ⟨front, rest, whole, Text.byteLength_eq_of_foldCase_eq agrees⟩)
  cut := by
    intro front rest parts
    obtain ⟨rfl, measured⟩ := Text.splitAtByte?_eq_some_iff.mp parts
    rw [← measured]
    exact ⟨Text.isSlice_append_left front rest, Text.isSlice_append_right front rest⟩
  comma := by
    intro rest row column _ parts
    obtain ⟨whole, -⟩ := splitAtComma?_eq_some_iff.mp parts
    have joined : rest = row ++ [','] ++ column := by
      rw [whole, List.append_assoc, List.singleton_append]
    have behind : Text.byteLength (row ++ [',']) = Text.byteLength row + 1 :=
      Text.byteLength_append row [',']
    have after := Text.isSlice_append_right (row ++ [',']) column
    rw [behind] at after
    rw [joined]
    refine ⟨?_, Text.isSlice_append row [','] column, after⟩
    rw [List.append_assoc]
    exact Text.isSlice_append_left row ([','] ++ column)

/-! ## What a shape matches -/

theorem match?_word_iff {keyword content : Text} {captures : Captures} :
    (word keyword).match? content = some captures ↔
      captures = .none ∧ Text.foldCase content = Text.foldCase keyword := by
  rw [match?_eq_some_iff]
  constructor
  · rintro ⟨agrees⟩
    exact ⟨rfl, agrees⟩
  · rintro ⟨rfl, agrees⟩
    exact .word agrees

theorem match?_number_iff {keyword content : Text} {width : Nat} {captures : Captures} :
    (number keyword width).match? content = some captures ↔
      ∃ front digits, captures = .number digits ∧ content = front ++ digits ∧
        Text.foldCase front = Text.foldCase keyword ∧ IsNumeral width digits := by
  rw [match?_eq_some_iff]
  constructor
  · rintro (_ | ⟨agrees, numeral⟩)
    exact ⟨_, _, rfl, rfl, agrees, numeral⟩
  · rintro ⟨front, digits, rfl, rfl, agrees, numeral⟩
    exact .number agrees numeral

theorem match?_coordinates_iff {keyword content : Text} {captures : Captures} :
    (coordinates keyword).match? content = some captures ↔
      ∃ front row column, captures = .coordinates row column ∧
        content = front ++ row ++ [','] ++ column ∧
        Text.foldCase front = Text.foldCase keyword ∧ IsNumeral 3 row ∧ IsNumeral 3 column := by
  rw [match?_eq_some_iff]
  constructor
  · rintro (_ | _ | ⟨agrees, rowNumeral, columnNumeral⟩)
    exact ⟨_, _, _, rfl, by simp only [List.append_assoc, List.singleton_append], agrees,
      rowNumeral, columnNumeral⟩
  · rintro ⟨front, row, column, rfl, rfl, agrees, rowNumeral, columnNumeral⟩
    have matched := Matches.coordinates agrees rowNumeral columnNumeral
    simpa only [List.append_assoc, List.singleton_append] using matched

/-- **Matching is exact**, whatever the keyword, the content and the bound on digits.  A bare
keyword matches its forms.  A keyword with a number matches its forms with at least one and
at most `width` digits behind them, and finds those digits.  A keyword with coordinates
matches its forms with two numbers of one to three digits behind them, a comma in between,
and finds the digits of both.  Content has the digits of a shape in one way only, and it is
never cut inside a character. -/
theorem match?_exact (keyword content : Text) (width : Nat) :
    (∀ captures, (word keyword).match? content = some captures ↔
        captures = .none ∧ Text.foldCase content = Text.foldCase keyword) ∧
      (∀ captures, (number keyword width).match? content = some captures ↔
        ∃ front digits, captures = .number digits ∧ content = front ++ digits ∧
          Text.foldCase front = Text.foldCase keyword ∧ IsNumeral width digits) ∧
      (∀ captures, (coordinates keyword).match? content = some captures ↔
        ∃ front row column, captures = .coordinates row column ∧
          content = front ++ row ++ [','] ++ column ∧
          Text.foldCase front = Text.foldCase keyword ∧ IsNumeral 3 row ∧ IsNumeral 3 column) ∧
      (∀ (shape : Shape) (first second : Captures),
        shape.Matches content first → shape.Matches content second → first = second) ∧
      CutsCleanly keyword content := by
  refine ⟨fun _ => match?_word_iff, fun _ => match?_number_iff, fun _ => match?_coordinates_iff,
    ?_, cutsCleanly keyword content⟩
  intro shape first second matched also
  exact Option.some.inj
    ((match?_eq_some_iff.mpr matched).symm.trans (match?_eq_some_iff.mpr also))

/-- After two bytes the first content is inside a character, whatever the keyword looks like. -/
example : (number ['é'] 2).match? ['a', 'é', '7'] = none ∧
    (number ['é'] 2).match? ['é', '7'] = some (.number ['7']) := by
  decide

end Shape

end TerminalMarkup
