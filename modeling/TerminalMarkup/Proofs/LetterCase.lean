import TerminalMarkup.Proofs.ShownText

/-!
# Texts that differ in the case of letters

The case of ASCII letters makes no difference to what a text asks for.  The reason is that
nothing done to a text cares whether capitals are made small before or after.  Delimiters
have no case, so the text is split at the same bytes (`Text.pieces_foldCase`).  Keywords are
compared up to case and numbers have no letters, so a content keeps its token, apart from
the letters of a literal (`Token.ofContent_foldCase`).  So the same calls are made, apart
from the letters of the texts shown, and the same is answered
(`Interpreter.transcript_foldCase`).

Two texts that differ in case at most have the same folded form, and what is said of each
and of that form relates the two (`Interpreter.interpret_agreesUpToCase`).
-/

set_option autoImplicit false

namespace TerminalMarkup

/-! ## Characters without case -/

/-- A character that is no letter is the only one folded to its small form. -/
theorem eq_of_toLower_eq {character caseless : Char} (noLetter : ¬ caseless.isAlpha)
    (same : character.toLower = caseless.toLower) : character = caseless := by
  have alsoNone : ¬ character.isAlpha := by
    rw [← Char.isAlpha_toLower_eq_isAlpha, same, Char.isAlpha_toLower_eq_isAlpha]
    exact noLetter
  have kept {other : Char} (noLetter : ¬ other.isAlpha) : other.toLower = other := by
    apply Char.toLower_eq_of_not_isUpper
    intro capital
    exact noLetter (by rw [Char.isAlpha, capital, Bool.true_or])
  rw [← kept alsoNone, same, kept noLetter]

theorem isDelimiter_toLower (character : Char) :
    isDelimiter character.toLower = isDelimiter character := by
  rw [Bool.eq_iff_iff, isDelimiter_iff, isDelimiter_iff]
  constructor
  · intro same
    exact eq_of_toLower_eq (by decide) same
  · rintro rfl
    rfl

namespace Text

theorem foldCase_foldCase (text : Text) : foldCase (foldCase text) = foldCase text := by
  simp [foldCase]

theorem foldCase_eq_nil_iff {text : Text} : foldCase text = [] ↔ text = [] :=
  List.map_eq_nil_iff

theorem isPlain_foldCase (text : Text) : isPlain (foldCase text) = isPlain text := by
  simp only [isPlain, foldCase, List.any_map, Function.comp_def, isDelimiter_toLower]

theorem delimiter_mem_foldCase_iff {text : Text} :
    delimiter ∈ foldCase text ↔ delimiter ∈ text := by
  rw [← not_iff_not, ← isPlain_iff, ← isPlain_iff, isPlain_foldCase]

/-- A text without letters is the only one folded to its folded form. -/
theorem eq_of_foldCase_eq {text caseless : Text}
    (noLetters : ∀ character ∈ caseless, ¬ character.isAlpha)
    (same : foldCase text = foldCase caseless) : text = caseless := by
  induction caseless generalizing text with
  | nil => exact foldCase_eq_nil_iff.mp same
  | cons first rest ih =>
      obtain ⟨noLetter, others⟩ := List.forall_mem_cons.mp noLetters
      obtain ⟨character, later, rfl, head, tail⟩ := List.map_eq_cons_iff.mp same
      rw [eq_of_toLower_eq noLetter head, ih others tail]

/-- A text that is folded like another one with no letters at the end has the same end. -/
theorem exists_append_of_foldCase_eq {text front back : Text}
    (noLetters : ∀ character ∈ back, ¬ character.isAlpha)
    (same : foldCase text = foldCase (front ++ back)) :
    ∃ start, text = start ++ back ∧ foldCase start = foldCase front := by
  rw [foldCase_append] at same
  obtain ⟨start, rest, rfl, startFolded, restFolded⟩ := List.map_eq_append_iff.mp same
  rw [eq_of_foldCase_eq noLetters restFolded]
  exact ⟨start, rfl, startFolded⟩

end Text

/-! ## Splitting -/

/-- The piece with its capitals made small. -/
def Piece.foldCase : Piece → Piece
  | delimiters run => delimiters (Text.foldCase run)
  | content text => content (Text.foldCase text)

/-- The piece at the same byte, with its capitals made small. -/
def PlacedPiece.foldCase (placed : PlacedPiece) : PlacedPiece :=
  { placed with piece := placed.piece.foldCase }

/-- The splitter at the same byte, with capitals in what is left made small. -/
def Splitter.foldCase (splitter : Splitter) : Splitter :=
  { splitter with remainder := Text.foldCase splitter.remainder }

namespace Piece

theorem text_foldCase (piece : Piece) : piece.foldCase.text = Text.foldCase piece.text := by
  cases piece <;> rfl

theorem isRun_foldCase (piece : Piece) : piece.foldCase.isRun = piece.isRun := by
  cases piece <;> rfl

theorem content?_foldCase (piece : Piece) :
    piece.foldCase.content? = piece.content?.map Text.foldCase := by
  cases piece with
  | delimiters run => rfl
  | content text => cases text <;> rfl

theorem Fits.foldCase {piece : Piece} (fits : piece.Fits) : piece.foldCase.Fits := by
  obtain ⟨nonempty, ofKind⟩ := fits_iff.mp fits
  rw [fits_iff, text_foldCase, isRun_foldCase]
  refine ⟨mt Text.foldCase_eq_nil_iff.mp nonempty, ?_⟩
  intro small found
  obtain ⟨character, member, rfl⟩ := List.mem_map.mp found
  rw [isDelimiter_toLower]
  exact ofKind character member

theorem EndsBefore.foldCase {piece : Piece} {rest : Text} (ends : piece.EndsBefore rest) :
    piece.foldCase.EndsBefore (Text.foldCase rest) := by
  intro small found
  rw [Text.foldCase, List.head?_map] at found
  obtain ⟨character, head, rfl⟩ := Option.map_eq_some_iff.mp found
  rw [isDelimiter_toLower, isRun_foldCase]
  exact ends character head

end Piece

namespace Splitter

/-- A step takes the same bytes off. -/
theorem next_foldCase {splitter later : Splitter} {piece : Piece}
    (step : splitter.next = (some piece, later)) :
    splitter.foldCase.next = (some piece.foldCase, later.foldCase) := by
  obtain ⟨fits, ends, remains, position⟩ := next_eq_some_iff.mp step
  refine next_eq_some_iff.mpr ⟨fits.foldCase, ends.foldCase, ?_, ?_⟩
  · simp only [foldCase, remains, Text.foldCase_append, Piece.text_foldCase]
  · simp only [foldCase, position, Piece.text_foldCase, Text.byteLength_foldCase]

theorem pieces_foldCase (splitter : Splitter) :
    splitter.foldCase.pieces = splitter.pieces.map PlacedPiece.foldCase := by
  fun_induction pieces splitter with
  | case1 splitter later stopped =>
      have empty : splitter.remainder = [] := next_eq_none_iff.mp (by rw [stopped])
      exact pieces_of_remainder_eq_nil (Text.foldCase_eq_nil_iff.mpr empty)
  | case2 splitter piece later step ih =>
      rw [pieces_of_next (next_foldCase step), ih]
      rfl

theorem after_foldCase (splitter : Splitter) (steps : Nat) :
    splitter.foldCase.after steps = (splitter.after steps).foldCase := by
  induction steps generalizing splitter with
  | zero => rfl
  | succ steps ih =>
      rcases splitter.next_cases with ⟨empty, -, -⟩ | ⟨piece, later, step, -⟩
      · have foldedEmpty : splitter.foldCase.remainder = [] := Text.foldCase_eq_nil_iff.mpr empty
        rw [after_of_remainder_eq_nil empty, after_of_remainder_eq_nil foldedEmpty]
      · rw [after_succ, after_succ, next_foldCase step, step]
        exact ih later

end Splitter

namespace Text

/-- **A text is split at the same bytes**, whether its letters are capital or small. -/
theorem pieces_foldCase (text : Text) :
    pieces (foldCase text) = text.pieces.map PlacedPiece.foldCase :=
  Splitter.pieces_foldCase (.ofText text)

theorem contents_foldCase (text : Text) :
    contents (foldCase text) = text.contents.map foldCase := by
  rw [← filterMap_content?_pieces, ← filterMap_content?_pieces, pieces_foldCase,
    List.filterMap_map, List.map_filterMap]
  exact List.filterMap_congr fun placed _ => placed.piece.content?_foldCase

end Text

/-! ## Tokens -/

/-- Numbers have no letters. -/
theorem Shape.IsNumeral.not_isAlpha {width : Nat} {digits : Text}
    (numeral : IsNumeral width digits) : ∀ digit ∈ digits, ¬ digit.isAlpha := by
  intro digit found
  rw [← Char.isLower_toLower_eq_isAlpha]
  exact not_isLower_toLower_of_isDigit (numeral.2.2 digit found)

namespace Token

/-- The token with capitals in its text made small, if it is a literal. -/
def foldCase : Token → Token
  | literal text => literal (Text.foldCase text)
  | token => token

/-- **Case does not matter to the grammar.** -/
theorem Spells.of_foldCase_eq {content other : Text} {token : Token}
    (spelled : Spells content token) (same : Text.foldCase other = Text.foldCase content) :
    Spells other token := by
  cases spelled with
  | setAttribute named agrees => exact .setAttribute named (same.trans agrees)
  | screen agrees => exact .screen (same.trans agrees)
  | selectColor agrees numeral value =>
      obtain ⟨front, rfl, folded⟩ :=
        Text.exists_append_of_foldCase_eq numeral.not_isAlpha same
      exact .selectColor (folded.trans agrees) numeral value
  | moveCursor agrees numeral value =>
      obtain ⟨front, rfl, folded⟩ :=
        Text.exists_append_of_foldCase_eq numeral.not_isAlpha same
      exact .moveCursor (folded.trans agrees) numeral value
  | placeCursor agrees rowNumeral columnNumeral rowValue columnValue =>
      have noLetters : ∀ character ∈ _ ++ ',' :: _, ¬ character.isAlpha :=
        List.forall_mem_append.mpr ⟨rowNumeral.not_isAlpha,
          List.forall_mem_cons.mpr ⟨by decide, columnNumeral.not_isAlpha⟩⟩
      obtain ⟨front, rfl, folded⟩ := Text.exists_append_of_foldCase_eq noLetters same
      exact .placeCursor (folded.trans agrees) rowNumeral columnNumeral rowValue columnValue

theorem foldCase_of_kind_ne_literal {token : Token} (other : token.kind ≠ .literal) :
    token.foldCase = token := by
  cases token with
  | literal text => exact absurd rfl other
  | setAttribute | selectColor | screen | moveCursor | placeCursor => rfl

/-- **Folded content has the folded token.** -/
theorem ofContent_foldCase {content : Text} {token : Token}
    (classified : ofContent content = .ok token) :
    ofContent (Text.foldCase content) = .ok token.foldCase := by
  have same := Text.foldCase_foldCase content
  rcases ofContent_eq_ok_iff.mp classified with spelled | ⟨rfl, unspelled⟩
  · rw [foldCase_of_kind_ne_literal spelled.kind_ne_literal]
    exact ofContent_of_spells (spelled.of_foldCase_eq same)
  · apply ofContent_of_not_spells
    intro other spelled
    exact unspelled other (spelled.of_foldCase_eq same.symm)

end Token

/-! ## Calls -/

/-- The call with capitals in its text made small, if it shows one. -/
def Command.foldCase : Command → Command
  | text characters => text (Text.foldCase characters)
  | command => command

/-- Calls can be changed one by one, before or after it is decided which are made. -/
theorem FaultPolicy.transcript_map (faults : FaultPolicy) (change : Command → Command)
    (readings : List Reading) :
    faults.transcript (readings.map (Except.map change)) =
      ⟨(faults.transcript readings).result, (faults.transcript readings).commands.map change⟩ := by
  induction readings with
  | nil => rfl
  | cons reading rest ih =>
      cases reading with
      | ok command => simp only [List.map_cons, Except.map, transcript, ih]
      | error fault =>
          cases faults with
          | abort => rfl
          | skip => simp only [List.map_cons, Except.map, transcript, ih]

namespace Interpreter

theorem command_foldCase (interpreter : Interpreter) (token : Token) :
    interpreter.command token.foldCase = (interpreter.command token).map Command.foldCase := by
  cases token with
  | setAttribute change => cases change <;> rfl
  | screen action => cases action <;> rfl
  | selectColor channel index =>
      simp only [Token.foldCase, command]
      split <;> rfl
  | moveCursor | placeCursor | literal => rfl

theorem read_foldCase (interpreter : Interpreter) (content : Text) :
    interpreter.read (Text.foldCase content) =
      (interpreter.read content).map Command.foldCase := by
  obtain ⟨token, classified⟩ := Token.exists_ofContent_eq_ok content
  rw [read, read, Token.ofContent_foldCase classified, classified]
  exact interpreter.command_foldCase token

theorem readings_foldCase (interpreter : Interpreter) (text : Text) :
    interpreter.readings (Text.foldCase text) =
      (interpreter.readings text).map (Except.map Command.foldCase) := by
  by_cases marked : delimiter ∈ text
  · rw [readings, readings, if_pos marked, if_pos (Text.delimiter_mem_foldCase_iff.mpr marked),
      Text.contents_foldCase, List.map_map, List.map_map]
    exact List.map_congr_left fun content _ => interpreter.read_foldCase content
  · rw [readings, readings, if_neg marked, if_neg (mt Text.delimiter_mem_foldCase_iff.mp marked)]
    simp only [Text.foldCase_eq_nil_iff]
    split <;> rfl

/-- **Folding a text folds its transcript.**  What is answered stays the same. -/
theorem transcript_foldCase (interpreter : Interpreter) (text : Text) :
    interpreter.transcript (Text.foldCase text) =
      ⟨(interpreter.transcript text).result,
        (interpreter.transcript text).commands.map Command.foldCase⟩ := by
  rw [transcript, readings_foldCase, FaultPolicy.transcript_map]
  rfl

/-- **Case makes no difference.**  Let two texts differ in the case of ASCII letters at most.
They are answered alike, with the same calls counted and the same faults, or with the same
fault.  Their calls are as many, and at each position they are the same, or both show texts
which differ in case at most, each being a content of its own text as it stands there.  The
texts are split into pieces of the same kinds at the same bytes, and after any number of
steps the two splitters stand at the same byte. -/
theorem interpret_agreesUpToCase (interpreter : Interpreter) {first second : Text}
    (agrees : Text.agreesUpToCase first second) :
    let one := interpreter.interpret first Recording.empty
    let other := interpreter.interpret second Recording.empty
    one.result = other.result ∧
      one.sink.toList.map Command.foldCase = other.sink.toList.map Command.foldCase ∧
      (∀ characters, .text characters ∈ one.sink.toList → characters ∈ first.contents) ∧
      (∀ characters, .text characters ∈ other.sink.toList → characters ∈ second.contents) ∧
      first.pieces.map PlacedPiece.foldCase = second.pieces.map PlacedPiece.foldCase ∧
      ∀ steps, ((Splitter.ofText first).after steps).position =
        ((Splitter.ofText second).after steps).position := by
  intro one other
  have same : Text.foldCase first = Text.foldCase second := Text.agreesUpToCase_iff.mp agrees
  have transcripts := interpreter.transcript_foldCase first
  rw [same, interpreter.transcript_foldCase second] at transcripts
  obtain ⟨results, calls⟩ := Transcript.mk.inj transcripts
  have answers (text : Text) : (interpreter.interpret text Recording.empty).result =
      (interpreter.transcript text).result :=
    (interpreter.interpret_transcript text Recording.empty).1
  simp only [one, other, answers, toList_interpret]
  refine ⟨results.symm, calls.symm, fun _ => mem_contents_of_text_mem,
    fun _ => mem_contents_of_text_mem, ?_, ?_⟩
  · rw [← Text.pieces_foldCase, same, Text.pieces_foldCase]
  · intro steps
    have folded := (Splitter.ofText first).after_foldCase steps
    have start : (Splitter.ofText first).foldCase = (Splitter.ofText second).foldCase :=
      congrArg (Splitter.mk 0) same
    rw [start, Splitter.after_foldCase] at folded
    exact (congrArg Splitter.position folded).symm

/-- A color, a text with an accented letter, which has one form only, and an unknown color. -/
theorem interpret_agreesUpToCase_of_capitals :
    let interpreter := withSettings .lenient
    let first : Text := ['F', '0', '7', '%', 'H', 'É', '%', 'b', '1', '6']
    let second : Text := ['f', '0', '7', '%', 'h', 'É', '%', 'B', '1', '6']
    let one := interpreter.interpret first Recording.empty
    let other := interpreter.interpret second Recording.empty
    one.result = other.result ∧
      one.sink.toList.map Command.foldCase = other.sink.toList.map Command.foldCase ∧
      one.sink ≠ other.sink := by
  intro interpreter first second one other
  have agrees : Text.agreesUpToCase first second := by decide
  obtain ⟨results, calls, -⟩ := interpreter.interpret_agreesUpToCase agrees
  exact ⟨results, calls, by decide +kernel⟩

end Interpreter

end TerminalMarkup
