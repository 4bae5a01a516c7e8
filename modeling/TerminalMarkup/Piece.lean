import TerminalMarkup.Text

/-!
# Pieces of a marked-up text

The percent sign separates.  Its runs, however long, only mark where one
stretch of other characters ends and the next begins, so a marked-up text falls
into *pieces* that are by turns a run of percent signs and a stretch of content
free of them.  The two kinds are told apart by constructor and not by their
text, so a piece made by hand may hold any characters at all, or none.

A splitter stands at a byte of a text and looks at what remains.  One step
takes from the front of the remainder the longest piece of either kind: all the
delimiters up to the first other character, or all the other characters up to
the first delimiter.  At the end of the text a step takes nothing and leaves
the splitter where it is.

A step only moves characters from the remainder into the piece it returns
(`next_text_append`), it advances by the bytes of that piece (`next_position`),
and it takes at least one character whenever there is one (`next_shorter`).  So
repeated steps end, and `pieces` lists what they return.
-/

set_option autoImplicit false

namespace TerminalMarkup

/-- The character that sets pieces of content apart. -/
def delimiter : Char := '%'

/-- Whether a character is the delimiter. -/
def isDelimiter (character : Char) : Bool := character == delimiter

/-- Whether a text has no delimiter. -/
def Text.isPlain (text : Text) : Bool := !text.any isDelimiter

theorem isDelimiter_iff {character : Char} : isDelimiter character ↔ character = delimiter := by
  simp [isDelimiter]

theorem Text.isPlain_iff {text : Text} : Text.isPlain text ↔ delimiter ∉ text := by
  simp only [Text.isPlain, Bool.not_eq_true', List.any_eq_false, isDelimiter_iff]
  exact ⟨fun plain found => plain _ found rfl, fun absent _ found same => absent (same ▸ found)⟩

theorem Text.not_isPlain {text : Text} (marked : delimiter ∈ text) : ¬ Text.isPlain text :=
  fun plain => Text.isPlain_iff.mp plain marked

/-- A piece of a marked-up text. -/
inductive Piece where
  | delimiters (run : Text)
  /-- What stands between two runs, or before the first, or after the last. -/
  | content (text : Text)
  deriving DecidableEq, Repr

/-- The characters of a piece. -/
def Piece.text : Piece → Text
  | .delimiters run => run
  | .content text => text

/-- A piece together with the byte at which it starts. -/
structure PlacedPiece where
  /-- How many bytes come before the piece. -/
  offset : Nat
  piece : Piece
  deriving DecidableEq, Repr

/-! ## Splitting a text -/

/-- A place in a text: what is still to be split, and the byte it starts at. -/
structure Splitter where
  /-- How many bytes have been split off. -/
  position : Nat
  remainder : Text
  deriving DecidableEq, Repr

namespace Splitter

/-- A splitter at the start of a text. -/
def ofText (text : Text) : Splitter := ⟨0, text⟩

/-- The splitter past the characters of `taken`, with `rest` left. -/
def advance (splitter : Splitter) (taken rest : Text) : Splitter :=
  ⟨splitter.position + Text.byteLength taken, rest⟩

/-- Takes the next piece off the remainder; none at the end of the text. -/
def next (splitter : Splitter) : Option Piece × Splitter :=
  match splitter.remainder with
  | [] => (none, splitter)
  | first :: rest =>
      if isDelimiter first then
        let run := first :: rest.takeWhile isDelimiter
        (some (.delimiters run), splitter.advance run (rest.dropWhile isDelimiter))
      else
        let text := first :: rest.takeWhile (!isDelimiter ·)
        (some (.content text), splitter.advance text (rest.dropWhile (!isDelimiter ·)))

/-! ## What one step does -/

/-- A step takes nothing exactly when nothing is left. -/
theorem next_eq_none_iff {splitter : Splitter} :
    splitter.next.1 = none ↔ splitter.remainder = [] := by
  unfold next
  split
  next empty => simp [empty]
  next first rest nonempty => split <;> simp [nonempty]

/-- At the end of the text a step changes nothing. -/
theorem next_of_remainder_eq_nil {splitter : Splitter} (empty : splitter.remainder = []) :
    splitter.next = (none, splitter) := by
  unfold next
  split
  next => rfl
  next first rest nonempty => exact absurd (empty.symm.trans nonempty) (by simp)

/-- A step that takes a piece takes the first character and those after it that pass a
test, and leaves the others. -/
theorem exists_test_of_next {splitter later : Splitter} {piece : Piece}
    (step : splitter.next = (some piece, later)) :
    ∃ first rest, ∃ test : Char → Bool, splitter.remainder = first :: rest ∧
      piece.text = first :: rest.takeWhile test ∧
      later = splitter.advance piece.text (rest.dropWhile test) := by
  unfold next at step
  split at step
  next => cases step
  next first rest remains =>
    split at step
    next =>
      cases step
      exact ⟨first, rest, isDelimiter, remains, rfl, rfl⟩
    next =>
      cases step
      exact ⟨first, rest, (!isDelimiter ·), remains, rfl, rfl⟩

/-- The piece taken and what is left make up what was left before. -/
theorem next_text_append {splitter later : Splitter} {piece : Piece}
    (step : splitter.next = (some piece, later)) :
    piece.text ++ later.remainder = splitter.remainder := by
  obtain ⟨first, rest, test, remains, text, rfl⟩ := exists_test_of_next step
  rw [remains, text, List.cons_append]
  exact congrArg (first :: ·) List.takeWhile_append_dropWhile

/-- The splitter advances by the bytes of the piece taken. -/
theorem next_position {splitter later : Splitter} {piece : Piece}
    (step : splitter.next = (some piece, later)) :
    later.position = splitter.position + Text.byteLength piece.text := by
  obtain ⟨-, -, -, -, -, rfl⟩ := exists_test_of_next step
  rfl

/-- No step takes an empty piece. -/
theorem next_text_ne_nil {splitter later : Splitter} {piece : Piece}
    (step : splitter.next = (some piece, later)) : piece.text ≠ [] := by
  obtain ⟨first, rest, test, -, text, -⟩ := exists_test_of_next step
  rw [text]
  exact List.cons_ne_nil _ _

/-- A step that takes a piece leaves fewer characters. -/
theorem next_shorter {splitter later : Splitter} {piece : Piece}
    (step : splitter.next = (some piece, later)) :
    later.remainder.length < splitter.remainder.length := by
  rw [← next_text_append step, List.length_append]
  have := List.length_pos_iff.mpr (next_text_ne_nil step)
  omega

/-! ## All the steps -/

/-- The pieces that repeated steps take, each at the byte where it starts. -/
def pieces (splitter : Splitter) : List PlacedPiece :=
  match _ : splitter.next with
  | (none, _) => []
  | (some piece, later) => ⟨splitter.position, piece⟩ :: later.pieces
termination_by splitter.remainder.length
decreasing_by exact next_shorter ‹_›

theorem pieces_of_remainder_eq_nil {splitter : Splitter} (empty : splitter.remainder = []) :
    splitter.pieces = [] := by
  rw [pieces]
  split
  next => rfl
  next piece later step =>
    rw [next_of_remainder_eq_nil empty] at step
    simp at step

theorem pieces_of_next {splitter later : Splitter} {piece : Piece}
    (step : splitter.next = (some piece, later)) :
    splitter.pieces = ⟨splitter.position, piece⟩ :: later.pieces := by
  rw [pieces]
  split
  next stopped => simp [stopped] at step
  next other after taken =>
    rw [taken] at step
    cases step
    rfl

end Splitter

/-- The pieces of a text, in order. -/
def Text.pieces (text : Text) : List PlacedPiece := (Splitter.ofText text).pieces

/-- **Splitting loses nothing.**  The characters of the pieces, put together,
are what there was to split. -/
theorem Splitter.flatMap_pieces (splitter : Splitter) :
    splitter.pieces.flatMap (fun placed => placed.piece.text) = splitter.remainder := by
  fun_induction Splitter.pieces splitter with
  | case1 splitter later stopped =>
      have : splitter.remainder = [] := next_eq_none_iff.mp (by rw [stopped])
      simp [this]
  | case2 splitter piece later step ih =>
      rw [List.flatMap_cons, ih]
      exact next_text_append step

end TerminalMarkup
