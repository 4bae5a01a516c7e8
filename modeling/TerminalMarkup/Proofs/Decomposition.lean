import TerminalMarkup.Piece
import Mathlib.Data.List.Chain
import Mathlib.Data.List.TakeWhile
import Mathlib.Logic.Function.Iterate

/-!
# The decomposition of a text into maximal runs

Every text is in one way only a list of pieces that are by turns runs of
delimiters and stretches of other characters.  The reason is local: a piece at
the front of a text that is followed by a character of the other kind, or by
nothing, cannot be made longer or shorter, so it is the piece that a step of
the splitter takes (`Splitter.next_eq_some_iff`).

A splitter at work is described by how many steps it has taken.  After any
number of them its position is the length in bytes of the pieces taken so far,
and cutting the text there gives those pieces and the remainder, so the position
never falls inside a character.

What counts in a marked-up text is what stands between its delimiters.  There
are two ways to say what that is: the pieces of content, in order, and the parts
of the text that are left when it is cut at every single delimiter and the empty
parts are dropped.  They agree (`Text.filterMap_content?_pieces`), because a run
of delimiters contributes only empty parts, however long it is, and a piece of
content is not cut at all.
-/

set_option autoImplicit false

namespace TerminalMarkup

universe u

/-! ## Scanning -/

/-- A scan takes all of what passes and stops at the first that does not. -/
theorem span_append {α : Type u} {test : α → Bool} {front back : List α}
    (passes : ∀ item ∈ front, test item = true) (stops : ∀ item ∈ back.head?, test item = false) :
    (front ++ back).takeWhile test = front ∧ (front ++ back).dropWhile test = back := by
  rw [List.takeWhile_append_of_pos passes, List.dropWhile_append_of_pos passes]
  cases back with
  | nil => simp
  | cons first rest =>
      have fails : ¬ test first = true := by
        rw [stops first rfl]
        decide
      rw [List.takeWhile_cons_of_neg fails, List.dropWhile_cons_of_neg fails, List.append_nil]
      exact ⟨rfl, rfl⟩

namespace Text

/-- The bytes of a part of a text, found by the bytes before it. -/
theorem extract_utf8_append (before part after : Text) :
    (utf8 (before ++ part ++ after)).extract (byteLength before)
      (byteLength before + byteLength part) = utf8 part := by
  have skipped : (utf8 before).extract (byteLength before)
      (byteLength before + byteLength part) = ByteArray.empty := by
    rw [ByteArray.extract_eq_empty_iff, size_utf8]
    omega
  rw [List.append_assoc, utf8_append, utf8_append, ByteArray.extract_append, skipped,
    ByteArray.empty_append, size_utf8, Nat.sub_self, Nat.add_sub_cancel_left]
  exact ByteArray.extract_append_eq_left (size_utf8 part).symm

theorem toList_utf8 (text : Text) :
    (utf8 text).data.toList = text.flatMap String.utf8EncodeChar := by
  have form : utf8 text = (text.flatMap String.utf8EncodeChar).toByteArray := rfl
  rw [form, List.data_toByteArray]

/-- A test on bytes that comes out for every byte of a character as a test on
characters does for that character finds the same front of a text. -/
theorem length_takeWhile_utf8 {ofByte : UInt8 → Bool} {ofCharacter : Char → Bool}
    (agree : ∀ character, ∀ byte ∈ String.utf8EncodeChar character,
      ofByte byte = ofCharacter character) (text : Text) :
    ((utf8 text).data.toList.takeWhile ofByte).length =
      byteLength (text.takeWhile ofCharacter) := by
  rw [toList_utf8]
  induction text with
  | nil => rfl
  | cons first rest ih =>
      rw [List.flatMap_cons]
      cases test : ofCharacter first with
      | true =>
          have passes : ∀ byte ∈ String.utf8EncodeChar first, ofByte byte = true := by
            intro byte found
            exact (agree first byte found).trans test
          rw [List.takeWhile_append_of_pos passes, List.takeWhile_cons_of_pos test,
            List.length_append, ih, byteLength_cons, String.length_utf8EncodeChar]
      | false =>
          have nonempty : String.utf8EncodeChar first ≠ [] := by
            intro empty
            have size := String.length_utf8EncodeChar first
            rw [empty] at size
            exact absurd first.utf8Size_pos (by simp [← size])
          obtain ⟨byte, others, form⟩ := List.exists_cons_of_ne_nil nonempty
          have fails : ofByte byte = false := (agree first byte (by simp [form])).trans test
          rw [form, List.cons_append, List.takeWhile_cons_of_neg (by simp [fails]),
            List.takeWhile_cons_of_neg (by simp [test])]
          rfl

/-- A byte of a character is the character itself, unless both are beyond
ASCII. -/
theorem toNat_of_mem_utf8EncodeChar {character : Char} {byte : UInt8}
    (found : byte ∈ String.utf8EncodeChar character) :
    byte.toNat = character.toNat ∨ 128 ≤ byte.toNat ∧ 128 ≤ character.toNat := by
  have value : character.val.toNat = character.toNat := rfl
  simp only [String.utf8EncodeChar, value] at found
  split at found
  next ascii =>
    have same : byte = UInt8.ofNat character.toNat := by simpa using found
    rw [same, UInt8.toNat_ofNat']
    omega
  next beyond =>
    refine .inr ⟨?_, by omega⟩
    split at found <;> try split at found
    all_goals
      simp only [List.mem_cons, List.not_mem_nil, or_false] at found
      rcases found with rfl | rfl | rfl | rfl <;> rw [UInt8.toNat_ofNat'] <;> omega

/-- A byte of a character is that of an ASCII character only if the characters are the
same. -/
theorem toNat_eq_iff_of_mem {character ascii : Char} {byte : UInt8}
    (found : byte ∈ String.utf8EncodeChar character) (isAscii : ascii.toNat < 128) :
    byte.toNat = ascii.toNat ↔ character = ascii := by
  have value := toNat_of_mem_utf8EncodeChar found
  rw [← Char.toNat_inj]
  omega

end Text

/-- The one byte of the delimiter. -/
def delimiterByte : UInt8 := 37

/-- No other character has a byte that is the delimiter's. -/
theorem beq_delimiterByte_of_mem {character : Char} {byte : UInt8}
    (found : byte ∈ String.utf8EncodeChar character) :
    (byte == delimiterByte) = isDelimiter character := by
  have code : delimiterByte.toNat = delimiter.toNat := rfl
  rw [Bool.eq_iff_iff, isDelimiter_iff, beq_iff_eq, ← UInt8.toNat_inj, code]
  exact Text.toNat_eq_iff_of_mem found (by decide)

/-! ## Pieces and decompositions -/

namespace Piece

/-- Whether a piece is a run of delimiters. -/
def isRun : Piece → Bool
  | delimiters _ => true
  | content _ => false

/-- A piece that can be split off a text: it has characters, all of its kind. -/
def Fits : Piece → Prop
  | delimiters run => run ≠ [] ∧ ∀ character ∈ run, character = delimiter
  | content text => text ≠ [] ∧ delimiter ∉ text

/-- A piece cannot be continued with what follows it: the first character
there, if there is one, is of the other kind. -/
def EndsBefore (piece : Piece) (rest : Text) : Prop :=
  ∀ character ∈ rest.head?, isDelimiter character ≠ piece.isRun

theorem fits_iff {piece : Piece} :
    piece.Fits ↔
      piece.text ≠ [] ∧ ∀ character ∈ piece.text, isDelimiter character = piece.isRun := by
  cases piece with
  | delimiters run => simp only [Fits, text, isRun, isDelimiter_iff]
  | content text =>
      simp only [Fits, Piece.text, isRun, Bool.eq_false_iff, Ne, isDelimiter_iff]
      refine and_congr_right fun _ => ⟨?_, fun others found => others _ found rfl⟩
      rintro absent character found rfl
      exact absent found

/-- The first character of a text is of the kind of the piece at its front. -/
theorem Fits.isDelimiter_head {piece : Piece} (fits : piece.Fits) {rest : Text} {character : Char}
    (found : character ∈ (piece.text ++ rest).head?) : isDelimiter character = piece.isRun := by
  obtain ⟨nonempty, ofKind⟩ := fits_iff.mp fits
  obtain ⟨first, others, text⟩ := List.exists_cons_of_ne_nil nonempty
  have same : first = character := by simpa [text] using found
  exact ofKind character (by simp [text, same])

/-- A piece is known by its kind and its characters. -/
theorem ext_of_isRun {first second : Piece} (kind : first.isRun = second.isRun)
    (same : first.text = second.text) : first = second := by
  cases first <;> cases second <;> simp_all [isRun, text]

end Piece

/-- Pieces that make up a text, by turns runs of delimiters and content. -/
structure Decomposes (pieces : List Piece) (text : Text) : Prop where
  joined : pieces.flatMap Piece.text = text
  fits : ∀ piece ∈ pieces, piece.Fits
  alternating : pieces.IsChain fun first second => first.isRun ≠ second.isRun

namespace Splitter

/-! ## One step -/

/-- A step takes the longest run at the front that is of the kind of the first
character, whichever kind that is. -/
theorem next_of_remainder_eq_cons {splitter : Splitter} {first : Char} {rest : Text}
    (remains : splitter.remainder = first :: rest) :
    ∃ piece : Piece, piece.isRun = isDelimiter first ∧
      piece.text = splitter.remainder.takeWhile (isDelimiter · == piece.isRun) ∧
      splitter.next = (some piece, splitter.advance piece.text
        (splitter.remainder.dropWhile (isDelimiter · == piece.isRun))) := by
  cases kind : isDelimiter first with
  | true =>
      refine ⟨.delimiters (first :: rest.takeWhile isDelimiter), rfl, ?_, ?_⟩
      · simp [Piece.text, Piece.isRun, remains, kind]
      · simp [next, Piece.text, Piece.isRun, remains, kind]
  | false =>
      refine ⟨.content (first :: rest.takeWhile (!isDelimiter ·)), rfl, ?_, ?_⟩
      · simp [Piece.text, Piece.isRun, remains, kind]
      · simp [next, Piece.text, Piece.isRun, remains, kind]

theorem next_fits {splitter later : Splitter} {piece : Piece}
    (step : splitter.next = (some piece, later)) :
    piece.Fits ∧ piece.EndsBefore later.remainder := by
  have nonempty := next_text_ne_nil step
  obtain ⟨first, rest, -, remains, -⟩ := exists_test_of_next step
  obtain ⟨taken, -, text, same⟩ := next_of_remainder_eq_cons remains
  rw [same] at step
  cases step
  constructor
  · refine Piece.fits_iff.mpr ⟨nonempty, ?_⟩
    intro character found
    rw [text] at found
    have ofKind := List.mem_takeWhile_imp found
    exact beq_iff_eq.mp ofKind
  · intro character found
    have stops := List.head?_dropWhile_not (isDelimiter · == piece.isRun) splitter.remainder
    have head : (splitter.remainder.dropWhile (isDelimiter · == piece.isRun)).head? =
        some character := found
    rw [head] at stops
    exact beq_eq_false_iff_ne.mp stops

/-- The front of a text that is cut off before a character of the other kind is
the longest run of its kind. -/
theorem span_of_endsBefore {piece : Piece} {rest : Text} (fits : piece.Fits)
    (ends : piece.EndsBefore rest) :
    (piece.text ++ rest).takeWhile (isDelimiter · == piece.isRun) = piece.text ∧
      (piece.text ++ rest).dropWhile (isDelimiter · == piece.isRun) = rest := by
  apply span_append
  · intro character found
    exact beq_iff_eq.mpr ((Piece.fits_iff.mp fits).2 character found)
  · intro character found
    exact beq_eq_false_iff_ne.mpr (ends character found)

/-- **What a step does.**  It takes the one piece at the front that can be split
off and cannot be continued, and it advances by the bytes of that piece. -/
theorem next_eq_some_iff {splitter later : Splitter} {piece : Piece} :
    splitter.next = (some piece, later) ↔
      piece.Fits ∧ piece.EndsBefore later.remainder ∧
        splitter.remainder = piece.text ++ later.remainder ∧
          later.position = splitter.position + Text.byteLength piece.text := by
  constructor
  · intro step
    obtain ⟨fits, ends⟩ := next_fits step
    exact ⟨fits, ends, (next_text_append step).symm, next_position step⟩
  · rintro ⟨fits, ends, remains, position⟩
    obtain ⟨first, front, text⟩ := List.exists_cons_of_ne_nil (Piece.fits_iff.mp fits).1
    have kind : isDelimiter first = piece.isRun :=
      (Piece.fits_iff.mp fits).2 first (by simp [text])
    have starts : splitter.remainder = first :: (front ++ later.remainder) := by
      rw [remains, text, List.cons_append]
    obtain ⟨taken, taken_kind, taken_text, same⟩ := next_of_remainder_eq_cons starts
    obtain ⟨front_eq, back_eq⟩ := span_of_endsBefore fits ends
    rw [taken_kind.trans kind, remains] at taken_text same
    rw [front_eq] at taken_text
    rw [back_eq, Piece.ext_of_isRun (taken_kind.trans kind) taken_text] at same
    rw [same]
    simp [advance, ← position]

/-- **The cut is found in the bytes.**  A piece is as long as the longest front of
the remainder's bytes that are all the delimiter's or all others. -/
theorem next_byteLength {splitter later : Splitter} {piece : Piece}
    (step : splitter.next = (some piece, later)) :
    ((Text.utf8 splitter.remainder).data.toList.takeWhile
      fun byte => (byte == delimiterByte) == piece.isRun).length = Text.byteLength piece.text := by
  obtain ⟨fits, ends, remains, -⟩ := next_eq_some_iff.mp step
  have agree : ∀ character, ∀ byte ∈ String.utf8EncodeChar character,
      ((byte == delimiterByte) == piece.isRun) = (isDelimiter character == piece.isRun) := by
    intro character byte found
    rw [beq_delimiterByte_of_mem found]
  rw [Text.length_takeWhile_utf8 agree, remains, (span_of_endsBefore fits ends).1]

/-! ## All steps -/

/-- At the end of a text there are no pieces; before it there is a next one. -/
theorem next_cases (splitter : Splitter) :
    (splitter.remainder = [] ∧ splitter.next = (none, splitter) ∧ splitter.pieces = []) ∨
      ∃ piece later, splitter.next = (some piece, later) ∧
        splitter.pieces = ⟨splitter.position, piece⟩ :: later.pieces := by
  cases step : splitter.next with
  | mk taken later =>
      cases taken with
      | none =>
          have empty : splitter.remainder = [] := next_eq_none_iff.mp (by rw [step])
          exact .inl ⟨empty, step ▸ next_of_remainder_eq_nil empty,
            pieces_of_remainder_eq_nil empty⟩
      | some piece => exact .inr ⟨piece, later, rfl, pieces_of_next step⟩

theorem isRun_ne_of_endsBefore {piece : Piece} {splitter : Splitter}
    (ends : piece.EndsBefore splitter.remainder) :
    ∀ second ∈ (splitter.pieces.map PlacedPiece.piece).head?, piece.isRun ≠ second.isRun := by
  rcases splitter.next_cases with ⟨-, -, none⟩ | ⟨next, later, step, pieces⟩
  · simp [none]
  · obtain ⟨fits, -, remains, -⟩ := next_eq_some_iff.mp step
    obtain ⟨first, others, text⟩ := List.exists_cons_of_ne_nil (Piece.fits_iff.mp fits).1
    have head : first ∈ splitter.remainder.head? := by simp [remains, text]
    intro second found
    have same : next = second := by simpa [pieces] using found
    rw [← same, ← fits.isDelimiter_head (remains ▸ head)]
    exact (ends first head).symm

/-- The pieces of a text decompose it. -/
theorem decomposes_pieces (splitter : Splitter) :
    Decomposes (splitter.pieces.map PlacedPiece.piece) splitter.remainder := by
  fun_induction pieces splitter with
  | case1 splitter later stopped =>
      have empty : splitter.remainder = [] := next_eq_none_iff.mp (by rw [stopped])
      exact ⟨by simp [empty], by simp, .nil⟩
  | case2 splitter piece later step ih =>
      obtain ⟨fits, ends, remains, -⟩ := next_eq_some_iff.mp step
      refine ⟨?_, ?_, ?_⟩
      · rw [List.map_cons, List.flatMap_cons, ih.joined, remains]
      · simpa using ⟨fits, by simpa using ih.fits⟩
      · rw [List.map_cons, List.isChain_cons]
        exact ⟨isRun_ne_of_endsBefore ends, ih.alternating⟩

/-- **There is no other decomposition.**  The first piece of one is the piece
that a step takes, and the other pieces decompose what the step leaves. -/
theorem pieces_eq_of_decomposes {pieces : List Piece} {splitter : Splitter}
    (decomposes : Decomposes pieces splitter.remainder) :
    splitter.pieces.map PlacedPiece.piece = pieces := by
  induction pieces generalizing splitter with
  | nil => rw [pieces_of_remainder_eq_nil decomposes.joined.symm, List.map_nil]
  | cons first rest ih =>
      obtain ⟨joined, fits, alternating⟩ := decomposes
      obtain ⟨different, alternating⟩ := List.isChain_cons.mp alternating
      have ends : first.EndsBefore (rest.flatMap Piece.text) := by
        cases rest with
        | nil => simp [Piece.EndsBefore]
        | cons second others =>
            intro character found
            rw [(fits second (by simp)).isDelimiter_head found]
            exact (different second rfl).symm
      have step : splitter.next =
          (some first, splitter.advance first.text (rest.flatMap Piece.text)) :=
        next_eq_some_iff.mpr ⟨fits first (by simp), ends, joined.symm, rfl⟩
      have others : Decomposes rest (splitter.advance first.text (rest.flatMap Piece.text)).remainder :=
        ⟨rfl, fun piece found => fits piece (by simp [found]), alternating⟩
      rw [pieces_of_next step, List.map_cons, ih others]

/-! ## So many steps -/

/-- The splitter after so many steps. -/
def after (splitter : Splitter) (steps : Nat) : Splitter :=
  (fun before => before.next.2)^[steps] splitter

theorem after_zero (splitter : Splitter) : splitter.after 0 = splitter := rfl

theorem after_succ (splitter : Splitter) (steps : Nat) :
    splitter.after (steps + 1) = splitter.next.2.after steps := rfl

theorem after_add (splitter : Splitter) (steps more : Nat) :
    splitter.after (steps + more) = (splitter.after steps).after more := by
  rw [after, Nat.add_comm, Function.iterate_add_apply, after, after]

theorem after_of_remainder_eq_nil {splitter : Splitter} (empty : splitter.remainder = [])
    (steps : Nat) : splitter.after steps = splitter :=
  Function.iterate_fixed (by rw [next_of_remainder_eq_nil empty]) steps

/-- A step takes the piece whose turn it is, at the position of the splitter. -/
theorem pieces_getElem? (splitter : Splitter) (steps : Nat) :
    splitter.pieces[steps]? =
      (splitter.after steps).next.1.map fun piece => ⟨(splitter.after steps).position, piece⟩ := by
  induction steps generalizing splitter with
  | zero =>
      rw [after_zero]
      rcases splitter.next_cases with ⟨-, step, pieces⟩ | ⟨piece, later, step, pieces⟩
      · rw [step, pieces]
        rfl
      · rw [step, pieces]
        rfl
  | succ steps ih =>
      rcases splitter.next_cases with ⟨empty, step, pieces⟩ | ⟨piece, later, step, pieces⟩
      · rw [after_of_remainder_eq_nil empty, step, pieces]
        rfl
      · rw [after_succ, step, pieces, List.getElem?_cons_succ]
        exact ih later

/-- What the steps have taken and what they have left make up what was there. -/
theorem after_remainder_position (splitter : Splitter) (steps : Nat) :
    splitter.remainder = (splitter.pieces.take steps).flatMap (fun placed => placed.piece.text) ++
        (splitter.after steps).remainder ∧
      (splitter.after steps).position = splitter.position + Text.byteLength
        ((splitter.pieces.take steps).flatMap fun placed => placed.piece.text) := by
  induction steps generalizing splitter with
  | zero =>
      rw [after_zero, List.take_zero]
      exact ⟨rfl, rfl⟩
  | succ steps ih =>
      rcases splitter.next_cases with ⟨empty, -, pieces⟩ | ⟨piece, later, step, pieces⟩
      · rw [after_of_remainder_eq_nil empty, pieces]
        simp
      · obtain ⟨-, -, remains, position⟩ := next_eq_some_iff.mp step
        obtain ⟨later_remains, later_position⟩ := ih later
        rw [after_succ, step, pieces, List.take_succ_cons, List.flatMap_cons, List.append_assoc,
          ← later_remains, later_position, position, Text.byteLength_append, Nat.add_assoc]
        exact ⟨remains, rfl⟩

end Splitter

/-- **A splitter finds the one decomposition of a text.**  Its pieces decompose
the text and nothing else does; it stops after as many steps as there are
pieces.  After any number of steps it stands at a byte at which the text can be
cut, behind the pieces taken and before the remainder, and the next piece is
what a scan of the remaining bytes finds; once there is no next piece it stands
at the end for good. -/
theorem Text.pieces_decompose_uniquely (text : Text) :
    (∀ pieces, Decomposes pieces text ↔ pieces = text.pieces.map PlacedPiece.piece) ∧
      (∀ steps, ((Splitter.ofText text).after steps).next.1 = none ↔
        text.pieces.length ≤ steps) ∧
      ∀ steps,
        let splitter := (Splitter.ofText text).after steps
        let taken := (text.pieces.take steps).flatMap fun placed => placed.piece.text
        text.pieces[steps]? = splitter.next.1.map (fun piece => ⟨splitter.position, piece⟩) ∧
          splitter.position = byteLength taken ∧
          splitAtByte? splitter.position text = some (taken, splitter.remainder) ∧
          (∀ piece ∈ splitter.next.1,
            ((utf8 splitter.remainder).data.toList.takeWhile
              fun byte => (byte == delimiterByte) == piece.isRun).length = byteLength piece.text) ∧
          (splitter.next.1 = none → splitter.position = byteLength text ∧
            ∀ more, ((Splitter.ofText text).after (steps + more)).next = (none, splitter)) := by
  refine ⟨?_, ?_, ?_⟩
  · intro pieces
    constructor
    · intro decomposes
      have whole : Decomposes pieces (Splitter.ofText text).remainder := decomposes
      exact (Splitter.pieces_eq_of_decomposes whole).symm
    · rintro rfl
      exact Splitter.decomposes_pieces (.ofText text)
  · intro steps
    have placed := (Splitter.ofText text).pieces_getElem? steps
    rw [← Option.map_eq_none_iff, ← placed, List.getElem?_eq_none_iff]
    rfl
  · intro steps splitter taken
    obtain ⟨remains, position⟩ := (Splitter.ofText text).after_remainder_position steps
    have position : splitter.position = byteLength taken := position.trans (Nat.zero_add _)
    refine ⟨(Splitter.ofText text).pieces_getElem? steps, position,
      splitAtByte?_eq_some_iff.mpr ⟨remains, position.symm⟩, ?_, ?_⟩
    · intro piece found
      have step : splitter.next = (some piece, splitter.next.2) := Prod.ext found rfl
      exact Splitter.next_byteLength step
    · intro ended
      have empty : splitter.remainder = [] := Splitter.next_eq_none_iff.mp ended
      have whole : text = taken := by
        have := remains.trans (congrArg (taken ++ ·) empty)
        rwa [List.append_nil] at this
      refine ⟨position.trans (congrArg byteLength whole.symm), ?_⟩
      intro more
      rw [Splitter.after_add, Splitter.after_of_remainder_eq_nil empty]
      exact Splitter.next_of_remainder_eq_nil empty

/-! ## Contents -/

/-- The characters of a piece of content, unless there are none. -/
def Piece.content? : Piece → Option Text
  | delimiters _ => none
  | content text => if text.isEmpty then none else some text

theorem Piece.content?_eq_none_iff {piece : Piece} :
    piece.content? = none ↔ (∃ run, piece = .delimiters run) ∨ piece = .content [] := by
  cases piece <;> simp [content?]

theorem Piece.content?_eq_some_iff {piece : Piece} {text : Text} :
    piece.content? = some text ↔ piece = .content text ∧ text ≠ [] := by
  cases piece with
  | delimiters run => simp [content?]
  | content other =>
      simp only [content?, Option.ite_none_left_eq_some, Option.some.injEq, content.injEq,
        List.isEmpty_iff]
      constructor
      · rintro ⟨nonempty, rfl⟩
        exact ⟨rfl, nonempty⟩
      · rintro ⟨rfl, nonempty⟩
        exact ⟨nonempty, rfl⟩

/-- The parts of a text between delimiters, without the empty ones. -/
def Text.contents (text : Text) : List Text :=
  (text.splitOn delimiter).filter fun part => !part.isEmpty

namespace Text

@[simp] theorem contents_nil : contents [] = [] := by
  simp [contents]

/-- A delimiter separates and adds nothing. -/
theorem contents_append_delimiter_cons (front back : Text) :
    contents (front ++ delimiter :: back) = contents front ++ contents back := by
  simp [contents, List.splitOn_append_cons_self]

theorem contents_delimiter_cons (text : Text) : contents (delimiter :: text) = contents text := by
  simpa using contents_append_delimiter_cons [] text

theorem contents_of_delimiter_notMem {text : Text} (nonempty : text ≠ [])
    (plain : delimiter ∉ text) : contents text = [text] := by
  simp [contents, List.splitOn_eq_singleton plain, nonempty]

/-- A run of delimiters at the front has no contents. -/
theorem contents_run_append {run : Text} (all : ∀ character ∈ run, character = delimiter)
    (rest : Text) : contents (run ++ rest) = contents rest := by
  induction run with
  | nil => rfl
  | cons first run ih =>
      have same : first = delimiter := all first (by simp)
      rw [List.cons_append, same, contents_delimiter_cons]
      exact ih fun character found => all character (by simp [found])

/-- The contents of a text are those of the piece at its front and those of the
rest, if the piece ends there. -/
theorem contents_append_of_endsBefore {piece : Piece} {rest : Text} (fits : piece.Fits)
    (ends : piece.EndsBefore rest) :
    contents (piece.text ++ rest) = piece.content?.toList ++ contents rest := by
  cases piece with
  | delimiters run => exact contents_run_append fits.2 rest
  | content text =>
      obtain ⟨nonempty, plain⟩ := fits
      rw [Piece.content?_eq_some_iff.mpr ⟨rfl, nonempty⟩, Piece.text]
      cases rest with
      | nil => simp [contents_of_delimiter_notMem nonempty plain]
      | cons first rest =>
          have separates : first = delimiter := by
            have other := ends first rfl
            rwa [Piece.isRun, Ne, Bool.not_eq_false, isDelimiter_iff] at other
          rw [separates, contents_append_delimiter_cons, contents_delimiter_cons,
            contents_of_delimiter_notMem nonempty plain]
          rfl

theorem filterMap_content?_splitter (splitter : Splitter) :
    splitter.pieces.filterMap (fun placed => placed.piece.content?) =
      contents splitter.remainder := by
  fun_induction Splitter.pieces splitter with
  | case1 splitter later stopped =>
      have empty : splitter.remainder = [] := Splitter.next_eq_none_iff.mp (by rw [stopped])
      rw [empty, contents_nil, List.filterMap_nil]
  | case2 splitter piece later step ih =>
      obtain ⟨fits, ends, remains, -⟩ := Splitter.next_eq_some_iff.mp step
      rw [remains, contents_append_of_endsBefore fits ends, ← ih, List.filterMap_cons]
      cases piece.content? <;> rfl

/-- **The contents are the pieces of content.** -/
theorem filterMap_content?_pieces (text : Text) :
    text.pieces.filterMap (fun placed => placed.piece.content?) = text.contents :=
  filterMap_content?_splitter (.ofText text)

/-- A content has characters, and none of them is a delimiter. -/
theorem fits_of_mem_contents {text content : Text} (member : content ∈ text.contents) :
    (Piece.content content).Fits := by
  rw [← filterMap_content?_pieces] at member
  obtain ⟨placed, split, some⟩ := List.mem_filterMap.mp member
  rw [← (Piece.content?_eq_some_iff.mp some).1]
  exact (Splitter.decomposes_pieces (.ofText text)).fits _ (List.mem_map_of_mem split)

/-- Contents consist of characters of the text. -/
theorem mem_of_mem_contents {text content : Text} (member : content ∈ text.contents)
    {character : Char} (found : character ∈ content) : character ∈ text := by
  rw [← filterMap_content?_pieces] at member
  obtain ⟨placed, split, some⟩ := List.mem_filterMap.mp member
  have piece := (Piece.content?_eq_some_iff.mp some).1
  have joined : text.pieces.flatMap (fun placed => placed.piece.text) = text :=
    Splitter.flatMap_pieces (.ofText text)
  rw [← joined]
  refine List.mem_flatMap.mpr ⟨placed, split, ?_⟩
  rw [piece]
  exact found

end Text

end TerminalMarkup
