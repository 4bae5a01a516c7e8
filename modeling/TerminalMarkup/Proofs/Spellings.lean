import TerminalMarkup.Proofs.KeywordGrammar
import TerminalMarkup.Proofs.Seams
import TerminalMarkup.Proofs.Tokens

/-!
# Writing tokens

Tokens can be written down in more than one way.  The letters of a keyword have two cases,
a number may have zeros in front as long as it has room for them, and delimiters can be
repeated wherever one may stand, which is in front of all tokens, behind them, and between
any two, where there has to be one (`Token.WrittenInOrder`).

However tokens are written, they are read back as they were (`Token.WrittenInOrder.tokens_eq`).
Each spelling is one content, because no spelling is empty or has a delimiter in it, and a
content has the token that it is a spelling of.

Not every token can be written.  Exchanging foreground and background has no keyword, a
number can be too large for the digits it may have, and a literal that spells a command
would be read as that.  All others can (`Token.exists_written_iff`).
-/

set_option autoImplicit false

namespace TerminalMarkup

/-! ## Digits of a number -/

namespace Numeral

theorem valueFrom_eq_ofDigitChars (start : Nat) (digits : Text) :
    valueFrom start digits = Nat.ofDigitChars 10 digits start := by
  induction digits generalizing start with
  | nil => exact Nat.ofDigitChars_nil.symm
  | cons digit rest ih =>
      have next := ih (10 * start + digitValue digit)
      rw [Nat.ofDigitChars_cons]
      exact next

theorem value_toDigits (number : Nat) : value (Nat.toDigits 10 number) = number := by
  rw [value, valueFrom_eq_ofDigitChars, Nat.ofDigitChars_ten_toDigits]

theorem isNumeral_toDigits {width number : Nat} (room : 0 < width) (fits : number < 10 ^ width) :
    Shape.IsNumeral width (Nat.toDigits 10 number) := by
  refine ⟨Nat.toDigits_ne_nil, (Nat.length_toDigits_le_iff (by decide) room).mpr fits, ?_⟩
  intro digit found
  exact Nat.isDigit_of_mem_toDigits (by decide) (by decide) found

/-- Every number that does not need more digits has a numeral: its decimal. -/
theorem exists_isNumeral (width : Nat) {number : Nat} (room : 0 < width)
    (fits : number < 10 ^ width) :
    ∃ digits, Shape.IsNumeral width digits ∧ number = value digits :=
  ⟨Nat.toDigits 10 number, isNumeral_toDigits room fits, (value_toDigits number).symm⟩

end Numeral

/-! ## Spellings of one token -/

namespace Token

/-- How tokens are spelled in a text with delimiters: as the grammar says, and a literal
as itself, if it is a content and no keyword matches it. -/
inductive Written : Text → Token → Prop where
  | keyword {content : Text} {token : Token} (spelled : Spells content token) :
      Written content token
  | literal {content : Text} (nonempty : content ≠ []) (plain : delimiter ∉ content)
      (unmatched : ∀ entry ∈ keywords, entry.1.match? content = none) :
      Written content (.literal content)

/-- The tokens that can be written. -/
def IsWritable : Token → Prop
  | setAttribute change => change ≠ .negative
  | selectColor _ index => index.toNat ≤ 99
  | screen _ => True
  | moveCursor _ amount => amount.toNat ≤ 999
  | placeCursor row column => row.toNat ≤ 999 ∧ column.toNat ≤ 999
  | literal text => text ≠ [] ∧ delimiter ∉ text ∧ ∀ entry ∈ keywords, entry.1.match? text = none

/-- Whether a token can be written is decided by its kind and its numbers. -/
instance : DecidablePred IsWritable
  | setAttribute change => inferInstanceAs (Decidable (change ≠ .negative))
  | selectColor _ index => inferInstanceAs (Decidable (index.toNat ≤ 99))
  | screen _ => inferInstanceAs (Decidable True)
  | moveCursor _ amount => inferInstanceAs (Decidable (amount.toNat ≤ 999))
  | placeCursor row column => inferInstanceAs (Decidable (row.toNat ≤ 999 ∧ column.toNat ≤ 999))
  | literal text => inferInstanceAs (Decidable (text ≠ [] ∧ delimiter ∉ text ∧
      ∀ entry ∈ keywords, entry.1.match? text = none))

theorem exists_written {token : Token} (writable : token.IsWritable) :
    ∃ content, Written content token := by
  cases token with
  | setAttribute change =>
      obtain ⟨keyword, named⟩ : ∃ keyword, change.keyword? = some keyword := by
        cases change with
        | negative => exact absurd rfl writable
        | _ => exact ⟨_, rfl⟩
      have small : Text.foldCase keyword = keyword := by
        cases change <;> cases named <;> rfl
      exact ⟨keyword, .keyword (.setAttribute named small)⟩
  | screen action =>
      have small : Text.foldCase action.keyword = action.keyword := by cases action <;> rfl
      exact ⟨action.keyword, .keyword (.screen small)⟩
  | selectColor channel index =>
      have small : Text.foldCase channel.keyword = channel.keyword := by cases channel <;> rfl
      obtain ⟨digits, numeral, value⟩ :=
        Numeral.exists_isNumeral 2 (by decide) (Nat.lt_succ_of_le writable)
      exact ⟨_, .keyword (.selectColor small numeral value)⟩
  | moveCursor direction amount =>
      have small : Text.foldCase direction.keyword = direction.keyword := by
        cases direction <;> rfl
      obtain ⟨digits, numeral, value⟩ :=
        Numeral.exists_isNumeral 3 (by decide) (Nat.lt_succ_of_le writable)
      exact ⟨_, .keyword (.moveCursor small numeral value)⟩
  | placeCursor row column =>
      have small : Text.foldCase ['x', 'y'] = ['x', 'y'] := rfl
      obtain ⟨rowFits, columnFits⟩ := writable
      obtain ⟨rowDigits, rowNumeral, rowValue⟩ :=
        Numeral.exists_isNumeral 3 (by decide) (Nat.lt_succ_of_le rowFits)
      obtain ⟨columnDigits, columnNumeral, columnValue⟩ :=
        Numeral.exists_isNumeral 3 (by decide) (Nat.lt_succ_of_le columnFits)
      exact ⟨_, .keyword (.placeCursor small rowNumeral columnNumeral rowValue columnValue)⟩
  | literal text =>
      obtain ⟨nonempty, plain, unmatched⟩ := writable
      exact ⟨text, .literal nonempty plain unmatched⟩

theorem Spells.isWritable {content : Text} {token : Token} (spelled : Spells content token) :
    token.IsWritable := by
  cases spelled with
  | setAttribute named agrees =>
      rintro rfl
      cases named
  | screen agrees => trivial
  | selectColor agrees numeral value =>
      have bound := Numeral.value_lt_of_isNumeral numeral
      rw [← value] at bound
      exact Nat.le_of_lt_succ bound
  | moveCursor agrees numeral value =>
      have bound := Numeral.value_lt_of_isNumeral numeral
      rw [← value] at bound
      exact Nat.le_of_lt_succ bound
  | placeCursor agrees rowNumeral columnNumeral rowValue columnValue =>
      have rowBound := Numeral.value_lt_of_isNumeral rowNumeral
      have columnBound := Numeral.value_lt_of_isNumeral columnNumeral
      rw [← rowValue] at rowBound
      rw [← columnValue] at columnBound
      exact ⟨Nat.le_of_lt_succ rowBound, Nat.le_of_lt_succ columnBound⟩

/-- **The tokens that can be written are the ones that have a spelling.**  One is the
keyword in small letters with the numbers without zeros in front. -/
theorem exists_written_iff {token : Token} :
    (∃ content, Written content token) ↔ token.IsWritable := by
  constructor
  · rintro ⟨content, written⟩
    cases written with
    | keyword spelled => exact spelled.isWritable
    | literal nonempty plain unmatched => exact ⟨nonempty, plain, unmatched⟩
  · exact exists_written

/-! ## Spellings are contents -/

end Token

theorem Shape.delimiter_notMem_of_foldCase {front keyword : Text}
    (small : ∀ letter ∈ keyword, letter.isLower)
    (agrees : Text.foldCase front = Text.foldCase keyword) : delimiter ∉ front := by
  intro found
  have folded : delimiter.toLower ∈ Text.foldCase front := List.mem_map_of_mem found
  rw [agrees, foldCase_of_all_isLower small] at folded
  exact absurd (small _ folded) (by decide)

theorem Shape.IsNumeral.delimiter_notMem {width : Nat} {digits : Text}
    (numeral : IsNumeral width digits) : delimiter ∉ digits := by
  intro found
  exact absurd (numeral.2.2 delimiter found) (by decide)

/-- Content of a shape with a keyword of small letters has no delimiters. -/
theorem Shape.Matches.delimiter_notMem {shape : Shape} {content : Text} {captures : Captures}
    (matched : shape.Matches content captures) (small : ∀ letter ∈ shape.keyword, letter.isLower) :
    delimiter ∉ content := by
  cases matched with
  | word agrees => exact delimiter_notMem_of_foldCase small agrees
  | number agrees numeral =>
      rw [List.mem_append, not_or]
      exact ⟨delimiter_notMem_of_foldCase small agrees, numeral.delimiter_notMem⟩
  | coordinates agrees rowNumeral columnNumeral =>
      have comma : delimiter ≠ ',' := by decide
      simp only [List.mem_append, List.mem_cons, not_or]
      exact ⟨delimiter_notMem_of_foldCase small agrees, rowNumeral.delimiter_notMem, comma,
        columnNumeral.delimiter_notMem⟩

namespace Token

theorem Written.ne_nil {content : Text} {token : Token} (written : Written content token) :
    content ≠ [] := by
  cases written with
  | literal nonempty plain unmatched => exact nonempty
  | keyword spelled =>
      rintro rfl
      have literal : ofContent [] = .ok (.literal []) := rfl
      cases literal.symm.trans (ofContent_of_spells spelled)
      exact spelled.kind_ne_literal rfl

theorem Written.delimiter_notMem {content : Text} {token : Token}
    (written : Written content token) : delimiter ∉ content := by
  cases written with
  | literal nonempty plain unmatched => exact plain
  | keyword spelled =>
      obtain ⟨shape, meaning, captures, listed, matched, -⟩ := exists_entry_of_spells spelled
      exact matched.delimiter_notMem (keywords_unambiguous.1 _ listed)

theorem Written.ofContent_eq {content : Text} {token : Token} (written : Written content token) :
    ofContent content = .ok token := by
  cases written with
  | keyword spelled => exact ofContent_of_spells spelled
  | literal nonempty plain unmatched =>
      apply ofContentIn_eq_literal
      intro entry listed captures matched
      have found := Shape.match?_eq_some_iff.mpr matched
      rw [unmatched entry listed] at found
      cases found

/-- Content that can stand in a text is a spelling of its token. -/
theorem written_of_ofContent_eq {content : Text} {token : Token}
    (fits : (Piece.content content).Fits) (classified : ofContent content = .ok token) :
    Written content token := by
  rcases ofContent_eq_ok_iff.mp classified with spelled | ⟨rfl, unspelled⟩
  · exact .keyword spelled
  · refine .literal fits.1 fits.2 ?_
    intro entry listed
    rw [Option.eq_none_iff_forall_ne_some]
    intro captures found
    obtain ⟨token, -, spelled⟩ :=
      Meaning.exists_token_of_matches listed (Shape.match?_eq_some_iff.mp found)
    exact unspelled token spelled

end Token

/-! ## Tokens in order -/

/-- So many delimiters. -/
def Text.run (length : Nat) : Text := List.replicate length delimiter

namespace Text

theorem eq_delimiter_of_mem_run {length : Nat} {character : Char}
    (found : character ∈ run length) : character = delimiter :=
  List.eq_of_mem_replicate found

theorem contents_append_run (text : Text) (length : Nat) :
    contents (text ++ run length) = contents text := by
  have seam : Seam text (run length) := by
    cases length with
    | zero => exact .inr (.inl rfl)
    | succ length => exact .inr (.inr (.inr rfl))
  have silent : contents (run length ++ []) = contents [] :=
    contents_run_append (fun _ => eq_delimiter_of_mem_run) []
  rw [List.append_nil, contents_nil] at silent
  rw [contents_append_of_seam seam, silent, List.append_nil]

/-- A run of delimiters keeps the content in front of it apart from what follows. -/
theorem contents_append_run_append (front : Text) (length : Nat) (back : Text) :
    contents (front ++ run (length + 1) ++ back) = contents front ++ contents back := by
  have seam : Seam front (run (length + 1) ++ back) := .inr (.inr (.inr rfl))
  rw [List.append_assoc, contents_append_of_seam seam,
    contents_run_append fun _ => eq_delimiter_of_mem_run]

end Text

namespace Token

/-- Tokens written in order, with a run of delimiters between each two. -/
inductive WrittenInOrder : List Token → Text → Prop where
  | none : WrittenInOrder [] []
  | one {token : Token} {content : Text} (written : Written content token) :
      WrittenInOrder [token] content
  | more {token next : Token} {rest : List Token} {content text : Text} (gap : Nat)
      (written : Written content token) (others : WrittenInOrder (next :: rest) text) :
      WrittenInOrder (token :: next :: rest) (content ++ Text.run (gap + 1) ++ text)

theorem exists_writtenInOrder {tokens : List Token}
    (writable : ∀ token ∈ tokens, token.IsWritable) : ∃ text, WrittenInOrder tokens text := by
  induction tokens with
  | nil => exact ⟨[], .none⟩
  | cons token rest ih =>
      obtain ⟨content, written⟩ := exists_written_iff.mpr (writable token List.mem_cons_self)
      obtain ⟨text, others⟩ := ih fun other found => writable other (List.mem_cons_of_mem _ found)
      cases rest with
      | nil => exact ⟨content, .one written⟩
      | cons next rest => exact ⟨_, .more 0 written others⟩

/-- The contents are the spellings, and they have the tokens that they spell. -/
theorem WrittenInOrder.map_ofContent_contents {tokens : List Token} {text : Text}
    (written : WrittenInOrder tokens text) : text.contents.map ofContent = tokens.map .ok := by
  have alone {content : Text} {token : Token} (written : Written content token) :
      content.contents.map ofContent = [.ok token] := by
    rw [Text.contents_of_delimiter_notMem written.ne_nil written.delimiter_notMem,
      List.map_singleton, written.ofContent_eq]
  induction written with
  | none => rfl
  | one written => exact alone written
  | more gap written others ih =>
      rw [Text.contents_append_run_append, List.map_append, alone written, ih]
      rfl

/-- **Tokens are read back as they were written**, whatever runs of delimiters stand in
front of them and behind them, if there are delimiters at all. -/
theorem WrittenInOrder.tokens_eq {tokens : List Token} {text : Text}
    (written : WrittenInOrder tokens text) {lead trail : Nat}
    (marked : delimiter ∈ Text.run lead ++ text ++ Text.run trail) :
    Text.tokens (Text.run lead ++ text ++ Text.run trail) = tokens.map .ok := by
  rw [Text.tokens_of_marked marked, Text.contents_append_run,
    Text.contents_run_append fun _ => Text.eq_delimiter_of_mem_run,
    written.map_ofContent_contents]

/-- **What was written is read back.**  A list of tokens that can be written each can be
written in order.  However that is done, in capitals or small letters, with zeros in front
of numbers or without, and with delimiters repeated between the tokens, in front of them
and behind them, the text has these tokens in this order, if it has a delimiter at all. -/
theorem write_then_read {tokens : List Token} (writable : ∀ token ∈ tokens, token.IsWritable) :
    (∃ text, WrittenInOrder tokens text) ∧
      ∀ text lead trail, WrittenInOrder tokens text →
        delimiter ∈ Text.run lead ++ text ++ Text.run trail →
          Text.tokens (Text.run lead ++ text ++ Text.run trail) = tokens.map .ok := by
  refine ⟨exists_writtenInOrder writable, ?_⟩
  intro text lead trail written marked
  exact written.tokens_eq marked

/-- A capital and a zero in front, two numbers, and a literal with one zero too many. -/
theorem write_then_read_of_mixed_spellings :
    Text.tokens ['%', 'F', '0', '7', '%', '%', 'x', 'Y', '1', ',', '0', '0', '2', '%',
        'f', '0', '0', '7'] =
      [.ok (.selectColor .foreground 7), .ok (.placeCursor 1 2),
        .ok (.literal ['f', '0', '0', '7'])] := by
  have writable : ∀ token ∈ [Token.selectColor .foreground 7, .placeCursor 1 2,
      .literal ['f', '0', '0', '7']], token.IsWritable := by decide
  have color : Written ['F', '0', '7'] (.selectColor .foreground 7) :=
    .keyword (@Spells.selectColor ['F'] ['0', '7'] .foreground 7 rfl
      (Shape.isNumber_iff.mp rfl) rfl)
  have place : Written ['x', 'Y', '1', ',', '0', '0', '2'] (.placeCursor 1 2) :=
    .keyword (@Spells.placeCursor ['x', 'Y'] ['1'] ['0', '0', '2'] 1 2 rfl
      (Shape.isNumber_iff.mp rfl) (Shape.isNumber_iff.mp rfl) rfl rfl)
  have literal : Written ['f', '0', '0', '7'] (.literal ['f', '0', '0', '7']) :=
    .literal (by decide) (by decide) (by decide)
  exact (write_then_read writable).2 _ 1 0 (.more 1 color (.more 0 place (.one literal)))
    (by decide)

end Token

end TerminalMarkup
