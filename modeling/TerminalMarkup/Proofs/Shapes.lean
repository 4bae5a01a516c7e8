import TerminalMarkup.Token.Keyword
import Mathlib

/-!
# What matches a shape

Matching finds out whether content can be put together from a form of the keyword
and the digits that the shape asks for, and it finds the only digits with which it
can (`Shape.match?_eq_some_iff`).

Keywords of small letters keep shapes apart.  Digits and commas are no letters, so
content of such a shape begins with exactly the letters of the keyword, and whether
anything follows them tells a bare keyword from one with numbers.  In a table in
which no two shapes agree in both respects, at most one entry applies to any content
and the order of the entries does not matter (`Token.ofContentIn_eq_of_matches`).
-/

set_option autoImplicit false

namespace TerminalMarkup

/-- Folding changes capitals only. -/
theorem Text.foldCase_of_not_isUpper {text : Text}
    (noCapitals : ∀ character ∈ text, ¬ character.isUpper) : Text.foldCase text = text := by
  have kept : ∀ character ∈ text, character.toLower = character := by
    intro character found
    exact Char.toLower_eq_of_not_isUpper (noCapitals character found)
  exact (List.map_congr_left kept).trans (List.map_id text)

/-! ## Shapes as descriptions of content -/

namespace Shape

/-- A run of at least one and at most `width` digits. -/
def IsNumeral (width : Nat) (digits : Text) : Prop :=
  digits ≠ [] ∧ digits.length ≤ width ∧ ∀ digit ∈ digits, digit.isDigit

/-- Content put together from what a shape consists of, and its digits. -/
inductive Matches : Shape → Text → Captures → Prop where
  | word {keyword front : Text} (agrees : Text.foldCase front = Text.foldCase keyword) :
      Matches (.word keyword) front .none
  | number {keyword front digits : Text} {width : Nat}
      (agrees : Text.foldCase front = Text.foldCase keyword) (numeral : IsNumeral width digits) :
      Matches (.number keyword width) (front ++ digits) (.number digits)
  | coordinates {keyword front row column : Text}
      (agrees : Text.foldCase front = Text.foldCase keyword)
      (rowNumeral : IsNumeral coordinateWidth row)
      (columnNumeral : IsNumeral coordinateWidth column) :
      Matches (.coordinates keyword) (front ++ (row ++ ',' :: column)) (.coordinates row column)

theorem IsNumeral.comma_notMem {width : Nat} {digits : Text} (numeral : IsNumeral width digits) :
    ',' ∉ digits := by
  intro found
  have digit := numeral.2.2 ',' found
  simp at digit

/-- **Matching finds what is there.**  A match succeeds exactly on content put
together as the shape says, with the digits it is put together from. -/
theorem match?_eq_some_iff {shape : Shape} {content : Text} {captures : Captures} :
    shape.match? content = some captures ↔ shape.Matches content captures := by
  constructor
  · intro found
    cases shape with
    | word keyword =>
        simp only [match?, Option.ite_none_right_eq_some, Text.agreesUpToCase_iff] at found
        obtain ⟨agrees, same⟩ := found
        cases same
        exact .word agrees
    | number keyword width =>
        simp only [match?, Option.bind_eq_bind, Option.bind_eq_some_iff,
          Option.ite_none_right_eq_some, isNumber_iff] at found
        obtain ⟨digits, after, numeral, same⟩ := found
        obtain ⟨front, rfl, agrees⟩ := afterKeyword?_eq_some_iff.mp after
        cases same
        exact .number agrees numeral
    | coordinates keyword =>
        simp only [match?, Option.bind_eq_bind, Option.bind_eq_some_iff,
          Option.ite_none_right_eq_some, Bool.and_eq_true, isNumber_iff] at found
        obtain ⟨numbers, after, ⟨row, column⟩, parts, ⟨rowNumeral, columnNumeral⟩, same⟩ := found
        obtain ⟨front, rfl, agrees⟩ := afterKeyword?_eq_some_iff.mp after
        obtain ⟨rfl, -⟩ := splitAtComma?_eq_some_iff.mp parts
        cases same
        exact .coordinates agrees rowNumeral columnNumeral
  · intro matched
    cases matched with
    | word agrees => simp [match?, Text.agreesUpToCase_iff.mpr agrees]
    | @number keyword front digits width agrees numeral =>
        have after : afterKeyword? keyword (front ++ digits) = some digits :=
          afterKeyword?_eq_some_iff.mpr ⟨front, rfl, agrees⟩
        simp [match?, after, isNumber_iff.mpr numeral]
    | @coordinates keyword front row column agrees rowNumeral columnNumeral =>
        have after : afterKeyword? keyword (front ++ (row ++ ',' :: column)) =
            some (row ++ ',' :: column) := afterKeyword?_eq_some_iff.mpr ⟨front, rfl, agrees⟩
        have parts : splitAtComma? (row ++ ',' :: column) = some (row, column) :=
          splitAtComma?_eq_some_iff.mpr ⟨rfl, rowNumeral.comma_notMem⟩
        simp [match?, after, parts, isNumber_iff.mpr rowNumeral, isNumber_iff.mpr columnNumeral]

/-! ## Telling shapes apart -/

/-- The keyword of a shape, without its numbers. -/
def keyword : Shape → Text
  | word keyword => keyword
  | number keyword _ => keyword
  | coordinates keyword => keyword

/-- What tells shapes with keywords of small letters apart: the keyword, and
whether it stands alone. -/
def key : Shape → Text × Bool
  | word keyword => (keyword, true)
  | number keyword _ => (keyword, false)
  | coordinates keyword => (keyword, false)

/-- The letters at the front of content, made small, and whether nothing follows
them. -/
def keyOf (content : Text) : Text × Bool :=
  ((Text.foldCase content).takeWhile Char.isLower,
    ((Text.foldCase content).dropWhile Char.isLower).isEmpty)

theorem foldCase_of_all_isLower {keyword : Text} (small : ∀ letter ∈ keyword, letter.isLower) :
    Text.foldCase keyword = keyword := by
  apply Text.foldCase_of_not_isUpper
  intro letter found
  exact Char.not_isUpper_of_isLower (small letter found)

theorem not_isLower_toLower_of_isDigit {digit : Char} (isDigit : digit.isDigit) :
    ¬ digit.toLower.isLower := by
  have high := (Char.isDigit_iff_toNat.mp isDigit).2
  rw [Char.isLower_toLower_eq_isAlpha]
  simp [Char.isAlpha, Char.isUpper, Char.isLower, UInt32.le_iff_toNat_le] at high ⊢
  omega

theorem IsNumeral.head_not_isLower {width : Nat} {digits : Text}
    (numeral : IsNumeral width digits) (rest : Text) :
    ∀ character ∈ (digits ++ rest).head?, ¬ character.toLower.isLower := by
  obtain ⟨nonempty, -, allDigits⟩ := numeral
  intro character first
  cases digits with
  | nil => exact absurd rfl nonempty
  | cons digit digits =>
      obtain rfl : digit = character := by simpa using first
      exact not_isLower_toLower_of_isDigit (allDigits digit (List.mem_cons_self ..))

/-- A form of a keyword of small letters, and what follows it if that is no letter,
can be told from the content alone. -/
theorem keyOf_append {keyword front rest : Text} (small : ∀ letter ∈ keyword, letter.isLower)
    (agrees : Text.foldCase front = Text.foldCase keyword)
    (ends : ∀ character ∈ rest.head?, ¬ character.toLower.isLower) :
    keyOf (front ++ rest) = (keyword, rest.isEmpty) := by
  have folded : Text.foldCase (front ++ rest) = keyword ++ Text.foldCase rest := by
    rw [Text.foldCase_append, agrees, foldCase_of_all_isLower small]
  have stops : ∀ character ∈ (Text.foldCase rest).head?, ¬ character.isLower := by
    intro character first
    rw [Text.foldCase, List.head?_map, Option.mem_def, Option.map_eq_some_iff] at first
    obtain ⟨written, head, rfl⟩ := first
    exact ends written head
  unfold keyOf
  rw [folded, List.takeWhile_append_of_pos small, List.dropWhile_append_of_pos small]
  cases rest with
  | nil => simp [Text.foldCase]
  | cons first rest =>
      have halts : ¬ first.toLower.isLower := stops first.toLower (by simp [Text.foldCase])
      simp [Text.foldCase, halts]

/-- Content of a shape with a keyword of small letters has the key of the shape. -/
theorem Matches.key_eq {shape : Shape} {content : Text} {captures : Captures}
    (matched : shape.Matches content captures) (small : ∀ letter ∈ shape.keyword, letter.isLower) :
    shape.key = keyOf content := by
  cases matched with
  | word agrees =>
      have found : keyOf (content ++ []) = (_, true) := keyOf_append small agrees (by simp)
      rw [List.append_nil] at found
      exact found.symm
  | @number keyword front digits width agrees numeral =>
      have ends := numeral.head_not_isLower []
      rw [List.append_nil] at ends
      rw [keyOf_append small agrees ends, List.isEmpty_eq_false_iff.mpr numeral.1]
      rfl
  | @coordinates keyword front row column agrees rowNumeral columnNumeral =>
      have ends := rowNumeral.head_not_isLower (',' :: column)
      rw [keyOf_append small agrees ends]
      simp [key, Shape.keyword]

end Shape

/-! ## Looking content up -/

namespace Token

/-- A table in which what content begins with tells the entries apart: keywords are of
small letters, and no two entries agree in keyword and in whether it stands alone. -/
def Unambiguous (table : KeywordTable) : Prop :=
  (∀ entry ∈ table, ∀ letter ∈ entry.1.keyword, letter.isLower) ∧
    (table.map fun entry => entry.1.key).Nodup

/-- **The order of the entries does not matter.**  In an unambiguous table, content of
the shape of an entry gets its token from that entry. -/
theorem ofContentIn_eq_of_matches {table : KeywordTable} (unambiguous : Unambiguous table)
    {shape : Shape} {meaning : Meaning} (listed : (shape, meaning) ∈ table)
    {content : Text} {captures : Captures} (matched : shape.Matches content captures) :
    ofContentIn table content = meaning.token content captures := by
  obtain ⟨small, distinct⟩ := unambiguous
  induction table with
  | nil => cases listed
  | cons entry rest ih =>
      rw [List.map_cons, List.nodup_cons] at distinct
      obtain ⟨fresh, distinct⟩ := distinct
      rcases List.mem_cons.mp listed with rfl | later
      · simp only [ofContentIn, Shape.match?_eq_some_iff.mpr matched]
      · -- An earlier entry that matched too would have the key of this one.
        have passed : entry.1.match? content = none := by
          rw [Option.eq_none_iff_forall_ne_some]
          intro others found
          have key := (Shape.match?_eq_some_iff.mp found).key_eq
            (small entry (List.mem_cons_self ..))
          have same := matched.key_eq (small _ listed)
          exact fresh (List.mem_map.mpr ⟨(shape, meaning), later, same.trans key.symm⟩)
        simp only [ofContentIn, passed]
        have smallLater : ∀ entry ∈ rest, ∀ letter ∈ entry.1.keyword, letter.isLower := by
          intro entry found
          exact small entry (List.mem_cons_of_mem _ found)
        exact ih later smallLater distinct

/-- Content of the shape of no entry is text. -/
theorem ofContentIn_eq_literal {table : KeywordTable} {content : Text}
    (unlisted : ∀ entry ∈ table, ∀ captures, ¬ entry.1.Matches content captures) :
    ofContentIn table content = .ok (.literal content) := by
  induction table with
  | nil => rfl
  | cons entry rest ih =>
      have passed : entry.1.match? content = none := by
        rw [Option.eq_none_iff_forall_ne_some]
        intro captures found
        exact unlisted entry (List.mem_cons_self ..) captures (Shape.match?_eq_some_iff.mp found)
      simp only [ofContentIn, passed]
      apply ih
      intro entry found
      exact unlisted entry (List.mem_cons_of_mem _ found)

end Token

end TerminalMarkup
