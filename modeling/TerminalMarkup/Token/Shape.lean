import TerminalMarkup.Text

/-!
# Shapes of content

Content is recognized by its shape, which is a keyword, in either case, and what
has to follow it: nothing, a number of bounded length, or two numbers with a
comma between them.  A shape describes the whole of a content, so one character
too many and it is not of that shape; if it is, matching returns the digits.

A keyword can be any text.  What follows it is found by cutting the content
after as many bytes as the keyword has, and content that cannot be cut there is
not of the shape.  Since case makes no difference to the number of bytes, the
cut finds whatever follows the keyword in either case
(`afterKeyword?_eq_some_iff`).
-/

set_option autoImplicit false

namespace TerminalMarkup

/-- What content can look like. -/
inductive Shape where
  /-- The keyword alone. -/
  | word (keyword : Text)
  /-- The keyword and a number of at most `width` digits. -/
  | number (keyword : Text) (width : Nat)
  /-- The keyword and two numbers of at most three digits each. -/
  | coordinates (keyword : Text)
  deriving DecidableEq, Repr

/-- The digits found in content of a shape. -/
inductive Captures where
  /-- The shape has no numbers. -/
  | none
  /-- The digits of the one number. -/
  | number (digits : Text)
  /-- The digits of the two numbers. -/
  | coordinates (row column : Text)
  deriving DecidableEq, Repr

namespace Shape

/-- How many digits each of two coordinates may have. -/
def coordinateWidth : Nat := 3

/-- Whether a text is a run of at least one and at most `width` digits. -/
def isNumber (width : Nat) (text : Text) : Bool :=
  1 ≤ Text.byteLength text && Text.byteLength text ≤ width && text.all Char.isDigit

/-- What follows the keyword in content that begins with it in either case. -/
def afterKeyword? (keyword content : Text) : Option Text :=
  match Text.splitAtByte? (Text.byteLength keyword) content with
  | some (front, back) => if Text.agreesUpToCase front keyword then some back else none
  | none => none

/-- The parts of a text before and after its first comma. -/
def splitAtComma? (text : Text) : Option (Text × Text) :=
  match text.dropWhile (· != ',') with
  | [] => none
  | _ :: back => some (text.takeWhile (· != ','), back)

/-! ## What the parts of a match say -/

theorem utf8Size_of_isDigit {character : Char} (digit : character.isDigit) :
    character.utf8Size = 1 := by
  have high : character.val.toNat ≤ 57 := by
    simp only [Char.isDigit, ge_iff_le, Bool.and_eq_true, decide_eq_true_eq] at digit
    exact digit.2
  simp only [Char.utf8Size, UInt32.le_iff_toNat_le]
  split
  next => rfl
  next large => exact absurd (show character.val.toNat ≤ 127 by omega) large

theorem byteLength_of_all_isDigit {text : Text} (digits : ∀ digit ∈ text, digit.isDigit) :
    Text.byteLength text = text.length := by
  induction text with
  | nil => rfl
  | cons first rest ih =>
      rw [Text.byteLength_cons, List.length_cons,
        utf8Size_of_isDigit (digits first (List.mem_cons_self ..)),
        ih fun digit found => digits digit (List.mem_cons_of_mem _ found)]
      omega

theorem isNumber_iff {width : Nat} {text : Text} :
    isNumber width text ↔ text ≠ [] ∧ text.length ≤ width ∧ ∀ digit ∈ text, digit.isDigit := by
  simp only [isNumber, Bool.and_eq_true, decide_eq_true_eq, List.all_eq_true]
  constructor
  · rintro ⟨⟨some, few⟩, digits⟩
    rw [byteLength_of_all_isDigit digits] at some few
    exact ⟨List.length_pos_iff.mp some, few, digits⟩
  · rintro ⟨some, few, digits⟩
    rw [byteLength_of_all_isDigit digits]
    exact ⟨⟨List.length_pos_iff.mpr some, few⟩, digits⟩

/-- What follows the keyword is what is left after some form of the keyword. -/
theorem afterKeyword?_eq_some_iff {keyword content rest : Text} :
    afterKeyword? keyword content = some rest ↔
      ∃ front, content = front ++ rest ∧ Text.foldCase front = Text.foldCase keyword := by
  unfold afterKeyword?
  constructor
  · intro found
    split at found
    next front back cut =>
      split at found
      next agrees =>
        cases found
        exact ⟨front, (Text.splitAtByte?_eq_some_iff.mp cut).1, Text.agreesUpToCase_iff.mp agrees⟩
      next => cases found
    next => cases found
  · rintro ⟨front, rfl, agrees⟩
    have measured := Text.byteLength_eq_of_foldCase_eq agrees
    have cut : Text.splitAtByte? (Text.byteLength keyword) (front ++ rest) = some (front, rest) :=
      Text.splitAtByte?_eq_some_iff.mpr ⟨rfl, measured⟩
    simp only [cut, Text.agreesUpToCase_iff.mpr agrees, ↓reduceIte]

/-- The first comma is the one with no comma before it. -/
theorem splitAtComma?_eq_some_iff {text front back : Text} :
    splitAtComma? text = some (front, back) ↔ text = front ++ ',' :: back ∧ ',' ∉ front := by
  induction text generalizing front with
  | nil => simp [splitAtComma?]
  | cons first rest ih =>
      by_cases comma : first = ','
      · subst comma
        cases front with
        | nil => simp [splitAtComma?, eq_comm]
        | cons other front =>
            simp only [splitAtComma?, bne_self_eq_false, Bool.false_eq_true, not_false_eq_true,
              List.dropWhile_cons_of_neg, List.takeWhile_cons_of_neg, Option.some.injEq,
              Prod.mk.injEq, reduceCtorEq, false_and, List.cons_append, List.cons.injEq,
              List.mem_cons, not_or, false_iff, not_and]
            rintro ⟨same, -⟩ different
            exact absurd same different
      · have goes : (first != ',') = true := by simp [comma]
        have later : splitAtComma? (first :: rest) =
            (splitAtComma? rest).map fun parts => (first :: parts.1, parts.2) := by
          simp only [splitAtComma?, List.dropWhile_cons, List.takeWhile_cons, goes, ↓reduceIte]
          split <;> rfl
        rw [later]
        cases front with
        | nil => simp [comma]
        | cons other front =>
            simp only [Option.map_eq_some_iff, Prod.exists, Prod.mk.injEq, List.cons.injEq,
              List.cons_append, List.mem_cons, not_or]
            constructor
            · rintro ⟨front, back, found, ⟨rfl, rfl⟩, rfl⟩
              obtain ⟨rfl, absent⟩ := ih.mp found
              exact ⟨⟨rfl, rfl⟩, fun same => comma same.symm, absent⟩
            · rintro ⟨⟨rfl, rfl⟩, -, absent⟩
              exact ⟨front, back, ih.mpr ⟨rfl, absent⟩, ⟨rfl, rfl⟩, rfl⟩

/-! ## Matching -/

/-- The digits in content of a shape; none if it is not of that shape. -/
def match? (shape : Shape) (content : Text) : Option Captures :=
  match shape with
  | word keyword => if Text.agreesUpToCase content keyword then some .none else none
  | number keyword width => do
      let digits ← afterKeyword? keyword content
      if isNumber width digits then some (.number digits) else none
  | coordinates keyword => do
      let (row, column) ← splitAtComma? (← afterKeyword? keyword content)
      if isNumber coordinateWidth row && isNumber coordinateWidth column then
        some (.coordinates row column)
      else none

end Shape

end TerminalMarkup
