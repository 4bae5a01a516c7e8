/-!
# Texts and their bytes

A text is the list of its characters.  Whatever is measured about a text --
offsets, lengths, the width of a keyword, the room in a buffer -- is measured
in the bytes of its UTF-8 form, so this module has the length of that form, the
form itself, and the one operation in which the two views meet: cutting a text
at a byte.

Cutting can fail, because a byte offset may lie past the end or inside a
character.  `splitAtByte?_eq_some_iff` says that it fails in no other case: a
cut at `width` is exactly a way to write the text as two texts of which the
first is `width` bytes long.

Keywords are written in either case of the twenty-six ASCII letters, and in no
other variation: an accented letter, or a letter of another script that looks
like an ASCII one, equals only itself.  Two texts agree up to case when folding
every ASCII capital to its small letter makes them equal.  Folding never
changes how many bytes a character takes, so texts that agree up to case have
the same byte length (`byteLength_eq_of_foldCase_eq`).
-/

set_option autoImplicit false

namespace TerminalMarkup

/-- A text, as the list of its characters. -/
abbrev Text := List Char

namespace Text

/-! ## Length and form in bytes -/

/-- How many bytes the UTF-8 form of a text has. -/
def byteLength : Text → Nat
  | [] => 0
  | first :: rest => first.utf8Size + byteLength rest

@[simp] theorem byteLength_nil : byteLength [] = 0 := rfl

@[simp] theorem byteLength_cons (first : Char) (rest : Text) :
    byteLength (first :: rest) = first.utf8Size + byteLength rest := rfl

@[simp] theorem byteLength_append (front back : Text) :
    byteLength (front ++ back) = byteLength front + byteLength back := by
  induction front with
  | nil => simp
  | cons first rest ih =>
      rw [List.cons_append, byteLength_cons, byteLength_cons, ih, Nat.add_assoc]

/-- Only the empty text has no bytes. -/
theorem byteLength_eq_zero_iff {text : Text} : byteLength text = 0 ↔ text = [] := by
  cases text with
  | nil => simp
  | cons first rest =>
      have := first.utf8Size_pos
      simp only [byteLength_cons, reduceCtorEq, iff_false]
      omega

/-- The UTF-8 form of a text. -/
def utf8 (text : Text) : ByteArray := (String.ofList text).toUTF8

@[simp] theorem utf8_nil : utf8 [] = ByteArray.empty := rfl

@[simp] theorem utf8_append (front back : Text) : utf8 (front ++ back) = utf8 front ++ utf8 back :=
  List.utf8Encode_append

/-- The form of a text has as many bytes as the text is long. -/
@[simp] theorem size_utf8 (text : Text) : (utf8 text).size = byteLength text := by
  induction text with
  | nil => rfl
  | cons first rest ih =>
      have parts : utf8 (first :: rest) = utf8 [first] ++ utf8 rest := utf8_append [first] rest
      have alone : utf8 [first] = (String.utf8EncodeChar first).toByteArray :=
        List.utf8Encode_singleton
      rw [parts, alone, ByteArray.size_append, List.size_toByteArray,
        String.length_utf8EncodeChar, ih, byteLength_cons]

/-- The text whose UTF-8 form the bytes are, if they are the form of one. -/
def ofUtf8? (bytes : ByteArray) : Option Text := (String.fromUTF8? bytes).map String.toList

/-- Reading back what was written gives the text. -/
@[simp] theorem ofUtf8?_utf8 (text : Text) : ofUtf8? (utf8 text) = some text := by
  have valid : (utf8 text).IsValidUTF8 := ⟨text, rfl⟩
  have same : String.fromUTF8 (utf8 text) valid = String.ofList text := rfl
  simp [ofUtf8?, String.fromUTF8?, valid, same]

/-- The first position at or after `start` where no character of a UTF-8 form
begins: the end of the bytes if everything from `start` on is well formed, and
otherwise the first byte of the earliest malformed sequence. -/
def validUpTo (bytes : ByteArray) (start : Nat) : Nat :=
  match bytes.utf8DecodeChar? start with
  | none => start
  | some character =>
      if start < bytes.size then validUpTo bytes (start + character.utf8Size) else start
termination_by bytes.size - start
decreasing_by
  have := character.utf8Size_pos
  omega

/-! ## Cutting at a byte -/

/-- The two parts of a text cut after `width` bytes; none if the text is
shorter than that, or if the cut would fall inside a character. -/
def splitAtByte? : Nat → Text → Option (Text × Text)
  | 0, text => some ([], text)
  | _ + 1, [] => none
  | width + 1, first :: rest =>
      if first.utf8Size ≤ width + 1 then
        (splitAtByte? (width + 1 - first.utf8Size) rest).map fun parts =>
          (first :: parts.1, parts.2)
      else none

@[simp] theorem splitAtByte?_zero (text : Text) : splitAtByte? 0 text = some ([], text) := by
  cases text <;> rfl

/-- **A cut is a decomposition.**  Cutting after `width` bytes gives `front`
and `back` exactly when the text is `front` followed by `back` and `front` is
`width` bytes long. -/
theorem splitAtByte?_eq_some_iff {width : Nat} {text front back : Text} :
    splitAtByte? width text = some (front, back) ↔
      text = front ++ back ∧ byteLength front = width := by
  induction text generalizing width front with
  | nil =>
      cases width with
      | zero =>
          simp only [splitAtByte?_zero, Option.some.injEq, Prod.mk.injEq]
          constructor
          · rintro ⟨rfl, rfl⟩
            exact ⟨rfl, rfl⟩
          · rintro ⟨same, -⟩
            obtain ⟨rfl, rfl⟩ := List.nil_eq_append_iff.mp same
            exact ⟨rfl, rfl⟩
      | succ width =>
          simp only [splitAtByte?, reduceCtorEq, false_iff, not_and]
          intro same
          obtain ⟨rfl, rfl⟩ := List.nil_eq_append_iff.mp same
          simp
  | cons first rest ih =>
      have positive := first.utf8Size_pos
      cases width with
      | zero =>
          simp only [splitAtByte?_zero, Option.some.injEq, Prod.mk.injEq, byteLength_eq_zero_iff]
          constructor
          · rintro ⟨rfl, rfl⟩
            exact ⟨rfl, rfl⟩
          · rintro ⟨same, rfl⟩
            exact ⟨rfl, same⟩
      | succ width =>
          simp only [splitAtByte?]
          split
          next fits =>
            simp only [Option.map_eq_some_iff, Prod.exists, Prod.mk.injEq]
            constructor
            · rintro ⟨front, back, cut, rfl, rfl⟩
              obtain ⟨rfl, measured⟩ := ih.mp cut
              exact ⟨rfl, by rw [byteLength_cons, measured]; omega⟩
            · rintro ⟨same, measured⟩
              cases front with
              | nil => simp at measured
              | cons other front =>
                  obtain ⟨rfl, rfl⟩ := List.cons.inj same
                  rw [byteLength_cons] at measured
                  exact ⟨front, back, ih.mpr ⟨rfl, by omega⟩, rfl, rfl⟩
          next exceeds =>
            simp only [reduceCtorEq, false_iff, not_and]
            intro same
            cases front with
            | nil => simp
            | cons other front =>
                obtain ⟨rfl, -⟩ := List.cons.inj same
                rw [byteLength_cons]
                omega

/-! ## Letter case -/

/-- A text with its ASCII capitals made small. -/
def foldCase (text : Text) : Text := text.map Char.toLower

/-- Whether two texts differ at most in the case of ASCII letters. -/
def agreesUpToCase (first second : Text) : Bool := foldCase first == foldCase second

theorem agreesUpToCase_iff {first second : Text} :
    agreesUpToCase first second ↔ foldCase first = foldCase second := by
  simp [agreesUpToCase]

@[simp] theorem foldCase_append (front back : Text) :
    foldCase (front ++ back) = foldCase front ++ foldCase back := by
  simp [foldCase]

/-- A character and its small form take the same number of bytes. -/
theorem utf8Size_toLower (character : Char) : character.toLower.utf8Size = character.utf8Size := by
  unfold Char.toLower
  split
  next capital =>
    obtain ⟨low, high⟩ := capital
    have low' : 65 ≤ character.val.toNat := low
    have high' : character.val.toNat ≤ 90 := high
    have small : (character.val + ('a'.val - 'A'.val)).toNat = character.val.toNat + 32 := by
      rw [UInt32.toNat_add]
      show (character.val.toNat + 32) % 4294967296 = _
      omega
    simp only [Char.utf8Size, UInt32.le_iff_toNat_le, small]
    split <;> split <;> simp_all <;> omega
  next => rfl

@[simp] theorem byteLength_foldCase (text : Text) : byteLength (foldCase text) = byteLength text := by
  induction text with
  | nil => rfl
  | cons first rest ih =>
      show byteLength (first.toLower :: foldCase rest) = _
      rw [byteLength_cons, byteLength_cons, utf8Size_toLower, ih]

theorem byteLength_eq_of_foldCase_eq {first second : Text}
    (agrees : foldCase first = foldCase second) : byteLength first = byteLength second := by
  rw [← byteLength_foldCase first, agrees, byteLength_foldCase]

end Text

end TerminalMarkup
