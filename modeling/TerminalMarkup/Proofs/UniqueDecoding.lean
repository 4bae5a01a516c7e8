import TerminalMarkup.Proofs.Emissions

/-!
# Reading calls back from an output

Calls can be read back from what they emit, as far as an output shows them at all.  An
empty text leaves no trace, and texts one right after another look like one text.  The
normal form of a list of calls leaves out the former and joins the latter, and calls in
normal form are determined by what they emit (`Command.eq_of_emitted_eq`).

The argument is that of a scanner without memory.  A sequence announces itself by the
escape character and tells by its own characters where it ends, and a text ends where
the next sequence or line feed is announced.  So the emission at the front of an output
can be told from what follows (`Emission.read?`), and the call from its emission
(`Command.ofEmission?_emission`).

Two things have to be granted.  A text must not itself hold an escape character or a
line feed, which would announce something else.  And a foreground that is set with an
intensity has to name the standard color of its hue, because that is the color set
whichever it names.
-/

set_option autoImplicit false

namespace TerminalMarkup

/-! ## Reading one emission -/

namespace Emission

/-- The numbers that parameters stand for. -/
def numbersOf (parameters : Text) : List Nat :=
  (parameters.splitOn ';').map fun decimal => Nat.ofDigitChars 10 decimal 0

theorem numbersOf_parameters {numbers : List Nat} (some : numbers ≠ []) :
    numbersOf (parameters numbers) = numbers := by
  have apart : ∀ decimal ∈ numbers.map (Nat.toDigits 10), ';' ∉ decimal := by
    intro decimal member found
    obtain ⟨number, -, rfl⟩ := List.mem_map.mp member
    have digit := Nat.isDigit_of_mem_toDigits (by decide) (by decide) found
    exact absurd digit (by decide)
  have decimals : (parameters numbers).splitOn ';' = numbers.map (Nat.toDigits 10) :=
    List.splitOn_intercalate ';' apart (by simpa using some)
  rw [numbersOf, decimals, List.map_map]
  refine (List.map_congr_left fun number _ => ?_).trans (List.map_id numbers)
  exact Nat.ofDigitChars_ten_toDigits

/-- Whether a character announces something other than text. -/
def isAnnouncer (character : Char) : Bool := character == '\x1b' || character == '\n'

theorem isAnnouncer_eq_false_iff {character : Char} :
    isAnnouncer character = false ↔ character ≠ '\x1b' ∧ character ≠ '\n' := by
  simp [isAnnouncer]

/-- The emission at the front of an output, and what follows it. -/
def read? : Text → Option (Emission × Text)
  | [] => none
  | '\n' :: rest => some (lineFeed, rest)
  | '\x1b' :: '[' :: rest =>
      match rest.dropWhile (!endsSequence ·.toNat) with
      | [] => none
      | final :: later =>
          some (sequence (numbersOf (rest.takeWhile (!endsSequence ·.toNat))) final, later)
  | output => some (text (output.takeWhile (!isAnnouncer ·)), output.dropWhile (!isAnnouncer ·))

/-- A sequence tells by itself where it ends. -/
theorem read?_sequence {numbers : List Nat} {final : Char} (some : numbers ≠ [])
    (ends : endsSequence final.toNat = true) (rest : Text) :
    read? ((sequence numbers final).characters ++ rest) = .some (sequence numbers final, rest) := by
  have passes : ∀ character ∈ parameters numbers, (!endsSequence character.toNat) = true := by
    intro character found
    rw [endsSequence_of_mem_parameters found, Bool.not_false]
  have stops : ∀ character ∈ (final :: rest).head?, (!endsSequence character.toNat) = false := by
    rintro character ⟨⟩
    rw [ends, Bool.not_true]
  obtain ⟨front, back⟩ := span_append passes stops
  have form : (sequence numbers final).characters ++ rest =
      '\x1b' :: '[' :: (parameters numbers ++ final :: rest) := by
    simp [characters]
  simp only [form, read?, front, back, numbersOf_parameters some]

/-- A text ends where something else is announced. -/
theorem read?_text {shown rest : Text} (nonempty : shown ≠ [])
    (plain : ∀ character ∈ shown, isAnnouncer character = false)
    (announced : ∀ character ∈ rest.head?, isAnnouncer character = true) :
    read? ((text shown).characters ++ rest) = some (text shown, rest) := by
  obtain ⟨first, others, rfl⟩ := List.exists_cons_of_ne_nil nonempty
  obtain ⟨noEscape, noLineFeed⟩ := isAnnouncer_eq_false_iff.mp (plain first (by simp))
  have passes : ∀ character ∈ first :: others, (!isAnnouncer character) = true := by
    intro character found
    rw [plain character found, Bool.not_false]
  have stops : ∀ character ∈ rest.head?, (!isAnnouncer character) = false := by
    intro character found
    rw [announced character found, Bool.not_true]
  obtain ⟨front, back⟩ := span_append passes stops
  have asText : read? (first :: others ++ rest) =
      some (text ((first :: others ++ rest).takeWhile (!isAnnouncer ·)),
        (first :: others ++ rest).dropWhile (!isAnnouncer ·)) := by
    rw [List.cons_append, read?]
    · exact List.cons_ne_nil _ _
    · intro later same
      exact noLineFeed (List.cons.inj same).1
    · intro later same
      exact noEscape (List.cons.inj same).1
  rw [characters, asText, front, back]

end Emission

/-! ## The call of an emission -/

namespace Command

/-- The call that sets rendition parameters. -/
def ofParameters? : List RenditionParameter → Option Command
  | [.reset] => some reset
  | [.intensity .bold] => some bold
  | [.intensity .normal] => some normal
  | [.faint] => some faint
  | [.italic] => some italic
  | [.underline] => some underline
  | [.blink] => some blink
  | [.reverseVideo] => some negative
  | [.strikethrough] => some strikethrough
  | [.foreground color] => some (paint (.foreground color))
  | [.background color] => some (paint (.background color))
  | [.intensity intensity, .foreground color] => some (paint (.weightedForeground intensity color))
  | _ => none

/-- The call that emits an emission, if one does. -/
def ofEmission? : Emission → Option Command
  | .text characters => some (text characters)
  | .lineFeed => some lineFeed
  | .sequence codes 'm' =>
      (codes.mapM fun code => RenditionParameter.ofCode? (UInt8.ofNat code)).bind ofParameters?
  | .sequence [amount] 'A' => some (moveCursor .up (UInt16.ofNat amount))
  | .sequence [amount] 'B' => some (moveCursor .down (UInt16.ofNat amount))
  | .sequence [amount] 'C' => some (moveCursor .forward (UInt16.ofNat amount))
  | .sequence [amount] 'D' => some (moveCursor .back (UInt16.ofNat amount))
  | .sequence [row, column] 'H' => some (placeCursor (UInt16.ofNat row) (UInt16.ofNat column))
  | .sequence [0] 'J' => some eraseDisplayBelow
  | .sequence [1] 'J' => some eraseDisplayAbove
  | .sequence [2] 'J' => some eraseDisplay
  | .sequence [0] 'K' => some eraseLineAfter
  | .sequence [1] 'K' => some eraseLineBefore
  | .sequence [2] 'K' => some eraseLine
  | _ => none

/-- A call that an output does not misrepresent: its text has no character that means
something else there, and the color that it sets with an intensity is the one it names. -/
def Legible : Command → Prop
  | text characters => '\x1b' ∉ characters ∧ '\n' ∉ characters
  | paint (.weightedForeground _ color) => color.bright = false
  | _ => True

/-- **A call is determined by its emission.** -/
theorem ofEmission?_emission {command : Command} (legible : command.Legible) :
    ofEmission? command.emission = some command := by
  cases command with
  | paint selected =>
      cases selected with
      | foreground color | background color =>
          obtain ⟨hue, bright⟩ := color
          cases hue <;> cases bright <;> rfl
      | weightedForeground intensity color =>
          obtain ⟨hue, bright⟩ := color
          have standard : bright = false := legible
          subst standard
          cases intensity <;> cases hue <;> rfl
  | moveCursor direction amount => cases direction <;> simp [emission, ofEmission?]
  | placeCursor row column => simp [emission, ofEmission?]
  | _ => rfl

/-! ## Normal forms -/

/-- Whether a call shows a text. -/
def isText : Command → Bool
  | text _ => true
  | _ => false

theorem isText_iff {command : Command} :
    command.isText = true ↔ ∃ characters, command = text characters := by
  cases command <;> simp [isText]

/-- Puts a call before calls in normal form: an empty text is left out, and a text before
a text is joined with it. -/
def prepend : Command → List Command → List Command
  | text [], rest => rest
  | text characters, text later :: rest => text (characters ++ later) :: rest
  | command, rest => command :: rest

/-- Calls without their empty texts and with adjacent texts joined. -/
def normalForm (commands : List Command) : List Command := commands.foldr prepend []

/-- Calls of which none shows an empty text, and no two next to each other show texts. -/
inductive IsNormal : List Command → Prop where
  | nil : IsNormal []
  | text {characters : Text} {rest : List Command} (nonempty : characters ≠ [])
      (apart : ∀ next ∈ rest.head?, next.isText = false) (normal : IsNormal rest) :
      IsNormal (text characters :: rest)
  | other {command : Command} {rest : List Command} (noText : command.isText = false)
      (normal : IsNormal rest) : IsNormal (command :: rest)

theorem IsNormal.tail {command : Command} {rest : List Command}
    (normal : IsNormal (command :: rest)) : IsNormal rest := by
  cases normal with
  | text _ _ normal => exact normal
  | other _ normal => exact normal

theorem isNormal_prepend (command : Command) {rest : List Command} (normal : IsNormal rest) :
    IsNormal (prepend command rest) := by
  fun_cases prepend command rest with
  | case1 => exact normal
  | case2 characters later others nonempty =>
      cases normal with
      | text _ apart normal =>
          refine .text ?_ apart normal
          intro empty
          exact nonempty (List.append_eq_nil_iff.mp empty).1
      | other noText => cases noText
  | case3 _ _ nonempty notJoined =>
      cases shows : command.isText with
      | false => exact .other shows normal
      | true =>
          obtain ⟨characters, rfl⟩ := isText_iff.mp shows
          refine .text (fun empty => nonempty (congrArg text empty)) ?_ normal
          intro next found
          obtain ⟨others, rfl⟩ := List.head?_eq_some_iff.mp found
          rw [Bool.eq_false_iff, Ne, isText_iff]
          rintro ⟨later, rfl⟩
          exact notJoined characters later others rfl rfl

theorem isNormal_normalForm (commands : List Command) : IsNormal (normalForm commands) := by
  induction commands with
  | nil => exact .nil
  | cons command rest ih => exact isNormal_prepend command ih

/-- Before calls in normal form, a call that keeps them in normal form is just added. -/
theorem prepend_of_isNormal {command : Command} {rest : List Command}
    (normal : IsNormal (command :: rest)) : prepend command rest = command :: rest := by
  fun_cases prepend command rest with
  | case1 =>
      cases normal with
      | text nonempty => exact absurd rfl nonempty
      | other noText => cases noText
  | case2 characters later others =>
      cases normal with
      | text _ apart => cases apart (text later) rfl
      | other noText => cases noText
  | case3 => rfl

/-- Normal forms are the lists that have no empty texts and no adjacent ones. -/
theorem normalForm_eq_self_iff {commands : List Command} :
    normalForm commands = commands ↔ IsNormal commands := by
  constructor
  · intro same
    exact same ▸ isNormal_normalForm commands
  · intro normal
    induction commands with
    | nil => rfl
    | cons command rest ih =>
        calc normalForm (command :: rest)
            = prepend command (normalForm rest) := rfl
          _ = command :: rest := by rw [ih normal.tail, prepend_of_isNormal normal]

theorem emitted_prepend (command : Command) (rest : List Command) :
    emitted (prepend command rest) = command.emission.characters ++ emitted rest := by
  fun_cases prepend command rest with
  | case1 => rfl
  | case2 characters later others nonempty => simp [emission, Emission.characters]
  | case3 => exact emitted_cons command rest

/-- Normal forms look the same on an output. -/
theorem emitted_normalForm (commands : List Command) :
    emitted (normalForm commands) = emitted commands := by
  induction commands with
  | nil => rfl
  | cons command rest ih =>
      calc emitted (normalForm (command :: rest))
          = command.emission.characters ++ emitted (normalForm rest) := emitted_prepend command _
        _ = emitted (command :: rest) := by rw [ih, emitted_cons]

theorem legible_prepend {command : Command} {rest : List Command} (first : command.Legible)
    (others : ∀ other ∈ rest, other.Legible) : ∀ other ∈ prepend command rest, other.Legible := by
  fun_cases prepend command rest with
  | case1 => exact others
  | case2 characters later tail =>
      obtain ⟨second, others⟩ := List.forall_mem_cons.mp others
      refine List.forall_mem_cons.mpr ⟨?_, others⟩
      simp only [Legible, List.mem_append, not_or] at first second ⊢
      exact ⟨⟨first.1, second.1⟩, first.2, second.2⟩
  | case3 => exact List.forall_mem_cons.mpr ⟨first, others⟩

theorem legible_normalForm {commands : List Command}
    (legible : ∀ command ∈ commands, command.Legible) :
    ∀ command ∈ normalForm commands, command.Legible := by
  induction commands with
  | nil => exact legible
  | cons command rest ih =>
      obtain ⟨first, others⟩ := List.forall_mem_cons.mp legible
      exact legible_prepend first (ih others)

/-! ## Reading back -/

/-- What does not show a text is announced. -/
theorem isAnnouncer_of_mem_head? {commands : List Command}
    (apart : ∀ next ∈ commands.head?, next.isText = false) :
    ∀ character ∈ (emitted commands).head?, Emission.isAnnouncer character = true := by
  cases commands with
  | nil => simp
  | cons next rest =>
      have noText : ¬ ∃ characters, next = text characters := by
        rw [← isText_iff, apart next rfl]
        decide
      rcases next.emission_cases with shows | rfl | ⟨numbers, final, emission, -⟩
      · exact absurd shows noText
      · rintro character ⟨⟩
        rfl
      · rw [emitted_cons, emission]
        rintro character ⟨⟩
        rfl

/-- The first of calls in normal form can be read off an output. -/
theorem read?_emitted {command : Command} {rest : List Command}
    (normal : IsNormal (command :: rest)) (legible : command.Legible) :
    Emission.read? (emitted (command :: rest)) = some (command.emission, emitted rest) := by
  rw [emitted_cons]
  cases normal with
  | text nonempty apart =>
      refine Emission.read?_text nonempty ?_ (isAnnouncer_of_mem_head? apart)
      intro character found
      rw [Emission.isAnnouncer_eq_false_iff]
      constructor
      · rintro rfl
        exact legible.1 found
      · rintro rfl
        exact legible.2 found
  | other noText =>
      rcases command.emission_cases with shows | rfl | ⟨numbers, final, emission, some, ends⟩
      · rw [← isText_iff, noText] at shows
        cases shows
      · rfl
      · rw [emission, Emission.read?_sequence some ends]

/-- **Calls in normal form are determined by what they emit.** -/
theorem eq_of_emitted_eq {first second : List Command} (firstNormal : IsNormal first)
    (firstLegible : ∀ command ∈ first, command.Legible) (secondNormal : IsNormal second)
    (secondLegible : ∀ command ∈ second, command.Legible) (same : emitted first = emitted second) :
    first = second := by
  induction first generalizing second with
  | nil =>
      cases second with
      | nil => rfl
      | cons other others =>
          have read := read?_emitted secondNormal (secondLegible other (by simp))
          rw [← same] at read
          cases read
  | cons command rest ih =>
      have read := read?_emitted firstNormal (firstLegible command (by simp))
      cases second with
      | nil =>
          rw [same] at read
          cases read
      | cons other others =>
          rw [same, read?_emitted secondNormal (secondLegible other (by simp)),
            Option.some.injEq, Prod.mk.injEq] at read
          obtain ⟨emission, later⟩ := read
          have head : some other = some command := by
            rw [← ofEmission?_emission (secondLegible other (by simp)), emission,
              ofEmission?_emission (firstLegible command (by simp))]
          obtain rfl := Option.some.inj head
          rw [ih firstNormal.tail (fun call found => firstLegible call (by simp [found]))
            secondNormal.tail (fun call found => secondLegible call (by simp [found])) later.symm]

/-- **Outputs agree exactly where normal forms do.**  Two lists of calls, each made on an
output of its own, leave the same bytes if and only if leaving out empty texts and
joining adjacent ones makes the same list of both. -/
theorem bytes_eq_iff_normalForm_eq {first second : List Command}
    (firstLegible : ∀ command ∈ first, command.Legible)
    (secondLegible : ∀ command ∈ second, command.Legible) :
    (playAll first EscapeOutput.empty).bytes = (playAll second EscapeOutput.empty).bytes ↔
      normalForm first = normalForm second := by
  have bytes (commands : List Command) :
      (playAll commands EscapeOutput.empty).bytes = Text.utf8 (emitted (normalForm commands)) := by
    rw [playAll_output, emitted_normalForm]
    exact ByteArray.empty_append
  rw [bytes, bytes, Text.utf8_injective.eq_iff]
  constructor
  · exact eq_of_emitted_eq (isNormal_normalForm first) (legible_normalForm firstLegible)
      (isNormal_normalForm second) (legible_normalForm secondLegible)
  · exact congrArg emitted

/-- A text may be shown in parts.  But characters that follow a sequence are not taken
for a part of it, even if they are digits. -/
theorem bytes_of_split_text_and_of_digits :
    (playAll [text ['a'], text [], bold, text ['b'], text ['2']] EscapeOutput.empty).bytes =
        (playAll [text ['a'], bold, text ['b', '2']] EscapeOutput.empty).bytes ∧
      (playAll [moveCursor .up 1, text ['2']] EscapeOutput.empty).bytes ≠
        (playAll [moveCursor .up 12] EscapeOutput.empty).bytes := by
  constructor
  · exact (bytes_eq_iff_normalForm_eq (by simp [Legible]) (by simp [Legible])).mpr (by decide)
  · rw [Ne, bytes_eq_iff_normalForm_eq (by simp [Legible]) (by simp [Legible])]
    decide

end Command

end TerminalMarkup
