import TerminalMarkup.Interpreter.Stripping
import TerminalMarkup.Proofs.KeywordGrammar
import TerminalMarkup.Proofs.Renderings

/-!
# The text that calls show

Stripping a text leaves what its calls show and nothing else (`Text.strip_transcript`).
Rendering leaves the same text with line feeds and control sequences in between, and
these can be taken out again by a scanner that knows nothing of calls.  The scanner goes
over the bytes from left to right.  It drops line feeds, and wherever a sequence is
introduced it drops everything up to the first byte that ends a sequence.

That gives back the shown text of any calls whose texts hold no escape character and no
line feed (`Command.removeEscapes_emitted`).  The characters that an interpreter shows
are characters of the text it reads, so a text without these two characters is stripped
to what remains of its rendering (`Interpreter.removeEscapes_render`).
-/

set_option autoImplicit false

namespace TerminalMarkup

/-! ## What calls show -/

namespace Command

/-- The characters that a call shows. -/
def shown : Command → Text
  | text characters => characters
  | _ => []

/-- The characters that calls show, in order. -/
def shownBy (commands : List Command) : Text := commands.flatMap shown

@[simp] theorem shownBy_nil : shownBy [] = [] := rfl

@[simp] theorem shownBy_cons (command : Command) (rest : List Command) :
    shownBy (command :: rest) = command.shown ++ shownBy rest :=
  List.flatMap_cons

/-- Paints are not shown, so related calls show the same. -/
theorem shownBy_related {related : Paint → Paint → Prop} {first second : List Command}
    (calls : List.Forall₂ (Related related) first second) : shownBy first = shownBy second := by
  induction calls with
  | nil => rfl
  | cons call _ ih =>
      rw [shownBy_cons, shownBy_cons, ih]
      cases call <;> rfl

end Command

theorem PlainText.toText_playAll (commands : List Command) (plain : PlainText) :
    (Command.playAll commands plain).toText = plain.toText ++ Command.shownBy commands := by
  induction commands generalizing plain with
  | nil => simp
  | cons command rest ih =>
      have applied : (command.applyTo plain).toText = plain.toText ++ command.shown := by
        cases command with
        | text characters => exact toText_text characters plain
        | _ => exact (List.append_nil _).symm
      rw [Command.playAll_cons, ih, applied, Command.shownBy_cons, List.append_assoc]

/-- A text without delimiters is handed back, and nothing is logged. -/
theorem Text.strip_of_plain {text : Text} (plain : delimiter ∉ text) :
    text.strip = ⟨.ok ⟨text, true⟩, []⟩ := by
  rw [strip, if_pos (isPlain_iff.mpr plain)]

/-- **Stripping leaves what calls show.**  The calls are those of an interpreter with
default settings, and stripping fails with its faults. -/
theorem Text.strip_transcript (text : Text) :
    let transcript := (default : Interpreter).transcript text
    text.strip.result.map Stripped.text =
      transcript.result.map fun _ => Command.shownBy transcript.commands := by
  intro transcript
  obtain ⟨result, final⟩ := (default : Interpreter).interpret_transcript text PlainText.empty
  have shown := PlainText.toText_playAll transcript.commands PlainText.empty
  rw [PlainText.toText_empty, List.nil_append] at shown
  by_cases marked : delimiter ∈ text
  · simp only [Text.strip, if_neg (Text.not_isPlain marked), result, final]
    cases transcript.result with
    | ok summary => exact congrArg Except.ok shown
    | error fault => rfl
  · simp only [Text.strip_of_plain marked, transcript, Interpreter.transcript_of_plain _ marked]
    split
    next empty => exact congrArg Except.ok empty
    next nonempty => exact congrArg Except.ok (List.append_nil text).symm

theorem Text.strip_of_ok {text : Text} {summary : Summary}
    (went : ((default : Interpreter).transcript text).result = .ok summary) :
    ∃ stripped, text.strip.result = .ok stripped ∧
      stripped.text = Command.shownBy ((default : Interpreter).transcript text).commands := by
  have strips := text.strip_transcript
  simp only [went] at strips
  cases stripping : text.strip.result with
  | ok stripped =>
      rw [stripping] at strips
      exact ⟨stripped, rfl, Except.ok.inj strips⟩
  | error fault =>
      rw [stripping] at strips
      cases strips

theorem Text.strip_of_error {text : Text} {fault : Fault}
    (went : ((default : Interpreter).transcript text).result = .error fault) :
    text.strip.result = .error fault := by
  have strips := text.strip_transcript
  simp only [went] at strips
  cases stripping : text.strip.result with
  | ok stripped =>
      rw [stripping] at strips
      cases strips
  | error other =>
      rw [stripping] at strips
      exact congrArg Except.error (Except.error.inj strips)

theorem Text.eq_shownBy_of_strip {text : Text} {stripped : Stripped}
    (strips : text.strip.result = .ok stripped) :
    stripped.text = Command.shownBy ((default : Interpreter).transcript text).commands := by
  cases went : ((default : Interpreter).transcript text).result with
  | ok summary =>
      obtain ⟨other, alsoStrips, shown⟩ := Text.strip_of_ok went
      cases strips.symm.trans alsoStrips
      exact shown
  | error fault => cases strips.symm.trans (Text.strip_of_error went)

/-! ## Where shown characters come from -/

theorem FaultPolicy.ok_mem_of_mem_transcript {faults : FaultPolicy} {readings : List Reading}
    {command : Command} (found : command ∈ (faults.transcript readings).commands) :
    .ok command ∈ readings := by
  induction readings with
  | nil => cases found
  | cons reading rest ih =>
      cases reading with
      | ok first =>
          rcases List.mem_cons.mp found with rfl | later
          · exact List.mem_cons_self
          · exact List.mem_cons_of_mem _ (ih later)
      | error fault =>
          cases faults with
          | abort => cases found
          | skip => exact List.mem_cons_of_mem _ (ih found)

namespace Interpreter

/-- Content is shown as it is or not at all. -/
theorem eq_of_read_eq_text {interpreter : Interpreter} {content characters : Text}
    (reads : interpreter.read content = .ok (.text characters)) : characters = content := by
  obtain ⟨token, classified⟩ := Token.exists_ofContent_eq_ok content
  rw [read, classified] at reads
  cases token with
  | literal text =>
      cases reads
      exact Token.eq_of_ofContent_eq_literal classified
  | setAttribute change => cases change <;> cases reads
  | screen action => cases action <;> cases reads
  | selectColor channel index =>
      simp only [Except.bind, command] at reads
      split at reads <;> cases reads
  | moveCursor | placeCursor => cases reads

/-- What a call of an interpreter shows is a content of the text, as it stands there. -/
theorem mem_contents_of_text_mem {interpreter : Interpreter} {text characters : Text}
    (made : .text characters ∈ (interpreter.transcript text).commands) :
    characters ∈ text.contents := by
  have reading := FaultPolicy.ok_mem_of_mem_transcript made
  by_cases marked : delimiter ∈ text
  · rw [readings, if_pos marked] at reading
    obtain ⟨content, member, reads⟩ := List.mem_map.mp reading
    rw [eq_of_read_eq_text reads]
    exact member
  · rw [readings, if_neg marked] at reading
    split at reading
    next => cases reading
    next nonempty =>
      cases List.mem_singleton.mp reading
      rw [Text.contents_of_delimiter_notMem nonempty marked]
      exact List.mem_singleton_self text

/-- Characters that an interpreter shows are those of contents. -/
theorem exists_content_of_mem_shownBy {interpreter : Interpreter} {text : Text} {character : Char}
    (found : character ∈ Command.shownBy (interpreter.transcript text).commands) :
    ∃ content ∈ text.contents, character ∈ content := by
  obtain ⟨command, made, shown⟩ := List.mem_flatMap.mp found
  cases command with
  | text characters => exact ⟨characters, mem_contents_of_text_mem made, shown⟩
  | _ => cases shown

/-- An interpreter shows no characters but those of the text. -/
theorem mem_of_mem_shownBy {interpreter : Interpreter} {text : Text} {character : Char}
    (found : character ∈ Command.shownBy (interpreter.transcript text).commands) :
    character ∈ text := by
  obtain ⟨content, member, within⟩ := exists_content_of_mem_shownBy found
  exact Text.mem_of_mem_contents member within

/-- It shows no delimiters. -/
theorem delimiter_notMem_shownBy (interpreter : Interpreter) (text : Text) :
    delimiter ∉ Command.shownBy (interpreter.transcript text).commands := by
  intro found
  obtain ⟨content, member, within⟩ := exists_content_of_mem_shownBy found
  exact (Text.fits_of_mem_contents member).2 within

end Interpreter

/-! ## Taking escapes out -/

/-- What follows the control sequence at the front of bytes, if there is a whole one.  It
is introduced by the escape character and an opening bracket, and it goes on up to the
first byte after these that ends a sequence. -/
def afterSequence? : List UInt8 → Option (List UInt8)
  | 0x1b :: 0x5b :: rest =>
      match rest.dropWhile (!endsSequence ·.toNat) with
      | [] => none
      | _ :: later => some later
  | _ => none

theorem afterSequence?_shorter {bytes later : List UInt8}
    (found : afterSequence? bytes = some later) : later.length < bytes.length := by
  unfold afterSequence? at found
  split at found
  next rest =>
    have bound := List.length_dropWhile_le (!endsSequence ·.toNat) rest
    split at found
    next => cases found
    next final others stops =>
      cases found
      rw [stops] at bound
      simp only [List.length_cons] at bound ⊢
      omega
  next => cases found

/-- Bytes without line feeds and control sequences, which are taken out from left to
right. -/
def removeEscapes : List UInt8 → List UInt8
  | [] => []
  | first :: rest =>
      if first = 0x0a then removeEscapes rest
      else
        match _ : afterSequence? (first :: rest) with
        | some later => removeEscapes later
        | none => first :: removeEscapes rest
termination_by bytes => bytes.length
decreasing_by
  · exact Nat.lt_succ_self _
  · exact afterSequence?_shorter ‹_›
  · exact Nat.lt_succ_self _

@[simp] theorem removeEscapes_nil : removeEscapes [] = [] := by
  rw [removeEscapes]

theorem removeEscapes_lineFeed (rest : List UInt8) :
    removeEscapes (0x0a :: rest) = removeEscapes rest := by
  rw [removeEscapes, if_pos rfl]

theorem removeEscapes_of_afterSequence? {bytes later : List UInt8}
    (found : afterSequence? bytes = some later) : removeEscapes bytes = removeEscapes later := by
  cases bytes with
  | nil => cases found
  | cons first rest =>
      have introduced : first ≠ 0x0a := by
        rintro rfl
        cases found
      rw [removeEscapes, if_neg introduced]
      split
      next other same =>
        rw [found] at same
        rw [Option.some.inj same]
      next none =>
        rw [found] at none
        cases none

/-- Bytes that introduce nothing stay. -/
theorem removeEscapes_plain_append {front : List UInt8}
    (plain : ∀ byte ∈ front, byte ≠ 0x1b ∧ byte ≠ 0x0a) (rest : List UInt8) :
    removeEscapes (front ++ rest) = front ++ removeEscapes rest := by
  induction front with
  | nil => rfl
  | cons first others ih =>
      obtain ⟨noEscape, noLineFeed⟩ := plain first List.mem_cons_self
      have none : afterSequence? (first :: (others ++ rest)) = none := by
        rw [afterSequence?]
        intro later same
        exact noEscape (List.cons.inj same).1
      rw [List.cons_append, removeEscapes, if_neg noLineFeed]
      split
      next later found =>
        rw [none] at found
        cases found
      next =>
        rw [ih fun byte found => plain byte (List.mem_cons_of_mem first found), List.cons_append]

/-! ## The bytes of emissions -/

/-- The bytes of a text, in order. -/
def Text.bytes (text : Text) : List UInt8 := (Text.utf8 text).data.toList

@[simp] theorem Text.bytes_append (front back : Text) :
    Text.bytes (front ++ back) = Text.bytes front ++ Text.bytes back := by
  simp only [Text.bytes, Text.toList_utf8, List.flatMap_append]

theorem Text.mem_bytes_iff {text : Text} {byte : UInt8} :
    byte ∈ Text.bytes text ↔ ∃ character ∈ text, byte ∈ String.utf8EncodeChar character := by
  rw [Text.bytes, Text.toList_utf8, List.mem_flatMap]

theorem Text.bytes_of_ascii {character : Char} (ascii : character.toNat < 128) :
    Text.bytes [character] = [character.toUInt8] := by
  rw [Text.bytes, Text.utf8_singleton_of_ascii ascii, List.data_toByteArray]

theorem Text.toUInt8_mem_utf8EncodeChar {character : Char} (ascii : character.toNat < 128) :
    character.toUInt8 ∈ String.utf8EncodeChar character := by
  have found : character.toUInt8 ∈ Text.bytes [character] := by
    rw [Text.bytes_of_ascii ascii]
    exact List.mem_singleton_self _
  simpa using Text.mem_bytes_iff.mp found

/-- A byte of a character ends a sequence exactly if the character does. -/
theorem endsSequence_of_mem_utf8EncodeChar {character : Char} {byte : UInt8}
    (found : byte ∈ String.utf8EncodeChar character) :
    endsSequence byte.toNat = endsSequence character.toNat := by
  rcases Text.toNat_of_mem_utf8EncodeChar found with same | ⟨high, above⟩
  · rw [same]
  · have notByte : ¬ byte.toNat ≤ 0x7e := by omega
    have notCharacter : ¬ character.toNat ≤ 0x7e := by omega
    simp only [endsSequence, notByte, notCharacter, decide_false, Bool.and_false]

namespace Emission

/-- A sequence is passed over up to its end. -/
theorem afterSequence?_bytes {numbers : List Nat} {final : Char}
    (ends : endsSequence final.toNat = true) (rest : List UInt8) :
    afterSequence? (Text.bytes (sequence numbers final).characters ++ rest) = some rest := by
  have ascii : final.toNat < 128 := by
    simp only [endsSequence, Bool.and_eq_true, decide_eq_true_eq] at ends
    omega
  have passes : ∀ byte ∈ Text.bytes (parameters numbers), (!endsSequence byte.toNat) = true := by
    intro byte found
    obtain ⟨character, within, encoded⟩ := Text.mem_bytes_iff.mp found
    rw [endsSequence_of_mem_utf8EncodeChar encoded, endsSequence_of_mem_parameters within,
      Bool.not_false]
  have stops : ∀ byte ∈ (final.toUInt8 :: rest).head?, (!endsSequence byte.toNat) = false := by
    rintro byte ⟨⟩
    rw [endsSequence_of_mem_utf8EncodeChar (Text.toUInt8_mem_utf8EncodeChar ascii), ends,
      Bool.not_true]
  have introduced : Text.bytes ['\x1b', '['] = [0x1b, 0x5b] := by decide
  have form : Text.bytes (sequence numbers final).characters ++ rest =
      0x1b :: 0x5b :: (Text.bytes (parameters numbers) ++ final.toUInt8 :: rest) := by
    have parts : (sequence numbers final).characters =
        ['\x1b', '['] ++ (parameters numbers ++ [final]) := rfl
    rw [parts, Text.bytes_append, Text.bytes_append, introduced, Text.bytes_of_ascii ascii]
    simp
  simp only [form, afterSequence?, (span_append passes stops).2]

end Emission

/-! ## Rendering and stripping -/

/-- What remains of an emission is what its call shows. -/
theorem Command.removeEscapes_emission {command : Command}
    (plain : ∀ character ∈ command.shown, character ≠ '\x1b' ∧ character ≠ '\n')
    (rest : List UInt8) :
    removeEscapes (Text.bytes command.emission.characters ++ rest) =
      Text.bytes command.shown ++ removeEscapes rest := by
  rcases command.emission_cases with ⟨characters, rfl⟩ | rfl | ⟨numbers, final, emission, -, ends⟩
  · apply removeEscapes_plain_append
    intro byte found
    obtain ⟨character, within, encoded⟩ := Text.mem_bytes_iff.mp found
    obtain ⟨noEscape, noLineFeed⟩ := plain character within
    constructor
    · rintro rfl
      exact noEscape ((Text.toNat_eq_iff_of_mem encoded (by decide)).mp rfl)
    · rintro rfl
      exact noLineFeed ((Text.toNat_eq_iff_of_mem encoded (by decide)).mp rfl)
  · exact removeEscapes_lineFeed rest
  · have silent : command.shown = [] := by
      cases command with
      | text => cases emission
      | _ => rfl
    rw [emission, silent]
    exact removeEscapes_of_afterSequence? (Emission.afterSequence?_bytes ends rest)

/-- **The shown text is what remains.**  Taking escapes out of what calls emit leaves what
they show, if that has no escape characters or line feeds of its own. -/
theorem Command.removeEscapes_emitted {commands : List Command}
    (plain : ∀ character ∈ shownBy commands, character ≠ '\x1b' ∧ character ≠ '\n') :
    removeEscapes (Text.bytes (emitted commands)) = Text.bytes (shownBy commands) := by
  induction commands with
  | nil => exact removeEscapes_nil
  | cons command rest ih =>
      simp only [shownBy_cons, List.forall_mem_append] at plain
      obtain ⟨first, later⟩ := plain
      rw [emitted_cons, Text.bytes_append, removeEscapes_emission first, ih later, shownBy_cons,
        Text.bytes_append]

namespace Interpreter

/-- **Stripping agrees with rendering.**  Let a text have no escape characters and no line
feeds, and let faults end an interpretation.  Then the text can be rendered, under either
coding and with any palettes, exactly if it can be stripped, and what remains of its
rendering without escapes is what stripping answers. -/
theorem removeEscapes_render (coding : ColorCoding) (palettes : Palettes) {text : Text}
    (noEscape : '\x1b' ∉ text) (noLineFeed : '\n' ∉ text) :
    let interpreter : Interpreter := ⟨⟨coding, .abort⟩, palettes⟩
    ((∃ rendered, (interpreter.render text).result = .ok rendered) ↔
        ∃ stripped, text.strip.result = .ok stripped) ∧
      ∀ rendered stripped, (interpreter.render text).result = .ok rendered →
        text.strip.result = .ok stripped →
          removeEscapes (Text.bytes rendered) = Text.bytes stripped.text := by
  intro interpreter
  have paints : PaintsRelated (fun _ _ => True) interpreter default := fun _ _ => trivial
  have policy : interpreter.settings.faults = (default : Interpreter).settings.faults := rfl
  obtain ⟨result, calls⟩ := transcript_related policy paints text
  have plain : ∀ character ∈ Command.shownBy (interpreter.transcript text).commands,
      character ≠ '\x1b' ∧ character ≠ '\n' := by
    intro character found
    have member := mem_of_mem_shownBy found
    exact ⟨fun same => noEscape (same ▸ member), fun same => noLineFeed (same ▸ member)⟩
  cases went : (interpreter.transcript text).result with
  | ok summary =>
      obtain ⟨stripped, strips, shown⟩ := Text.strip_of_ok (result.symm.trans went)
      rw [interpreter.render_of_ok went, strips]
      refine ⟨⟨fun _ => ⟨stripped, rfl⟩, fun _ => ⟨_, rfl⟩⟩, ?_⟩
      rintro rendered other ⟨⟩ ⟨⟩
      rw [shown, ← Command.shownBy_related calls]
      exact Command.removeEscapes_emitted plain
  | error fault =>
      rw [interpreter.render_of_error went, Text.strip_of_error (result.symm.trans went)]
      exact ⟨⟨nofun, nofun⟩, nofun⟩

/-- A color, a text and a line feed, of which the text remains. -/
theorem removeEscapes_render_of_red_line :
    let text : Text := ['%', 'f', '9', '%', 'r', 'e', 'd', '%', 'l', 'f', '%']
    let interpreter : Interpreter := ⟨⟨.intensityBit, .abort⟩, .standard⟩
    ∃ rendered, (interpreter.render text).result = .ok rendered ∧
      removeEscapes (Text.bytes rendered) = Text.bytes ['r', 'e', 'd'] := by
  intro text interpreter
  have noEscape : '\x1b' ∉ text := by decide
  have noLineFeed : '\n' ∉ text := by decide
  have strips : text.strip.result = .ok ⟨['r', 'e', 'd'], false⟩ := by decide +kernel
  obtain ⟨agrees, remains⟩ := removeEscapes_render .intensityBit .standard noEscape noLineFeed
  obtain ⟨rendered, renders⟩ := agrees.mpr ⟨_, strips⟩
  exact ⟨rendered, renders, remains rendered _ renders strips⟩

end Interpreter

end TerminalMarkup
