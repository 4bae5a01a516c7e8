import TerminalMarkup.Interpreter
import TerminalMarkup.Proofs.Decomposition
import TerminalMarkup.Sink.Recording
import Mathlib.Data.List.Forall2

/-!
# What an interpreter reads in a text

An interpreter never looks at its sink.  What it does to one is settled by the
text alone: each content is read as a call or as a fault, and from these readings
in order the policy on faults determines which calls are made and what is
answered.  Both together are the *transcript* of the text.

Interpreting a text on any sink whatsoever plays the calls of the transcript to
that sink and answers what the transcript answers
(`Interpreter.interpret_transcript`).  A sink that only records then holds exactly
those calls (`Interpreter.toList_interpret`).

Two interpreters can differ in their coding, their palettes and their policy on faults.
Coding and palettes matter in one place only: they decide which paint a color number
stands for.  Whether it stands for one at all, and what fault it is if not, depends on
the number and the channel alone (`Interpreter.command_selectColor_of_lt`,
`Interpreter.command_selectColor_of_le`).  So interpreters with the same policy agree on
everything but paints.  They answer every text alike, with the same faults, and make calls
that correspond one to one and differ at most in the paint they set.  How the paints are
related is left open here: whatever relation holds between the palettes in use, entry by
entry, holds between the paints of corresponding calls (`Interpreter.transcript_related`).
-/

set_option autoImplicit false

namespace TerminalMarkup

universe u

/-! ## The call of a token -/

/-- The call that changes an attribute. -/
def Attribute.command : Attribute → Command
  | bold => .bold
  | normal => .normal
  | faint => .faint
  | italic => .italic
  | underline => .underline
  | blink => .blink
  | negative => .negative
  | strikethrough => .strikethrough
  | reset => .reset

/-- The call of an action. -/
def ScreenAction.command : ScreenAction → Command
  | eraseDisplay => .eraseDisplay
  | eraseDisplayAbove => .eraseDisplayAbove
  | eraseDisplayBelow => .eraseDisplayBelow
  | eraseLine => .eraseLine
  | eraseLineAfter => .eraseLineAfter
  | eraseLineBefore => .eraseLineBefore
  | lineFeed => .lineFeed

/-- What content comes to: a call, or the fault that keeps it from making one. -/
abbrev Reading := Except Fault Command

namespace Interpreter

/-- The call of a token.  A color number becomes the paint that the palette in use
for its channel has for it, and a fault if that palette has none. -/
def command (interpreter : Interpreter) : Token → Reading
  | .setAttribute change => .ok change.command
  | .selectColor channel index =>
      match (interpreter.activePalette channel).get? index with
      | some paint => .ok (.paint paint)
      | none => .error (.unknownColor channel index)
  | .screen action => .ok action.command
  | .moveCursor direction amount => .ok (.moveCursor direction amount)
  | .placeCursor row column => .ok (.placeCursor row column)
  | .literal text => .ok (.text text)

/-- A color number up to fifteen is read as its entry in the palette in use. -/
theorem command_selectColor_of_lt (interpreter : Interpreter) (channel : Channel) {index : UInt8}
    (known : index.toNat < 16) :
    interpreter.command (.selectColor channel index) =
      .ok (.paint ((interpreter.activePalette channel).entry ⟨index.toNat, known⟩)) := by
  simp only [command, Palette.get?_of_lt _ known]

/-- A color number above fifteen is a fault whatever palette is in use. -/
theorem command_selectColor_of_le (interpreter : Interpreter) (channel : Channel) {index : UInt8}
    (beyond : 16 ≤ index.toNat) :
    interpreter.command (.selectColor channel index) = .error (.unknownColor channel index) := by
  simp only [command, Palette.get?_of_le _ beyond]

/-- What content comes to: the call of its token, if it has a token. -/
def read (interpreter : Interpreter) (content : Text) : Reading :=
  (Token.ofContent content).bind interpreter.command

/-- The readings of a text.  A text without delimiters is read as itself, whatever
it spells. -/
def readings (interpreter : Interpreter) (text : Text) : List Reading :=
  if delimiter ∈ text then text.contents.map interpreter.read
  else if text = [] then [] else [.ok (.text text)]

end Interpreter

/-! ## Transcripts -/

/-- What is answered and which calls are made, whatever receives them. -/
structure Transcript where
  result : Except Fault Summary
  commands : List Command

/-- The transcript of readings under a policy on faults. -/
def FaultPolicy.transcript (faults : FaultPolicy) : List Reading → Transcript
  | [] => ⟨.ok .empty, []⟩
  | .ok command :: rest =>
      let later := faults.transcript rest
      ⟨later.result.map .addCall, command :: later.commands⟩
  | .error fault :: rest =>
      match faults with
      | .abort => ⟨.error fault, []⟩
      | .skip =>
          let later := FaultPolicy.skip.transcript rest
          ⟨later.result.map (.addSkipped fault), later.commands⟩

/-- The transcript of a text. -/
def Interpreter.transcript (interpreter : Interpreter) (text : Text) : Transcript :=
  interpreter.settings.faults.transcript (interpreter.readings text)

/-- A text without delimiters makes the one call that shows it, or none if it is empty. -/
theorem Interpreter.transcript_of_plain (interpreter : Interpreter) {text : Text}
    (plain : delimiter ∉ text) :
    interpreter.transcript text =
      if text = [] then ⟨.ok .empty, []⟩ else ⟨.ok (.addCall .empty), [.text text]⟩ := by
  rw [transcript, readings, if_neg plain]
  split <;> rfl

namespace Interpreter

variable {σ : Type u} [Sink σ]

/-! ## One token and one piece -/

theorem applyTo_attribute_command (change : Attribute) (sink : σ) :
    change.command.applyTo sink = change.applyTo sink := by
  cases change <;> rfl

theorem applyTo_screen_command (action : ScreenAction) (sink : σ) :
    action.command.applyTo sink = action.applyTo sink := by
  cases action <;> rfl

/-- Performing a token makes its call and nothing else, or does nothing. -/
theorem perform_eq (interpreter : Interpreter) (token : Token) (sink : σ) :
    interpreter.perform token sink =
      match interpreter.command token with
      | .ok command => ⟨.ok (), command.applyTo sink, []⟩
      | .error fault => ⟨.error fault, sink, []⟩ := by
  cases token with
  | setAttribute change => simp only [perform, command, applyTo_attribute_command]
  | selectColor channel index =>
      rcases Nat.lt_or_ge index.toNat 16 with known | beyond
      · rw [interpreter.command_selectColor_of_lt channel known, perform, selectPaint,
          Palettes.select, Palette.get?_of_lt _ known]
        rfl
      · rw [interpreter.command_selectColor_of_le channel beyond, perform, selectPaint,
          Palettes.select, Palette.get?_of_le _ beyond]
  | screen action => simp only [perform, command, applyTo_screen_command]
  | moveCursor direction amount => rfl
  | placeCursor row column => rfl
  | literal text => rfl

theorem performPiece_of_content?_eq_none (interpreter : Interpreter) {piece : Piece} (sink : σ)
    (none : piece.content? = none) : interpreter.performPiece piece sink = ⟨.ok false, sink, []⟩ := by
  obtain ⟨run, rfl⟩ | rfl := Piece.content?_eq_none_iff.mp none
  · rfl
  · rfl

/-- Performing a piece makes the call that its content is read as and nothing else,
or does nothing. -/
theorem performPiece_of_content?_eq_some (interpreter : Interpreter) {piece : Piece} {text : Text}
    (sink : σ) (some : piece.content? = some text) :
    ((interpreter.performPiece piece sink).result, (interpreter.performPiece piece sink).sink) =
      match interpreter.read text with
      | .ok command => (.ok true, command.applyTo sink)
      | .error fault => (.error fault, sink) := by
  obtain ⟨rfl, nonempty⟩ := Piece.content?_eq_some_iff.mp some
  simp only [performPiece, if_neg (mt List.isEmpty_iff.mp nonempty), read]
  cases Token.ofContent text with
  | error fault => rfl
  | ok token =>
      simp only [perform_eq, Except.bind]
      cases interpreter.command token <;> rfl

/-! ## All pieces and whole texts -/

/-- The readings of pieces in order. -/
def readPieces (interpreter : Interpreter) (pieces : List PlacedPiece) : List Reading :=
  (pieces.filterMap fun placed => placed.piece.content?).map interpreter.read

/-- **Performing follows the transcript.**  The pieces are performed as the
transcript of their readings says, on every sink. -/
theorem performAll_transcript (interpreter : Interpreter) (pieces : List PlacedPiece) (sink : σ) :
    let transcript := interpreter.settings.faults.transcript (interpreter.readPieces pieces)
    (interpreter.performAll pieces sink).result = transcript.result ∧
      (interpreter.performAll pieces sink).sink = Command.playAll transcript.commands sink := by
  induction pieces generalizing sink with
  | nil => exact ⟨rfl, rfl⟩
  | cons placed rest ih =>
      cases content : placed.piece.content? with
      | none =>
          have silent : interpreter.readPieces (placed :: rest) = interpreter.readPieces rest := by
            simp [readPieces, content]
          have performed := interpreter.performPiece_of_content?_eq_none sink content
          obtain ⟨result, final⟩ := ih sink
          rw [silent]
          simp only [performAll, performed, Outcome.following, final, result, and_true]
          cases (interpreter.settings.faults.transcript (interpreter.readPieces rest)).result <;> rfl
      | some text =>
          have reads : interpreter.readPieces (placed :: rest) =
              interpreter.read text :: interpreter.readPieces rest := by
            simp [readPieces, content]
          have performed := interpreter.performPiece_of_content?_eq_some sink content
          rw [reads]
          cases reading : interpreter.read text with
          | ok command =>
              rw [reading] at performed
              obtain ⟨succeeds, calls⟩ := Prod.mk.inj performed
              obtain ⟨result, final⟩ := ih (command.applyTo sink)
              simp only [performAll, succeeds, calls, Outcome.following, final, result,
                FaultPolicy.transcript, Command.playAll_cons, and_true]
          | error fault =>
              rw [reading] at performed
              obtain ⟨fails, unchanged⟩ := Prod.mk.inj performed
              cases policy : interpreter.settings.faults with
              | abort =>
                  simp only [performAll, fails, unchanged, policy, FaultPolicy.transcript,
                    Command.playAll_nil, and_true]
              | skip =>
                  obtain ⟨result, final⟩ := ih sink
                  rw [policy] at result final
                  simp only [performAll, fails, unchanged, policy, Outcome.following, final, result,
                    FaultPolicy.transcript, and_true]

theorem performMarkup_eq_performAll (interpreter : Interpreter) (text : Text) (sink : σ) :
    (interpreter.performMarkup text sink).result =
        (interpreter.performAll text.pieces sink).result ∧
      (interpreter.performMarkup text sink).sink =
        (interpreter.performAll text.pieces sink).sink := by
  simp only [performMarkup]
  split <;> exact ⟨rfl, rfl⟩

/-- **Interpreting follows the transcript.**  A text is answered as its transcript
says, and the sink, whatever it is, receives the calls of the transcript. -/
theorem interpret_transcript (interpreter : Interpreter) (text : Text) (sink : σ) :
    (interpreter.interpret text sink).result = (interpreter.transcript text).result ∧
      (interpreter.interpret text sink).sink =
        Command.playAll (interpreter.transcript text).commands sink := by
  by_cases marked : delimiter ∈ text
  · have readings : interpreter.readings text = interpreter.readPieces text.pieces := by
      rw [Interpreter.readings, if_pos marked, readPieces, Text.filterMap_content?_pieces]
    obtain ⟨result, final⟩ := interpreter.performMarkup_eq_performAll text sink
    rw [transcript, readings, interpret, if_neg (Text.not_isPlain marked)]
    exact ⟨result.trans (interpreter.performAll_transcript text.pieces sink).1,
      final.trans (interpreter.performAll_transcript text.pieces sink).2⟩
  · have plain : Text.isPlain text = true := Text.isPlain_iff.mpr marked
    rw [interpreter.transcript_of_plain marked, interpret, if_pos plain, showPlain]
    by_cases empty : text = []
    · rw [if_pos empty, if_pos (List.isEmpty_iff.mpr empty)]
      exact ⟨rfl, rfl⟩
    · rw [if_neg empty, if_neg (mt List.isEmpty_iff.mp empty)]
      exact ⟨rfl, rfl⟩

/-- What a fresh recording holds afterwards are the calls of the transcript. -/
theorem toList_interpret (interpreter : Interpreter) (text : Text) :
    (interpreter.interpret text Recording.empty).sink.toList =
      (interpreter.transcript text).commands := by
  rw [(interpreter.interpret_transcript text Recording.empty).2, Recording.toList_playAll,
    Recording.toList_empty, List.nil_append]

end Interpreter

/-! ## Where interpreters agree -/

variable {related : Paint → Paint → Prop}

/-- The same call, or two calls that set related paints. -/
inductive Command.Related (related : Paint → Paint → Prop) : Command → Command → Prop where
  | same (command : Command) : Related related command command
  | paint {first second : Paint} (paints : related first second) :
      Related related (.paint first) (.paint second)

/-- Content that is read as related calls, or as the same fault. -/
inductive Reading.Related (related : Paint → Paint → Prop) : Reading → Reading → Prop where
  | ok {first second : Command} (calls : Command.Related related first second) :
      Related related (.ok first) (.ok second)
  | error (fault : Fault) : Related related (.error fault) (.error fault)

/-- Related readings have the same answer and related calls. -/
theorem FaultPolicy.transcript_related (faults : FaultPolicy) {first second : List Reading}
    (readings : List.Forall₂ (Reading.Related related) first second) :
    (faults.transcript first).result = (faults.transcript second).result ∧
      List.Forall₂ (Command.Related related) (faults.transcript first).commands
        (faults.transcript second).commands := by
  induction readings with
  | nil => exact ⟨rfl, .nil⟩
  | cons reading _ ih =>
      obtain ⟨result, commands⟩ := ih
      cases reading with
      | ok calls => exact ⟨congrArg (Except.map Summary.addCall) result, .cons calls commands⟩
      | error fault =>
          cases faults with
          | abort => exact ⟨rfl, .nil⟩
          | skip => exact ⟨congrArg (Except.map (Summary.addSkipped fault)) result, commands⟩

namespace Interpreter

/-- Interpreters whose palettes in use are related, entry by entry. -/
def PaintsRelated (related : Paint → Paint → Prop) (first second : Interpreter) : Prop :=
  ∀ channel index,
    related ((first.activePalette channel).entry index) ((second.activePalette channel).entry index)

variable {first second : Interpreter}

theorem command_related (paints : PaintsRelated related first second) (token : Token) :
    Reading.Related related (first.command token) (second.command token) := by
  cases token with
  | selectColor channel index =>
      rcases Nat.lt_or_ge index.toNat 16 with known | beyond
      · rw [first.command_selectColor_of_lt channel known,
          second.command_selectColor_of_lt channel known]
        exact .ok (.paint (paints channel _))
      · rw [first.command_selectColor_of_le channel beyond,
          second.command_selectColor_of_le channel beyond]
        exact .error _
  | setAttribute | screen | moveCursor | placeCursor | literal => exact .ok (.same _)

theorem read_related (paints : PaintsRelated related first second) (content : Text) :
    Reading.Related related (first.read content) (second.read content) := by
  simp only [read]
  cases Token.ofContent content with
  | ok token => exact command_related paints token
  | error fault => exact .error fault

theorem readings_related (paints : PaintsRelated related first second) (text : Text) :
    List.Forall₂ (Reading.Related related) (first.readings text) (second.readings text) := by
  simp only [readings]
  split
  · rw [List.forall₂_map_left_iff, List.forall₂_map_right_iff, List.forall₂_same]
    intro content _
    exact read_related paints content
  · split
    · exact .nil
    · exact .cons (.ok (.same _)) .nil

/-- **Interpreters agree on everything but paints.**  With the same policy on faults they
answer a text alike, and their calls correspond. -/
theorem transcript_related (policy : first.settings.faults = second.settings.faults)
    (paints : PaintsRelated related first second) (text : Text) :
    (first.transcript text).result = (second.transcript text).result ∧
      List.Forall₂ (Command.Related related) (first.transcript text).commands
        (second.transcript text).commands := by
  rw [transcript, transcript, policy]
  exact FaultPolicy.transcript_related _ (readings_related paints text)

end Interpreter

end TerminalMarkup
