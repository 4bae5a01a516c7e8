import TerminalMarkup.Proofs.KeywordGrammar
import TerminalMarkup.Proofs.Readings

/-!
# One call or none

A token is performed by one call or by none, and a piece of a text in the same way.  Which of
the two it is can be told from the token.  Every token has one call, with the arguments of
the token (`Interpreter.Calls`), except that a color number above fifteen has none, because
the palette in the slot for its channel and coding has no such entry.  A piece is performed
by the call of its token, unless it is a run of delimiters or has no characters.

What is answered tells what was done (`Interpreter.perform_all_or_nothing`).  A fault or the
answer that nothing was to be done is only given when no call was made, and the sink is then
what it was.
-/

set_option autoImplicit false

namespace TerminalMarkup

universe u

namespace Interpreter

/-- The call of a token.  A background has the paint of its number in the palette for
backgrounds, and a foreground in the palette for the coding. -/
inductive Calls (interpreter : Interpreter) : Token → Command → Prop where
  | setAttribute (change : Attribute) : Calls interpreter (.setAttribute change) change.command
  | background {index : UInt8} (known : index.toNat < 16) :
      Calls interpreter (.selectColor .background index)
        (.paint (interpreter.palettes.background.entry ⟨index.toNat, known⟩))
  | direct {index : UInt8} (coded : interpreter.settings.coding = .direct)
      (known : index.toNat < 16) :
      Calls interpreter (.selectColor .foreground index)
        (.paint (interpreter.palettes.direct.entry ⟨index.toNat, known⟩))
  | intensityBit {index : UInt8} (coded : interpreter.settings.coding = .intensityBit)
      (known : index.toNat < 16) :
      Calls interpreter (.selectColor .foreground index)
        (.paint (interpreter.palettes.intensityBit.entry ⟨index.toNat, known⟩))
  | screen (action : ScreenAction) : Calls interpreter (.screen action) action.command
  | moveCursor (direction : Direction) (amount : UInt16) :
      Calls interpreter (.moveCursor direction amount) (.moveCursor direction amount)
  | placeCursor (row column : UInt16) :
      Calls interpreter (.placeCursor row column) (.placeCursor row column)
  | literal (text : Text) : Calls interpreter (.literal text) (.text text)

theorem calls_of_selectColor (interpreter : Interpreter) (channel : Channel) {index : UInt8}
    (known : index.toNat < 16) :
    interpreter.Calls (.selectColor channel index)
      (.paint ((interpreter.activePalette channel).entry ⟨index.toNat, known⟩)) := by
  cases channel with
  | background => exact .background known
  | foreground =>
      rw [activePalette]
      cases coded : interpreter.settings.coding with
      | direct => exact .direct coded known
      | intensityBit => exact .intensityBit coded known

/-- Every token has a call, or it is a color number that no palette has. -/
theorem command_cases (interpreter : Interpreter) (token : Token) :
    (∃ command, interpreter.Calls token command ∧ interpreter.command token = .ok command) ∨
      ∃ channel index, token = .selectColor channel index ∧ 16 ≤ index.toNat ∧
        interpreter.command token = .error (.unknownColor channel index) := by
  cases token with
  | setAttribute change => exact .inl ⟨_, .setAttribute change, rfl⟩
  | selectColor channel index =>
      rcases Nat.lt_or_ge index.toNat 16 with known | beyond
      · exact .inl ⟨_, interpreter.calls_of_selectColor channel known,
          interpreter.command_selectColor_of_lt channel known⟩
      · exact .inr ⟨channel, index, rfl, beyond,
          interpreter.command_selectColor_of_le channel beyond⟩
  | screen action => exact .inl ⟨_, .screen action, rfl⟩
  | moveCursor direction amount => exact .inl ⟨_, .moveCursor direction amount, rfl⟩
  | placeCursor row column => exact .inl ⟨_, .placeCursor row column, rfl⟩
  | literal text => exact .inl ⟨_, .literal text, rfl⟩

theorem Calls.known {interpreter : Interpreter} {channel : Channel} {index : UInt8}
    {command : Command} (calls : interpreter.Calls (.selectColor channel index) command) :
    index.toNat < 16 := by
  cases calls <;> assumption

section Performing

variable {σ : Type u} [Sink σ]

theorem perform_of_ok {interpreter : Interpreter} {token : Token} {command : Command}
    (calls : interpreter.command token = .ok command) (sink : σ) :
    interpreter.perform token sink = ⟨.ok (), command.applyTo sink, []⟩ := by
  rw [perform_eq, calls]

theorem perform_of_error {interpreter : Interpreter} {token : Token} {fault : Fault}
    (fails : interpreter.command token = .error fault) (sink : σ) :
    interpreter.perform token sink = ⟨.error fault, sink, []⟩ := by
  rw [perform_eq, fails]

theorem performPiece_of_token (interpreter : Interpreter) {text : Text} {token : Token}
    (nonempty : text ≠ []) (classified : Token.ofContent text = .ok token) (sink : σ) :
    let performed := interpreter.perform token sink
    interpreter.performPiece (.content text) sink =
      ⟨performed.result.map fun _ => true, performed.sink,
        .happened (.content token.kind text) :: performed.log⟩ := by
  simp only [performPiece, if_neg (mt List.isEmpty_iff.mp nonempty), classified]

end Performing

/-! ## The calls made -/

/-- The calls made in performing a token, as a fresh recording has them. -/
def madeFor (interpreter : Interpreter) (token : Token) : List Command :=
  (interpreter.perform token Recording.empty).sink.toList

/-- The calls made in performing a piece, as a fresh recording has them. -/
def madeForPiece (interpreter : Interpreter) (piece : Piece) : List Command :=
  (interpreter.performPiece piece Recording.empty).sink.toList

theorem madeFor_of_ok {interpreter : Interpreter} {token : Token} {command : Command}
    (calls : interpreter.command token = .ok command) :
    interpreter.madeFor token = [command] := by
  rw [madeFor, perform_of_ok calls, Recording.toList_applyTo, Recording.toList_empty,
    List.nil_append]

theorem madeFor_of_error {interpreter : Interpreter} {token : Token} {fault : Fault}
    (fails : interpreter.command token = .error fault) : interpreter.madeFor token = [] := by
  rw [madeFor, perform_of_error fails, Recording.toList_empty]

theorem madeForPiece_of_token {interpreter : Interpreter} {text : Text} {token : Token}
    (nonempty : text ≠ []) (classified : Token.ofContent text = .ok token) :
    interpreter.madeForPiece (.content text) = interpreter.madeFor token := by
  rw [madeForPiece, performPiece_of_token _ nonempty classified, madeFor]

theorem madeForPiece_of_none {interpreter : Interpreter} {piece : Piece}
    (none : piece.content? = none) : interpreter.madeForPiece piece = [] := by
  rw [madeForPiece, performPiece_of_content?_eq_none _ _ none, Recording.toList_empty]

/-- A piece is silent, or it is performed as its token is. -/
theorem piece_cases (piece : Piece) :
    (piece.content? = none ∧ ((∃ run, piece = .delimiters run) ∨ piece = .content [])) ∨
      ∃ text token, piece = .content text ∧ text ≠ [] ∧ Token.ofContent text = .ok token := by
  cases content : piece.content? with
  | none => exact .inl ⟨rfl, Piece.content?_eq_none_iff.mp content⟩
  | some text =>
      obtain ⟨rfl, nonempty⟩ := Piece.content?_eq_some_iff.mp content
      obtain ⟨token, classified⟩ := Token.exists_ofContent_eq_ok text
      exact .inr ⟨text, token, rfl, nonempty, classified⟩

variable {σ : Type u} [Sink σ]

/-- The sink receives the calls made and no others. -/
theorem sink_perform (interpreter : Interpreter) (token : Token) (sink : σ) :
    (interpreter.perform token sink).sink = Command.playAll (interpreter.madeFor token) sink := by
  rcases interpreter.command_cases token with ⟨command, -, calls⟩ | ⟨_, _, -, -, fails⟩
  · rw [perform_of_ok calls, madeFor_of_ok calls, Command.playAll_cons, Command.playAll_nil]
  · rw [perform_of_error fails, madeFor_of_error fails, Command.playAll_nil]

theorem sink_performPiece (interpreter : Interpreter) (piece : Piece) (sink : σ) :
    (interpreter.performPiece piece sink).sink =
      Command.playAll (interpreter.madeForPiece piece) sink := by
  rcases piece_cases piece with ⟨none, -⟩ | ⟨text, token, rfl, nonempty, classified⟩
  · rw [performPiece_of_content?_eq_none _ _ none, madeForPiece_of_none none, Command.playAll_nil]
  · rw [performPiece_of_token _ nonempty classified, madeForPiece_of_token nonempty classified]
    exact interpreter.sink_perform token sink

/-! ## What is answered -/

theorem perform_cases (interpreter : Interpreter) (token : Token) (sink : σ) :
    let performed := interpreter.perform token sink
    let made := interpreter.madeFor token
    (∃ command, interpreter.Calls token command ∧ performed.result = .ok () ∧ made = [command]) ∨
      ∃ channel index, token = .selectColor channel index ∧ 16 ≤ index.toNat ∧
        performed.result = .error (.unknownColor channel index) ∧ made = [] ∧
        performed.sink = sink := by
  intro performed made
  rcases interpreter.command_cases token with
    ⟨command, own, calls⟩ | ⟨channel, index, same, beyond, fails⟩
  · have whole : performed = ⟨.ok (), command.applyTo sink, []⟩ := perform_of_ok calls sink
    exact .inl ⟨command, own, congrArg Outcome.result whole, madeFor_of_ok calls⟩
  · have nothing : performed = ⟨.error (.unknownColor channel index), sink, []⟩ :=
      perform_of_error fails sink
    exact .inr ⟨channel, index, same, beyond, congrArg Outcome.result nothing,
      madeFor_of_error fails, congrArg Outcome.sink nothing⟩

theorem performPiece_cases (interpreter : Interpreter) (piece : Piece) (sink : σ) :
    let performed := interpreter.performPiece piece sink
    let made := interpreter.madeForPiece piece
    (performed.result = .ok true ↔ ∃ command, made = [command]) ∧
      (performed.result = .ok false ↔ (∃ run, piece = .delimiters run) ∨ piece = .content []) ∧
      (performed.result ≠ .ok true → made = [] ∧ performed.sink = sink) := by
  intro performed made
  rcases piece_cases piece with ⟨none, silent⟩ | ⟨text, token, rfl, nonempty, classified⟩
  · have nothing : performed = ⟨.ok false, sink, []⟩ :=
      performPiece_of_content?_eq_none interpreter sink none
    have noCall : made = [] := madeForPiece_of_none none
    rw [nothing, noCall]
    simp [silent]
  · have asToken : made = interpreter.madeFor token := madeForPiece_of_token nonempty classified
    have whole := interpreter.performPiece_of_token nonempty classified sink
    have answered : performed.result = (interpreter.perform token sink).result.map fun _ => true :=
      congrArg Outcome.result whole
    have final : performed.sink = (interpreter.perform token sink).sink :=
      congrArg Outcome.sink whole
    rw [answered, final, asToken]
    rcases interpreter.perform_cases token sink with
      ⟨command, -, result, one⟩ | ⟨channel, index, -, -, result, none, unchanged⟩
    · rw [result, one]
      simp [Except.map, nonempty]
    · rw [result, none, unchanged]
      simp [Except.map, nonempty]

/-- **Performing is all or nothing.**  A sink receives the calls that are made for a token and
no others.  This is the one call of the token, and then nothing is amiss; or the token is a
color number above fifteen, which has no call, and the fault names its channel and number.  A
piece of any characters makes the calls of its token.  The answer is `true` exactly if one
call is made and `false` exactly for delimiters and for no characters.  Without a call the
sink is what it was. -/
theorem perform_all_or_nothing (interpreter : Interpreter) (token : Token) (piece : Piece)
    (sink : σ) :
    (let performed := interpreter.perform token sink
      let made := interpreter.madeFor token
      performed.sink = Command.playAll made sink ∧
        ((∃ command, interpreter.Calls token command ∧ performed.result = .ok () ∧
            made = [command]) ∨
          ∃ channel index, token = .selectColor channel index ∧ 16 ≤ index.toNat ∧
            performed.result = .error (.unknownColor channel index) ∧ made = [] ∧
            performed.sink = sink) ∧
        ((∃ fault, performed.result = .error fault) ↔
          ∃ channel index, token = .selectColor channel index ∧ 16 ≤ index.toNat)) ∧
      (let performed := interpreter.performPiece piece sink
        let made := interpreter.madeForPiece piece
        performed.sink = Command.playAll made sink ∧
          (performed.result = .ok true ↔ ∃ command, made = [command]) ∧
          (performed.result = .ok false ↔ (∃ run, piece = .delimiters run) ∨ piece = .content []) ∧
          (performed.result ≠ .ok true → made = [] ∧ performed.sink = sink) ∧
          ∀ text, piece = .content text → text ≠ [] →
            ∃ own, Token.ofContent text = .ok own ∧ made = interpreter.madeFor own) := by
  refine ⟨⟨interpreter.sink_perform token sink, interpreter.perform_cases token sink, ?_⟩,
    interpreter.sink_performPiece piece sink, ?_⟩
  · constructor
    · rintro ⟨fault, fails⟩
      rcases interpreter.perform_cases token sink with
        ⟨command, -, result, -⟩ | ⟨channel, index, same, beyond, -⟩
      · cases result.symm.trans fails
      · exact ⟨channel, index, same, beyond⟩
    · rintro ⟨channel, index, rfl, beyond⟩
      rcases interpreter.perform_cases (.selectColor channel index) sink with
        ⟨command, own, -⟩ | ⟨_, _, -, -, result, -⟩
      · exact absurd own.known (Nat.not_lt.mpr beyond)
      · exact ⟨_, result⟩
  · obtain ⟨called, silent, unchanged⟩ := interpreter.performPiece_cases piece sink
    refine ⟨called, silent, unchanged, ?_⟩
    rintro text rfl nonempty
    obtain ⟨own, classified⟩ := Token.exists_ofContent_eq_ok text
    exact ⟨own, classified, madeForPiece_of_token nonempty classified⟩

end Interpreter

end TerminalMarkup
