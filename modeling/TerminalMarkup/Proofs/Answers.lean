import TerminalMarkup.Proofs.FaultPolicies
import TerminalMarkup.Proofs.Fixpoints

/-!
# What answers are read off

Rendering and stripping interpret a text on a sink and answer with what the sink holds in
the end.  What a sink holds is settled by the calls it received, and so are the answers.

An output holds what its buffer held before and then the bytes of each call, which are those
of the call's emission and depend on nothing else.  The encoders of control sequences count
their bytes by themselves, and the count of the output is the sum of these counts; it is
right all the same (`Command.playAll_onto`).  The bytes are those of a text, so rendering can
hand them back as one and fails for no other reason than a fault
(`Interpreter.render_of_interpret`).

Plain text holds the texts that were shown, one after another.  That is what remains of a
recording of the same text if everything else is left out, and a recording made with other
paints has the same texts (`Text.strip_of_recording`).
-/

set_option autoImplicit false

namespace TerminalMarkup

/-! ## What an output holds -/

namespace Command

/-- The bytes that a call appends to an output. -/
def encoding (command : Command) : List UInt8 := Text.bytes command.emission.characters

theorem bytes_emitted (commands : List Command) :
    Text.bytes (emitted commands) = commands.flatMap encoding := by
  induction commands with
  | nil => rfl
  | cons command rest ih =>
      rw [emitted_cons, Text.bytes_append, ih, List.flatMap_cons, encoding]

/-- **An output holds what was there and then the bytes of its calls**, one call after
another.  It counts as many bytes as were appended, and it counts none exactly if its buffer
is what it was. -/
theorem playAll_onto (commands : List Command) (initial : ByteArray) :
    let output := playAll commands (EscapeOutput.onto initial)
    output.bytes.data.toList = initial.data.toList ++ commands.flatMap encoding ∧
      initial.size + output.written = output.bytes.size ∧
      (output.isEmpty = true ↔ output.bytes = initial) := by
  intro output
  have appended : output = (EscapeOutput.onto initial).appendText (emitted commands) :=
    playAll_output commands (.onto initial)
  have bytes : output.bytes = initial ++ Text.utf8 (emitted commands) := by
    rw [appended]
    rfl
  have written : output.written = (Text.utf8 (emitted commands)).size := by
    rw [appended]
    exact Nat.zero_add _
  have counted : initial.size + output.written = output.bytes.size := by
    rw [bytes, ByteArray.size_append, written]
  refine ⟨?_, counted, ?_⟩
  · rw [bytes, ByteArray.data_append, Array.toList_append, ← bytes_emitted]
    rfl
  · rw [EscapeOutput.isEmpty, beq_iff_eq]
    constructor
    · intro none
      have empty : Text.utf8 (emitted commands) = ByteArray.empty :=
        ByteArray.size_eq_zero_iff.mp (written.symm.trans none)
      rw [bytes, empty, ByteArray.append_empty]
    · intro same
      rw [same] at counted
      omega

end Command

/-! ## What rendering answers -/

namespace Interpreter

/-- What calls leave in an output of its own are the bytes of a text. -/
theorem bytes_interpret_empty (interpreter : Interpreter) (text : Text) :
    (interpreter.interpret text EscapeOutput.empty).sink.bytes =
      Text.utf8 (Command.emitted (interpreter.transcript text).commands) := by
  rw [(interpreter.interpret_transcript text EscapeOutput.empty).2, Command.playAll_output]
  exact ByteArray.empty_append

/-- **Rendering answers with a text unless there is a fault.**  The bytes that the calls of
an interpretation leave in an output are well formed, whether or not it goes through.  If it
does, and under the policy `skip` it always does, they are the bytes of the text that is
answered.  If it ends with a fault, then that is the error, and there are no other errors.
A text without delimiters is rendered as it is. -/
theorem render_of_interpret (interpreter : Interpreter) (text : Text) :
    let outcome := interpreter.interpret text EscapeOutput.empty
    let rendering := (interpreter.render text).result
    outcome.sink.bytes.IsValidUTF8 ∧
      (match outcome.result with
        | .ok _ => ∃ rendered, rendering = .ok rendered ∧ Text.utf8 rendered = outcome.sink.bytes
        | .error fault => rendering = .error (.markup fault)) ∧
      (∀ error, rendering = .error error → ∃ fault, error = .markup fault) ∧
      (interpreter.settings.faults = .skip → ∃ rendered, rendering = .ok rendered) ∧
      (delimiter ∉ text → rendering = .ok text) := by
  intro outcome rendering
  have bytes : outcome.sink.bytes =
      Text.utf8 (Command.emitted (interpreter.transcript text).commands) :=
    interpreter.bytes_interpret_empty text
  have result : outcome.result = (interpreter.transcript text).result :=
    (interpreter.interpret_transcript text EscapeOutput.empty).1
  refine ⟨⟨_, bytes⟩, ?_, ?_, ?_, interpreter.render_of_plain⟩
  · rw [result]
    cases went : (interpreter.transcript text).result with
    | ok summary => exact ⟨_, interpreter.render_of_ok went, bytes.symm⟩
    | error fault => exact interpreter.render_of_error went
  · intro error failed
    cases went : (interpreter.transcript text).result with
    | ok summary => cases failed.symm.trans (interpreter.render_of_ok went)
    | error fault =>
        have same := failed.symm.trans (interpreter.render_of_error went)
        exact ⟨fault, Except.error.inj same⟩
  · intro policy
    have went := congrArg Transcript.result (interpreter.transcript_of_skip policy text)
    exact ⟨_, interpreter.render_of_ok went⟩

end Interpreter

/-! ## What stripping answers -/

/-- A text is handed back as it is exactly if it has no delimiters. -/
theorem Text.unchanged_of_strip {text : Text} {stripped : Stripped}
    (strips : text.strip.result = .ok stripped) :
    stripped.unchanged = decide (delimiter ∉ text) := by
  by_cases marked : delimiter ∈ text
  · simp only [Text.strip, if_neg (Text.not_isPlain marked)] at strips
    generalize ((default : Interpreter).interpret text PlainText.empty).result = result at strips
    cases result with
    | ok summary =>
        cases strips
        simp [marked]
    | error fault => cases strips
  · rw [Text.strip_of_plain marked] at strips
    cases strips
    simp [marked]

namespace Interpreter

/-- A text that goes through with default settings goes through with any others, and shows
the same. -/
theorem shownBy_transcript_of_ok {text : Text} {summary : Summary}
    (went : ((default : Interpreter).transcript text).result = .ok summary)
    (interpreter : Interpreter) :
    (∃ answer, (interpreter.transcript text).result = .ok answer) ∧
      Command.shownBy (interpreter.transcript text).commands =
        Command.shownBy ((default : Interpreter).transcript text).commands := by
  have paints : PaintsRelated (fun _ _ => True) default interpreter := fun _ _ => trivial
  have clean : faultsOf ((default : Interpreter).readings text) = [] :=
    faultsOf_readings_of_abort rfl went
  have samePolicy : interpreter.settings.faults.transcript ((default : Interpreter).readings text) =
      (default : Interpreter).transcript text := by
    rw [transcript, FaultPolicy.transcript_of_clean _ clean]
    exact (FaultPolicy.transcript_of_clean _ clean).symm
  obtain ⟨result, calls⟩ :=
    interpreter.settings.faults.transcript_related (readings_related paints text)
  rw [samePolicy] at result calls
  exact ⟨⟨summary, result.symm.trans went⟩, (Command.shownBy_related calls).symm⟩

end Interpreter

/-- **Stripping keeps the texts of a recording and drops the rest.**  It goes through where
an interpreter with default settings does, and fails with its fault otherwise.  What it
answers are the texts shown by the calls recorded, one after another.  Every interpreter
goes through a text that can be stripped, whatever its coding, policy and palettes, and its
recording has the same texts.  The text given is handed back as it is exactly if it has no
delimiters. -/
theorem Text.strip_of_recording (text : Text) :
    let recorded := (default : Interpreter).interpret text Recording.empty
    (match recorded.result with
      | .ok _ => text.strip.result =
          .ok ⟨Command.shownBy recorded.sink.toList, decide (delimiter ∉ text)⟩
      | .error fault => text.strip.result = .error fault) ∧
      (∀ stripped, text.strip.result = .ok stripped →
        ∀ interpreter : Interpreter,
          let other := interpreter.interpret text Recording.empty
          (∃ summary, other.result = .ok summary) ∧
            Command.shownBy other.sink.toList = stripped.text) ∧
      (delimiter ∉ text → text.strip.result = .ok ⟨text, true⟩) := by
  intro recorded
  have result : recorded.result = ((default : Interpreter).transcript text).result :=
    ((default : Interpreter).interpret_transcript text Recording.empty).1
  have calls : recorded.sink.toList = ((default : Interpreter).transcript text).commands :=
    (default : Interpreter).toList_interpret text
  refine ⟨?_, ?_, ?_⟩
  · rw [result, calls]
    cases went : ((default : Interpreter).transcript text).result with
    | ok summary =>
        obtain ⟨stripped, strips, shown⟩ := Text.strip_of_ok went
        rw [strips, ← shown, ← Text.unchanged_of_strip strips]
    | error fault => exact Text.strip_of_error went
  · intro stripped strips interpreter other
    cases went : ((default : Interpreter).transcript text).result with
    | ok summary =>
        obtain ⟨⟨answer, goesThrough⟩, same⟩ := interpreter.shownBy_transcript_of_ok went
        have interprets := (interpreter.interpret_transcript text Recording.empty).1
        refine ⟨⟨answer, interprets.trans goesThrough⟩, ?_⟩
        rw [interpreter.toList_interpret, same, Text.eq_shownBy_of_strip strips]
    | error fault => cases strips.symm.trans (Text.strip_of_error went)
  · intro plain
    exact congrArg Logged.result (Text.strip_of_plain plain)

end TerminalMarkup
