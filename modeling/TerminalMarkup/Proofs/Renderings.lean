import TerminalMarkup.Interpreter.Rendering
import TerminalMarkup.Proofs.Emissions
import TerminalMarkup.Proofs.SinkMaps

/-!
# Renderings

What a text renders to are the characters that the calls of its transcript emit
(`Interpreter.render_of_ok`), so it is always a text, and rendering fails only where
interpreting does (`Interpreter.render_of_error`).

Rendering onto a buffer cannot see what the buffer holds: putting bytes in front of an
output passes calls, and so a rendering onto a buffer is one onto nothing, behind what
the buffer holds (`Interpreter.renderOnto_eq_behind`).  A buffer that serves one request
after another therefore grows by the rendering of each text that can be rendered, and
by nothing else (`Interpreter.bufferAfter_eq`, `Interpreter.serve_transactional`).
-/

set_option autoImplicit false

namespace TerminalMarkup

universe u

/-! ## In front of a buffer -/

/-- An output with bytes put in front of what its buffer holds. -/
def EscapeOutput.behind (front : ByteArray) (output : EscapeOutput) : EscapeOutput :=
  ⟨front ++ output.bytes, output.written⟩

/-- A rendering with bytes put in front of what its buffer holds. -/
def Rendered.behind {α : Type u} (front : ByteArray) (rendered : Rendered α) : Rendered α :=
  { rendered with buffer := front ++ rendered.buffer }

theorem EscapeOutput.passesCalls_behind (front : ByteArray) : PassesCalls (behind front) := by
  intro command output
  rw [Command.applyTo_output, Command.applyTo_output]
  simp only [behind, appendText, append, ByteArray.append_assoc]

namespace Interpreter

/-- **Rendering cannot see the buffer.**  Result and log are those of rendering onto an
empty buffer, and so are the bytes appended. -/
theorem renderOnto_eq_behind (interpreter : Interpreter) (text : Text) (buffer : ByteArray) :
    interpreter.renderOnto text buffer =
      (interpreter.renderOnto text ByteArray.empty).behind buffer := by
  have onto : EscapeOutput.onto buffer = EscapeOutput.behind buffer (.onto ByteArray.empty) := by
    simp only [EscapeOutput.behind, EscapeOutput.onto, ByteArray.append_empty]
  simp only [renderOnto, onto, interpret_mapSink (EscapeOutput.passesCalls_behind buffer)]
  generalize interpreter.interpret text (EscapeOutput.onto ByteArray.empty) = outcome
  obtain ⟨result, sink, log⟩ := outcome
  cases result with
  | ok summary => rfl
  | error fault =>
      simp only [Outcome.mapSink, EscapeOutput.behind, Rendered.behind, ByteArray.size_empty,
        ByteArray.extract_append_eq_left, ByteArray.extract_same, ByteArray.append_empty]

/-! ## What is rendered -/

theorem renderOnto_of_ok (interpreter : Interpreter) {text : Text} {summary : Summary}
    (went : (interpreter.transcript text).result = .ok summary) (buffer : ByteArray) :
    (interpreter.renderOnto text buffer).result = .ok summary ∧
      (interpreter.renderOnto text buffer).buffer =
        buffer ++ Text.utf8 (Command.emitted (interpreter.transcript text).commands) := by
  obtain ⟨result, final⟩ := interpreter.interpret_transcript text (EscapeOutput.onto buffer)
  rw [Command.playAll_output] at final
  simp only [renderOnto, result, went, final, true_and]
  rfl

theorem renderOnto_of_error (interpreter : Interpreter) {text : Text} {fault : Fault}
    (went : (interpreter.transcript text).result = .error fault) (buffer : ByteArray) :
    (interpreter.renderOnto text buffer).result = .error (.markup fault) ∧
      (interpreter.renderOnto text buffer).buffer = buffer := by
  obtain ⟨result, final⟩ := interpreter.interpret_transcript text (EscapeOutput.onto buffer)
  rw [Command.playAll_output] at final
  simp only [renderOnto, result, went, final, true_and]
  exact ByteArray.extract_append_eq_left rfl

/-- A text whose interpretation goes through renders to what its calls emit. -/
theorem render_of_ok (interpreter : Interpreter) {text : Text} {summary : Summary}
    (went : (interpreter.transcript text).result = .ok summary) :
    (interpreter.render text).result =
      .ok (Command.emitted (interpreter.transcript text).commands) := by
  obtain ⟨result, buffer⟩ := interpreter.renderOnto_of_ok went ByteArray.empty
  rw [ByteArray.empty_append] at buffer
  simp only [render, result, buffer, Text.ofUtf8?_utf8]
  rfl

theorem render_of_error (interpreter : Interpreter) {text : Text} {fault : Fault}
    (went : (interpreter.transcript text).result = .error fault) :
    (interpreter.render text).result = .error (.markup fault) := by
  obtain ⟨result, -⟩ := interpreter.renderOnto_of_error went ByteArray.empty
  simp only [render, result]
  rfl

/-- A rendering is what the calls of the transcript emit. -/
theorem eq_emitted_of_render {interpreter : Interpreter} {text rendered : Text}
    (renders : (interpreter.render text).result = .ok rendered) :
    rendered = Command.emitted (interpreter.transcript text).commands := by
  cases went : (interpreter.transcript text).result with
  | ok summary => exact Except.ok.inj (renders.symm.trans (interpreter.render_of_ok went))
  | error fault => cases renders.symm.trans (interpreter.render_of_error went)

/-- What a text renders to depends on its transcript alone. -/
theorem rendering_of_transcript {first second : Interpreter} {text : Text}
    (same : first.transcript text = second.transcript text) :
    (first.render text).result = (second.render text).result ∧
      ∀ buffer, (first.renderOnto text buffer).result = (second.renderOnto text buffer).result ∧
        (first.renderOnto text buffer).buffer = (second.renderOnto text buffer).buffer := by
  cases went : (first.transcript text).result with
  | ok summary =>
      have also : (second.transcript text).result = .ok summary := same ▸ went
      refine ⟨?_, fun buffer => ?_⟩
      · rw [first.render_of_ok went, second.render_of_ok also, same]
      · obtain ⟨result, final⟩ := first.renderOnto_of_ok went buffer
        obtain ⟨otherResult, otherFinal⟩ := second.renderOnto_of_ok also buffer
        exact ⟨result.trans otherResult.symm, by rw [final, otherFinal, same]⟩
  | error fault =>
      have also : (second.transcript text).result = .error fault := same ▸ went
      refine ⟨?_, fun buffer => ?_⟩
      · rw [first.render_of_error went, second.render_of_error also]
      · obtain ⟨result, final⟩ := first.renderOnto_of_error went buffer
        obtain ⟨otherResult, otherFinal⟩ := second.renderOnto_of_error also buffer
        exact ⟨result.trans otherResult.symm, final.trans otherFinal.symm⟩

/-- What a text renders to, and nothing if it cannot be rendered. -/
def renderedText (interpreter : Interpreter) (text : Text) : Text :=
  match (interpreter.render text).result with
  | .ok rendered => rendered
  | .error _ => []

end Interpreter

/-! ## Requests -/

/-- A text to be rendered onto a buffer. -/
inductive Request where
  /-- As an item of a stream, lent or handed over, of which success or failure is all that
  is reported. -/
  | encode (item : Text)
  | renderOnto (text : Text)
  deriving DecidableEq, Repr

namespace Request

/-- The text of a request. -/
def text : Request → Text
  | encode item => item
  | renderOnto text => text

/-- Renders the text of a request; the summary is reported if the request is not for an
item of a stream. -/
def serve (interpreter : Interpreter) (request : Request) (buffer : ByteArray) :
    Rendered (Option Summary) :=
  match request with
  | encode item =>
      let rendered := interpreter.encode item buffer
      ⟨rendered.result.map fun _ => none, rendered.buffer, rendered.log⟩
  | renderOnto text =>
      let rendered := interpreter.renderOnto text buffer
      ⟨rendered.result.map some, rendered.buffer, rendered.log⟩

theorem serve_eq_behind (interpreter : Interpreter) (request : Request) (buffer : ByteArray) :
    request.serve interpreter buffer =
      (request.serve interpreter ByteArray.empty).behind buffer := by
  cases request with
  | encode item =>
      simp only [serve, Interpreter.encode, interpreter.renderOnto_eq_behind item buffer]
      rfl
  | renderOnto text =>
      simp only [serve, interpreter.renderOnto_eq_behind text buffer]
      rfl

/-- What a request reports where rendering answers a summary. -/
def reported : Request → Summary → Option Summary
  | encode _, _ => none
  | renderOnto _, summary => some summary

/-- Either kind of request is served by rendering its text onto the buffer. -/
theorem serve_eq_renderOnto (interpreter : Interpreter) (request : Request) (buffer : ByteArray) :
    let rendered := interpreter.renderOnto request.text buffer
    (request.serve interpreter buffer).result = rendered.result.map request.reported ∧
      (request.serve interpreter buffer).buffer = rendered.buffer := by
  cases request with
  | encode item =>
      refine ⟨?_, rfl⟩
      simp only [serve, Interpreter.encode, text]
      cases (interpreter.renderOnto item buffer).result <;> rfl
  | renderOnto text => exact ⟨rfl, rfl⟩

/-- Serving a request is rendering its text behind what the buffer holds, or leaving the
buffer as it is. -/
theorem serve_eq_render (interpreter : Interpreter) (request : Request) (buffer : ByteArray) :
    let served := request.serve interpreter buffer
    match (interpreter.render request.text).result with
    | .ok rendered => served.buffer = buffer ++ Text.utf8 rendered ∧
        ∃ report, served.result = .ok report
    | .error error => served.buffer = buffer ∧ served.result = .error error ∧
        ∃ fault, error = .markup fault := by
  intro served
  obtain ⟨result, final⟩ := request.serve_eq_renderOnto interpreter buffer
  cases went : (interpreter.transcript request.text).result with
  | ok summary =>
      obtain ⟨answered, appended⟩ := interpreter.renderOnto_of_ok went buffer
      rw [interpreter.render_of_ok went]
      rw [answered] at result
      exact ⟨final.trans appended, request.reported summary, result⟩
  | error fault =>
      obtain ⟨answered, unchanged⟩ := interpreter.renderOnto_of_error went buffer
      rw [interpreter.render_of_error went]
      rw [answered] at result
      exact ⟨final.trans unchanged, result, fault, rfl⟩

end Request

/-! ## Sessions -/

namespace Interpreter

/-- What a buffer holds after requests were served on it, one after another. -/
def bufferAfter (interpreter : Interpreter) (requests : List Request) (buffer : ByteArray) :
    ByteArray :=
  requests.foldl (fun current request => (request.serve interpreter current).buffer) buffer

theorem serve_buffer (interpreter : Interpreter) (request : Request) (buffer : ByteArray) :
    (request.serve interpreter buffer).buffer =
      buffer ++ Text.utf8 (interpreter.renderedText request.text) := by
  have served := request.serve_eq_render interpreter buffer
  rw [renderedText]
  cases rendered : (interpreter.render request.text).result with
  | ok text =>
      simp only [rendered] at served
      exact served.1
  | error error =>
      simp only [rendered] at served
      simpa using served.1

/-- A session appends what the texts of its requests render to, in order. -/
theorem bufferAfter_eq (interpreter : Interpreter) (requests : List Request)
    (buffer : ByteArray) :
    interpreter.bufferAfter requests buffer =
      buffer ++ Text.utf8 (requests.flatMap fun request => interpreter.renderedText request.text) := by
  induction requests generalizing buffer with
  | nil => simp [bufferAfter]
  | cons request rest ih =>
      have first := interpreter.serve_buffer request buffer
      calc interpreter.bufferAfter (request :: rest) buffer
          = interpreter.bufferAfter rest (request.serve interpreter buffer).buffer := rfl
        _ = _ := by rw [ih, first, List.flatMap_cons, Text.utf8_append, ByteArray.append_assoc]

/-- **Sessions are transactional.**  Whatever a buffer held at first and whatever
requests it served since, the next request appends exactly what its text renders to on
its own, and succeeds; or that text cannot be rendered, and then the request fails with
the same error, which is a fault in the markup, and leaves the buffer as it is.  Answer,
log and appended bytes are the same on every other buffer. -/
theorem serve_transactional (interpreter : Interpreter) (initial : ByteArray)
    (earlier : List Request) (request : Request) :
    let before := interpreter.bufferAfter earlier initial
    let after := interpreter.bufferAfter (earlier ++ [request]) initial
    let served := request.serve interpreter before
    (match (interpreter.render request.text).result with
      | .ok rendered => after = before ++ Text.utf8 rendered ∧
          ∃ report, served.result = .ok report
      | .error error => after = before ∧ served.result = .error error ∧
          ∃ fault, error = .markup fault) ∧
      before = initial ++
        Text.utf8 (earlier.flatMap fun previous => interpreter.renderedText previous.text) ∧
      ∀ other : ByteArray, request.serve interpreter other =
        (request.serve interpreter ByteArray.empty).behind other := by
  intro before after served
  have step : after = served.buffer := by
    simp only [after, served, before, bufferAfter, List.foldl_append, List.foldl_cons,
      List.foldl_nil]
  refine ⟨?_, interpreter.bufferAfter_eq earlier initial, request.serve_eq_behind interpreter⟩
  rw [step]
  exact request.serve_eq_render interpreter before

end Interpreter

end TerminalMarkup
