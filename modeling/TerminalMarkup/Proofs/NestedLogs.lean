import TerminalMarkup.Interpreter.Stripping
import TerminalMarkup.Proofs.InterpretationLog
import TerminalMarkup.Proofs.Renderings

/-!
# Logs within logs

Whatever is done with a text, it is interpreted, and the log of the interpretation is in the
log of the whole.  It is the same log on every sink, because an interpreter never looks at its
sink (`Interpreter.interpret_eq_mapSink_playTo`).

Rendering a text onto a buffer logs the interpretation and then, if there is a rendering, one
event with its counts.  The bytes are counted by the output as it appends them, and they are
as many as the buffer has grown by; the calls are those that the interpretation made
(`Interpreter.reports_renderOnto`).  Encoding puts that log within a span, rendering into a
text adds nothing to it, and stripping logs the interpretation only.

A log is nested if the spans open after it are those open before it and no span is left in
between unless it is the innermost (`Log.IsNested`).  Events alone make a nested log, and so do
nested logs in a row or within a span, which is all that is ever put together here.
-/

set_option autoImplicit false

namespace TerminalMarkup

universe u v

/-! ## Nested spans -/

/-- The spans open after an entry, the innermost first.  No span can be left but the
innermost. -/
def LogEntry.spansAfter (entry : LogEntry) (spans : List Span) : Option (List Span) :=
  match entry, spans with
  | entered span, spans => some (span :: spans)
  | happened _, spans => some spans
  | left _, [] => none
  | left span, innermost :: outer => if span = innermost then some outer else none

namespace Log

/-- The spans open after the entries of a log. -/
def spansAfter : Log → List Span → Option (List Span)
  | [], spans => some spans
  | entry :: rest, spans => (entry.spansAfter spans).bind (spansAfter rest)

/-- A log that leaves every span it enters, the innermost first, and no other, whichever
spans are open around it. -/
def IsNested (log : Log) : Prop := ∀ spans, log.spansAfter spans = some spans

theorem spansAfter_append (first second : Log) (spans : List Span) :
    spansAfter (first ++ second) spans = (spansAfter first spans).bind (spansAfter second) := by
  induction first generalizing spans with
  | nil => rfl
  | cons entry rest ih =>
      rw [List.cons_append, spansAfter, spansAfter, Option.bind_assoc]
      exact congrArg (Option.bind (entry.spansAfter spans)) (funext ih)

theorem isNested_nil : IsNested [] := fun _ => rfl

theorem isNested_map_happened (events : List Event) : IsNested (events.map .happened) := by
  intro spans
  induction events with
  | nil => rfl
  | cons event rest ih => exact ih

theorem IsNested.append {first second : Log} (firstNested : IsNested first)
    (secondNested : IsNested second) : IsNested (first ++ second) := by
  intro spans
  rw [spansAfter_append, firstNested spans]
  exact secondNested spans

/-- A nested log within a span leaves that span the innermost, so it can be left. -/
theorem IsNested.within {log : Log} (nested : IsNested log) (span : Span) :
    IsNested (log.within span) := by
  intro spans
  calc spansAfter (log.within span) spans
      = spansAfter (log ++ [.left span]) (span :: spans) := rfl
    _ = spansAfter [.left span] (span :: spans) := by
        rw [spansAfter_append, nested (span :: spans), Option.bind_some]
    _ = some spans := by
        simp only [spansAfter, LogEntry.spansAfter, ↓reduceIte, Option.bind_some]

/-- Spans that overlap are not nested. -/
example : ¬ IsNested [.entered (.encoding 1), .entered (.encoding 2), .left (.encoding 1),
    .left (.encoding 2)] := by
  intro nested
  cases nested []

end Log

namespace Interpreter

/-! ## The log of an interpretation on any sink -/

section AnySink

variable {σ : Type u} {τ : Type v} [Sink σ] [Sink τ]

/-- An interpretation on a sink is one on a fresh recording, played to the sink. -/
theorem interpret_eq_mapSink_playTo (interpreter : Interpreter) (text : Text) (sink : σ) :
    interpreter.interpret text sink =
      (interpreter.interpret text Recording.empty).mapSink (·.playTo sink) := by
  have empty : Recording.empty.playTo sink = sink := by
    rw [Recording.playTo_eq_playAll, Recording.toList_empty, Command.playAll_nil]
  have mapped := interpret_mapSink (passesCalls_playTo sink) interpreter text Recording.empty
  rwa [empty] at mapped

/-- What is logged does not depend on the sink. -/
theorem log_interpret_eq (interpreter : Interpreter) (text : Text) (first : σ) (second : τ) :
    (interpreter.interpret text first).log = (interpreter.interpret text second).log := by
  rw [interpreter.interpret_eq_mapSink_playTo text first,
    interpreter.interpret_eq_mapSink_playTo text second]
  rfl

/-- An interpretation has one span, with nothing but events in it. -/
theorem isNested_interpret (interpreter : Interpreter) (text : Text) (sink : σ) :
    (interpreter.interpret text sink).log.IsNested := by
  apply Log.IsNested.within
  split
  next =>
    have shown : (showPlain text sink).log = [Event.plainText].map .happened := by
      rw [showPlain]
      split <;> rfl
    rw [shown]
    exact Log.isNested_map_happened _
  next =>
    rw [performMarkup_log]
    exact Log.isNested_map_happened _

end AnySink

/-! ## The log of a rendering -/

/-- What a rendering onto a buffer has to show for an interpretation.  If that went through, so
does the rendering, and after the log of the interpretation comes an event with the bytes
appended to the buffer and the calls made; otherwise there is no event and nothing is
appended. -/
structure Reports {σ : Type u} (before : ByteArray) (made : List Command)
    (interpreted : Outcome σ Summary) (rendered : Rendered Summary) : Prop where
  success : ∀ summary, interpreted.result = .ok summary →
    rendered.result = .ok summary ∧ ∃ appended event,
      rendered.buffer = before ++ appended ∧
        rendered.log = interpreted.log ++ [.happened event] ∧
        event.level = .debug ∧
        event.fields = [("bytes", .number appended.size), ("commands", .number made.length)]
  failure : ∀ fault, interpreted.result = .error fault →
    rendered.result = .error (.markup fault) ∧ rendered.buffer = before ∧
      rendered.log = interpreted.log

theorem log_renderOnto_of_ok (interpreter : Interpreter) {text : Text} {summary : Summary}
    (went : (interpreter.transcript text).result = .ok summary) (buffer : ByteArray) :
    let commands := (interpreter.transcript text).commands
    (interpreter.renderOnto text buffer).log =
      (interpreter.interpret text (EscapeOutput.onto buffer)).log ++
        [.happened (.rendered (Text.utf8 (Command.emitted commands)).size commands.length)] := by
  intro commands
  obtain ⟨result, final⟩ := interpreter.interpret_transcript text (EscapeOutput.onto buffer)
  -- The count in the event is the output's own, not the difference of two buffer sizes.
  have written : (interpreter.interpret text (EscapeOutput.onto buffer)).sink.written =
      (Text.utf8 (Command.emitted commands)).size := by
    rw [final, Command.playAll_output]
    exact Nat.zero_add _
  have calls : summary.calls = commands.length := FaultPolicy.calls_eq_length_commands went
  rw [went] at result
  simp only [renderOnto, result, written, calls]

theorem log_renderOnto_of_error (interpreter : Interpreter) {text : Text} {fault : Fault}
    (went : (interpreter.transcript text).result = .error fault) (buffer : ByteArray) :
    (interpreter.renderOnto text buffer).log =
      (interpreter.interpret text (EscapeOutput.onto buffer)).log := by
  obtain ⟨result, -⟩ := interpreter.interpret_transcript text (EscapeOutput.onto buffer)
  rw [went] at result
  simp only [renderOnto, result]

/-- **A rendering reports what it did.**  The bytes that the output counted are those the
buffer has grown by, and the calls are those of the interpretation. -/
theorem reports_renderOnto {σ : Type u} [Sink σ] (interpreter : Interpreter) (text : Text)
    (buffer : ByteArray) (sink : σ) :
    Reports buffer (interpreter.transcript text).commands (interpreter.interpret text sink)
      (interpreter.renderOnto text buffer) where
  success := by
    intro summary answered
    have went := (interpreter.interpret_transcript text sink).1.symm.trans answered
    obtain ⟨result, final⟩ := interpreter.renderOnto_of_ok went buffer
    have log := interpreter.log_renderOnto_of_ok went buffer
    rw [interpreter.log_interpret_eq text (EscapeOutput.onto buffer) sink] at log
    exact ⟨result, _, _, final, log, rfl, rfl⟩
  failure := by
    intro fault failed
    have went := (interpreter.interpret_transcript text sink).1.symm.trans failed
    obtain ⟨result, final⟩ := interpreter.renderOnto_of_error went buffer
    have log := interpreter.log_renderOnto_of_error went buffer
    rw [interpreter.log_interpret_eq text (EscapeOutput.onto buffer) sink] at log
    exact ⟨result, final, log⟩

theorem isNested_renderOnto (interpreter : Interpreter) (text : Text) (buffer : ByteArray) :
    (interpreter.renderOnto text buffer).log.IsNested := by
  have interpreted := interpreter.isNested_interpret text (EscapeOutput.onto buffer)
  cases went : (interpreter.transcript text).result with
  | ok summary =>
      rw [interpreter.log_renderOnto_of_ok went]
      exact interpreted.append (Log.isNested_map_happened [_])
  | error fault =>
      rw [interpreter.log_renderOnto_of_error went]
      exact interpreted

/-- Rendering into a text logs what rendering onto any buffer does. -/
theorem log_render (interpreter : Interpreter) (text : Text) (buffer : ByteArray) :
    (interpreter.render text).log = (interpreter.renderOnto text buffer).log := by
  rw [interpreter.renderOnto_eq_behind text buffer]
  rfl

end Interpreter

/-! ## The log of stripping -/

/-- Stripping logs an interpretation with default settings, unless there is nothing to
strip. -/
theorem Text.log_strip {σ : Type u} [Sink σ] (text : Text) (sink : σ) :
    text.strip.log =
      if delimiter ∈ text then ((default : Interpreter).interpret text sink).log else [] := by
  by_cases marked : delimiter ∈ text
  · rw [strip, if_neg (Text.not_isPlain marked), if_pos marked]
    exact (default : Interpreter).log_interpret_eq text PlainText.empty sink
  · rw [strip, if_pos (isPlain_iff.mpr marked), if_neg marked]

theorem Text.isNested_strip (text : Text) : text.strip.log.IsNested := by
  rw [text.log_strip PlainText.empty]
  split
  next => exact (default : Interpreter).isNested_interpret text PlainText.empty
  next => exact Log.isNested_nil

namespace Interpreter

/-- **All uses of a text log its interpretation.**  A rendering onto a buffer logs what the
interpretation does on any sink, and if it goes through, but not otherwise, one more event:
it has the bytes by which the buffer has grown and the calls that every sink receives.
Encoding an item, lent or handed over, logs a span with its length and the rendering within
it; rendering into a text logs a rendering onto any buffer.  Stripping logs an interpretation
with default settings if there are delimiters, and nothing if there are none.  Spans are
nested in all these logs, and each span entered is left, whether there is an answer or a
fault. -/
theorem logs_embed_interpretation {σ : Type u} [Sink σ] (interpreter : Interpreter) (text : Text)
    (buffer : ByteArray) (sink : σ) :
    let interpreted := interpreter.interpret text sink
    let made := (interpreter.interpret text Recording.empty).sink.toList
    let rendered := interpreter.renderOnto text buffer
    let encoded := interpreter.encode text buffer
    interpreted.sink = Command.playAll made sink ∧
      Reports buffer made interpreted rendered ∧
      (∃ span : Span, span.name = "encode" ∧
        span.fields = [("length", .number (Text.utf8 text).size)] ∧
        encoded.log = .entered span :: rendered.log ++ [.left span]) ∧
      (interpreter.render text).log = rendered.log ∧
      (text.strip.log =
        if delimiter ∈ text then ((default : Interpreter).interpret text sink).log else []) ∧
      ∀ log ∈ [interpreted.log, rendered.log, encoded.log, (interpreter.render text).log,
        text.strip.log], Log.IsNested log := by
  intro interpreted made rendered encoded
  have calls : made = (interpreter.transcript text).commands := interpreter.toList_interpret text
  have nested : rendered.log.IsNested := interpreter.isNested_renderOnto text buffer
  refine ⟨?_, ?_, ⟨.encoding (Text.byteLength text), rfl, ?_, rfl⟩,
    interpreter.log_render text buffer, text.log_strip sink, ?_⟩
  · rw [calls]
    exact (interpreter.interpret_transcript text sink).2
  · rw [calls]
    exact interpreter.reports_renderOnto text buffer sink
  · rw [Text.size_utf8]
    rfl
  · simp only [List.forall_mem_cons, interpreter.log_render text buffer]
    exact ⟨interpreter.isNested_interpret text sink, nested, nested.within _, nested,
      text.isNested_strip, List.forall_mem_nil _⟩

end Interpreter

end TerminalMarkup
