import TerminalMarkup.Escape.Sequence
import TerminalMarkup.Interpreter

/-!
# Rendering

An output is a sink: every call appends the escape sequence that has its effect
on a terminal.  Attributes and colors are rendition sequences, erasures and
cursor movements are control sequences, the next line is a line feed, and text
is its UTF-8 form as it is.

Rendering interprets a text with an output as the sink, so that what is left is
the text with escape sequences for its commands.  A text can be rendered onto the
end of a buffer.  That either appends the whole rendering or leaves the buffer as
it was: an output only appends, so a buffer cut back to its former size holds
what it held.  A text can also be rendered on its own, into a text.
-/

set_option autoImplicit false

namespace TerminalMarkup

universe u

/-! ## Outputs as sinks -/

/-- The sequence that moves the cursor in a direction. -/
def ControlSequence.ofMove (direction : Direction) (amount : UInt16) : ControlSequence :=
  match direction with
  | .back => .cursorBack amount
  | .forward => .cursorForward amount
  | .down => .cursorDown amount
  | .up => .cursorUp amount

/-- A call appends the bytes that have its effect on a terminal. -/
instance : Sink EscapeOutput where
  bold := (Rendition.ofAttribute .bold).appendTo
  normal := (Rendition.ofAttribute .normal).appendTo
  faint := (Rendition.ofAttribute .faint).appendTo
  italic := (Rendition.ofAttribute .italic).appendTo
  underline := (Rendition.ofAttribute .underline).appendTo
  blink := (Rendition.ofAttribute .blink).appendTo
  negative := (Rendition.ofAttribute .negative).appendTo
  strikethrough := (Rendition.ofAttribute .strikethrough).appendTo
  reset := (Rendition.ofAttribute .reset).appendTo
  paint selected := (Rendition.ofPaint selected).appendTo
  eraseDisplay := (ControlSequence.eraseInDisplay .whole).appendTo
  eraseDisplayAbove := (ControlSequence.eraseInDisplay .beforeCursor).appendTo
  eraseDisplayBelow := (ControlSequence.eraseInDisplay .afterCursor).appendTo
  eraseLine := (ControlSequence.eraseInLine .whole).appendTo
  eraseLineAfter := (ControlSequence.eraseInLine .afterCursor).appendTo
  eraseLineBefore := (ControlSequence.eraseInLine .beforeCursor).appendTo
  moveCursor direction amount := (ControlSequence.ofMove direction amount).appendTo
  placeCursor row column := (ControlSequence.cursorPosition row column).appendTo
  lineFeed output := output.append [0x0a].toByteArray
  text characters output := output.appendText characters

/-! ## Texts as escape sequences -/

/-- What rendering onto a buffer ends with. -/
structure Rendered (α : Type u) where
  /-- What it answers, or why nothing was rendered. -/
  result : Except RenderError α
  buffer : ByteArray
  log : Log

namespace Interpreter

/-- Renders a text onto the end of a buffer. -/
def renderOnto (interpreter : Interpreter) (text : Text) (buffer : ByteArray) :
    Rendered Summary :=
  let outcome := interpreter.interpret text (EscapeOutput.onto buffer)
  match outcome.result with
  | .ok summary =>
      let rendered := Event.rendered outcome.sink.written summary.calls
      ⟨.ok summary, outcome.sink.bytes, outcome.log ++ [.happened rendered]⟩
  | .error fault =>
      ⟨.error (.markup fault), outcome.sink.bytes.extract 0 buffer.size, outcome.log⟩

/-- Renders a text onto the end of a buffer as one item of a stream of texts,
of which only success or failure is reported. -/
def encode (interpreter : Interpreter) (item : Text) (buffer : ByteArray) : Rendered Unit :=
  let rendered := interpreter.renderOnto item buffer
  ⟨rendered.result.map fun _ => (), rendered.buffer,
    rendered.log.within (.encoding (Text.byteLength item))⟩

/-- Renders a text into a text. -/
def render (interpreter : Interpreter) (text : Text) : Logged (Except RenderError Text) :=
  let rendered := interpreter.renderOnto text ByteArray.empty
  let result := do
    let _ ← rendered.result
    match Text.ofUtf8? rendered.buffer with
    | some text => .ok text
    | none => .error (.invalidUtf8 (Text.validUpTo rendered.buffer 0))
  ⟨result, rendered.log⟩

end Interpreter

end TerminalMarkup
