import TerminalMarkup.Color
import TerminalMarkup.Fault
import TerminalMarkup.Token

/-!
# The log

Working on a text leaves a log.  Stretches of work are spans, which are entered
and left; what happens within them are events.  Spans and events have a level
and named fields, and an event has a message besides.

Everything that is logged is listed here, with the wording in which it appears.
-/

set_option autoImplicit false

namespace TerminalMarkup

universe u

/-- How much a span or an event matters, the least first. -/
inductive Level where
  | trace
  | debug
  | info
  | warn
  deriving DecidableEq, Repr

/-- The name of a level. -/
def Level.name : Level → String
  | trace => "TRACE"
  | debug => "DEBUG"
  | info => "INFO"
  | warn => "WARN"

/-- What a field holds. -/
inductive FieldValue where
  | number (value : Nat)
  | text (value : Text)
  deriving DecidableEq, Repr

/-- A stretch of work. -/
inductive Span where
  /-- A text of so many bytes is interpreted under a coding. -/
  | interpretation (length : Nat) (coding : ColorCoding)
  /-- A text of so many bytes is encoded. -/
  | encoding (length : Nat)
  deriving DecidableEq, Repr

namespace Span

/-- The name of a span. -/
def name : Span → String
  | interpretation _ _ => "parse"
  | encoding _ => "encode"

/-- All spans have the same level. -/
def level (_ : Span) : Level := .info

/-- The fields of a span. -/
def fields : Span → List (String × FieldValue)
  | interpretation length coding =>
      [("length", .number length), ("mode", .text coding.word.toList)]
  | encoding length => [("length", .number length)]

end Span

/-- Something that happens. -/
inductive Event where
  | plainText
  /-- A piece of content is about to be performed as a token of a kind. -/
  | content (kind : Token.Kind) (text : Text)
  /-- A piece starting at an offset was left out because of a fault. -/
  | skipped (offset : Nat) (piece : Text) (fault : Fault)
  /-- A text with delimiters was interpreted, with so many calls and so many
  faults left out. -/
  | interpreted (calls faults : Nat)
  | rendered (bytes calls : Nat)
  deriving DecidableEq, Repr

namespace Event

/-- The level of an event. -/
def level : Event → Level
  | plainText => .trace
  | content _ _ => .trace
  | skipped _ _ _ => .warn
  | interpreted _ _ => .trace
  | rendered _ _ => .debug

/-- The message of an event. -/
def message : Event → String
  | plainText => "Parsed plain text"
  | content _ _ => "Dispatching markup chunk"
  | skipped _ _ _ => "Skipping markup chunk"
  | interpreted _ _ => "Parsed markup"
  | rendered _ _ => "Rendered markup"

/-- The fields of an event, its message apart. -/
def fields : Event → List (String × FieldValue)
  | plainText => []
  | content kind text => [("kind", .text kind.name.toList), ("chunk", .text text)]
  | skipped offset piece fault =>
      [("offset", .number offset), ("chunk", .text piece), ("error", .text fault.message.toList)]
  | interpreted calls faults => [("commands", .number calls), ("skipped", .number faults)]
  | rendered bytes calls => [("bytes", .number bytes), ("commands", .number calls)]

end Event

/-- An entry of the log. -/
inductive LogEntry where
  | entered (span : Span)
  | happened (event : Event)
  | left (span : Span)
  deriving DecidableEq, Repr

/-- What was logged, in order. -/
abbrev Log := List LogEntry

/-- A log inside a span. -/
def Log.within (log : Log) (span : Span) : Log := .entered span :: log ++ [.left span]

/-- An answer together with what was logged on the way to it. -/
structure Logged (α : Type u) where
  result : α
  log : Log

end TerminalMarkup
