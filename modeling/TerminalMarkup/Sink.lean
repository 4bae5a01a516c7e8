import TerminalMarkup.Token

/-!
# Sinks

A sink is whatever receives the commands of a marked-up text, one call for
each: a terminal, a document under construction, a counter.  To be a sink is to
have, for each of twenty operations, the state that follows a call.  Nothing
can be asked of a sink, so what is sent to it cannot depend on it.

A relay is the simplest sink made from another: it holds a sink and passes on
to it every call it receives.
-/

set_option autoImplicit false

namespace TerminalMarkup

universe u

/-- The twenty operations of a sink with states in `σ`. -/
class Sink (σ : Type u) where
  bold : σ → σ
  normal : σ → σ
  faint : σ → σ
  italic : σ → σ
  underline : σ → σ
  blink : σ → σ
  negative : σ → σ
  strikethrough : σ → σ
  reset : σ → σ
  paint : Paint → σ → σ
  eraseDisplay : σ → σ
  eraseDisplayAbove : σ → σ
  eraseDisplayBelow : σ → σ
  eraseLine : σ → σ
  eraseLineAfter : σ → σ
  eraseLineBefore : σ → σ
  moveCursor : Direction → UInt16 → σ → σ
  placeCursor : UInt16 → UInt16 → σ → σ
  lineFeed : σ → σ
  text : Text → σ → σ

/-! ## Calls by attribute and by action -/

section Calls

variable {σ : Type u} [Sink σ]

/-- Makes the call that changes an attribute. -/
def Attribute.applyTo (change : Attribute) (sink : σ) : σ :=
  match change with
  | .bold => Sink.bold sink
  | .normal => Sink.normal sink
  | .faint => Sink.faint sink
  | .italic => Sink.italic sink
  | .underline => Sink.underline sink
  | .blink => Sink.blink sink
  | .negative => Sink.negative sink
  | .strikethrough => Sink.strikethrough sink
  | .reset => Sink.reset sink

/-- Makes the call of an action. -/
def ScreenAction.applyTo (action : ScreenAction) (sink : σ) : σ :=
  match action with
  | .eraseDisplay => Sink.eraseDisplay sink
  | .eraseDisplayAbove => Sink.eraseDisplayAbove sink
  | .eraseDisplayBelow => Sink.eraseDisplayBelow sink
  | .eraseLine => Sink.eraseLine sink
  | .eraseLineAfter => Sink.eraseLineAfter sink
  | .eraseLineBefore => Sink.eraseLineBefore sink
  | .lineFeed => Sink.lineFeed sink

end Calls

/-! ## Relays -/

/-- A sink held by something that passes all calls on to it. -/
structure Relay (σ : Type u) where
  target : σ

namespace Relay

variable {σ : Type u}

/-- Replaces the sink that a relay holds by the one after a call. -/
def pass (call : σ → σ) (relay : Relay σ) : Relay σ := ⟨call relay.target⟩

/-- A relay passes every call on. -/
instance [Sink σ] : Sink (Relay σ) where
  bold := pass Sink.bold
  normal := pass Sink.normal
  faint := pass Sink.faint
  italic := pass Sink.italic
  underline := pass Sink.underline
  blink := pass Sink.blink
  negative := pass Sink.negative
  strikethrough := pass Sink.strikethrough
  reset := pass Sink.reset
  paint selected := pass (Sink.paint selected)
  eraseDisplay := pass Sink.eraseDisplay
  eraseDisplayAbove := pass Sink.eraseDisplayAbove
  eraseDisplayBelow := pass Sink.eraseDisplayBelow
  eraseLine := pass Sink.eraseLine
  eraseLineAfter := pass Sink.eraseLineAfter
  eraseLineBefore := pass Sink.eraseLineBefore
  moveCursor direction amount := pass (Sink.moveCursor direction amount)
  placeCursor row column := pass (Sink.placeCursor row column)
  lineFeed := pass Sink.lineFeed
  text characters := pass (Sink.text characters)

end Relay

end TerminalMarkup
