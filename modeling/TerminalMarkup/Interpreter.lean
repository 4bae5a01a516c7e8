import TerminalMarkup.Color.Palette
import TerminalMarkup.Log
import TerminalMarkup.Sink
import TerminalMarkup.Token.Keyword

/-!
# Interpreting a text

An interpreter turns a marked-up text into calls of a sink, from left to right
and one for each piece of content.  It consists of settings and palettes, and
these never change while it works.  The settings are two choices made once for a
whole text: how bright foregrounds are coded, and what happens when a piece has
a fault.

Interpreting answers a result or stops at a fault, and in either case there is
a sink that has received the calls made and a log.  An outcome keeps all three,
so that what was done before a fault can be seen after it.  What interpreting a
whole text answers is a summary: how many calls were made, and the faults of the
pieces that were left out.

A text without delimiters is one piece of text and makes one call, unless it is
empty.  In any other text a piece of content makes the call of its token.  Only
a color selection can fail, when its number is above fifteen; then the sink is
not called, and the settings decide whether the interpretation ends there or
goes on with the next piece.
-/

set_option autoImplicit false

namespace TerminalMarkup

universe u v

/-! ## Settings -/

/-- What a fault in one piece means for the rest of the text. -/
inductive FaultPolicy where
  /-- The first fault ends the interpretation; what came before it stands. -/
  | abort
  /-- A piece with a fault is left out, and the fault is reported at the end. -/
  | skip
  deriving DecidableEq, Repr

/-- The choices made for a whole text. -/
structure Settings where
  coding : ColorCoding
  faults : FaultPolicy
  deriving DecidableEq, Repr

namespace Settings

/-- For terminals with all sixteen foreground codes; the first fault ends the
interpretation. -/
def direct : Settings := ⟨.direct, .abort⟩

/-- For terminals with eight foreground codes; the first fault ends the
interpretation. -/
def legacy : Settings := ⟨.intensityBit, .abort⟩

/-- For terminals with all sixteen foreground codes; pieces with faults are
left out. -/
def lenient : Settings := ⟨.direct, .skip⟩

/-- Unless asked otherwise, settings are `direct`. -/
instance : Inhabited Settings := ⟨direct⟩

/-- The settings with another coding. -/
def withCoding (settings : Settings) (coding : ColorCoding) : Settings := { settings with coding }

/-- The settings with another policy on faults. -/
def withFaults (settings : Settings) (faults : FaultPolicy) : Settings := { settings with faults }

end Settings

/-! ## Outcomes -/

/-- What an interpretation ends with. -/
structure Outcome (σ : Type u) (α : Type v) where
  /-- What it answers, or the fault that ended it. -/
  result : Except Fault α
  sink : σ
  log : Log

/-- What an interpretation that went through answers. -/
structure Summary where
  calls : Nat
  /-- The faults of the pieces left out, in order. -/
  skipped : List Fault
  deriving DecidableEq, Repr

namespace Summary

/-- The summary of doing nothing. -/
def empty : Summary := ⟨0, []⟩

/-- Whether no piece was left out. -/
def isClean (summary : Summary) : Bool := summary.skipped.isEmpty

/-- The summary with one more call at the start. -/
def addCall (summary : Summary) : Summary := { summary with calls := summary.calls + 1 }

/-- The summary with one more piece left out at the start. -/
def addSkipped (fault : Fault) (summary : Summary) : Summary :=
  { summary with skipped := fault :: summary.skipped }

end Summary

namespace Outcome

variable {σ : Type u} {α : Type v}

/-- The outcome with earlier log entries and a change to what it answers. -/
def following (earlier : Log) (change : α → α) (outcome : Outcome σ α) : Outcome σ α :=
  { outcome with result := outcome.result.map change, log := earlier ++ outcome.log }

/-- The outcome with its log inside a span. -/
def within (span : Span) (outcome : Outcome σ α) : Outcome σ α :=
  { outcome with log := outcome.log.within span }

end Outcome

/-! ## Interpreters -/

/-- Settings and palettes to interpret texts with. -/
structure Interpreter where
  /-- How colors are coded, and what faults mean. -/
  settings : Settings
  /-- What color numbers select. -/
  palettes : Palettes

namespace Interpreter

/-- An interpreter with the standard palettes. -/
def withSettings (settings : Settings) : Interpreter := ⟨settings, .standard⟩

/-- Unless asked otherwise, an interpreter has default settings and the standard
palettes. -/
instance : Inhabited Interpreter := ⟨withSettings default⟩

/-- The palette that an interpreter uses for a channel. -/
def activePalette (interpreter : Interpreter) (channel : Channel) : Palette :=
  interpreter.palettes.active interpreter.settings.coding channel

/-- The paint that a color number selects on a channel. -/
def selectPaint (interpreter : Interpreter) (channel : Channel) (index : UInt8) :
    Except Fault Paint :=
  interpreter.palettes.select interpreter.settings.coding channel index

variable {σ : Type u} [Sink σ]

/-! ## One token -/

/-- Makes the call of a token.  A color number that selects nothing is a fault,
and then no call is made. -/
def perform (interpreter : Interpreter) (token : Token) (sink : σ) : Outcome σ Unit :=
  match token with
  | .setAttribute change => ⟨.ok (), change.applyTo sink, []⟩
  | .selectColor channel index =>
      match interpreter.selectPaint channel index with
      | .ok paint => ⟨.ok (), Sink.paint paint sink, []⟩
      | .error fault => ⟨.error fault, sink, []⟩
  | .screen action => ⟨.ok (), action.applyTo sink, []⟩
  | .moveCursor direction amount => ⟨.ok (), Sink.moveCursor direction amount sink, []⟩
  | .placeCursor row column => ⟨.ok (), Sink.placeCursor row column sink, []⟩
  | .literal text => ⟨.ok (), Sink.text text sink, []⟩

/-! ## One piece -/

/-- Performs the token of a piece and answers whether a call was made; runs of
delimiters and empty content make none. -/
def performPiece (interpreter : Interpreter) (piece : Piece) (sink : σ) : Outcome σ Bool :=
  match piece with
  | .delimiters _ => ⟨.ok false, sink, []⟩
  | .content text =>
      if text.isEmpty then ⟨.ok false, sink, []⟩
      else
        match Token.ofContent text with
        | .error fault => ⟨.error fault, sink, []⟩
        | .ok token =>
            let performed := interpreter.perform token sink
            ⟨performed.result.map fun _ => true, performed.sink,
              .happened (.content token.kind text) :: performed.log⟩

/-! ## A whole text -/

/-- Performs the pieces of a text in order. -/
def performAll (interpreter : Interpreter) (pieces : List PlacedPiece) (sink : σ) :
    Outcome σ Summary :=
  match pieces with
  | [] => ⟨.ok .empty, sink, []⟩
  | placed :: rest =>
      let performed := interpreter.performPiece placed.piece sink
      match performed.result with
      | .ok true =>
          (interpreter.performAll rest performed.sink).following performed.log Summary.addCall
      | .ok false => (interpreter.performAll rest performed.sink).following performed.log id
      | .error fault =>
          match interpreter.settings.faults with
          | .abort => ⟨.error fault, performed.sink, performed.log⟩
          | .skip =>
              let skipped := Event.skipped placed.offset placed.piece.text fault
              (interpreter.performAll rest performed.sink).following
                (performed.log ++ [.happened skipped]) (Summary.addSkipped fault)

/-- Shows a text without delimiters; an empty one makes no call. -/
def showPlain (text : Text) (sink : σ) : Outcome σ Summary :=
  if text.isEmpty then ⟨.ok .empty, sink, [.happened .plainText]⟩
  else ⟨.ok (Summary.addCall .empty), Sink.text text sink, [.happened .plainText]⟩

/-- Performs the pieces of a text with delimiters, and logs the summary if there
is one. -/
def performMarkup (interpreter : Interpreter) (text : Text) (sink : σ) : Outcome σ Summary :=
  let performed := interpreter.performAll text.pieces sink
  match performed.result with
  | .ok summary =>
      let interpreted := Event.interpreted summary.calls summary.skipped.length
      { performed with log := performed.log ++ [.happened interpreted] }
  | .error _ => performed

/-- Interprets a text: makes the calls of its tokens on a sink. -/
def interpret (interpreter : Interpreter) (text : Text) (sink : σ) : Outcome σ Summary :=
  let outcome :=
    if Text.isPlain text then showPlain text sink else interpreter.performMarkup text sink
  outcome.within (.interpretation (Text.byteLength text) interpreter.settings.coding)

end Interpreter

end TerminalMarkup
