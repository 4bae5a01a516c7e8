import TerminalMarkup.Sink

/-!
# Recordings

A command is a call of a sink written down: there is one constructor for each
operation, with the arguments of the call.  Applying a command to a sink makes
the call.

A recording is the sink that writes down every call it receives, so it can be
played to any other sink later.  Playing a recording of two stretches is playing
the first and then the second (`playAll_append`), and playing a recording to an
empty one copies it (`playTo_empty`).
-/

set_option autoImplicit false

namespace TerminalMarkup

universe u

/-- A call of a sink. -/
inductive Command where
  | bold
  | normal
  | faint
  | italic
  | underline
  | blink
  | negative
  | strikethrough
  | reset
  | paint (paint : Paint)
  | eraseDisplay
  | eraseDisplayAbove
  | eraseDisplayBelow
  | eraseLine
  | eraseLineAfter
  | eraseLineBefore
  | moveCursor (direction : Direction) (amount : UInt16)
  | placeCursor (row column : UInt16)
  | lineFeed
  | text (characters : Text)
  deriving DecidableEq, Repr

namespace Command

variable {σ : Type u} [Sink σ]

/-- Makes the call that a command is. -/
def applyTo (command : Command) (sink : σ) : σ :=
  match command with
  | bold => Sink.bold sink
  | normal => Sink.normal sink
  | faint => Sink.faint sink
  | italic => Sink.italic sink
  | underline => Sink.underline sink
  | blink => Sink.blink sink
  | negative => Sink.negative sink
  | strikethrough => Sink.strikethrough sink
  | reset => Sink.reset sink
  | paint selected => Sink.paint selected sink
  | eraseDisplay => Sink.eraseDisplay sink
  | eraseDisplayAbove => Sink.eraseDisplayAbove sink
  | eraseDisplayBelow => Sink.eraseDisplayBelow sink
  | eraseLine => Sink.eraseLine sink
  | eraseLineAfter => Sink.eraseLineAfter sink
  | eraseLineBefore => Sink.eraseLineBefore sink
  | moveCursor direction amount => Sink.moveCursor direction amount sink
  | placeCursor row column => Sink.placeCursor row column sink
  | lineFeed => Sink.lineFeed sink
  | text characters => Sink.text characters sink

/-- Makes the calls of a list, from its head on. -/
def playAll (commands : List Command) (sink : σ) : σ :=
  commands.foldl (fun state command => command.applyTo state) sink

@[simp] theorem playAll_nil (sink : σ) : playAll [] sink = sink := rfl

@[simp] theorem playAll_cons (command : Command) (rest : List Command) (sink : σ) :
    playAll (command :: rest) sink = playAll rest (command.applyTo sink) := rfl

@[simp] theorem playAll_append (first second : List Command) (sink : σ) :
    playAll (first ++ second) sink = playAll second (playAll first sink) := by
  simp [playAll]

end Command

/-- A sink that writes down the calls it receives. -/
structure Recording where
  commands : Array Command
  deriving DecidableEq, Repr

namespace Recording

/-- A recording of no calls. -/
def empty : Recording := ⟨#[]⟩

/-- Writes a command down at the end. -/
def record (command : Command) (recording : Recording) : Recording :=
  ⟨recording.commands.push command⟩

/-- Every call is written down with its arguments. -/
instance : Sink Recording where
  bold := record .bold
  normal := record .normal
  faint := record .faint
  italic := record .italic
  underline := record .underline
  blink := record .blink
  negative := record .negative
  strikethrough := record .strikethrough
  reset := record .reset
  paint selected := record (.paint selected)
  eraseDisplay := record .eraseDisplay
  eraseDisplayAbove := record .eraseDisplayAbove
  eraseDisplayBelow := record .eraseDisplayBelow
  eraseLine := record .eraseLine
  eraseLineAfter := record .eraseLineAfter
  eraseLineBefore := record .eraseLineBefore
  moveCursor direction amount := record (.moveCursor direction amount)
  placeCursor row column := record (.placeCursor row column)
  lineFeed := record .lineFeed
  text characters := record (.text characters)

/-- The calls of a recording, the earliest first. -/
def toList (recording : Recording) : List Command := recording.commands.toList

/-- How many calls a recording has. -/
def length (recording : Recording) : Nat := recording.commands.size

/-- Whether a recording has no calls. -/
def isEmpty (recording : Recording) : Bool := recording.commands.isEmpty

/-- Makes the calls of a recording on another sink, in order. -/
def playTo {σ : Type u} [Sink σ] (recording : Recording) (sink : σ) : σ :=
  recording.commands.foldl (fun state command => command.applyTo state) sink

/-! ## What a recording holds -/

@[simp] theorem toList_empty : empty.toList = [] := rfl

/-- A call is written down at the end. -/
@[simp] theorem toList_applyTo (command : Command) (recording : Recording) :
    (command.applyTo recording).toList = recording.toList ++ [command] := by
  cases command <;> exact Array.toList_push

theorem toList_inj {first second : Recording} : first.toList = second.toList ↔ first = second := by
  constructor
  · intro same
    exact congrArg Recording.mk (Array.toList_inj.mp same)
  · rintro rfl
    rfl

theorem playTo_eq_playAll {σ : Type u} [Sink σ] (recording : Recording) (sink : σ) :
    recording.playTo sink = Command.playAll recording.toList sink := by
  simp [playTo, Command.playAll, toList]

/-- Calls played to a recording are written down in order. -/
@[simp] theorem toList_playAll (commands : List Command) (recording : Recording) :
    (Command.playAll commands recording).toList = recording.toList ++ commands := by
  induction commands generalizing recording with
  | nil => simp
  | cons command rest ih => simp [ih]

/-- **Playing copies.**  A recording played to an empty one gives the recording
again. -/
theorem playTo_empty (recording : Recording) : recording.playTo empty = recording := by
  rw [← toList_inj, playTo_eq_playAll, toList_playAll, toList_empty, List.nil_append]

end Recording

end TerminalMarkup
