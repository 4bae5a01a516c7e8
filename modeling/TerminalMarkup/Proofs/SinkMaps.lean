import TerminalMarkup.Proofs.Readings

/-!
# Maps of sinks

A map from one kind of sink to another *passes calls* if a call can be made before
the map or after it with the same effect.  Nothing that an interpreter does tells a
sink from its image under such a map: it answers and logs the same on both, and the
sinks it leaves are again a sink and its image (`Interpreter.interpret_mapSink`).

Two maps of this kind exist for every sink.  Playing recordings to a sink passes
calls, because a recording writes each call down at its end; taking from a relay the
sink it holds passes calls by what a relay is.  So whatever is done to a sink, in any
number of steps, has the same answers as on a recording and the effect of playing what
was recorded (`Step.runAll_eq_replay`).
-/

set_option autoImplicit false

namespace TerminalMarkup

universe u v w

/-! ## Maps that pass calls -/

section Maps

variable {σ : Type u} {τ : Type v} [Sink σ] [Sink τ]

/-- Whether a call has the same effect before a map as after it. -/
def PassesCalls (map : σ → τ) : Prop :=
  ∀ (command : Command) (sink : σ), map (command.applyTo sink) = command.applyTo (map sink)

theorem passesCalls_playTo (sink : σ) :
    PassesCalls fun recording : Recording => recording.playTo sink := by
  intro command recording
  simp only [Recording.playTo_eq_playAll, Recording.toList_applyTo, Command.playAll_append,
    Command.playAll_cons, Command.playAll_nil]

theorem passesCalls_target : PassesCalls (Relay.target (σ := σ)) := by
  intro command relay
  cases command <;> rfl

end Maps

/-- The outcome with another sink in the place of the one that received the calls. -/
def Outcome.mapSink {σ : Type u} {τ : Type v} {α : Type w} (map : σ → τ) (outcome : Outcome σ α) :
    Outcome τ α :=
  ⟨outcome.result, map outcome.sink, outcome.log⟩

namespace Interpreter

variable {σ : Type u} {τ : Type v} [Sink σ] [Sink τ] {map : σ → τ}

theorem perform_mapSink (passes : PassesCalls map) (interpreter : Interpreter) (token : Token)
    (sink : σ) :
    interpreter.perform token (map sink) = (interpreter.perform token sink).mapSink map := by
  rw [perform_eq, perform_eq]
  cases interpreter.command token with
  | ok command => simp only [Outcome.mapSink, passes command sink]
  | error fault => rfl

theorem performPiece_mapSink (passes : PassesCalls map) (interpreter : Interpreter)
    (piece : Piece) (sink : σ) :
    interpreter.performPiece piece (map sink) =
      (interpreter.performPiece piece sink).mapSink map := by
  cases piece with
  | delimiters run => rfl
  | content text =>
      simp only [performPiece]
      split
      next => rfl
      next =>
        cases Token.ofContent text with
        | error fault => rfl
        | ok token => simp only [perform_mapSink passes, Outcome.mapSink]

theorem performAll_mapSink (passes : PassesCalls map) (interpreter : Interpreter)
    (pieces : List PlacedPiece) (sink : σ) :
    interpreter.performAll pieces (map sink) =
      (interpreter.performAll pieces sink).mapSink map := by
  induction pieces generalizing sink with
  | nil => rfl
  | cons placed rest ih =>
      simp only [performAll, performPiece_mapSink passes]
      generalize interpreter.performPiece placed.piece sink = performed
      obtain ⟨result, later, log⟩ := performed
      cases result with
      | ok called => cases called <;> simp only [Outcome.mapSink, ih] <;> rfl
      | error fault =>
          cases interpreter.settings.faults with
          | abort => rfl
          | skip => simp only [Outcome.mapSink, ih]; rfl

theorem showPlain_mapSink (passes : PassesCalls map) (text : Text) (sink : σ) :
    showPlain text (map sink) = (showPlain text sink).mapSink map := by
  have shown : map (Sink.text text sink) = Sink.text text (map sink) := passes (.text text) sink
  unfold showPlain
  split
  next => rfl
  next => rw [← shown]; rfl

theorem performMarkup_mapSink (passes : PassesCalls map) (interpreter : Interpreter) (text : Text)
    (sink : σ) :
    interpreter.performMarkup text (map sink) =
      (interpreter.performMarkup text sink).mapSink map := by
  simp only [performMarkup, performAll_mapSink passes]
  generalize interpreter.performAll text.pieces sink = performed
  obtain ⟨result, later, log⟩ := performed
  cases result <;> rfl

/-- **Interpreting commutes with maps that pass calls.**  On the image of a sink it
answers and logs what it does on the sink, and it leaves the image of what it leaves. -/
theorem interpret_mapSink (passes : PassesCalls map) (interpreter : Interpreter) (text : Text)
    (sink : σ) :
    interpreter.interpret text (map sink) = (interpreter.interpret text sink).mapSink map := by
  unfold interpret
  split
  next => rw [showPlain_mapSink passes]; rfl
  next => rw [performMarkup_mapSink passes]; rfl

end Interpreter

/-! ## Steps -/

/-- Something that can be done to a sink. -/
inductive Step where
  | interpret (interpreter : Interpreter) (text : Text)
  | perform (interpreter : Interpreter) (token : Token)
  | performPiece (interpreter : Interpreter) (piece : Piece)
  | apply (command : Command)

/-- What a step answers unless it ends with a fault. -/
inductive Step.Answer where
  /-- Of a whole text. -/
  | summary (summary : Summary)
  /-- Of a piece: whether a call was made. -/
  | called (made : Bool)
  /-- Of a token or a command. -/
  | done
  deriving DecidableEq, Repr

/-- What a step reports: its result and what it logged. -/
structure Step.Report where
  result : Except Fault Step.Answer
  log : Log

/-- What steps report, in order, and the sink after the last of them. -/
structure Step.Run (σ : Type u) where
  reports : List Step.Report
  sink : σ

namespace Step

variable {σ : Type u} {τ : Type v} [Sink σ] [Sink τ]

/-- Does a step. -/
def run (step : Step) (sink : σ) : Outcome σ Answer :=
  match step with
  | interpret interpreter text =>
      let outcome := interpreter.interpret text sink
      ⟨outcome.result.map .summary, outcome.sink, outcome.log⟩
  | perform interpreter token =>
      let outcome := interpreter.perform token sink
      ⟨outcome.result.map fun _ => .done, outcome.sink, outcome.log⟩
  | performPiece interpreter piece =>
      let outcome := interpreter.performPiece piece sink
      ⟨outcome.result.map .called, outcome.sink, outcome.log⟩
  | apply command => ⟨.ok .done, command.applyTo sink, []⟩

/-- Does steps in order.  A step that ends with a fault is followed by the next one
all the same. -/
def runAll (steps : List Step) (sink : σ) : Run σ :=
  match steps with
  | [] => ⟨[], sink⟩
  | step :: rest =>
      let outcome := step.run sink
      let later := runAll rest outcome.sink
      ⟨⟨outcome.result, outcome.log⟩ :: later.reports, later.sink⟩

theorem run_mapSink {map : σ → τ} (passes : PassesCalls map) (step : Step) (sink : σ) :
    step.run (map sink) = (step.run sink).mapSink map := by
  cases step with
  | interpret interpreter text =>
      simp only [run, Interpreter.interpret_mapSink passes]
      rfl
  | perform interpreter token =>
      simp only [run, Interpreter.perform_mapSink passes]
      rfl
  | performPiece interpreter piece =>
      simp only [run, Interpreter.performPiece_mapSink passes]
      rfl
  | apply command =>
      simp only [run, ← passes command sink]
      rfl

/-- Steps report the same on a sink and on its image. -/
theorem runAll_mapSink {map : σ → τ} (passes : PassesCalls map) (steps : List Step) (sink : σ) :
    runAll steps (map sink) = ⟨(runAll steps sink).reports, map (runAll steps sink).sink⟩ := by
  induction steps generalizing sink with
  | nil => rfl
  | cons step rest ih =>
      have later := ih (step.run sink).sink
      simp only [runAll, run_mapSink passes, Outcome.mapSink, later]

/-- **Every sink sees the recording.**  Whatever is done to a sink, a fresh recording
to which the same is done reports the same, and playing that recording to the sink has
the same effect.  Doing it to a relay instead does it to the sink the relay holds.  In
particular, what a recording holds when another is played to it is what it held before
and then the calls of the other. -/
theorem runAll_eq_replay (steps : List Step) (sink : σ) :
    let run := runAll steps sink
    let recorded := runAll steps Recording.empty
    run.reports = recorded.reports ∧ run.sink = recorded.sink.playTo sink ∧
      runAll steps (Relay.mk sink) = ⟨run.reports, ⟨run.sink⟩⟩ ∧
      ∀ recording earlier : Recording,
        (recording.playTo earlier).toList = earlier.toList ++ recording.toList := by
  intro run recorded
  have replayed : run = ⟨recorded.reports, recorded.sink.playTo sink⟩ := by
    have empty : Recording.empty.playTo sink = sink := by
      rw [Recording.playTo_eq_playAll, Recording.toList_empty, Command.playAll_nil]
    have mapped := runAll_mapSink (passesCalls_playTo sink) steps Recording.empty
    rwa [empty] at mapped
  have relayed : run = ⟨(runAll steps (Relay.mk sink)).reports,
      (runAll steps (Relay.mk sink)).sink.target⟩ :=
    runAll_mapSink passesCalls_target steps (Relay.mk sink)
  refine ⟨congrArg Run.reports replayed, congrArg Run.sink replayed, ?_, ?_⟩
  · rw [relayed]
  · intro recording earlier
    rw [Recording.playTo_eq_playAll, Recording.toList_playAll]

end Step

end TerminalMarkup
