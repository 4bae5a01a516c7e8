import TerminalMarkup.Proofs.Readings

/-!
# The two policies on faults

Under the policy `skip` an interpretation always goes through.  Its calls are the
calls among the readings and its summary lists the faults among them, in the order
of the text (`Interpreter.interpret_skip`).

Under the policy `abort` an interpretation is the beginning of that.  Without
faults the two policies do the same; otherwise the first fault that the other
policy lists is what is answered, and the calls made are those of the pieces before
the one it is in (`Interpreter.interpret_abort`).
-/

set_option autoImplicit false

namespace TerminalMarkup

universe u

/-! ## Calls and faults among readings -/

/-- The call that content is read as, if it is read as one. -/
def Reading.call? : Reading → Option Command
  | .ok command => some command
  | .error _ => none

/-- The fault in content, if there is one. -/
def Reading.fault? : Reading → Option Fault
  | .ok _ => none
  | .error fault => some fault

/-- The calls among readings, in order. -/
def callsOf (readings : List Reading) : List Command := readings.filterMap Reading.call?

/-- The faults among readings, in order. -/
def faultsOf (readings : List Reading) : List Fault := readings.filterMap Reading.fault?

@[simp] theorem callsOf_nil : callsOf [] = [] := rfl

@[simp] theorem callsOf_ok_cons (command : Command) (rest : List Reading) :
    callsOf (.ok command :: rest) = command :: callsOf rest := rfl

@[simp] theorem callsOf_error_cons (fault : Fault) (rest : List Reading) :
    callsOf (.error fault :: rest) = callsOf rest := rfl

@[simp] theorem callsOf_append (front back : List Reading) :
    callsOf (front ++ back) = callsOf front ++ callsOf back :=
  List.filterMap_append

@[simp] theorem faultsOf_ok_cons (command : Command) (rest : List Reading) :
    faultsOf (.ok command :: rest) = faultsOf rest := rfl

@[simp] theorem faultsOf_error_cons (fault : Fault) (rest : List Reading) :
    faultsOf (.error fault :: rest) = fault :: faultsOf rest := rfl

/-- Each reading is a call or a fault. -/
theorem length_callsOf_add_length_faultsOf (readings : List Reading) :
    (callsOf readings).length + (faultsOf readings).length = readings.length := by
  induction readings with
  | nil => rfl
  | cons reading rest ih =>
      cases reading with
      | ok command =>
          rw [callsOf_ok_cons, faultsOf_ok_cons, List.length_cons, List.length_cons, ← ih]
          omega
      | error fault =>
          rw [callsOf_error_cons, faultsOf_error_cons, List.length_cons, List.length_cons, ← ih]
          omega

/-- Readings without faults are their calls. -/
theorem map_ok_callsOf {readings : List Reading} (clean : faultsOf readings = []) :
    (callsOf readings).map .ok = readings := by
  induction readings with
  | nil => rfl
  | cons reading rest ih =>
      cases reading with
      | ok command => rw [callsOf_ok_cons, List.map_cons, ih clean]
      | error fault => cases clean

/-! ## Transcripts under either policy -/

namespace FaultPolicy

theorem transcript_skip (readings : List Reading) :
    skip.transcript readings =
      ⟨.ok ⟨(callsOf readings).length, faultsOf readings⟩, callsOf readings⟩ := by
  induction readings with
  | nil => rfl
  | cons reading rest ih => cases reading <;> simp only [transcript, ih] <;> rfl

/-- If all content is read as calls, all of these are made. -/
theorem transcript_map_ok (faults : FaultPolicy) (commands : List Command) :
    faults.transcript (commands.map .ok) = ⟨.ok ⟨commands.length, []⟩, commands⟩ := by
  induction commands with
  | nil => rfl
  | cons command rest ih =>
      rw [List.map_cons, transcript, ih]
      rfl

/-- Without faults the policy does not matter. -/
theorem transcript_of_clean (faults : FaultPolicy) {readings : List Reading}
    (clean : faultsOf readings = []) : faults.transcript readings = skip.transcript readings := by
  rw [← map_ok_callsOf clean, transcript_map_ok, transcript_map_ok]

/-- The first fault ends everything, and what came before it stands. -/
theorem transcript_abort_of_fault {front : List Reading} (clean : faultsOf front = [])
    (fault : Fault) (back : List Reading) :
    abort.transcript (front ++ .error fault :: back) = ⟨.error fault, callsOf front⟩ := by
  induction front with
  | nil => rfl
  | cons reading rest ih =>
      cases reading with
      | ok command => simp only [List.cons_append, transcript, ih clean]; rfl
      | error fault => cases clean

/-- Aborting answers the first fault, if there is one. -/
theorem result_transcript_abort (readings : List Reading) :
    (abort.transcript readings).result =
      match faultsOf readings with
      | [] => .ok ⟨(callsOf readings).length, []⟩
      | fault :: _ => .error fault := by
  induction readings with
  | nil => rfl
  | cons reading rest ih =>
      cases reading with
      | error fault => rfl
      | ok command =>
          rw [faultsOf_ok_cons, transcript, ih]
          cases faultsOf rest <;> rfl

/-- A summary counts the calls made. -/
theorem calls_eq_length_commands {faults : FaultPolicy} {readings : List Reading}
    {summary : Summary} (went : (faults.transcript readings).result = .ok summary) :
    summary.calls = (faults.transcript readings).commands.length := by
  cases faults with
  | skip =>
      rw [transcript_skip] at went ⊢
      cases went
      rfl
  | abort =>
      rw [result_transcript_abort] at went
      split at went
      next clean =>
        cases went
        rw [transcript_of_clean _ clean, transcript_skip]
      next => cases went

end FaultPolicy

namespace Interpreter

/-! ## Skipping -/

/-- If faults are skipped, a text makes all calls that it is read as. -/
theorem transcript_of_skip (interpreter : Interpreter)
    (policy : interpreter.settings.faults = .skip) (text : Text) :
    let readings := interpreter.readings text
    interpreter.transcript text =
      ⟨.ok ⟨(callsOf readings).length, faultsOf readings⟩, callsOf readings⟩ := by
  rw [transcript, policy, FaultPolicy.transcript_skip]

/-- If a text goes through when faults end an interpretation, then nothing in it is read as
one. -/
theorem faultsOf_readings_of_abort {interpreter : Interpreter}
    (policy : interpreter.settings.faults = .abort) {text : Text} {summary : Summary}
    (went : (interpreter.transcript text).result = .ok summary) :
    faultsOf (interpreter.readings text) = [] := by
  rw [transcript, policy, FaultPolicy.result_transcript_abort] at went
  split at went
  next none => exact none
  next => cases went

section Skipping

variable {σ : Type u} [Sink σ]

/-- **Skipping goes through.**  A text without delimiters makes the one call that
shows it, or none if it is empty.  Any other text makes a call for each content
that is read as one, in the order of the text and whatever the sink; the summary
counts these calls and lists the faults of all other contents. -/
theorem interpret_skip (coding : ColorCoding) (palettes : Palettes) (text : Text) (sink : σ) :
    let interpreter : Interpreter := ⟨⟨coding, .skip⟩, palettes⟩
    let outcome := interpreter.interpret text sink
    (delimiter ∉ text →
      outcome.sink = Command.playAll (if text = [] then [] else [.text text]) sink ∧
        outcome.result = .ok ⟨if text = [] then 0 else 1, []⟩) ∧
      (delimiter ∈ text →
        let readings := text.contents.map interpreter.read
        outcome.sink = Command.playAll (callsOf readings) sink ∧
          outcome.result = .ok ⟨(callsOf readings).length, faultsOf readings⟩ ∧
          (callsOf readings).length + (faultsOf readings).length = text.contents.length) := by
  intro interpreter outcome
  have follows := interpreter.interpret_transcript text sink
  rw [Interpreter.transcript, FaultPolicy.transcript_skip] at follows
  obtain ⟨result, final⟩ := follows
  constructor
  · intro plain
    rw [readings, if_neg plain] at result final
    split
    next empty =>
      rw [if_pos empty] at result final
      exact ⟨final, result⟩
    next nonempty =>
      rw [if_neg nonempty] at result final
      exact ⟨final, result⟩
  · intro marked
    rw [readings, if_pos marked] at result final
    refine ⟨final, result, ?_⟩
    rw [length_callsOf_add_length_faultsOf, List.length_map]

end Skipping

/-! ## Aborting -/

theorem readPieces_append (interpreter : Interpreter) (front back : List PlacedPiece) :
    interpreter.readPieces (front ++ back) =
      interpreter.readPieces front ++ interpreter.readPieces back := by
  simp only [readPieces, List.filterMap_append, List.map_append]

theorem readPieces_cons_of_content? (interpreter : Interpreter) {placed : PlacedPiece}
    {content : Text} (some : placed.piece.content? = some content) (rest : List PlacedPiece) :
    interpreter.readPieces (placed :: rest) =
      interpreter.read content :: interpreter.readPieces rest := by
  simp only [readPieces, List.filterMap_cons, some, List.map_cons]

/-- Where there are faults there is a first piece with a fault. -/
theorem exists_first_fault (interpreter : Interpreter) {pieces : List PlacedPiece} {fault : Fault}
    {later : List Fault} (faults : faultsOf (interpreter.readPieces pieces) = fault :: later) :
    ∃ before failing after content, pieces = before ++ failing :: after ∧
      faultsOf (interpreter.readPieces before) = [] ∧
      failing.piece.content? = some content ∧ interpreter.read content = .error fault := by
  induction pieces with
  | nil => cases faults
  | cons placed rest ih =>
      cases some : placed.piece.content? with
      | none =>
          have silent (pieces : List PlacedPiece) :
              interpreter.readPieces (placed :: pieces) = interpreter.readPieces pieces := by
            simp only [readPieces, List.filterMap_cons, some]
          rw [silent] at faults
          obtain ⟨before, failing, after, content, rfl, clean, found⟩ := ih faults
          exact ⟨placed :: before, failing, after, content, rfl, by rwa [silent], found⟩
      | some content =>
          rw [interpreter.readPieces_cons_of_content? some] at faults
          cases reading : interpreter.read content with
          | ok command =>
              rw [reading, faultsOf_ok_cons] at faults
              obtain ⟨before, failing, after, other, rfl, clean, found⟩ := ih faults
              refine ⟨placed :: before, failing, after, other, rfl, ?_, found⟩
              rw [interpreter.readPieces_cons_of_content? some, reading, faultsOf_ok_cons, clean]
          | error other =>
              rw [reading, faultsOf_error_cons] at faults
              obtain ⟨rfl, -⟩ := List.cons.inj faults
              exact ⟨[], placed, rest, content, rfl, rfl, some, reading⟩

/-- A text with faults is cut in three by the first of them. -/
theorem exists_split_at_fault (interpreter : Interpreter) {text : Text} {fault : Fault}
    {later : List Fault} (faults : faultsOf (interpreter.readings text) = fault :: later) :
    ∃ before failing after content, text.pieces = before ++ failing :: after ∧
      failing.piece = .content content ∧ interpreter.read content = .error fault ∧
      faultsOf (interpreter.readPieces before) = [] ∧
      interpreter.readings text =
        interpreter.readPieces before ++ .error fault :: interpreter.readPieces after := by
  have pieceByPiece : interpreter.readings text = interpreter.readPieces text.pieces := by
    by_cases marked : delimiter ∈ text
    · rw [readings, if_pos marked, readPieces, Text.filterMap_content?_pieces]
    · rw [readings, if_neg marked] at faults
      split at faults <;> cases faults
  rw [pieceByPiece] at faults
  obtain ⟨before, failing, after, content, split, clean, some, reading⟩ :=
    interpreter.exists_first_fault faults
  refine ⟨before, failing, after, content, split, (Piece.content?_eq_some_iff.mp some).1, reading,
    clean, ?_⟩
  rw [pieceByPiece, split, readPieces_append, interpreter.readPieces_cons_of_content? some, reading]

/-- **Aborting is the beginning of skipping.**  An interpretation that aborts goes
through exactly when skipping leaves nothing out, and then the two agree.
Otherwise it answers the first fault that skipping lists.  That fault is in a piece
all of whose predecessors are read as calls, and these are the calls made: the
first ones that skipping makes, and none for that piece or any after it. -/
theorem interpret_abort (coding : ColorCoding) (palettes : Palettes) (text : Text) :
    let aborting : Interpreter := ⟨⟨coding, .abort⟩, palettes⟩
    let skipping : Interpreter := ⟨⟨coding, .skip⟩, palettes⟩
    let aborted := aborting.interpret text Recording.empty
    let skipped := skipping.interpret text Recording.empty
    ∃ summary, skipped.result = .ok summary ∧
      ((∃ answer, aborted.result = .ok answer) ↔ summary.isClean = true) ∧
      (summary.isClean = true → aborted.result = .ok summary ∧ aborted.sink = skipped.sink) ∧
      ∀ fault later, summary.skipped = fault :: later →
        aborted.result = .error fault ∧ aborted.sink.toList <+: skipped.sink.toList ∧
          ∃ before failing after content, text.pieces = before ++ failing :: after ∧
            failing.piece = .content content ∧ skipping.read content = .error fault ∧
            skipping.readPieces before = aborted.sink.toList.map .ok := by
  intro aborting skipping aborted skipped
  obtain ⟨aborted_result, aborted_sink⟩ := aborting.interpret_transcript text Recording.empty
  obtain ⟨skipped_result, skipped_sink⟩ := skipping.interpret_transcript text Recording.empty
  have skipTranscript := FaultPolicy.transcript_skip (skipping.readings text)
  refine ⟨_, skipped_result.trans (congrArg Transcript.result skipTranscript), ?_⟩
  cases faults : faultsOf (skipping.readings text) with
  | nil =>
      have same : aborting.transcript text = skipping.transcript text :=
        FaultPolicy.transcript_of_clean .abort faults
      rw [same] at aborted_result aborted_sink
      have goesThrough : aborted.result =
          .ok ⟨(callsOf (skipping.readings text)).length, []⟩ := by
        rw [aborted_result, ← faults]
        exact congrArg Transcript.result skipTranscript
      refine ⟨⟨fun _ => rfl, fun _ => ⟨_, goesThrough⟩⟩, fun _ => ⟨goesThrough, ?_⟩, ?_⟩
      · exact aborted_sink.trans skipped_sink.symm
      · intro fault later listed
        cases listed
  | cons fault later =>
      obtain ⟨before, failing, after, content, split, piece, reading, clean, readings⟩ :=
        skipping.exists_split_at_fault faults
      have truncated : aborting.transcript text =
          ⟨.error fault, callsOf (skipping.readPieces before)⟩ :=
        (congrArg FaultPolicy.abort.transcript readings).trans
          (FaultPolicy.transcript_abort_of_fault clean fault _)
      rw [truncated] at aborted_result
      have calls : aborted.sink.toList = callsOf (skipping.readPieces before) := by
        rw [aborting.toList_interpret, truncated]
      have allCalls : skipped.sink.toList =
          callsOf (skipping.readPieces before) ++ callsOf (skipping.readPieces after) := by
        rw [skipping.toList_interpret]
        refine (congrArg Transcript.commands skipTranscript).trans ?_
        rw [readings, callsOf_append, callsOf_error_cons]
      refine ⟨⟨?_, ?_⟩, ?_, ?_⟩
      · rintro ⟨answer, succeeds⟩
        cases aborted_result.symm.trans succeeds
      · intro noFaults
        cases noFaults
      · intro noFaults
        cases noFaults
      · intro first others same
        obtain ⟨rfl, -⟩ := List.cons.inj same
        refine ⟨aborted_result, ?_, before, failing, after, content, split, piece, reading, ?_⟩
        · rw [calls, allCalls]
          exact List.prefix_append ..
        · rw [calls, map_ok_callsOf clean]

end Interpreter

end TerminalMarkup
