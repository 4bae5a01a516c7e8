import TerminalMarkup.Proofs.FaultPolicies

/-!
# Texts joined at delimiters

Two texts can be joined so that no content of the one runs into a content of the other:
one of them is empty, or the first ends with a delimiter, or the second begins with one.
The runs of delimiters on the two sides become one run, so the pieces of the whole are not
the pieces of the parts, but its contents are their contents
(`Text.contents_append_of_seam`).

Nothing that an interpreter does to a content depends on the contents before it.  If the
parts are marked up too, that is, if neither is a text that would be shown as it is,
interpreting the whole is therefore interpreting the first part and then, unless a fault
ended that, the second (`FaultPolicy.transcript_append`, `Interpreter.interpret_append`).
-/

set_option autoImplicit false

namespace TerminalMarkup

universe u

/-! ## Seams -/

/-- Whether two texts can be joined without joining a content of one to a content of the
other. -/
def Text.Seam (front back : Text) : Prop :=
  front = [] ∨ back = [] ∨ front.getLast? = some delimiter ∨ back.head? = some delimiter

/-- Whether a text has no contents that are shown without being read: it is empty, or it
has a delimiter. -/
def Text.IsMarkup (text : Text) : Prop := text = [] ∨ delimiter ∈ text

instance (front back : Text) : Decidable (Text.Seam front back) :=
  inferInstanceAs (Decidable (_ ∨ _ ∨ _ ∨ _))

instance (text : Text) : Decidable (Text.IsMarkup text) := inferInstanceAs (Decidable (_ ∨ _))

theorem Text.contents_append_of_seam {front back : Text} (seam : Text.Seam front back) :
    Text.contents (front ++ back) = Text.contents front ++ Text.contents back := by
  rcases seam with rfl | rfl | ends | begins
  · rw [List.nil_append, contents_nil, List.nil_append]
  · rw [List.append_nil, contents_nil, List.append_nil]
  · obtain ⟨before, rfl⟩ := List.getLast?_eq_some_iff.mp ends
    have whole := contents_append_delimiter_cons before back
    have alone := contents_append_delimiter_cons before []
    rw [contents_nil, List.append_nil] at alone
    rw [alone, ← whole, List.append_assoc, List.singleton_append]
  · obtain ⟨after, rfl⟩ := List.head?_eq_some_iff.mp begins
    rw [contents_append_delimiter_cons, contents_delimiter_cons]

namespace Interpreter

theorem readings_of_isMarkup (interpreter : Interpreter) {text : Text}
    (markup : Text.IsMarkup text) :
    interpreter.readings text = text.contents.map interpreter.read := by
  rcases markup with rfl | marked
  · rfl
  · rw [readings, if_pos marked]

theorem readings_append (interpreter : Interpreter) {front back : Text}
    (frontMarkup : Text.IsMarkup front) (backMarkup : Text.IsMarkup back)
    (seam : Text.Seam front back) :
    interpreter.readings (front ++ back) =
      interpreter.readings front ++ interpreter.readings back := by
  have wholeMarkup : Text.IsMarkup (front ++ back) := by
    rcases frontMarkup with rfl | marked
    · exact backMarkup
    · exact .inr (List.mem_append_left back marked)
  rw [interpreter.readings_of_isMarkup wholeMarkup, interpreter.readings_of_isMarkup frontMarkup,
    interpreter.readings_of_isMarkup backMarkup, Text.contents_append_of_seam seam,
    List.map_append]

end Interpreter

/-! ## One transcript after another -/

namespace Summary

/-- The summary of one text and then of another. -/
def append (first second : Summary) : Summary :=
  ⟨first.calls + second.calls, first.skipped ++ second.skipped⟩

theorem empty_append (summary : Summary) : empty.append summary = summary := by
  simp only [append, empty, Nat.zero_add, List.nil_append]

/-- Nothing is added to an answer that comes after nothing. -/
theorem map_empty_append (result : Except Fault Summary) : result.map empty.append = result := by
  cases result with
  | ok summary => exact congrArg Except.ok summary.empty_append
  | error fault => rfl

theorem addCall_append (first second : Summary) :
    first.addCall.append second = (first.append second).addCall := by
  simp only [append, addCall, Nat.add_right_comm]

theorem addSkipped_append (fault : Fault) (first second : Summary) :
    (first.addSkipped fault).append second = (first.append second).addSkipped fault :=
  rfl

end Summary

namespace Transcript

/-- One transcript and then another, unless a fault ends the first. -/
def append (first second : Transcript) : Transcript :=
  match first.result with
  | .ok summary => ⟨second.result.map summary.append, first.commands ++ second.commands⟩
  | .error _ => first

/-- The transcript with earlier calls and a change to what it answers. -/
def following (earlier : List Command) (change : Summary → Summary) (later : Transcript) :
    Transcript :=
  ⟨later.result.map change, earlier ++ later.commands⟩

theorem following_append (earlier : List Command) {change : Summary → Summary}
    (outer : ∀ first second, (change first).append second = change (first.append second))
    (first second : Transcript) :
    (first.following earlier change).append second =
      (first.append second).following earlier change := by
  obtain ⟨result, commands⟩ := first
  cases result with
  | error fault => rfl
  | ok summary =>
      obtain ⟨result, others⟩ := second
      cases result with
      | error fault => simp only [append, following, Except.map, List.append_assoc]
      | ok later => simp only [append, following, Except.map, outer, List.append_assoc]

end Transcript

/-- **A transcript can be resumed.**  Readings in a row have the transcript of the first
of them and then, if that goes through, the transcript of the others. -/
theorem FaultPolicy.transcript_append (faults : FaultPolicy) (front back : List Reading) :
    faults.transcript (front ++ back) =
      (faults.transcript front).append (faults.transcript back) := by
  induction front with
  | nil =>
      simp only [List.nil_append, transcript, Transcript.append, Summary.map_empty_append]
  | cons reading rest ih =>
      cases reading with
      | ok command =>
          have first : faults.transcript (.ok command :: rest) =
              (faults.transcript rest).following [command] .addCall := rfl
          rw [first, Transcript.following_append _ Summary.addCall_append, ← ih]
          rfl
      | error fault =>
          cases faults with
          | abort => rfl
          | skip =>
              have first : skip.transcript (.error fault :: rest) =
                  (skip.transcript rest).following [] (.addSkipped fault) := rfl
              rw [first, Transcript.following_append _ (Summary.addSkipped_append fault), ← ih]
              rfl

/-! ## Texts in a row -/

namespace Interpreter

theorem transcript_append (interpreter : Interpreter) {front back : Text}
    (frontMarkup : Text.IsMarkup front) (backMarkup : Text.IsMarkup back)
    (seam : Text.Seam front back) :
    interpreter.transcript (front ++ back) =
      (interpreter.transcript front).append (interpreter.transcript back) := by
  rw [transcript, interpreter.readings_append frontMarkup backMarkup seam,
    FaultPolicy.transcript_append]
  rfl

variable {σ : Type u} [Sink σ]

/-- **Texts joined at delimiters are interpreted one after the other.**  Let two marked-up
texts be joined where one of them is empty or a delimiter stands at the seam.  If the first
ends with a fault, the whole ends with that fault and has made the same calls.  Otherwise
the whole ends as the second does on the sink that the first leaves, with the calls of
both counted and the faults of both listed, and a fresh recording of it holds the calls
of the first and then those of the second.  Where faults are skipped, both go through. -/
theorem interpret_append (interpreter : Interpreter) {front back : Text}
    (frontMarkup : Text.IsMarkup front) (backMarkup : Text.IsMarkup back)
    (seam : Text.Seam front back) (sink : σ) :
    let whole := interpreter.interpret (front ++ back) sink
    let first := interpreter.interpret front sink
    let second := interpreter.interpret back first.sink
    let calls := fun text => (interpreter.interpret text Recording.empty).sink.toList
    (match first.result with
      | .ok summary =>
          whole.result = second.result.map summary.append ∧ whole.sink = second.sink ∧
            calls (front ++ back) = calls front ++ calls back
      | .error fault =>
          whole.result = .error fault ∧ whole.sink = first.sink ∧
            calls (front ++ back) = calls front) ∧
      (interpreter.settings.faults = .skip →
        ∃ summary later, first.result = .ok summary ∧ second.result = .ok later) := by
  intro whole first second calls
  obtain ⟨wholeResult, wholeSink⟩ := interpreter.interpret_transcript (front ++ back) sink
  obtain ⟨firstResult, firstSink⟩ := interpreter.interpret_transcript front sink
  obtain ⟨secondResult, secondSink⟩ := interpreter.interpret_transcript back first.sink
  have joined := interpreter.transcript_append frontMarkup backMarkup seam
  have recorded (text : Text) : calls text = (interpreter.transcript text).commands :=
    interpreter.toList_interpret text
  constructor
  · rw [show first.result = _ from firstResult]
    rw [joined] at wholeResult wholeSink
    rw [recorded, recorded front, joined]
    cases went : (interpreter.transcript front).result with
    | ok summary =>
        simp only [Transcript.append, went] at wholeResult wholeSink ⊢
        rw [Command.playAll_append, ← firstSink, ← secondSink] at wholeSink
        rw [← secondResult] at wholeResult
        exact ⟨wholeResult, wholeSink, by rw [recorded back]⟩
    | error fault =>
        simp only [Transcript.append, went] at wholeResult wholeSink ⊢
        exact ⟨wholeResult, wholeSink.trans firstSink.symm, trivial⟩
  · intro policy
    have goesThrough (text : Text) : ∃ summary, (interpreter.transcript text).result = .ok summary := by
      rw [Interpreter.transcript, policy, FaultPolicy.transcript_skip]
      exact ⟨_, rfl⟩
    obtain ⟨summary, frontWent⟩ := goesThrough front
    obtain ⟨later, backWent⟩ := goesThrough back
    exact ⟨summary, later, firstResult.trans frontWent, secondResult.trans backWent⟩

/-- A fault in the first text and a run of delimiters that goes on in the second. -/
theorem interpret_append_of_fault_and_bold :
    let interpreter := withSettings .lenient
    let front : Text := ['a', '%', 'f', '1', '6', '%', '%']
    let back : Text := ['%', 'B', '%', 'b', '9', '9']
    let whole := interpreter.interpret (front ++ back) Recording.empty
    whole.result = .ok ⟨2, [.unknownColor .foreground 16, .unknownColor .background 99]⟩ ∧
      whole.sink.toList = [.text ['a'], .bold] := by
  intro interpreter front back whole
  have frontMarkup : Text.IsMarkup front := by decide
  have backMarkup : Text.IsMarkup back := by decide
  have seam : Text.Seam front back := by decide
  have first : (interpreter.interpret front Recording.empty).result =
      .ok ⟨1, [.unknownColor .foreground 16]⟩ := by decide +kernel
  have second : (interpreter.interpret back
      (interpreter.interpret front Recording.empty).sink).result =
        .ok ⟨1, [.unknownColor .background 99]⟩ := by decide +kernel
  have parts := (interpreter.interpret_append frontMarkup backMarkup seam Recording.empty).1
  simp only [first, second] at parts
  obtain ⟨result, -, calls⟩ := parts
  refine ⟨result, calls.trans ?_⟩
  decide +kernel

end Interpreter

end TerminalMarkup
