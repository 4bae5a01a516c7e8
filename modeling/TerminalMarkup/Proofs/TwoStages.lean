import TerminalMarkup.Proofs.Seams
import TerminalMarkup.Proofs.Tokens

/-!
# Interpreting in two stages

Instead of being interpreted in one go, a text can first be taken apart into tokens, and
these can then be performed one after another by whoever has them.  Under the policy
`abort` the first fault, whether it stands in the place of a token or comes from performing
one, is answered and ends the work.  Under `skip` it is put on a list and the next item is
performed.

Both ways come to the same (`Interpreter.performTokens_eq_interpret`).  One item has the
effect of its reading (`Interpreter.performItem_eq`), and so, after any items performed
before, the items have the effect of the transcript of their readings
(`Interpreter.performItemsFrom_eq`), which is what interpreting follows too.
-/

set_option autoImplicit false

namespace TerminalMarkup

universe u

namespace Summary

/-- The summary with one more piece left out at the end. -/
def addSkippedLast (summary : Summary) (fault : Fault) : Summary :=
  { summary with skipped := summary.skipped ++ [fault] }

theorem append_empty (summary : Summary) : summary.append empty = summary := by
  simp only [append, empty, Nat.add_zero, List.append_nil]

theorem append_addCall (first second : Summary) :
    first.append second.addCall = first.addCall.append second :=
  (addCall_append first second).symm

theorem append_addSkipped (fault : Fault) (first second : Summary) :
    first.append (second.addSkipped fault) = (first.addSkippedLast fault).append second := by
  simp only [append, addSkippedLast, addSkipped, List.append_assoc, List.singleton_append]

/-- What comes first in a later summary can be counted at the end of an earlier one. -/
theorem map_append_map {earlier extended : Summary} {change : Summary → Summary}
    (moves : ∀ later, earlier.append (change later) = extended.append later)
    (result : Except Fault Summary) :
    (result.map change).map earlier.append = result.map extended.append := by
  cases result with
  | ok later => exact congrArg Except.ok (moves later)
  | error fault => rfl

end Summary

namespace Interpreter

variable {σ : Type u} [Sink σ]

/-! ## The second stage -/

/-- Performs an item of a list of tokens, which is a token or a fault in the place of one. -/
def performItem (interpreter : Interpreter) (item : Except Fault Token) (sink : σ) :
    Except Fault Unit × σ :=
  match item with
  | .ok token =>
      let performed := interpreter.perform token sink
      (performed.result, performed.sink)
  | .error fault => (.error fault, sink)

/-- Performs items in order, after items that came to the summary `soFar`. -/
def performItemsFrom (interpreter : Interpreter) (soFar : Summary)
    (items : List (Except Fault Token)) (sink : σ) : Except Fault Summary × σ :=
  match items with
  | [] => (.ok soFar, sink)
  | item :: rest =>
      match interpreter.performItem item sink with
      | (.ok _, later) => interpreter.performItemsFrom soFar.addCall rest later
      | (.error fault, later) =>
          match interpreter.settings.faults with
          | .abort => (.error fault, later)
          | .skip => interpreter.performItemsFrom (soFar.addSkippedLast fault) rest later

/-- Performs the items that a text was taken apart into. -/
def performTokens (interpreter : Interpreter) (items : List (Except Fault Token)) (sink : σ) :
    Except Fault Summary × σ :=
  interpreter.performItemsFrom .empty items sink

/-! ## Performing items follows their readings -/

/-- An item makes the call that it is read as and nothing else, or does nothing. -/
theorem performItem_eq (interpreter : Interpreter) (item : Except Fault Token) (sink : σ) :
    interpreter.performItem item sink =
      match item.bind interpreter.command with
      | .ok command => (.ok (), command.applyTo sink)
      | .error fault => (.error fault, sink) := by
  cases item with
  | error fault => rfl
  | ok token =>
      simp only [performItem, perform_eq, Except.bind]
      cases interpreter.command token <;> rfl

/-- **Items have the effect of their transcript**, and their summary comes after that of the
items before. -/
theorem performItemsFrom_eq (interpreter : Interpreter) (soFar : Summary)
    (items : List (Except Fault Token)) (sink : σ) :
    let transcript := interpreter.settings.faults.transcript
      (items.map fun item => item.bind interpreter.command)
    interpreter.performItemsFrom soFar items sink =
      (transcript.result.map soFar.append, Command.playAll transcript.commands sink) := by
  -- The summary is counted up from the front here and from the back in the transcript, so it
  -- stays general, and each step moves one count over the append.
  induction items generalizing soFar sink with
  | nil =>
      have whole : (Except.ok Summary.empty : Except Fault Summary).map soFar.append = .ok soFar :=
        congrArg Except.ok soFar.append_empty
      simp only [performItemsFrom, List.map_nil, FaultPolicy.transcript, whole,
        Command.playAll_nil]
  | cons item rest ih =>
      rw [List.map_cons, performItemsFrom, performItem_eq]
      cases item.bind interpreter.command with
      | ok command =>
          simp only [ih, FaultPolicy.transcript, Command.playAll_cons,
            Summary.map_append_map soFar.append_addCall]
      | error fault =>
          cases policy : interpreter.settings.faults with
          | abort => rfl
          | skip =>
              rw [policy] at ih
              simp only [ih, FaultPolicy.transcript,
                Summary.map_append_map (Summary.append_addSkipped fault soFar)]

/-! ## Both ways -/

/-- **Taking a text apart and performing its tokens is interpreting it.**  The sink is the
same afterwards, whatever it is, and so is the answer: the same counts and the same faults
in order, or the same first fault.  The two ways also agree on what is no markup: a text
without delimiters has one token and makes one call, which show it whatever it spells, and
the empty text has none. -/
theorem performTokens_eq_interpret (interpreter : Interpreter) (text : Text) (sink : σ) :
    let outcome := interpreter.interpret text sink
    interpreter.performTokens text.tokens sink = (outcome.result, outcome.sink) ∧
      (delimiter ∉ text →
        if text = [] then text.tokens = [] ∧ outcome.result = .ok .empty ∧ outcome.sink = sink
        else text.tokens = [.ok (.literal text)] ∧ outcome.result = .ok (.addCall .empty) ∧
          outcome.sink = Sink.text text sink) := by
  intro outcome
  obtain ⟨result, final⟩ := interpreter.interpret_transcript text sink
  constructor
  · have readings : (text.tokens.map fun item => item.bind interpreter.command) =
        interpreter.readings text := (interpreter.readings_eq_map_tokens text).symm
    have performed := interpreter.performItemsFrom_eq .empty text.tokens sink
    simp only [readings, Summary.map_empty_append] at performed
    rw [performTokens, performed, result, final]
    rfl
  · intro plain
    rw [interpreter.transcript_of_plain plain] at result final
    rw [Text.tokens_of_plain plain]
    split
    next empty =>
      rw [if_pos empty] at result final
      exact ⟨rfl, result, final⟩
    next nonempty =>
      rw [if_neg nonempty] at result final
      exact ⟨rfl, result, final⟩

end Interpreter

end TerminalMarkup
