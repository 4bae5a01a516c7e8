import TerminalMarkup.Proofs.ShownText

/-!
# Texts that are finished

What stripping and rendering answer is finished: it has no delimiters, and nothing that is
done to it changes it any more (`Text.Yields.finished`).

A text without delimiters is handed back by stripping and is rendered as it is, by every
interpreter (`Text.strip_of_plain`, `Interpreter.render_of_plain`).  It remains to see that
answers have no delimiters.  The delimiter is no digit and no semicolon, it introduces no
sequence and it ends none, so it can only come from a call that shows it
(`Command.delimiter_mem_shownBy_of_emitted`), and an interpreter shows contents alone.
-/

set_option autoImplicit false

namespace TerminalMarkup

/-! ## No delimiters come out -/

namespace Command

theorem delimiter_mem_shown_of_emission {command : Command}
    (found : delimiter ∈ command.emission.characters) : delimiter ∈ command.shown := by
  rcases command.emission_cases with ⟨characters, rfl⟩ | rfl | ⟨numbers, final, emission, -, ends⟩
  · exact found
  · exact absurd found (by decide)
  · have inside : delimiter ∉ Emission.parameters numbers := by
      intro within
      rcases Emission.semicolon_or_isDigit_of_mem_parameters within with same | digit
      · exact absurd same (by decide)
      · exact absurd digit (by decide)
    have atEnd : delimiter ≠ final := by
      rintro rfl
      exact absurd ends (by decide)
    have escape : delimiter ≠ '\x1b' := by decide
    have bracket : delimiter ≠ '[' := by decide
    simp only [emission, Emission.characters, List.mem_cons, List.mem_append, List.not_mem_nil,
      inside, atEnd, escape, bracket, or_false] at found

/-- Delimiters that calls emit are delimiters that they show. -/
theorem delimiter_mem_shownBy_of_emitted {commands : List Command}
    (found : delimiter ∈ emitted commands) : delimiter ∈ shownBy commands := by
  obtain ⟨command, made, within⟩ := List.mem_flatMap.mp found
  exact List.mem_flatMap.mpr ⟨command, made, delimiter_mem_shown_of_emission within⟩

end Command

/-! ## Finished texts -/

/-- A text without delimiters is rendered as it is. -/
theorem Interpreter.render_of_plain (interpreter : Interpreter) {text : Text}
    (plain : delimiter ∉ text) : (interpreter.render text).result = .ok text := by
  have transcript := interpreter.transcript_of_plain plain
  by_cases empty : text = []
  · rw [if_pos empty] at transcript
    rw [interpreter.render_of_ok (congrArg Transcript.result transcript), transcript, empty]
    rfl
  · rw [if_neg empty] at transcript
    rw [interpreter.render_of_ok (congrArg Transcript.result transcript), transcript]
    exact congrArg Except.ok (List.append_nil text)

/-- The texts that a text is turned into. -/
inductive Text.Yields (text : Text) : Text → Prop where
  | stripped {stripped : Stripped} (strips : text.strip.result = .ok stripped) :
      Yields text stripped.text
  /-- Under either policy on faults, with any coding and palettes. -/
  | rendered {interpreter : Interpreter} {rendered : Text}
      (renders : (interpreter.render text).result = .ok rendered) : Yields text rendered

namespace Text

theorem Yields.delimiter_notMem {text output : Text} (yields : Yields text output) :
    delimiter ∉ output := by
  cases yields with
  | stripped strips =>
      rw [eq_shownBy_of_strip strips]
      exact Interpreter.delimiter_notMem_shownBy default text
  | @rendered interpreter rendered renders =>
      rw [Interpreter.eq_emitted_of_render renders]
      intro found
      exact interpreter.delimiter_notMem_shownBy text
        (Command.delimiter_mem_shownBy_of_emitted found)

/-- A text without delimiters is turned into itself and nothing else. -/
theorem yields_iff_of_plain {text output : Text} (plain : delimiter ∉ text) :
    Yields text output ↔ output = text := by
  constructor
  · rintro (strips | renders)
    · rw [strip_of_plain plain] at strips
      cases strips
      rfl
    · rw [Interpreter.render_of_plain _ plain] at renders
      cases renders
      rfl
  · rintro rfl
    exact .stripped (congrArg Logged.result (strip_of_plain plain))

/-- **Answers are finished.**  What a text is stripped or rendered to has no delimiters.
Stripping hands it back as it is, and every interpreter renders it as it is, whatever its
coding, policy and palettes; so stripping and rendering again, in any order and with other
settings, changes nothing. -/
theorem Yields.finished {text output : Text} (yields : Yields text output) :
    delimiter ∉ output ∧ output.strip.result = .ok ⟨output, true⟩ ∧
      (∀ interpreter : Interpreter, (interpreter.render output).result = .ok output) ∧
      ∀ again, Yields output again ↔ again = output := by
  have plain := yields.delimiter_notMem
  refine ⟨plain, ?_, ?_, ?_⟩
  · exact congrArg Logged.result (strip_of_plain plain)
  · intro interpreter
    exact interpreter.render_of_plain plain
  · intro again
    exact yields_iff_of_plain plain

/-- A bold red word is rendered to a text that is rendered to itself. -/
theorem finished_of_red_word :
    let text : Text := ['%', 'f', '9', '%', 'r', 'e', 'd', '%']
    let output : Text := ['\x1b', '[', '1', ';', '3', '1', 'm', 'r', 'e', 'd']
    ((Interpreter.withSettings .legacy).render text).result = .ok output ∧
      delimiter ∉ output ∧
        ((Interpreter.withSettings .lenient).render output).result = .ok output := by
  intro text output
  have renders : ((Interpreter.withSettings .legacy).render text).result = .ok output := by
    decide +kernel
  obtain ⟨plain, -, unchanged, -⟩ := Yields.finished (.rendered renders)
  exact ⟨renders, plain, unchanged _⟩

end Text

end TerminalMarkup
