import TerminalMarkup.Proofs.ShownText
import TerminalMarkup.Proofs.Tokens

/-!
# Valid texts

There are several uses for a text.  It can be interpreted on a sink, rendered on its own
or onto a buffer, encoded as an item of a stream, or stripped.  Each of them interprets
the text, with a coding, palettes and a sink of its own, and if it stops at faults it
fails exactly where that interpretation does (`Use.verdict_of_ok`,
`Use.verdict_of_error`).

Coding, palettes and sinks have no influence on that.  Either all uses accept a text or
all refuse it for the same fault, which is the one in the first of its tokens that
selects an unknown color (`Use.verdicts_agree`).
-/

set_option autoImplicit false

namespace TerminalMarkup

universe u

/-! ## Uses and verdicts -/

/-- An interpreter for which the first fault ends the interpretation. -/
def Interpreter.strict (coding : ColorCoding) (palettes : Palettes) : Interpreter :=
  ⟨⟨coding, .abort⟩, palettes⟩

/-- A use of a text, with everything that it depends on besides the text. -/
inductive Use : Type (u + 1) where
  /-- Its calls are made on a sink. -/
  | interpret {σ : Type u} [Sink σ] (coding : ColorCoding) (palettes : Palettes) (sink : σ)
  | render (coding : ColorCoding) (palettes : Palettes)
  | renderOnto (coding : ColorCoding) (palettes : Palettes) (buffer : ByteArray)
  /-- It is an item of a stream, lent or handed over. -/
  | encode (coding : ColorCoding) (palettes : Palettes) (buffer : ByteArray)
  | strip

/-- What a use comes to, whatever it answers. -/
inductive Verdict where
  | accepted
  /-- Refused, and a fault is reported. -/
  | faulty (fault : Fault)
  /-- Refused, and an error of rendering is reported. -/
  | failed (error : RenderError)
  deriving DecidableEq, Repr

namespace Verdict

/-- What an answer or a fault comes to. -/
def ofResult {α : Type u} : Except Fault α → Verdict
  | .ok _ => accepted
  | .error fault => faulty fault

/-- What an answer or an error of rendering comes to. -/
def ofRendering {α : Type u} : Except RenderError α → Verdict
  | .ok _ => accepted
  | .error error => failed error

end Verdict

namespace Use

/-- What a use comes to on a text. -/
def verdict (use : Use.{u}) (text : Text) : Verdict :=
  match use with
  | interpret coding palettes sink =>
      .ofResult ((Interpreter.strict coding palettes).interpret text sink).result
  | render coding palettes =>
      .ofRendering ((Interpreter.strict coding palettes).render text).result
  | renderOnto coding palettes buffer =>
      .ofRendering ((Interpreter.strict coding palettes).renderOnto text buffer).result
  | encode coding palettes buffer =>
      .ofRendering ((Interpreter.strict coding palettes).encode text buffer).result
  | strip => .ofResult text.strip.result

/-- How a use refuses a text with a fault: what renders wraps the fault in an error. -/
def refusal : Use.{u} → Fault → Verdict
  | interpret .., fault => .faulty fault
  | strip, fault => .faulty fault
  | render .., fault => .failed (.markup fault)
  | renderOnto .., fault => .failed (.markup fault)
  | encode .., fault => .failed (.markup fault)

/-- The interpreter at work in a use. -/
def interpreter : Use.{u} → Interpreter
  | interpret coding palettes _ => .strict coding palettes
  | render coding palettes => .strict coding palettes
  | renderOnto coding palettes _ => .strict coding palettes
  | encode coding palettes _ => .strict coding palettes
  | strip => default

theorem interpreter_faults (use : Use.{u}) : use.interpreter.settings.faults = .abort := by
  cases use <;> rfl

theorem verdict_of_ok (use : Use.{u}) {text : Text} {summary : Summary}
    (went : (use.interpreter.transcript text).result = .ok summary) :
    use.verdict text = .accepted := by
  cases use with
  | interpret coding palettes sink =>
      have interprets := (Interpreter.strict coding palettes).interpret_transcript text sink
      rw [verdict, interprets.1.trans went]
      rfl
  | render coding palettes =>
      rw [verdict, (Interpreter.strict coding palettes).render_of_ok went]
      rfl
  | renderOnto coding palettes buffer =>
      rw [verdict, ((Interpreter.strict coding palettes).renderOnto_of_ok went buffer).1]
      rfl
  | encode coding palettes buffer =>
      have renders := (Interpreter.strict coding palettes).renderOnto_of_ok went buffer
      simp only [verdict, Interpreter.encode, renders.1]
      rfl
  | strip =>
      obtain ⟨stripped, strips, -⟩ := Text.strip_of_ok went
      rw [verdict, strips]
      rfl

theorem verdict_of_error (use : Use.{u}) {text : Text} {fault : Fault}
    (went : (use.interpreter.transcript text).result = .error fault) :
    use.verdict text = use.refusal fault := by
  cases use with
  | interpret coding palettes sink =>
      have interprets := (Interpreter.strict coding palettes).interpret_transcript text sink
      rw [verdict, interprets.1.trans went]
      rfl
  | render coding palettes =>
      rw [verdict, (Interpreter.strict coding palettes).render_of_error went]
      rfl
  | renderOnto coding palettes buffer =>
      rw [verdict, ((Interpreter.strict coding palettes).renderOnto_of_error went buffer).1]
      rfl
  | encode coding palettes buffer =>
      have refuses := (Interpreter.strict coding palettes).renderOnto_of_error went buffer
      simp only [verdict, Interpreter.encode, refuses.1]
      rfl
  | strip =>
      rw [verdict, Text.strip_of_error went]
      rfl

/-! ## The first fault of a text -/

/-- **A use fails where its interpreter does**, which is at the first fault of a token. -/
theorem verdict_of_tokens (use : Use.{u}) {text : Text} {tokens : List Token}
    (taken : text.tokens = tokens.map .ok) :
    use.verdict text =
      match tokens.filterMap Token.fault? with
      | [] => .accepted
      | fault :: _ => use.refusal fault := by
  have answers := FaultPolicy.result_transcript_abort (use.interpreter.readings text)
  rw [← use.interpreter_faults, ← Interpreter.transcript, use.interpreter.readings_of_tokens taken,
    Interpreter.faultsOf_map_command] at answers
  cases faults : tokens.filterMap Token.fault? with
  | nil =>
      rw [faults] at answers
      exact use.verdict_of_ok answers
  | cons fault later =>
      rw [faults] at answers
      exact use.verdict_of_error answers

end Use

/-- Whether no token selects a color beyond the sixteen. -/
def ColorsKnown (tokens : List (Except Fault Token)) : Prop :=
  ∀ channel index, .ok (.selectColor channel index) ∈ tokens → index.toNat < 16

theorem colorsKnown_map_ok_iff {tokens : List Token} :
    ColorsKnown (tokens.map .ok) ↔ ∀ token ∈ tokens, token.fault? = none := by
  simp only [ColorsKnown, List.mem_map, Except.ok.injEq, exists_eq_right, Token.fault?_eq_none_iff]
  constructor
  · rintro known token found channel index rfl
    exact known channel index found
  · intro sound channel index found
    exact sound _ found channel index rfl

theorem Text.delimiter_mem_of_selectColor_mem {text : Text} {channel : Channel} {index : UInt8}
    (found : .ok (.selectColor channel index) ∈ text.tokens) : delimiter ∈ text := by
  by_contra plain
  rw [Text.tokens_of_plain plain] at found
  split at found
  next => cases found
  next => cases List.mem_singleton.mp found

/-- **All uses agree on which texts are valid.**  Either every use accepts a text and all
colors that its tokens select are among the sixteen; or the text has delimiters and there
is a first token with a color beyond these, and every use, whatever its coding, palettes,
sink or buffer, refuses the text with the same fault, which names the channel and the
number of that token. -/
theorem Use.verdicts_agree (text : Text) :
    ((∀ use : Use.{u}, use.verdict text = .accepted) ∧ ColorsKnown text.tokens) ∨
      delimiter ∈ text ∧ ∃ before channel index after,
        text.tokens = before ++ .ok (.selectColor channel index) :: after ∧
          16 ≤ index.toNat ∧ ColorsKnown before ∧
          ∀ use : Use.{u}, use.verdict text = use.refusal (.unknownColor channel index) := by
  obtain ⟨tokens, taken⟩ := text.exists_tokens
  cases faults : tokens.filterMap Token.fault? with
  | nil =>
      refine .inl ⟨?_, ?_⟩
      · intro use
        rw [use.verdict_of_tokens taken, faults]
      · rw [taken, colorsKnown_map_ok_iff]
        exact List.filterMap_eq_nil_iff.mp faults
  | cons fault later =>
      obtain ⟨before, token, after, rfl, sound, faulty, -⟩ := List.filterMap_eq_cons_iff.mp faults
      obtain ⟨channel, index, rfl, high, rfl⟩ := Token.fault?_eq_some_iff.mp faulty
      rw [List.map_append, List.map_cons] at taken
      have selected : .ok (.selectColor channel index) ∈ text.tokens := by
        rw [taken]
        exact List.mem_append_right _ List.mem_cons_self
      refine .inr ⟨Text.delimiter_mem_of_selectColor_mem selected, before.map .ok, channel, index,
        after.map .ok, taken, high, colorsKnown_map_ok_iff.mpr sound, ?_⟩
      intro use
      rw [← List.map_cons, ← List.map_append] at taken
      rw [use.verdict_of_tokens taken, faults]

end TerminalMarkup
