import TerminalMarkup.Proofs.FaultPolicies
import TerminalMarkup.Proofs.KeywordGrammar

/-!
# The tokens of a text

A text can be taken apart without an interpreter.  Its tokens are those of its contents,
in order, unless it has no delimiters and is one literal (`Text.tokens_of_marked`,
`Text.tokens_of_plain`).  What an interpreter reads in the text is what it makes of these
tokens, one by one (`Interpreter.readings_eq_map_tokens`).

So whatever is wrong with a text is wrong with one of its tokens.  The only thing that
can be is a color number above fifteen, and the fault names the channel and the number of
the token, not the palette in use.  A token therefore has the same fault under every
interpreter (`Interpreter.fault?_command`), and the policy alone decides which tokens are
performed (`Interpreter.commands_transcript`).
-/

set_option autoImplicit false

namespace TerminalMarkup

/-! ## Taking a text apart -/

theorem Token.ofPiece?_eq_map_content? (plain : Bool) (piece : Piece) :
    Token.ofPiece? plain piece = piece.content?.map fun content =>
      if plain then .ok (.literal content) else Token.ofContent content := by
  cases piece with
  | delimiters run => rfl
  | content text =>
      simp only [Token.ofPiece?, Piece.content?]
      split
      next => rfl
      next => cases plain <;> rfl

namespace Text

theorem tokens_eq_map_contents (text : Text) :
    text.tokens = text.contents.map fun content =>
      if Text.isPlain text then .ok (.literal content) else Token.ofContent content := by
  rw [tokens, ← filterMap_content?_pieces, List.map_filterMap]
  simp only [Token.ofPiece?_eq_map_content?]

theorem tokens_of_marked {text : Text} (marked : delimiter ∈ text) :
    text.tokens = text.contents.map Token.ofContent := by
  simp only [tokens_eq_map_contents, if_neg (Text.not_isPlain marked)]

theorem tokens_of_plain {text : Text} (plain : delimiter ∉ text) :
    text.tokens = if text = [] then [] else [.ok (.literal text)] := by
  simp only [tokens_eq_map_contents, if_pos (isPlain_iff.mpr plain)]
  split
  next empty => rw [empty, contents_nil, List.map_nil]
  next nonempty => rw [contents_of_delimiter_notMem nonempty plain, List.map_singleton]

/-- Taking a text apart never fails. -/
theorem exists_tokens (text : Text) : ∃ tokens : List Token, text.tokens = tokens.map .ok := by
  by_cases marked : delimiter ∈ text
  · choose token classified using Token.exists_ofContent_eq_ok
    refine ⟨text.contents.map token, ?_⟩
    rw [tokens_of_marked marked, List.map_map]
    exact List.map_congr_left fun content _ => classified content
  · rw [tokens_of_plain marked]
    split
    next => exact ⟨[], rfl⟩
    next => exact ⟨[.literal text], rfl⟩

end Text

namespace Interpreter

/-- **Reading a text is reading its tokens.** -/
theorem readings_eq_map_tokens (interpreter : Interpreter) (text : Text) :
    interpreter.readings text = text.tokens.map fun token => token.bind interpreter.command := by
  by_cases marked : delimiter ∈ text
  · rw [readings, if_pos marked, Text.tokens_of_marked marked, List.map_map]
    rfl
  · rw [readings, if_neg marked, Text.tokens_of_plain marked]
    split <;> rfl

theorem readings_of_tokens (interpreter : Interpreter) {text : Text} {tokens : List Token}
    (taken : text.tokens = tokens.map .ok) :
    interpreter.readings text = tokens.map interpreter.command := by
  rw [readings_eq_map_tokens, taken, List.map_map]
  rfl

end Interpreter

/-! ## Faults -/

/-- The fault of a token: that of a color number that no palette has. -/
def Token.fault? : Token → Option Fault
  | selectColor channel index =>
      if index.toNat < 16 then none else some (.unknownColor channel index)
  | _ => none

theorem Token.fault?_eq_some_iff {token : Token} {fault : Fault} :
    token.fault? = some fault ↔ ∃ channel index,
      token = .selectColor channel index ∧ 16 ≤ index.toNat ∧
        fault = .unknownColor channel index := by
  cases token with
  | selectColor channel index => grind [Token.fault?]
  | setAttribute | screen | moveCursor | placeCursor | literal => simp [Token.fault?]

theorem Token.fault?_eq_none_iff {token : Token} :
    token.fault? = none ↔
      ∀ channel index, token = .selectColor channel index → index.toNat < 16 := by
  cases token with
  | selectColor channel index => grind [Token.fault?]
  | setAttribute | screen | moveCursor | placeCursor | literal => simp [Token.fault?]

namespace Interpreter

/-- **A token has the same fault under every interpreter.** -/
theorem fault?_command (interpreter : Interpreter) (token : Token) :
    Reading.fault? (interpreter.command token) = token.fault? := by
  cases token with
  | selectColor channel index =>
      rcases Nat.lt_or_ge index.toNat 16 with known | beyond
      · rw [interpreter.command_selectColor_of_lt channel known, Token.fault?, if_pos known]
        rfl
      · rw [interpreter.command_selectColor_of_le channel beyond, Token.fault?,
          if_neg (Nat.not_lt.mpr beyond)]
        rfl
  | setAttribute | screen | moveCursor | placeCursor | literal => rfl

theorem faultsOf_map_command (interpreter : Interpreter) (tokens : List Token) :
    faultsOf (tokens.map interpreter.command) = tokens.filterMap Token.fault? := by
  rw [faultsOf, List.filterMap_map]
  exact List.filterMap_congr fun token _ => interpreter.fault?_command token

end Interpreter

/-! ## The tokens that are performed -/

/-- The tokens of which the calls are made: under either policy none with a fault, and if
faults end the interpretation, none after the first that has one. -/
def FaultPolicy.performed (faults : FaultPolicy) (tokens : List Token) : List Token :=
  match faults with
  | abort => tokens.takeWhile (·.fault?.isNone)
  | skip => tokens.filter (·.fault?.isNone)

theorem FaultPolicy.performed_cons_of_none (faults : FaultPolicy) {token : Token}
    (sound : token.fault? = none) (rest : List Token) :
    faults.performed (token :: rest) = token :: faults.performed rest := by
  cases faults <;> simp [performed, sound]

/-- **The calls made are those of the performed tokens**, one for each and in order. -/
theorem Interpreter.commands_transcript (interpreter : Interpreter) (faults : FaultPolicy)
    (tokens : List Token) :
    List.Forall₂ (fun token command => interpreter.command token = .ok command)
      (faults.performed tokens)
      (faults.transcript (tokens.map interpreter.command)).commands := by
  induction tokens with
  | nil => cases faults <;> exact .nil
  | cons token rest ih =>
      have same := interpreter.fault?_command token
      rw [List.map_cons]
      cases reading : interpreter.command token with
      | ok command =>
          rw [reading] at same
          rw [faults.performed_cons_of_none same.symm]
          exact .cons reading ih
      | error fault =>
          rw [reading] at same
          have faulty : token.fault? = some fault := same.symm
          cases faults with
          | abort =>
              have ends : FaultPolicy.abort.performed (token :: rest) = [] := by
                simp [FaultPolicy.performed, faulty]
              rw [ends]
              exact .nil
          | skip =>
              have left : FaultPolicy.skip.performed (token :: rest) =
                  FaultPolicy.skip.performed rest := by
                simp [FaultPolicy.performed, faulty]
              rw [left]
              exact ih

end TerminalMarkup
