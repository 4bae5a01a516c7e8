import TerminalMarkup.Proofs.ShownText
import TerminalMarkup.Proofs.Spellings

/-!
# The calls that a text can make

With the standard palettes, a text can ask for every call but these: exchanging foreground
and background, moving the cursor by more than three digits can say, placing it further out
than that, setting a paint that the coding has no use for, and showing what would not be
read as text (`Command.Expressible`).  These are the calls of the tokens that can be written
(`Interpreter.expressible_iff`).

A text with delimiters makes calls that can be asked for, whatever it holds and wherever a
fault ends it, because each comes from a content and a content is a spelling of its token.
Conversely calls that can be asked for are made, all of them and in their order, by their
tokens written one after another.  So the recordings of texts are known exactly: any calls
that can be asked for, or the one call that shows a text without delimiters
(`Interpreter.exists_recording_iff`).
-/

set_option autoImplicit false

namespace TerminalMarkup

/-! ## Lists of tokens -/

/-- **The tokens of texts with delimiters** are any that can be written, in any order. -/
theorem Text.exists_tokens_eq_iff {tokens : List Token} :
    (∃ text, delimiter ∈ text ∧ Text.tokens text = tokens.map .ok) ↔
      ∀ token ∈ tokens, token.IsWritable := by
  constructor
  · rintro ⟨text, marked, taken⟩ token found
    have listed : .ok token ∈ text.contents.map Token.ofContent := by
      rw [← tokens_of_marked marked, taken]
      exact List.mem_map_of_mem found
    obtain ⟨content, member, classified⟩ := List.mem_map.mp listed
    have written := Token.written_of_ofContent_eq (fits_of_mem_contents member) classified
    exact Token.exists_written_iff.mp ⟨content, written⟩
  · intro writable
    obtain ⟨text, written⟩ := Token.exists_writtenInOrder writable
    have marked : delimiter ∈ run 1 ++ text ++ run 0 := List.mem_cons_self
    exact ⟨_, marked, written.tokens_eq marked⟩

/-! ## Calls -/

/-- The calls that a text can ask for under a coding. -/
inductive Command.Expressible (coding : ColorCoding) : Command → Prop where
  | setAttribute {change : Attribute} (named : change ≠ .negative) :
      Expressible coding change.command
  | screen (action : ScreenAction) : Expressible coding action.command
  | moveCursor (direction : Direction) {amount : UInt16} (fits : amount.toNat ≤ 999) :
      Expressible coding (.moveCursor direction amount)
  | placeCursor {row column : UInt16} (rowFits : row.toNat ≤ 999)
      (columnFits : column.toNat ≤ 999) : Expressible coding (.placeCursor row column)
  | background (color : Color) : Expressible coding (.paint (.background color))
  | foreground (color : Color) (direct : coding = .direct) :
      Expressible coding (.paint (.foreground color))
  | weightedForeground (intensity : Intensity) {color : Color} (standard : color.bright = false)
      (weighted : coding = .intensityBit) :
      Expressible coding (.paint (.weightedForeground intensity color))
  | text {characters : Text} (nonempty : characters ≠ []) (plain : delimiter ∉ characters)
      (unmatched : ∀ entry ∈ keywords, entry.1.match? characters = none) :
      Expressible coding (.text characters)

/-- Every intensity and standard color has a number: that of the color which is bright if
the intensity is bold. -/
theorem Palette.intensityForeground_entry (intensity : Intensity) (hue : Hue) :
    intensityForeground.entry (Color.index ⟨hue, intensity == .bold⟩) =
      .weightedForeground intensity ⟨hue, false⟩ := by
  cases intensity <;> cases hue <;> rfl

namespace Interpreter

/-- Each of the sixteen colors of a channel can be asked for. -/
theorem exists_token_of_entry (coding : ColorCoding) (faults : FaultPolicy) (channel : Channel)
    (index : Fin 16) :
    let interpreter := withSettings ⟨coding, faults⟩
    ∃ token : Token, token.IsWritable ∧
      interpreter.command token = .ok (.paint ((interpreter.activePalette channel).entry index)) := by
  intro interpreter
  have value : (UInt8.ofNat index.val).toNat = index.val := by
    rw [UInt8.toNat_ofNat']
    omega
  have known : (UInt8.ofNat index.val).toNat < 16 := value.trans_lt index.isLt
  have same : (⟨(UInt8.ofNat index.val).toNat, known⟩ : Fin 16) = index := Fin.ext value
  refine ⟨.selectColor channel (UInt8.ofNat index.val), ?_, ?_⟩
  · change (UInt8.ofNat index.val).toNat ≤ 99
    omega
  · rw [interpreter.command_selectColor_of_lt channel known, same]

theorem exists_token_of_expressible {coding : ColorCoding} (faults : FaultPolicy)
    {command : Command} (expressible : command.Expressible coding) :
    ∃ token : Token, token.IsWritable ∧
      (withSettings ⟨coding, faults⟩).command token = .ok command := by
  cases expressible with
  | setAttribute named => exact ⟨.setAttribute _, named, rfl⟩
  | screen action => exact ⟨.screen action, trivial, rfl⟩
  | moveCursor direction fits => exact ⟨.moveCursor direction _, fits, rfl⟩
  | placeCursor rowFits columnFits => exact ⟨.placeCursor _ _, ⟨rowFits, columnFits⟩, rfl⟩
  | background color =>
      have entry : Palette.background.entry color.index = .background color :=
        congrArg Paint.background color.ofIndex_index
      rw [← entry]
      exact exists_token_of_entry coding faults .background color.index
  | foreground color direct =>
      subst direct
      have entry : Palette.directForeground.entry color.index = .foreground color :=
        congrArg Paint.foreground color.ofIndex_index
      rw [← entry]
      exact exists_token_of_entry .direct faults .foreground color.index
  | @weightedForeground intensity color standard weighted =>
      subst weighted
      obtain ⟨hue, bright⟩ := color
      obtain rfl : bright = false := standard
      rw [← Palette.intensityForeground_entry intensity hue]
      exact exists_token_of_entry .intensityBit faults .foreground _
  | text nonempty plain unmatched => exact ⟨.literal _, ⟨nonempty, plain, unmatched⟩, rfl⟩

theorem expressible_of_command {coding : ColorCoding} {faults : FaultPolicy} {token : Token}
    {command : Command} (writable : token.IsWritable)
    (calls : (withSettings ⟨coding, faults⟩).command token = .ok command) :
    command.Expressible coding := by
  cases token with
  | setAttribute change =>
      cases calls
      exact .setAttribute writable
  | screen action =>
      cases calls
      exact .screen action
  | moveCursor direction amount =>
      cases calls
      exact .moveCursor direction writable
  | placeCursor row column =>
      cases calls
      exact .placeCursor writable.1 writable.2
  | literal text =>
      cases calls
      exact .text writable.1 writable.2.1 writable.2.2
  | selectColor channel index =>
      rcases Nat.lt_or_ge index.toNat 16 with known | beyond
      · rw [command_selectColor_of_lt _ channel known] at calls
        cases calls
        cases channel with
        | background => exact .background _
        | foreground =>
            cases coding with
            | direct => exact .foreground _ rfl
            | intensityBit => exact .weightedForeground _ rfl rfl
      · rw [command_selectColor_of_le _ channel beyond] at calls
        cases calls

/-- **What can be asked for are the calls of tokens that can be written.** -/
theorem expressible_iff {coding : ColorCoding} (faults : FaultPolicy) {command : Command} :
    command.Expressible coding ↔ ∃ token : Token, token.IsWritable ∧
      (withSettings ⟨coding, faults⟩).command token = .ok command := by
  constructor
  · exact exists_token_of_expressible faults
  · rintro ⟨token, writable, calls⟩
    exact expressible_of_command writable calls

/-! ## Recordings -/

theorem exists_tokens_of_expressible {coding : ColorCoding} (faults : FaultPolicy)
    {commands : List Command} (expressible : ∀ command ∈ commands, command.Expressible coding) :
    ∃ tokens : List Token, (∀ token ∈ tokens, token.IsWritable) ∧
      tokens.map (withSettings ⟨coding, faults⟩).command = commands.map .ok := by
  induction commands with
  | nil => exact ⟨[], nofun, rfl⟩
  | cons command rest ih =>
      obtain ⟨first, others⟩ := List.forall_mem_cons.mp expressible
      obtain ⟨token, writable, calls⟩ := (expressible_iff faults).mp first
      obtain ⟨tokens, allWritable, allCalls⟩ := ih others
      refine ⟨token :: tokens, List.forall_mem_cons.mpr ⟨writable, allWritable⟩, ?_⟩
      rw [List.map_cons, calls, allCalls, List.map_cons]

/-- **The recordings of texts.**  With the standard palettes, under either coding and either
policy on faults, calls are what a fresh recording holds after some text is interpreted on it
exactly if each of them can be asked for, or they are the one call that shows a text without
delimiters, which may spell a command. -/
theorem exists_recording_iff (coding : ColorCoding) (faults : FaultPolicy)
    (commands : List Command) :
    let interpreter := withSettings ⟨coding, faults⟩
    (∃ text, (interpreter.interpret text Recording.empty).sink.toList = commands) ↔
      (∃ text, text ≠ [] ∧ delimiter ∉ text ∧ commands = [.text text]) ∨
        ∀ command ∈ commands, command.Expressible coding := by
  intro interpreter
  simp only [toList_interpret]
  constructor
  · rintro ⟨text, rfl⟩
    by_cases marked : delimiter ∈ text
    · right
      -- A fault may cut the calls short; each that is made is still the call of some token.
      intro command made
      obtain ⟨tokens, taken⟩ := text.exists_tokens
      have writable := Text.exists_tokens_eq_iff.mp ⟨text, marked, taken⟩
      have reading := FaultPolicy.ok_mem_of_mem_transcript made
      rw [interpreter.readings_of_tokens taken] at reading
      obtain ⟨token, found, calls⟩ := List.mem_map.mp reading
      exact (expressible_iff faults).mpr ⟨token, writable token found, calls⟩
    · rw [interpreter.transcript_of_plain marked]
      split
      next => exact .inr nofun
      next nonempty => exact .inl ⟨text, nonempty, marked, rfl⟩
  · rintro (⟨text, nonempty, plain, rfl⟩ | expressible)
    · refine ⟨text, ?_⟩
      rw [interpreter.transcript_of_plain plain, if_neg nonempty]
    · obtain ⟨tokens, writable, calls⟩ := exists_tokens_of_expressible faults expressible
      obtain ⟨text, -, taken⟩ := Text.exists_tokens_eq_iff.mpr writable
      refine ⟨text, ?_⟩
      rw [transcript, interpreter.readings_of_tokens taken, calls, FaultPolicy.transcript_map_ok]

end Interpreter

end TerminalMarkup
