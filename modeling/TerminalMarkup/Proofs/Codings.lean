import TerminalMarkup.Proofs.Renderings
import TerminalMarkup.Proofs.Tokens

/-!
# What the coding of colors affects

Under the standard palettes the coding decides how a bright foreground is asked for and
nothing else.  The two foreground palettes correspond entry by entry: where one has a
color in its own form, the other has the standard color of the same hue with an intensity
that tells the bright color from the standard one.

So an interpreter does the same under either coding except where it performs a foreground
selection (`Interpreter.interpret_codings`).  A text in which no foreground is selected
that exists has the same transcript under both (`Interpreter.transcript_codings`), and
renders to the same bytes.
-/

set_option autoImplicit false

namespace TerminalMarkup

universe u v w

/-! ## Calls side by side -/

/-- Lists that both correspond to a third are its counterparts side by side. -/
theorem forall₂_zip_of_forall₂ {α : Type u} {β : Type v} {γ : Type w} {left : α → β → Prop}
    {right : α → γ → Prop} {items : List α} {first : List β} {second : List γ}
    (lefts : List.Forall₂ left items first) (rights : List.Forall₂ right items second) :
    List.Forall₂ (fun item pair => left item pair.1 ∧ right item pair.2) items
      (first.zip second) := by
  induction lefts generalizing second with
  | nil => exact .nil
  | cons head _ ih =>
      cases rights with
      | cons other others => exact .cons ⟨head, other⟩ (ih others)

/-- The calls that a token makes under the two codings, the direct one first.  They are
the same unless the token selects a foreground, which is then set as the color of its
number or as the standard color of that hue, with the intensity that stands for bright. -/
inductive Counterparts : Token → Command × Command → Prop where
  | foreground {index : UInt8} {color : Color} (numbered : index.toNat = color.index.val)
      (standard : color.base.bright = false) :
      Counterparts (.selectColor .foreground index)
        (.paint (.foreground color),
          .paint (.weightedForeground (if color.bright then .bold else .normal) color.base))
  | same {token : Token} {command : Command}
      (other : ∀ index, token ≠ .selectColor .foreground index) :
      Counterparts token (command, command)

namespace Interpreter

/-- The entries of the two foreground palettes correspond. -/
theorem counterparts_foreground {index : UInt8} (known : index.toNat < 16) :
    Counterparts (.selectColor .foreground index)
      (.paint (Palette.directForeground.entry ⟨index.toNat, known⟩),
        .paint (Palette.intensityForeground.entry ⟨index.toNat, known⟩)) := by
  have numbered : index.toNat = (Color.ofIndex ⟨index.toNat, known⟩).index.val := by
    rw [Color.index_ofIndex]
  have intensity : (if 8 ≤ index.toNat then Intensity.bold else .normal) =
      if (Color.ofIndex ⟨index.toNat, known⟩).bright then .bold else .normal := by
    simp only [Color.ofIndex, decide_eq_true_eq]
  simp only [Palette.directForeground, Palette.intensityForeground, intensity]
  exact .foreground numbered rfl

theorem counterparts_of_command {faults : FaultPolicy} {token : Token} {first second : Command}
    (direct : (withSettings ⟨.direct, faults⟩).command token = .ok first)
    (weighted : (withSettings ⟨.intensityBit, faults⟩).command token = .ok second) :
    Counterparts token (first, second) := by
  cases token with
  | selectColor channel index =>
      rcases Nat.lt_or_ge index.toNat 16 with known | beyond
      · rw [command_selectColor_of_lt _ channel known] at direct weighted
        cases direct
        cases weighted
        cases channel with
        | foreground => exact counterparts_foreground known
        | background =>
            apply Counterparts.same
            rintro index ⟨⟩
      · rw [command_selectColor_of_le _ channel beyond] at direct
        cases direct
  | setAttribute | screen | moveCursor | placeCursor | literal =>
      cases direct
      cases weighted
      apply Counterparts.same
      rintro index ⟨⟩

/-! ## Texts without foreground selections -/

theorem command_codings {faults : FaultPolicy} {token : Token}
    (unselected : ∀ index, token = .selectColor .foreground index → 16 ≤ index.toNat) :
    (withSettings ⟨.direct, faults⟩).command token =
      (withSettings ⟨.intensityBit, faults⟩).command token := by
  cases token with
  | selectColor channel index =>
      cases channel with
      | foreground =>
          have beyond : 16 ≤ index.toNat := unselected index rfl
          rw [command_selectColor_of_le _ .foreground beyond,
            command_selectColor_of_le _ .foreground beyond]
      | background => rfl
  | setAttribute | screen | moveCursor | placeCursor | literal => rfl

/-- Where no foreground is selected the coding has no influence. -/
theorem transcript_codings (faults : FaultPolicy) {text : Text}
    (unselected : ∀ index, .ok (.selectColor .foreground index) ∈ text.tokens →
      16 ≤ index.toNat) :
    (withSettings ⟨.direct, faults⟩).transcript text =
      (withSettings ⟨.intensityBit, faults⟩).transcript text := by
  obtain ⟨tokens, taken⟩ := text.exists_tokens
  have same : tokens.map (withSettings ⟨.direct, faults⟩).command =
      tokens.map (withSettings ⟨.intensityBit, faults⟩).command := by
    apply List.map_congr_left
    rintro token found
    apply command_codings
    rintro index rfl
    apply unselected index
    rw [taken]
    exact List.mem_map_of_mem found
  rw [transcript, transcript, readings_of_tokens _ taken, readings_of_tokens _ taken, same]
  rfl

/-- **The coding affects foregrounds and nothing else.**  Under either policy a text is
answered alike under the two codings, with the same calls counted and the same faults.
The calls made are as many, one for each performed token, and at each position the calls
are the same exactly if the token there does not select a foreground.  A text whose
tokens select none of the sixteen foregrounds renders to the same bytes. -/
theorem interpret_codings (faults : FaultPolicy) (text : Text) :
    let direct := withSettings ⟨.direct, faults⟩
    let weighted := withSettings ⟨.intensityBit, faults⟩
    let first := direct.interpret text Recording.empty
    let second := weighted.interpret text Recording.empty
    first.result = second.result ∧ first.sink.length = second.sink.length ∧
      (∃ tokens, text.tokens = tokens.map .ok ∧
        List.Forall₂ Counterparts (faults.performed tokens)
          (first.sink.toList.zip second.sink.toList)) ∧
      ((∀ index, .ok (.selectColor .foreground index) ∈ text.tokens → 16 ≤ index.toNat) →
        (direct.render text).result = (weighted.render text).result ∧
          ∀ buffer,
            (direct.renderOnto text buffer).result = (weighted.renderOnto text buffer).result ∧
              (direct.renderOnto text buffer).buffer =
                (weighted.renderOnto text buffer).buffer) := by
  intro direct weighted first second
  obtain ⟨tokens, taken⟩ := text.exists_tokens
  have firstCalls : List.Forall₂ (fun token command => direct.command token = .ok command)
      (faults.performed tokens) first.sink.toList := by
    rw [direct.toList_interpret, transcript, direct.readings_of_tokens taken]
    exact direct.commands_transcript faults tokens
  have secondCalls : List.Forall₂ (fun token command => weighted.command token = .ok command)
      (faults.performed tokens) second.sink.toList := by
    rw [weighted.toList_interpret, transcript, weighted.readings_of_tokens taken]
    exact weighted.commands_transcript faults tokens
  refine ⟨?_, ?_, ⟨tokens, taken, ?_⟩, fun unselected => ?_⟩
  · have paints : PaintsRelated (fun _ _ => True) direct weighted := fun _ _ => trivial
    have policy : direct.settings.faults = weighted.settings.faults := rfl
    have answers := (transcript_related policy paints text).1
    rw [(direct.interpret_transcript text Recording.empty).1, answers,
      (weighted.interpret_transcript text Recording.empty).1]
  · exact firstCalls.length_eq.symm.trans secondCalls.length_eq
  · refine (forall₂_zip_of_forall₂ firstCalls secondCalls).imp ?_
    intro token calls made
    exact counterparts_of_command made.1 made.2
  · exact rendering_of_transcript (transcript_codings faults unselected)

end Interpreter

end TerminalMarkup
