import TerminalMarkup.Proofs.Tokens

/-!
# The log of an interpretation

The log of an interpretation can be read without knowing the interpreter.  It begins by
entering a span and ends by leaving it, whatever is answered, and everything else is an
event in between.  A text without delimiters is one event.  In any other text each content
that is reached has an account, in the order of the text: that its token is about to be
performed, and, if the token has a fault and faults are skipped, that the content is left
out.  If there is an answer, the last event has its counts.

What a reader finds of an event is a level, a message and fields (`Event.Shows`), and they
are written out for each of these events.

An account names the byte at which a content starts.  The splitter knows that byte before it
takes the piece, and it is where the bytes of the content are found in the bytes of the text
(`Text.extract_utf8_of_mem_placedTokens`).

Performing a piece of content announces its token, and then makes a call or has a fault
(`Interpreter.performPiece_token?`).  By induction, performing pieces logs the accounts of the
contents reached (`Interpreter.performAll_log`).  `Chronicled` is what this comes to for a
text with delimiters, and `Interpreter.interpret_log` is about every text.
-/

set_option autoImplicit false

namespace TerminalMarkup

universe u

/-! ## Where pieces stand -/

namespace Splitter

/-- A piece stands in what was to be split at its offset. -/
theorem exists_append_of_mem_pieces {splitter : Splitter} {placed : PlacedPiece}
    (found : placed ∈ splitter.pieces) :
    ∃ before after, splitter.remainder = before ++ placed.piece.text ++ after ∧
      placed.offset = splitter.position + Text.byteLength before := by
  fun_induction pieces splitter with
  | case1 => cases found
  | case2 splitter piece later step ih =>
      obtain ⟨-, -, remains, position⟩ := next_eq_some_iff.mp step
      rcases List.mem_cons.mp found with rfl | inLater
      · exact ⟨[], later.remainder, remains, rfl⟩
      · obtain ⟨before, after, later_remains, offset⟩ := ih inLater
        refine ⟨piece.text ++ before, after, ?_, ?_⟩
        · simp only [remains, later_remains, List.append_assoc]
        · rw [offset, position, Text.byteLength_append, Nat.add_assoc]

/-- Each piece starts behind those before it. -/
theorem pairwise_offset_pieces (splitter : Splitter) :
    splitter.pieces.Pairwise (·.offset < ·.offset) := by
  fun_induction pieces splitter with
  | case1 => exact .nil
  | case2 splitter piece later step ih =>
      refine List.pairwise_cons.mpr ⟨?_, ih⟩
      intro placed found
      obtain ⟨before, -, -, offset⟩ := exists_append_of_mem_pieces found
      have nonempty : Text.byteLength piece.text ≠ 0 :=
        mt Text.byteLength_eq_zero_iff.mp (next_text_ne_nil step)
      change splitter.position < placed.offset
      rw [offset, next_position step]
      omega

end Splitter

/-! ## Contents with their places and tokens -/

/-- A content where it stands in a text, with its token. -/
structure PlacedToken where
  /-- How many bytes come before the content. -/
  offset : Nat
  content : Text
  token : Token
  classified : Token.ofContent content = .ok token

/-- The content of a piece with its place and its token, if the piece is one of content. -/
def PlacedPiece.token? (placed : PlacedPiece) : Option PlacedToken :=
  match placed.piece.content? with
  | none => none
  | some content =>
      match classified : Token.ofContent content with
      | .ok token => some ⟨placed.offset, content, token, classified⟩
      | .error _ => none

/-- The contents of a text, in order. -/
def Text.placedTokens (text : Text) : List PlacedToken := text.pieces.filterMap PlacedPiece.token?

namespace PlacedPiece

/-- A piece of content has a token, where the piece stands. -/
theorem exists_token?_eq_some {piece : PlacedPiece} {content : Text}
    (some : piece.piece.content? = some content) :
    ∃ placed : PlacedToken, piece.token? = .some placed ∧ placed.offset = piece.offset ∧
      placed.content = content := by
  obtain ⟨token, classified⟩ := Token.exists_ofContent_eq_ok content
  refine ⟨⟨piece.offset, content, token, classified⟩, ?_, rfl, rfl⟩
  simp only [token?, some]
  split
  next other same =>
    have equal : other = token := Except.ok.inj (same.symm.trans classified)
    subst equal
    rfl
  next fault same => cases same.symm.trans classified

theorem token?_eq_none {piece : PlacedPiece} (none : piece.piece.content? = none) :
    piece.token? = .none := by
  simp only [token?, none]

theorem of_token?_eq_some {piece : PlacedPiece} {placed : PlacedToken}
    (some : piece.token? = some placed) :
    placed.offset = piece.offset ∧ piece.piece.content? = .some placed.content := by
  cases content : piece.piece.content? with
  | none =>
      rw [token?_eq_none content] at some
      cases some
  | some text =>
      obtain ⟨other, same, offset, rfl⟩ := exists_token?_eq_some content
      cases some.symm.trans same
      exact ⟨offset, rfl⟩

theorem map_content_token? (piece : PlacedPiece) :
    piece.token?.map PlacedToken.content = piece.piece.content? := by
  cases content : piece.piece.content? with
  | none => rw [token?_eq_none content, Option.map_none]
  | some text =>
      obtain ⟨placed, same, -, rfl⟩ := exists_token?_eq_some content
      rw [same, Option.map_some]

end PlacedPiece

namespace Text

theorem map_content_placedTokens (text : Text) :
    text.placedTokens.map PlacedToken.content = text.contents := by
  rw [placedTokens, List.map_filterMap, ← filterMap_content?_pieces]
  simp only [PlacedPiece.map_content_token?]

/-- A content is found at its offset: the bytes of the text there are its bytes. -/
theorem extract_utf8_of_mem_placedTokens {text : Text} {placed : PlacedToken}
    (found : placed ∈ text.placedTokens) :
    (utf8 text).extract placed.offset (placed.offset + byteLength placed.content) =
      utf8 placed.content := by
  obtain ⟨piece, member, token⟩ := List.mem_filterMap.mp found
  obtain ⟨offset, some⟩ := PlacedPiece.of_token?_eq_some token
  obtain ⟨content, -⟩ := Piece.content?_eq_some_iff.mp some
  obtain ⟨before, after, whole, before_length⟩ := Splitter.exists_append_of_mem_pieces member
  have start : placed.offset = byteLength before := by
    rw [offset, before_length]
    exact Nat.zero_add _
  have split : text = before ++ placed.content ++ after := by
    rw [content] at whole
    exact whole
  rw [start]
  conv_lhs => rw [split]
  exact extract_utf8_append before placed.content after

/-- Each content starts behind those before it. -/
theorem pairwise_offset_placedTokens (text : Text) :
    text.placedTokens.Pairwise (·.offset < ·.offset) := by
  refine (Splitter.pairwise_offset_pieces (.ofText text)).filterMap PlacedPiece.token? ?_
  intro first second ordered found firstToken other secondToken
  rw [(PlacedPiece.of_token?_eq_some firstToken).1, (PlacedPiece.of_token?_eq_some secondToken).1]
  exact ordered

end Text

/-! ## Accounts -/

/-- What a reader of the log finds of an event. -/
structure Event.Shows (event : Event) (level : Level) (message : String)
    (fields : List (String × FieldValue)) : Prop where
  level : event.level = level
  message : event.message = message
  fields : event.fields = fields

/-- The word in the log for what a token asks for. -/
def Token.kindWord : Token → String
  | setAttribute _ => "StyleToggle"
  | selectColor _ _ => "ColorSelect"
  | screen _ => "ScreenOp"
  | moveCursor _ _ => "CursorMove"
  | placeCursor _ _ => "CursorPosition"
  | literal _ => "Literal"

namespace PlacedToken

/-- The fault of the token, if it has one. -/
def fault? (placed : PlacedToken) : Option Fault := placed.token.fault?

/-- That the token is about to be performed. -/
def announcement (placed : PlacedToken) : Event := .content placed.token.kind placed.content

/-- That the content is left out, if its token has a fault. -/
def warning? (placed : PlacedToken) : Option Event :=
  placed.fault?.map (.skipped placed.offset placed.content)

theorem shows_announcement (placed : PlacedToken) :
    placed.announcement.Shows .trace "Dispatching markup chunk"
      [("kind", .text placed.token.kindWord.toList), ("chunk", .text placed.content)] := by
  have kind : placed.token.kind.name = placed.token.kindWord := by
    cases placed.token <;> rfl
  rw [← kind]
  exact ⟨rfl, rfl, rfl⟩

theorem shows_warning {placed : PlacedToken} {event : Event}
    (warns : placed.warning? = some event) :
    ∃ fault, placed.fault? = some fault ∧
      event.Shows .warn "Skipping markup chunk"
        [("offset", .number placed.offset), ("chunk", .text placed.content),
          ("error", .text fault.message.toList)] := by
  obtain ⟨fault, faulty, rfl⟩ := Option.map_eq_some_iff.mp warns
  exact ⟨fault, faulty, rfl, rfl, rfl⟩

end PlacedToken

namespace FaultPolicy

/-- The contents that an interpretation reaches: all of them or, if faults end it, those up
to the first with a fault. -/
def reached (faults : FaultPolicy) (tokens : List PlacedToken) : List PlacedToken :=
  match faults with
  | abort => tokens.takeWhile (·.fault?.isNone) ++ (tokens.dropWhile (·.fault?.isNone)).take 1
  | skip => tokens

/-- What is logged about a content that is reached. -/
def account (faults : FaultPolicy) (placed : PlacedToken) : List Event :=
  match faults with
  | abort => [placed.announcement]
  | skip => placed.announcement :: placed.warning?.toList

/-- What is logged about contents in order. -/
def chronicle (faults : FaultPolicy) (tokens : List PlacedToken) : List Event :=
  (faults.reached tokens).flatMap faults.account

theorem reached_cons_of_sound (faults : FaultPolicy) {placed : PlacedToken}
    (sound : placed.fault? = none) (rest : List PlacedToken) :
    faults.reached (placed :: rest) = placed :: faults.reached rest := by
  cases faults <;> simp [reached, sound]

theorem reached_abort_cons_of_fault {placed : PlacedToken} {fault : Fault}
    (faulty : placed.fault? = some fault) (rest : List PlacedToken) :
    abort.reached (placed :: rest) = [placed] := by
  simp [reached, faulty]

theorem chronicle_nil (faults : FaultPolicy) : faults.chronicle [] = [] := by
  cases faults <;> rfl

theorem chronicle_cons_of_sound (faults : FaultPolicy) {placed : PlacedToken}
    (sound : placed.fault? = none) (rest : List PlacedToken) :
    faults.chronicle (placed :: rest) = placed.announcement :: faults.chronicle rest := by
  have alone : faults.account placed = [placed.announcement] := by
    cases faults <;> simp [account, PlacedToken.warning?, sound]
  rw [chronicle, faults.reached_cons_of_sound sound, List.flatMap_cons, alone]
  rfl

theorem chronicle_abort_cons_of_fault {placed : PlacedToken} {fault : Fault}
    (faulty : placed.fault? = some fault) (rest : List PlacedToken) :
    abort.chronicle (placed :: rest) = [placed.announcement] := by
  rw [chronicle, reached_abort_cons_of_fault faulty]
  rfl

theorem chronicle_skip_cons_of_fault {placed : PlacedToken} {fault : Fault}
    (faulty : placed.fault? = some fault) (rest : List PlacedToken) :
    skip.chronicle (placed :: rest) =
      placed.announcement ::
        .skipped placed.offset placed.content fault :: skip.chronicle rest := by
  simp [chronicle, reached, account, PlacedToken.warning?, faulty]

end FaultPolicy

namespace Interpreter

variable {σ : Type u} [Sink σ]

/-- Performing a piece of content logs that its token is about to be performed, and makes
the call of the token or has its fault. -/
theorem performPiece_token? (interpreter : Interpreter) {piece : PlacedPiece}
    {placed : PlacedToken} (found : piece.token? = some placed) (sink : σ) :
    interpreter.performPiece piece.piece sink =
      match interpreter.command placed.token with
      | .ok command => ⟨.ok true, command.applyTo sink, [.happened placed.announcement]⟩
      | .error fault => ⟨.error fault, sink, [.happened placed.announcement]⟩ := by
  obtain ⟨-, some⟩ := PlacedPiece.of_token?_eq_some found
  obtain ⟨content, nonempty⟩ := Piece.content?_eq_some_iff.mp some
  simp only [content, performPiece, if_neg (mt List.isEmpty_iff.mp nonempty), placed.classified,
    perform_eq]
  cases interpreter.command placed.token <;> rfl

/-! A piece in front of others adds its account to the log.  If its token has a fault and
faults end an interpretation, then the others add nothing. -/

theorem log_performAll_cons_of_no_content (interpreter : Interpreter) {piece : PlacedPiece}
    (none : piece.piece.content? = none) (rest : List PlacedPiece) (sink : σ) :
    (interpreter.performAll (piece :: rest) sink).log = (interpreter.performAll rest sink).log := by
  simp only [performAll, interpreter.performPiece_of_content?_eq_none sink none, Outcome.following,
    List.nil_append]

theorem log_performAll_cons_of_ok (interpreter : Interpreter) {piece : PlacedPiece}
    {placed : PlacedToken} (found : piece.token? = some placed) {command : Command}
    (reads : interpreter.command placed.token = .ok command) (rest : List PlacedPiece) (sink : σ) :
    (interpreter.performAll (piece :: rest) sink).log =
      .happened placed.announcement ::
        (interpreter.performAll rest (command.applyTo sink)).log := by
  have performed := interpreter.performPiece_token? found sink
  simp only [reads] at performed
  simp only [performAll, performed, Outcome.following, List.singleton_append]

theorem log_performAll_cons_of_abort (interpreter : Interpreter) {piece : PlacedPiece}
    {placed : PlacedToken} (found : piece.token? = some placed) {fault : Fault}
    (fails : interpreter.command placed.token = .error fault)
    (policy : interpreter.settings.faults = .abort) (rest : List PlacedPiece) (sink : σ) :
    (interpreter.performAll (piece :: rest) sink).log = [.happened placed.announcement] := by
  have performed := interpreter.performPiece_token? found sink
  simp only [fails] at performed
  simp only [performAll, performed, policy]

theorem log_performAll_cons_of_skip (interpreter : Interpreter) {piece : PlacedPiece}
    {placed : PlacedToken} (found : piece.token? = some placed) {fault : Fault}
    (fails : interpreter.command placed.token = .error fault)
    (policy : interpreter.settings.faults = .skip) (rest : List PlacedPiece) (sink : σ) :
    (interpreter.performAll (piece :: rest) sink).log =
      .happened placed.announcement ::
        .happened (.skipped placed.offset placed.content fault) ::
          (interpreter.performAll rest sink).log := by
  have performed := interpreter.performPiece_token? found sink
  simp only [fails] at performed
  obtain ⟨offset, some⟩ := PlacedPiece.of_token?_eq_some found
  have text : piece.piece.text = placed.content := by
    rw [(Piece.content?_eq_some_iff.mp some).1]
    rfl
  simp only [performAll, performed, policy, Outcome.following, offset, text, List.cons_append,
    List.nil_append]

/-- **Performing pieces logs the accounts of the contents reached.** -/
theorem performAll_log (interpreter : Interpreter) (pieces : List PlacedPiece) (sink : σ) :
    (interpreter.performAll pieces sink).log =
      (interpreter.settings.faults.chronicle (pieces.filterMap PlacedPiece.token?)).map
        .happened := by
  induction pieces generalizing sink with
  | nil =>
      rw [List.filterMap_nil, FaultPolicy.chronicle_nil]
      rfl
  | cons piece rest ih =>
      cases content : piece.piece.content? with
      | none =>
          rw [interpreter.log_performAll_cons_of_no_content content, ih,
            List.filterMap_cons_none (PlacedPiece.token?_eq_none content)]
      | some text =>
          obtain ⟨placed, found, -, -⟩ := PlacedPiece.exists_token?_eq_some content
          have faults : Reading.fault? (interpreter.command placed.token) = placed.fault? :=
            interpreter.fault?_command placed.token
          rw [List.filterMap_cons_some found]
          cases reading : interpreter.command placed.token with
          | ok command =>
              rw [reading] at faults
              rw [interpreter.log_performAll_cons_of_ok found reading, ih,
                FaultPolicy.chronicle_cons_of_sound _ faults.symm, List.map_cons]
          | error fault =>
              rw [reading] at faults
              cases policy : interpreter.settings.faults with
              | abort =>
                  rw [interpreter.log_performAll_cons_of_abort found reading policy,
                    FaultPolicy.chronicle_abort_cons_of_fault faults.symm, List.map_singleton]
              | skip =>
                  rw [interpreter.log_performAll_cons_of_skip found reading policy, ih, policy,
                    FaultPolicy.chronicle_skip_cons_of_fault faults.symm, List.map_cons,
                    List.map_cons]

end Interpreter

/-! ## What the log reports -/

/-- The faults that an answer reports: those left out, or the one that ended everything. -/
def faultsReported : Except Fault Summary → List Fault
  | .ok summary => summary.skipped
  | .error fault => [fault]

/-- What is logged about an answer, if there is one. -/
def conclusion : Except Fault Summary → List Event
  | .ok summary => [.interpreted summary.calls summary.skipped.length]
  | .error _ => []

theorem shows_conclusion {result : Except Fault Summary} {summary : Summary}
    (answered : result = .ok summary) :
    ∃ event, conclusion result = [event] ∧
      event.Shows .trace "Parsed markup"
        [("commands", .number summary.calls), ("skipped", .number summary.skipped.length)] := by
  subst answered
  exact ⟨_, rfl, rfl, rfl, rfl⟩

namespace FaultPolicy

/-- Of the contents reached before a fault ends everything, only the last has one. -/
theorem filterMap_fault?_reached_abort (tokens : List PlacedToken) :
    (abort.reached tokens).filterMap PlacedToken.fault? =
      (tokens.filterMap PlacedToken.fault?).take 1 := by
  induction tokens with
  | nil => rfl
  | cons placed rest ih =>
      cases faulty : placed.fault? with
      | none =>
          rw [reached_cons_of_sound _ faulty, List.filterMap_cons_none faulty,
            List.filterMap_cons_none faulty, ih]
      | some fault =>
          rw [reached_abort_cons_of_fault faulty, List.filterMap_cons_some faulty,
            List.filterMap_cons_some faulty]
          rfl

/-- Warnings are logged for the contents left out and for nothing else. -/
theorem filter_warn_chronicle_skip (tokens : List PlacedToken) :
    (skip.chronicle tokens).filter (·.level == .warn) =
      tokens.filterMap PlacedToken.warning? := by
  induction tokens with
  | nil => rfl
  | cons placed rest ih =>
      have announced : (placed.announcement.level == .warn) = false := rfl
      cases faulty : placed.fault? with
      | none =>
          have silent : placed.warning? = none := by rw [PlacedToken.warning?, faulty]; rfl
          rw [chronicle_cons_of_sound _ faulty, List.filterMap_cons_none silent,
            List.filter_cons_of_neg (by simp [announced]), ih]
      | some fault =>
          have warns : placed.warning? = some (.skipped placed.offset placed.content fault) := by
            rw [PlacedToken.warning?, faulty]; rfl
          rw [chronicle_skip_cons_of_fault faulty, List.filterMap_cons_some warns,
            List.filter_cons_of_neg (by simp [announced]), List.filter_cons_of_pos rfl, ih]

end FaultPolicy

namespace Interpreter

theorem readings_of_marked (interpreter : Interpreter) {text : Text} (marked : delimiter ∈ text) :
    interpreter.readings text =
      (text.placedTokens.map PlacedToken.token).map interpreter.command := by
  rw [readings, if_pos marked, ← Text.map_content_placedTokens, List.map_map, List.map_map]
  refine List.map_congr_left fun placed _ => ?_
  simp only [Function.comp_apply, read, placed.classified]
  rfl

/-- **The answer reports the faults of the contents reached.** -/
theorem faultsReported_transcript (interpreter : Interpreter) {text : Text}
    (marked : delimiter ∈ text) :
    faultsReported (interpreter.transcript text).result =
      (interpreter.settings.faults.reached text.placedTokens).filterMap PlacedToken.fault? := by
  have faults : faultsOf (interpreter.readings text) =
      text.placedTokens.filterMap PlacedToken.fault? := by
    rw [interpreter.readings_of_marked marked, faultsOf_map_command, List.filterMap_map]
    rfl
  rw [transcript]
  cases interpreter.settings.faults with
  | skip =>
      rw [FaultPolicy.transcript_skip, faults]
      rfl
  | abort =>
      rw [FaultPolicy.result_transcript_abort, FaultPolicy.filterMap_fault?_reached_abort, faults]
      cases text.placedTokens.filterMap PlacedToken.fault? <;> rfl

variable {σ : Type u} [Sink σ]

theorem performMarkup_log (interpreter : Interpreter) (text : Text) (sink : σ) :
    (interpreter.performMarkup text sink).log =
      (interpreter.settings.faults.chronicle text.placedTokens ++
        conclusion (interpreter.performMarkup text sink).result).map .happened := by
  have logged := interpreter.performAll_log text.pieces sink
  rw [(interpreter.performMarkup_eq_performAll text sink).1, List.map_append, Text.placedTokens,
    ← logged]
  simp only [performMarkup]
  cases result : (interpreter.performAll text.pieces sink).result with
  | ok summary => rfl
  | error fault => exact (List.append_nil _).symm

end Interpreter

/-- What the events within an interpretation of a text with delimiters come to. -/
structure Chronicled (faults : FaultPolicy) (text : Text) (result : Except Fault Summary)
    (events : List Event) : Prop where
  /-- Each content reached has its account, in order, and the counts of the answer come last
  if there is one. -/
  accounts : events =
    (faults.reached text.placedTokens).flatMap faults.account ++ conclusion result
  /-- An announcement has the kind of the token and the content. -/
  announced : ∀ placed ∈ faults.reached text.placedTokens,
    placed.announcement.Shows .trace "Dispatching markup chunk"
      [("kind", .text placed.token.kindWord.toList), ("chunk", .text placed.content)]
  /-- A warning has the place of the content, the content and the fault. -/
  warned : ∀ placed ∈ faults.reached text.placedTokens, ∀ event,
    placed.warning? = some event → ∃ fault, placed.fault? = some fault ∧
      event.Shows .warn "Skipping markup chunk"
        [("offset", .number placed.offset), ("chunk", .text placed.content),
          ("error", .text fault.message.toList)]
  /-- The last event has the counts of the answer. -/
  concluded : ∀ summary, result = .ok summary → ∃ event, conclusion result = [event] ∧
    event.Shows .trace "Parsed markup"
      [("commands", .number summary.calls), ("skipped", .number summary.skipped.length)]
  /-- Without an answer there are the accounts and nothing else. -/
  broken : ∀ fault, result = .error fault → conclusion result = []
  /-- The answer reports the faults of the contents reached. -/
  reports : faultsReported result =
    (faults.reached text.placedTokens).filterMap PlacedToken.fault?
  /-- If faults are skipped there is an answer, and for each fault that it lists there is a
  warning, in the same order. -/
  warnings : faults = .skip → ∃ summary, result = .ok summary ∧
    summary.skipped = text.placedTokens.filterMap PlacedToken.fault? ∧
    events.filter (·.level == .warn) = text.placedTokens.filterMap PlacedToken.warning?
  /-- The contents are those of the text. -/
  contents : text.placedTokens.map PlacedToken.content = text.contents
  /-- Each has a greater offset than the one before. -/
  ordered : text.placedTokens.Pairwise (·.offset < ·.offset)
  /-- At the offset of a content the bytes of the text are its bytes. -/
  located : ∀ placed ∈ text.placedTokens,
    (Text.utf8 text).extract placed.offset (placed.offset + Text.byteLength placed.content) =
      Text.utf8 placed.content

namespace Interpreter

variable {σ : Type u} [Sink σ]

/-- Whatever the markup comes to, its events chronicle it. -/
theorem chronicled_performMarkup (interpreter : Interpreter) {text : Text}
    (marked : delimiter ∈ text) (sink : σ) :
    Chronicled interpreter.settings.faults text (interpreter.performMarkup text sink).result
      (interpreter.settings.faults.chronicle text.placedTokens ++
        conclusion (interpreter.performMarkup text sink).result) := by
  have result : (interpreter.performMarkup text sink).result =
      (interpreter.transcript text).result := by
    rw [(interpreter.performMarkup_eq_performAll text sink).1, transcript, readings,
      if_pos marked, ← Text.filterMap_content?_pieces]
    exact (interpreter.performAll_transcript text.pieces sink).1
  have reports := interpreter.faultsReported_transcript marked
  rw [← result] at reports
  refine
    { accounts := rfl
      announced := fun placed _ => placed.shows_announcement
      warned := fun _ _ _ warns => PlacedToken.shows_warning warns
      concluded := fun _ answered => shows_conclusion answered
      broken := fun _ failed => by rw [failed, conclusion]
      reports := reports
      warnings := ?_
      contents := text.map_content_placedTokens
      ordered := text.pairwise_offset_placedTokens
      located := fun _ found => Text.extract_utf8_of_mem_placedTokens found }
  intro policy
  have goesThrough : (interpreter.performMarkup text sink).result =
      .ok ⟨(callsOf (interpreter.readings text)).length,
        faultsOf (interpreter.readings text)⟩ := by
    rw [result, interpreter.transcript_of_skip policy]
  rw [policy, goesThrough] at reports
  refine ⟨_, goesThrough, reports, ?_⟩
  rw [policy, List.filter_append, FaultPolicy.filter_warn_chronicle_skip, goesThrough]
  exact List.append_nil _

/-- **The log of an interpretation is faithful.**  It begins by entering a span that has the
number of bytes and the coding, ends by leaving that span, whatever is answered, and has
events and nothing else in between.  For a text without delimiters there is one, which has no
fields.  For any other text they are its chronicle. -/
theorem interpret_log (interpreter : Interpreter) (text : Text) (sink : σ) :
    let outcome := interpreter.interpret text sink
    let mode := match interpreter.settings.coding with
      | .direct => "Direct"
      | .intensityBit => "IntensityBit"
    ∃ (span : Span) (events : List Event),
      span.name = "parse" ∧ span.level = .info ∧
      span.fields = [("length", .number (Text.utf8 text).size), ("mode", .text mode.toList)] ∧
      outcome.log = .entered span :: events.map .happened ++ [.left span] ∧
      (delimiter ∉ text →
        ∃ event, events = [event] ∧ event.Shows .trace "Parsed plain text" []) ∧
      (delimiter ∈ text →
        Chronicled interpreter.settings.faults text outcome.result events) := by
  intro outcome mode
  have fields : (Span.interpretation (Text.byteLength text) interpreter.settings.coding).fields =
      [("length", .number (Text.utf8 text).size), ("mode", .text mode.toList)] := by
    simp only [mode, Span.fields, Text.size_utf8]
    cases interpreter.settings.coding <;> rfl
  by_cases marked : delimiter ∈ text
  · have performed : outcome = (interpreter.performMarkup text sink).within
        (.interpretation (Text.byteLength text) interpreter.settings.coding) := by
      simp only [outcome, interpret, if_neg (Text.not_isPlain marked)]
    refine ⟨_, interpreter.settings.faults.chronicle text.placedTokens ++
      conclusion (interpreter.performMarkup text sink).result, rfl, rfl, fields, ?_,
      fun plain => absurd marked plain, fun _ => ?_⟩
    · rw [performed, ← interpreter.performMarkup_log text sink]
      rfl
    · rw [performed]
      exact interpreter.chronicled_performMarkup marked sink
  · refine ⟨_, [.plainText], rfl, rfl, fields, ?_, fun _ => ⟨_, rfl, rfl, rfl, rfl⟩,
      fun found => absurd found marked⟩
    simp only [outcome, interpret, if_pos (Text.isPlain_iff.mpr marked), showPlain]
    split <;> rfl

/-- A warning counts the bytes before the content, not the characters. -/
example :
    ((withSettings .lenient).interpret ['é', '%', 'F', '1', '6'] Recording.empty).log =
      [.entered (.interpretation 6 .direct),
        .happened (.content .literal ['é']),
        .happened (.content .selectColor ['F', '1', '6']),
        .happened (.skipped 3 ['F', '1', '6'] (.unknownColor .foreground 16)),
        .happened (.interpreted 1 1),
        .left (.interpretation 6 .direct)] := by
  decide +kernel

end Interpreter

end TerminalMarkup
