import TerminalMarkup.Proofs.Shapes

/-!
# The grammar of keywords

The language has a grammar, which says how each token is spelled (`Token.Spells`):
a keyword in either case and the decimal digits of its numbers, and nothing else.
The table of keywords follows that grammar entry by entry
(`Meaning.exists_token_of_matches`, `Token.exists_entry_of_spells`), and no two of its
entries apply to the same content (`keywords_unambiguous`).  So content has the token
that the grammar says, whatever the order of the table, and is text where the grammar
says nothing (`Token.ofContent_accepts_grammar`).

The numbers of the grammar have at most two or three digits, which is less than a byte
or two can hold, so reading one never fails.

Content is looked up in the table from the top, and the first entry that applies decides.
This would leave room for entries that hide others, but no content is of the shape of two
entries.  All shapes that content is of have the key of that content, and in an unambiguous
table no two entries share a key (`Token.Unambiguous.length_filter_applies_le`).  So it does
not matter that the first entry wins.  Reordered in any way, an unambiguous table stays
unambiguous and gives every content the same token (`Token.Unambiguous.ofContentIn_perm`).
The table of keywords is such a table, and its entries capture what their meanings take
(`Token.keywords_order_irrelevant`).
-/

set_option autoImplicit false

namespace TerminalMarkup

/-! ## Numerals of bounded width -/

namespace Numeral

theorem digitValue_le {digit : Char} (isDigit : digit.isDigit) : digitValue digit ≤ 9 := by
  have high := (Char.isDigit_iff_toNat.mp isDigit).2
  simp only [Char.reduceToNat] at high
  simp only [digitValue, Char.reduceToNat]
  omega

/-- Every further digit multiplies what the digits so far can be by ten. -/
theorem valueFrom_lt {start : Nat} {digits : Text} (allDigits : ∀ digit ∈ digits, digit.isDigit) :
    valueFrom start digits < (start + 1) * 10 ^ digits.length := by
  induction digits generalizing start with
  | nil =>
      rw [List.length_nil, Nat.pow_zero, Nat.mul_one]
      exact Nat.lt_succ_self start
  | cons digit rest ih =>
      have small := digitValue_le (allDigits digit (List.mem_cons_self ..))
      calc valueFrom start (digit :: rest)
          < (10 * start + digitValue digit + 1) * 10 ^ rest.length :=
            ih fun digit found => allDigits digit (List.mem_cons_of_mem _ found)
        _ ≤ ((start + 1) * 10) * 10 ^ rest.length := by
            refine Nat.mul_le_mul_right _ ?_
            omega
        _ = (start + 1) * 10 ^ (digit :: rest).length := by
            rw [List.length_cons, Nat.pow_succ, Nat.mul_assoc, Nat.mul_comm 10]

theorem value_lt_of_isNumeral {width : Nat} {digits : Text}
    (numeral : Shape.IsNumeral width digits) : value digits < 10 ^ width := by
  obtain ⟨-, few, allDigits⟩ := numeral
  have bound : value digits < (0 + 1) * 10 ^ digits.length := valueFrom_lt allDigits
  rw [Nat.zero_add, Nat.one_mul] at bound
  exact Nat.lt_of_lt_of_le bound (Nat.pow_le_pow_right (by decide) few)

/-- A numeral is read as its value by any reader whose limit its width cannot exceed. -/
theorem read_of_isNumeral {width limit : Nat} {digits : Text}
    (numeral : Shape.IsNumeral width digits) (holds : 10 ^ width ≤ limit + 1) :
    read limit digits = .ok (value digits) := by
  have within : value digits ≤ limit :=
    Nat.le_of_lt_succ (Nat.lt_of_lt_of_le (value_lt_of_isNumeral numeral) holds)
  exact read_eq_ok numeral.1 (List.all_eq_true.mpr numeral.2.2) within

/-- Two digits always fit in a byte. -/
theorem readUInt8_of_isNumeral {digits : Text} (numeral : Shape.IsNumeral 2 digits) :
    ∃ number : UInt8, readUInt8 digits = .ok number ∧ number.toNat = value digits := by
  have bound := value_lt_of_isNumeral numeral
  refine ⟨UInt8.ofNat (value digits), ?_, ?_⟩
  · rw [readUInt8, read_of_isNumeral numeral (by decide)]
    rfl
  · rw [UInt8.toNat_ofNat']
    exact Nat.mod_eq_of_lt (by omega)

/-- Three digits always fit in two bytes. -/
theorem readUInt16_of_isNumeral {digits : Text} (numeral : Shape.IsNumeral 3 digits) :
    ∃ number : UInt16, readUInt16 digits = .ok number ∧ number.toNat = value digits := by
  have bound := value_lt_of_isNumeral numeral
  refine ⟨UInt16.ofNat (value digits), ?_, ?_⟩
  · rw [readUInt16, read_of_isNumeral numeral (by decide)]
    rfl
  · rw [UInt16.toNat_ofNat']
    exact Nat.mod_eq_of_lt (by omega)

end Numeral

/-! ## The grammar -/

/-- The keyword of an attribute; exchanging foreground and background has none. -/
def Attribute.keyword? : Attribute → Option Text
  | bold => some ['b']
  | normal => some ['n']
  | faint => some ['f']
  | italic => some ['i']
  | underline => some ['u']
  | blink => some ['b', 'l']
  | negative => none
  | strikethrough => some ['s']
  | reset => some ['r']

/-- The keyword of an action. -/
def ScreenAction.keyword : ScreenAction → Text
  | eraseDisplay => ['c']
  | eraseDisplayAbove => ['e', 'u']
  | eraseDisplayBelow => ['e', 'd']
  | eraseLine => ['e', 'l']
  | eraseLineAfter => ['e', 'e']
  | eraseLineBefore => ['e', 's']
  | lineFeed => ['l', 'f']

/-- The keyword of a channel, in front of the number of a color. -/
def Channel.keyword : Channel → Text
  | foreground => ['f']
  | background => ['b']

/-- The keyword of a direction, in front of a distance. -/
def Direction.keyword : Direction → Text
  | back => ['c', 'b']
  | forward => ['c', 'f']
  | down => ['c', 'd']
  | up => ['c', 'u']

/-- How the tokens that are no literals are spelled. -/
inductive Token.Spells : Text → Token → Prop where
  | setAttribute {content keyword : Text} {change : Attribute}
      (named : change.keyword? = some keyword) (agrees : Text.foldCase content = keyword) :
      Spells content (.setAttribute change)
  | screen {content : Text} {action : ScreenAction}
      (agrees : Text.foldCase content = action.keyword) : Spells content (.screen action)
  | selectColor {front digits : Text} {channel : Channel} {index : UInt8}
      (agrees : Text.foldCase front = channel.keyword) (numeral : Shape.IsNumeral 2 digits)
      (value : index.toNat = Numeral.value digits) :
      Spells (front ++ digits) (.selectColor channel index)
  | moveCursor {front digits : Text} {direction : Direction} {amount : UInt16}
      (agrees : Text.foldCase front = direction.keyword) (numeral : Shape.IsNumeral 3 digits)
      (value : amount.toNat = Numeral.value digits) :
      Spells (front ++ digits) (.moveCursor direction amount)
  | placeCursor {front rowDigits columnDigits : Text} {row column : UInt16}
      (agrees : Text.foldCase front = ['x', 'y'])
      (rowNumeral : Shape.IsNumeral 3 rowDigits) (columnNumeral : Shape.IsNumeral 3 columnDigits)
      (rowValue : row.toNat = Numeral.value rowDigits)
      (columnValue : column.toNat = Numeral.value columnDigits) :
      Spells (front ++ (rowDigits ++ ',' :: columnDigits)) (.placeCursor row column)

/-! ## The table follows the grammar -/

/-- The shape of the content that has a meaning. -/
def Meaning.shape? : Meaning → Option Shape
  | setAttribute change => change.keyword?.map .word
  | color channel => some (.number channel.keyword 2)
  | screen action => some (.word action.keyword)
  | move direction => some (.number direction.keyword 3)
  | place => some (.coordinates ['x', 'y'])

theorem mem_keywords_iff {shape : Shape} {meaning : Meaning} :
    (shape, meaning) ∈ keywords ↔ meaning.shape? = some shape := by
  constructor
  · have sound : ∀ entry ∈ keywords, entry.2.shape? = some entry.1 := by decide
    exact sound (shape, meaning)
  · intro shaped
    cases meaning with
    | setAttribute change => cases change <;> cases shaped <;> decide
    | color channel => cases channel <;> cases shaped <;> decide
    | screen action => cases action <;> cases shaped <;> decide
    | move direction => cases direction <;> cases shaped <;> decide
    | place => cases shaped; decide

theorem keywords_unambiguous : Token.Unambiguous keywords := by
  constructor
  · simp [keywords, Shape.keyword]
  · simp [keywords, Shape.key]

theorem foldCase_keyword {shape : Shape} {meaning : Meaning}
    (listed : (shape, meaning) ∈ keywords) : Text.foldCase shape.keyword = shape.keyword :=
  Shape.foldCase_of_all_isLower (keywords_unambiguous.1 (shape, meaning) listed)

/-- **The table is sound.**  Content of the shape of an entry is spelled as the
grammar spells the token that the entry gives it, and reading its numbers succeeds. -/
theorem Meaning.exists_token_of_matches {shape : Shape} {meaning : Meaning}
    (listed : (shape, meaning) ∈ keywords) {content : Text} {captures : Captures}
    (matched : shape.Matches content captures) :
    ∃ token, meaning.token content captures = .ok token ∧ Token.Spells content token := by
  have shaped := mem_keywords_iff.mp listed
  have small := foldCase_keyword listed
  cases meaning with
  | setAttribute change =>
      obtain ⟨keyword, named, rfl⟩ := Option.map_eq_some_iff.mp shaped
      cases matched with
      | word agrees =>
          exact ⟨_, rfl, .setAttribute named (agrees.trans small)⟩
  | screen action =>
      cases shaped
      cases matched with
      | word agrees =>
          exact ⟨_, rfl, .screen (agrees.trans small)⟩
  | color channel =>
      cases shaped
      cases matched with
      | number agrees numeral =>
          obtain ⟨index, read, value⟩ := Numeral.readUInt8_of_isNumeral numeral
          refine ⟨.selectColor channel index, ?_, .selectColor (agrees.trans small) numeral value⟩
          simp only [Meaning.token, readCapture, read]
          rfl
  | move direction =>
      cases shaped
      cases matched with
      | number agrees numeral =>
          obtain ⟨amount, read, value⟩ := Numeral.readUInt16_of_isNumeral numeral
          refine ⟨.moveCursor direction amount, ?_, .moveCursor (agrees.trans small) numeral value⟩
          simp only [Meaning.token, readCapture, read]
          rfl
  | place =>
      cases shaped
      cases matched with
      | coordinates agrees rowNumeral columnNumeral =>
          obtain ⟨row, readRow, rowValue⟩ := Numeral.readUInt16_of_isNumeral rowNumeral
          obtain ⟨column, readColumn, columnValue⟩ :=
            Numeral.readUInt16_of_isNumeral columnNumeral
          refine ⟨.placeCursor row column, ?_,
            .placeCursor (agrees.trans small) rowNumeral columnNumeral rowValue columnValue⟩
          simp only [Meaning.token, readCapture, readRow, readColumn]
          rfl

namespace Token

/-- **The table is complete.**  Every spelling of a token is content of the shape of
some entry. -/
theorem exists_entry_of_spells {content : Text} {token : Token} (spelled : Spells content token) :
    ∃ shape meaning captures, (shape, meaning) ∈ keywords ∧ shape.Matches content captures ∧
      meaning.token content captures = .ok token := by
  cases spelled with
  | @setAttribute content keyword change named agrees =>
      have shaped : (Meaning.setAttribute change).shape? = some (.word keyword) := by
        rw [Meaning.shape?, named, Option.map_some]
      have listed := mem_keywords_iff.mpr shaped
      have matched : (Shape.word keyword).Matches content .none :=
        .word (agrees.trans (foldCase_keyword listed).symm)
      exact ⟨_, _, _, listed, matched, rfl⟩
  | @screen content action agrees =>
      have listed : (Shape.word action.keyword, Meaning.screen action) ∈ keywords :=
        mem_keywords_iff.mpr rfl
      exact ⟨_, _, _, listed, .word (agrees.trans (foldCase_keyword listed).symm), rfl⟩
  | @selectColor front digits channel index agrees numeral value =>
      have listed : (Shape.number channel.keyword 2, Meaning.color channel) ∈ keywords :=
        mem_keywords_iff.mpr rfl
      obtain ⟨number, read, same⟩ := Numeral.readUInt8_of_isNumeral numeral
      obtain rfl : number = index := UInt8.toNat_inj.mp (same.trans value.symm)
      refine ⟨_, _, _, listed, .number (agrees.trans (foldCase_keyword listed).symm) numeral, ?_⟩
      simp only [Meaning.token, readCapture, read]
      rfl
  | @moveCursor front digits direction amount agrees numeral value =>
      have listed : (Shape.number direction.keyword 3, Meaning.move direction) ∈ keywords :=
        mem_keywords_iff.mpr rfl
      obtain ⟨number, read, same⟩ := Numeral.readUInt16_of_isNumeral numeral
      obtain rfl : number = amount := UInt16.toNat_inj.mp (same.trans value.symm)
      refine ⟨_, _, _, listed, .number (agrees.trans (foldCase_keyword listed).symm) numeral, ?_⟩
      simp only [Meaning.token, readCapture, read]
      rfl
  | @placeCursor front rowDigits columnDigits row column agrees rowNumeral columnNumeral rowValue
      columnValue =>
      have listed : (Shape.coordinates ['x', 'y'], Meaning.place) ∈ keywords :=
        mem_keywords_iff.mpr rfl
      obtain ⟨rowNumber, readRow, rowSame⟩ := Numeral.readUInt16_of_isNumeral rowNumeral
      obtain rfl : rowNumber = row := UInt16.toNat_inj.mp (rowSame.trans rowValue.symm)
      obtain ⟨columnNumber, readColumn, columnSame⟩ :=
        Numeral.readUInt16_of_isNumeral columnNumeral
      obtain rfl : columnNumber = column :=
        UInt16.toNat_inj.mp (columnSame.trans columnValue.symm)
      refine ⟨_, _, _, listed,
        .coordinates (agrees.trans (foldCase_keyword listed).symm) rowNumeral columnNumeral, ?_⟩
      simp only [Meaning.token, readCapture, readRow, readColumn]
      rfl

theorem Spells.kind_ne_literal {content : Text} {token : Token}
    (spelled : Spells content token) : token.kind ≠ .literal := by
  cases spelled <;> exact nofun

theorem Spells.ne_negative {content : Text} {token : Token} (spelled : Spells content token) :
    token ≠ .setAttribute .negative := by
  rintro rfl
  cases spelled with
  | setAttribute named agrees => cases named

theorem Spells.index_le {content : Text} {channel : Channel} {index : UInt8}
    (spelled : Spells content (.selectColor channel index)) : index ≤ 99 := by
  cases spelled with
  | selectColor agrees numeral value =>
      have bound := Numeral.value_lt_of_isNumeral numeral
      rw [← value] at bound
      exact UInt8.le_iff_toNat_le.mpr (Nat.le_of_lt_succ bound)

/-! ## What classification accepts -/

theorem ofContent_of_spells {content : Text} {token : Token} (spelled : Spells content token) :
    ofContent content = .ok token := by
  obtain ⟨shape, meaning, captures, listed, matched, given⟩ := exists_entry_of_spells spelled
  exact (ofContentIn_eq_of_matches keywords_unambiguous listed matched).trans given

theorem ofContent_of_not_spells {content : Text} (unspelled : ∀ token, ¬ Spells content token) :
    ofContent content = .ok (.literal content) := by
  apply ofContentIn_eq_literal
  intro entry listed captures matched
  obtain ⟨token, -, spelled⟩ := Meaning.exists_token_of_matches listed matched
  exact unspelled token spelled

/-- No content is spelled as two tokens, because classification gives only one. -/
theorem Spells.unique {content : Text} {first second : Token} (spelled : Spells content first)
    (again : Spells content second) : first = second :=
  Except.ok.inj ((ofContent_of_spells spelled).symm.trans (ofContent_of_spells again))

theorem ofContent_eq_ok_iff {content : Text} {token : Token} :
    ofContent content = .ok token ↔
      Spells content token ∨ token = .literal content ∧ ∀ other, ¬ Spells content other := by
  constructor
  · intro classified
    by_cases spelling : ∃ other, Spells content other
    · obtain ⟨other, spelled⟩ := spelling
      have same := (ofContent_of_spells spelled).symm.trans classified
      exact .inl (Except.ok.inj same ▸ spelled)
    · have unspelled : ∀ other, ¬ Spells content other := not_exists.mp spelling
      have same := (ofContent_of_not_spells unspelled).symm.trans classified
      exact .inr ⟨(Except.ok.inj same).symm, unspelled⟩
  · rintro (spelled | ⟨rfl, unspelled⟩)
    · exact ofContent_of_spells spelled
    · exact ofContent_of_not_spells unspelled

/-- A leading zero is one of the two digits, so a third digit is one too many. -/
example : ofContent ['F', '0', '7'] = .ok (.selectColor .foreground 7) ∧
    ofContent ['f', '0', '0', '7'] = .ok (.literal ['f', '0', '0', '7']) := by decide

theorem exists_ofContent_eq_ok (content : Text) : ∃ token, ofContent content = .ok token := by
  by_cases spelling : ∃ token, Spells content token
  · obtain ⟨token, spelled⟩ := spelling
    exact ⟨token, ofContent_of_spells spelled⟩
  · exact ⟨.literal content, ofContent_of_not_spells (not_exists.mp spelling)⟩

/-- The text of a literal is the content that it is the token of. -/
theorem eq_of_ofContent_eq_literal {content text : Text}
    (classified : ofContent content = .ok (.literal text)) : text = content := by
  rcases ofContent_eq_ok_iff.mp classified with spelled | ⟨same, -⟩
  · exact absurd rfl spelled.kind_ne_literal
  · cases same
    rfl

/-- **Classification accepts the grammar and nothing else.**  Every content has a
token.  It is the one the grammar spells that way, and the content itself as text where
the grammar has no such spelling.  It is never the exchange of foreground and
background, the number of a color is at most 99, and an entry of the table that matches
never has to leave the content as text for want of the right digits. -/
theorem ofContent_accepts_grammar (content : Text) :
    (∃ token, ofContent content = .ok token) ∧
    (∀ token, ofContent content = .ok token ↔
      Spells content token ∨ token = .literal content ∧ ∀ other, ¬ Spells content other) ∧
    ofContent content ≠ .ok (.setAttribute .negative) ∧
    (∀ channel index, ofContent content = .ok (.selectColor channel index) → index ≤ 99) ∧
    ∀ shape meaning captures, (shape, meaning) ∈ keywords →
      shape.match? content = some captures →
      ∃ token, meaning.token content captures = .ok token ∧ token.kind ≠ .literal := by
  refine ⟨exists_ofContent_eq_ok content, fun token => ofContent_eq_ok_iff, ?_, ?_, ?_⟩
  · intro classified
    rcases ofContent_eq_ok_iff.mp classified with spelled | ⟨same, -⟩
    · exact spelled.ne_negative rfl
    · cases same
  · intro channel index classified
    rcases ofContent_eq_ok_iff.mp classified with spelled | ⟨same, -⟩
    · exact spelled.index_le
    · cases same
  · intro shape meaning captures listed found
    obtain ⟨token, given, spelled⟩ :=
      Meaning.exists_token_of_matches listed (Shape.match?_eq_some_iff.mp found)
    exact ⟨token, given, spelled.kind_ne_literal⟩

end Token

/-! ## The order of the keywords -/

/-- The digits that a meaning takes: as many numbers as it has use for, and each no longer
than it can be read. -/
inductive Meaning.Takes : Meaning → Captures → Prop where
  | setAttribute {change : Attribute} : Takes (.setAttribute change) .none
  | color {channel : Channel} {digits : Text} (numeral : Shape.IsNumeral 2 digits) :
      Takes (.color channel) (.number digits)
  | screen {action : ScreenAction} : Takes (.screen action) .none
  | move {direction : Direction} {digits : Text} (numeral : Shape.IsNumeral 3 digits) :
      Takes (.move direction) (.number digits)
  | place {row column : Text} (rowNumeral : Shape.IsNumeral 3 row)
      (columnNumeral : Shape.IsNumeral 3 column) : Takes .place (.coordinates row column)

/-- The entries of the table capture what their meanings take. -/
theorem Meaning.takes_of_matches {shape : Shape} {meaning : Meaning}
    (listed : (shape, meaning) ∈ keywords) {content : Text} {captures : Captures}
    (matched : shape.Matches content captures) : meaning.Takes captures := by
  have shaped := mem_keywords_iff.mp listed
  cases meaning with
  | setAttribute change =>
      obtain ⟨keyword, -, rfl⟩ := Option.map_eq_some_iff.mp shaped
      cases matched with
      | word agrees => exact .setAttribute
  | color channel =>
      cases shaped
      cases matched with
      | number agrees numeral => exact .color numeral
  | screen action =>
      cases shaped
      cases matched with
      | word agrees => exact .screen
  | move direction =>
      cases shaped
      cases matched with
      | number agrees numeral => exact .move numeral
  | place =>
      cases shaped
      cases matched with
      | coordinates agrees rowNumeral columnNumeral => exact .place rowNumeral columnNumeral

namespace Token

/-- Whether content is of the shape of an entry. -/
def applies (content : Text) (entry : Shape × Meaning) : Bool := (entry.1.match? content).isSome

theorem applies_iff {content : Text} {entry : Shape × Meaning} :
    applies content entry = true ↔ ∃ captures, entry.1.Matches content captures := by
  simp only [applies, Option.isSome_iff_exists, Shape.match?_eq_some_iff]

namespace Unambiguous

variable {table other : KeywordTable}

/-- **At most one entry applies.** -/
theorem length_filter_applies_le (unambiguous : Unambiguous table) (content : Text) :
    (table.filter (applies content)).length ≤ 1 := by
  obtain ⟨small, distinct⟩ := unambiguous
  -- The keys of the entries that apply are all the same, and no two of them are.
  have same : ∀ key ∈ (table.filter (applies content)).map fun entry => entry.1.key,
      key = Shape.keyOf content := by
    intro key found
    obtain ⟨entry, member, rfl⟩ := List.mem_map.mp found
    obtain ⟨listed, applied⟩ := List.mem_filter.mp member
    obtain ⟨captures, matched⟩ := applies_iff.mp applied
    exact matched.key_eq (small entry listed)
  have nodup : ((table.filter (applies content)).map fun entry => entry.1.key).Nodup :=
    distinct.sublist (List.filter_sublist.map _)
  rw [List.eq_replicate_of_mem same, List.nodup_replicate, List.length_map] at nodup
  exact nodup

theorem perm (unambiguous : Unambiguous table) (reordered : other.Perm table) :
    Unambiguous other := by
  obtain ⟨small, distinct⟩ := unambiguous
  refine ⟨?_, (reordered.map _).nodup_iff.mpr distinct⟩
  intro entry listed
  exact small entry (reordered.mem_iff.mp listed)

/-- **The order of an unambiguous table has no influence.** -/
theorem ofContentIn_perm (unambiguous : Unambiguous table) (reordered : other.Perm table)
    (content : Text) : ofContentIn other content = ofContentIn table content := by
  by_cases applied : ∃ entry ∈ table, ∃ captures, entry.1.Matches content captures
  · obtain ⟨⟨shape, meaning⟩, listed, captures, matched⟩ := applied
    rw [ofContentIn_eq_of_matches unambiguous listed matched,
      ofContentIn_eq_of_matches (unambiguous.perm reordered) (reordered.mem_iff.mpr listed) matched]
  · have unmatched : ∀ entry ∈ table, ∀ captures, ¬ entry.1.Matches content captures := by
      intro entry listed captures matched
      exact applied ⟨entry, listed, captures, matched⟩
    rw [ofContentIn_eq_literal unmatched]
    apply ofContentIn_eq_literal
    intro entry listed
    exact unmatched entry (reordered.mem_iff.mp listed)

end Unambiguous

/-- Keywords have to be letters: with a digit in one of them two entries apply to `b12`. -/
example :
    let table : KeywordTable :=
      [(.number ['b'] 2, .color .background), (.number ['b', '1'] 1, .move .up)]
    ofContentIn table ['b', '1', '2'] = .ok (.selectColor .background 12) ∧
      ofContentIn table.reverse ['b', '1', '2'] = .ok (.moveCursor .up 2) := by decide

/-- **The order of the keywords carries no meaning.**  At most one entry of the table applies
to any content, and it captures digits that its meaning takes.  Every reordering of the table
gives the content the same token. -/
theorem keywords_order_irrelevant (content : Text) :
    (keywords.filter (applies content)).length ≤ 1 ∧
      (∀ shape meaning captures, (shape, meaning) ∈ keywords →
        shape.match? content = some captures → meaning.Takes captures) ∧
      ∀ table : KeywordTable, table.Perm keywords →
        ofContentIn table content = ofContent content := by
  refine ⟨keywords_unambiguous.length_filter_applies_le content, ?_, ?_⟩
  · intro shape meaning captures listed found
    exact Meaning.takes_of_matches listed (Shape.match?_eq_some_iff.mp found)
  · intro table reordered
    exact keywords_unambiguous.ofContentIn_perm reordered content

/-- Content is looked up from the bottom of the table with the same result. -/
theorem keywords_order_irrelevant_of_reverse :
    keywords.reverse.Perm keywords ∧
      ofContentIn keywords.reverse ['B', 'l'] = .ok (.setAttribute .blink) := by
  have reordered : keywords.reverse.Perm keywords := List.reverse_perm keywords
  have same := (keywords_order_irrelevant ['B', 'l']).2.2 keywords.reverse reordered
  exact ⟨reordered, same.trans (by decide)⟩

end Token

end TerminalMarkup
