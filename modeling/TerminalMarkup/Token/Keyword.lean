import TerminalMarkup.Fault
import TerminalMarkup.Piece
import TerminalMarkup.Token
import TerminalMarkup.Token.Shape

/-!
# The keywords

The commands of the language are a table of shapes with their meanings:

| content                               | token                            |
|---------------------------------------|----------------------------------|
| `b` `n` `f` `i` `u` `bl` `s` `r`      | an attribute                     |
| `f` or `b`, 1-2 digits                | a foreground or background color |
| `c` `eu` `ed` `el` `ee` `es` `lf`     | an operation on the screen       |
| `cb` `cf` `cd` `cu`, 1-3 digits       | a movement of the cursor         |
| `xy`, 1-3 digits, a comma, 1-3 digits | a place for the cursor           |
| anything else                         | the content itself, as text      |

Content is looked up in the table from the top and the first shape that matches
decides.  Exchanging foreground and background has no keyword.

A text without delimiters is content from end to end and no command, whatever
it spells; `Text.tokens` lists the tokens of any text.
-/

set_option autoImplicit false

namespace TerminalMarkup

/-- What content of a shape means. -/
inductive Meaning where
  | setAttribute (change : Attribute)
  /-- A color, by its number. -/
  | color (channel : Channel)
  | screen (action : ScreenAction)
  /-- A movement of the cursor, by its amount. -/
  | move (direction : Direction)
  /-- A place for the cursor, by row and column. -/
  | place
  deriving DecidableEq, Repr

/-- Shapes and what they mean, in the order in which they are tried. -/
abbrev KeywordTable := List (Shape × Meaning)

/-- The commands of the language. -/
def keywords : KeywordTable := [
  (.word ['b'], .setAttribute .bold),
  (.word ['n'], .setAttribute .normal),
  (.word ['f'], .setAttribute .faint),
  (.word ['i'], .setAttribute .italic),
  (.word ['u'], .setAttribute .underline),
  (.word ['b', 'l'], .setAttribute .blink),
  (.word ['s'], .setAttribute .strikethrough),
  (.number ['f'] 2, .color .foreground),
  (.number ['b'] 2, .color .background),
  (.word ['r'], .setAttribute .reset),
  (.word ['c'], .screen .eraseDisplay),
  (.word ['e', 'u'], .screen .eraseDisplayAbove),
  (.word ['e', 'd'], .screen .eraseDisplayBelow),
  (.word ['e', 'l'], .screen .eraseLine),
  (.word ['e', 'e'], .screen .eraseLineAfter),
  (.word ['e', 's'], .screen .eraseLineBefore),
  (.number ['c', 'b'] 3, .move .back),
  (.number ['c', 'f'] 3, .move .forward),
  (.number ['c', 'd'] 3, .move .down),
  (.number ['c', 'u'] 3, .move .up),
  (.coordinates ['x', 'y'], .place),
  (.word ['l', 'f'], .screen .lineFeed)]

/-- Reads a numeral found in content. -/
def readCapture {α : Type} (read : Text → Except NumeralFault α) (content digits : Text) :
    Except Fault α :=
  (read digits).mapError (.malformedNumber content)

/-- The token for content of a meaning with these captures.  Captures that the
meaning has no use for leave the content as text. -/
def Meaning.token (meaning : Meaning) (content : Text) (captures : Captures) :
    Except Fault Token :=
  match meaning, captures with
  | setAttribute change, _ => .ok (.setAttribute change)
  | screen action, _ => .ok (.screen action)
  | color channel, .number digits => do
      return .selectColor channel (← readCapture Numeral.readUInt8 content digits)
  | move direction, .number digits => do
      return .moveCursor direction (← readCapture Numeral.readUInt16 content digits)
  | place, .coordinates row column => do
      let row ← readCapture Numeral.readUInt16 content row
      let column ← readCapture Numeral.readUInt16 content column
      return .placeCursor row column
  | _, _ => .ok (.literal content)

namespace Token

/-- The token that a table gives for content: that of the first shape that
matches, and the content as text if none does. -/
def ofContentIn (table : KeywordTable) (content : Text) : Except Fault Token :=
  match table with
  | [] => .ok (.literal content)
  | (shape, meaning) :: rest =>
      match shape.match? content with
      | some captures => meaning.token content captures
      | none => ofContentIn rest content

/-- The token for content between delimiters. -/
def ofContent (content : Text) : Except Fault Token := ofContentIn keywords content

/-- The token of a piece, if it has one; `plain` says that the whole text is
free of delimiters, so that its content is text. -/
def ofPiece? (plain : Bool) : Piece → Option (Except Fault Token)
  | .delimiters _ => none
  | .content text =>
      if text.isEmpty then none
      else if plain then some (.ok (.literal text))
      else some (ofContent text)

end Token

/-- The tokens of a text, one for each piece of content, in order. -/
def Text.tokens (text : Text) : List (Except Fault Token) :=
  text.pieces.filterMap fun placed => Token.ofPiece? (Text.isPlain text) placed.piece

end TerminalMarkup
