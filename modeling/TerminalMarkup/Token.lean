import TerminalMarkup.Color

/-!
# Tokens

A token is what one piece of content asks for: a text attribute, a color, an
operation on the screen, a movement of the cursor, or, when it asks for nothing
of the kind, its own characters as text.

A token carries what was written and no more.  In particular a color is still a
number, which may be one that no palette has.
-/

set_option autoImplicit false

namespace TerminalMarkup

/-- What can be done to the look of text, colors apart. -/
inductive Attribute where
  | bold
  /-- Neither increased nor decreased intensity. -/
  | normal
  | faint
  | italic
  | underline
  | blink
  /-- Foreground and background exchanged. -/
  | negative
  | strikethrough
  /-- Every attribute and color taken back. -/
  | reset
  deriving DecidableEq, Repr

/-- What can be done to the screen without an argument. -/
inductive ScreenAction where
  | eraseDisplay
  /-- Erase the display up to the cursor. -/
  | eraseDisplayAbove
  /-- Erase the display from the cursor on. -/
  | eraseDisplayBelow
  | eraseLine
  /-- Erase the line from the cursor on. -/
  | eraseLineAfter
  /-- Erase the line up to the cursor. -/
  | eraseLineBefore
  /-- Go to the next line. -/
  | lineFeed
  deriving DecidableEq, Repr

/-- The four ways the cursor can move. -/
inductive Direction where
  /-- To the left. -/
  | back
  /-- To the right. -/
  | forward
  | down
  | up
  deriving DecidableEq, Repr

/-- What a piece of content asks for. -/
inductive Token where
  | setAttribute (change : Attribute)
  /-- Select a color by its number, whatever the number. -/
  | selectColor (channel : Channel) (index : UInt8)
  | screen (action : ScreenAction)
  | moveCursor (direction : Direction) (amount : UInt16)
  | placeCursor (row column : UInt16)
  | literal (text : Text)
  deriving DecidableEq, Repr

namespace Token

/-- The six kinds of token. -/
inductive Kind where
  | setAttribute
  | selectColor
  | screen
  | moveCursor
  | placeCursor
  | literal
  deriving DecidableEq, Repr

/-- The name under which a kind appears in the log. -/
def Kind.name : Kind → String
  | setAttribute => "StyleToggle"
  | selectColor => "ColorSelect"
  | screen => "ScreenOp"
  | moveCursor => "CursorMove"
  | placeCursor => "CursorPosition"
  | literal => "Literal"

/-- The kind of a token. -/
def kind : Token → Kind
  | setAttribute _ => .setAttribute
  | selectColor _ _ => .selectColor
  | screen _ => .screen
  | moveCursor _ _ => .moveCursor
  | placeCursor _ _ => .placeCursor
  | literal _ => .literal

end Token

end TerminalMarkup
