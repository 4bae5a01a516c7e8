import TerminalMarkup.Escape.Output
import TerminalMarkup.Token

/-!
# Escape sequences

A sequence can be appended to an output, shown as a text and written to a
writer, and its length can be told without doing any of these.

Some sequences move the cursor and erase parts of the screen:

| sequence               | bytes             |
|------------------------|-------------------|
| cursor up, down        | `ESC [ n A`, `B`  |
| cursor forward, back   | `ESC [ n C`, `D`  |
| cursor position        | `ESC [ row ; column H` |
| erase in display       | `ESC [ extent J`  |
| erase in line          | `ESC [ extent K`  |

The look of characters is set by sequences `ESC [ p m` and `ESC [ p ; q m`,
whose parameters are numbers with fixed meanings:

| code      | meaning            | code      | meaning            |
|-----------|--------------------|-----------|--------------------|
| 0         | reset              | 9         | crossed out        |
| 1         | bold               | 22        | normal intensity   |
| 2         | faint              | 30 - 37   | foreground         |
| 3         | italic             | 40 - 47   | background         |
| 4         | underline          | 90 - 97   | bright foreground  |
| 5         | blink              | 100 - 107 | bright background  |
| 7         | reverse video      |           |                    |

Two parameters are only needed where a foreground is coded as an intensity and
a standard color: both are set at once.  `RenditionParameter.ofCode?_code` says
that no two parameters share a code.
-/

set_option autoImplicit false

namespace TerminalMarkup

/-! ## Cursor and screen -/

/-- How much of a line or a display is erased. -/
inductive Extent where
  | afterCursor
  | beforeCursor
  | whole
  deriving DecidableEq, Repr

/-- The number of an extent in a sequence. -/
def Extent.code : Extent → UInt16
  | afterCursor => 0
  | beforeCursor => 1
  | whole => 2

/-- A control sequence for the cursor or the screen. -/
inductive ControlSequence where
  | cursorUp (lines : UInt16)
  | cursorDown (lines : UInt16)
  | cursorForward (columns : UInt16)
  | cursorBack (columns : UInt16)
  | cursorPosition (row column : UInt16)
  | eraseInDisplay (extent : Extent)
  | eraseInLine (extent : Extent)
  deriving DecidableEq, Repr

namespace ControlSequence

/-- How many bytes a sequence has. -/
def length : ControlSequence → Nat
  | cursorUp amount => 3 + Decimal.digitCount amount
  | cursorDown amount => 3 + Decimal.digitCount amount
  | cursorForward amount => 3 + Decimal.digitCount amount
  | cursorBack amount => 3 + Decimal.digitCount amount
  | cursorPosition row column => 4 + Decimal.digitCount row + Decimal.digitCount column
  | eraseInDisplay _ => 4
  | eraseInLine _ => 4

/-- Puts a sequence at the end of a buffer and counts its bytes. -/
def encode (sequence : ControlSequence) (buffer : ByteArray) : EscapeOutput :=
  let introduced := (EscapeOutput.onto buffer).introduce
  match sequence with
  | cursorUp amount => (introduced.appendDecimal amount).conclude 'A'
  | cursorDown amount => (introduced.appendDecimal amount).conclude 'B'
  | cursorForward amount => (introduced.appendDecimal amount).conclude 'C'
  | cursorBack amount => (introduced.appendDecimal amount).conclude 'D'
  | cursorPosition row column =>
      ((introduced.appendDecimal row).separate.appendDecimal column).conclude 'H'
  | eraseInDisplay extent => (introduced.appendDecimal extent.code).conclude 'J'
  | eraseInLine extent => (introduced.appendDecimal extent.code).conclude 'K'

/-- Appends a sequence to an output. -/
def appendTo (sequence : ControlSequence) (output : EscapeOutput) : EscapeOutput :=
  output.appendEncoded sequence.encode

/-- A sequence as a text. -/
def display : ControlSequence → String
  | cursorUp amount => "\x1b[" ++ Nat.repr amount.toNat ++ "A"
  | cursorDown amount => "\x1b[" ++ Nat.repr amount.toNat ++ "B"
  | cursorForward amount => "\x1b[" ++ Nat.repr amount.toNat ++ "C"
  | cursorBack amount => "\x1b[" ++ Nat.repr amount.toNat ++ "D"
  | cursorPosition row column =>
      "\x1b[" ++ Nat.repr row.toNat ++ ";" ++ Nat.repr column.toNat ++ "H"
  | eraseInDisplay extent => "\x1b[" ++ Nat.repr extent.code.toNat ++ "J"
  | eraseInLine extent => "\x1b[" ++ Nat.repr extent.code.toNat ++ "K"

instance : ToString ControlSequence := ⟨display⟩

/-- Writes a sequence and answers how many bytes it has. -/
def write (sequence : ControlSequence) (writer : Writer) : Except RenderError Nat × Writer :=
  let encoded := sequence.encode ByteArray.empty
  let (result, later) := writer.writeAll encoded.bytes
  (result.map fun _ => encoded.written, later)

end ControlSequence

/-! ## Renditions -/

/-- A parameter of a rendition sequence. -/
inductive RenditionParameter where
  | reset
  | intensity (intensity : Intensity)
  | faint
  | italic
  | underline
  | blink
  | reverseVideo
  | strikethrough
  | foreground (color : Color)
  | background (color : Color)
  deriving DecidableEq, Repr

namespace RenditionParameter

/-- The code of a color whose standard and bright groups start at these codes. -/
def colorCode (standard bright : UInt8) (color : Color) : UInt8 :=
  (if color.bright then bright else standard) + UInt8.ofNat color.offset

/-- The code of a parameter. -/
def code : RenditionParameter → UInt8
  | reset => 0
  | intensity .bold => 1
  | intensity .normal => 22
  | faint => 2
  | italic => 3
  | underline => 4
  | blink => 5
  | reverseVideo => 7
  | strikethrough => 9
  | foreground color => colorCode 30 90 color
  | background color => colorCode 40 100 color

/-- The color, bright or not, that a code selects in a group of eight codes
from `first` on. -/
def colorInGroup? (first : UInt8) (bright : Bool) (code : UInt8) : Option Color :=
  if first ≤ code ∧ code < first + 8 then
    some ⟨.ofNumber (code - first).toNat, bright⟩
  else none

/-- The parameter of a code, if it has one. -/
def ofCode? (code : UInt8) : Option RenditionParameter :=
  if code = 0 then some reset
  else if code = 1 then some (intensity .bold)
  else if code = 2 then some faint
  else if code = 3 then some italic
  else if code = 4 then some underline
  else if code = 5 then some blink
  else if code = 7 then some reverseVideo
  else if code = 9 then some strikethrough
  else if code = 22 then some (intensity .normal)
  else
    (colorInGroup? 30 false code).map foreground
      <|> (colorInGroup? 40 false code).map background
      <|> (colorInGroup? 90 true code).map foreground
      <|> (colorInGroup? 100 true code).map background

/-- **A parameter is determined by its code.** -/
theorem ofCode?_code (parameter : RenditionParameter) :
    ofCode? parameter.code = some parameter := by
  cases parameter with
  | intensity intensity => cases intensity <;> rfl
  | foreground color =>
      obtain ⟨hue, bright⟩ := color
      cases hue <;> cases bright <;> rfl
  | background color =>
      obtain ⟨hue, bright⟩ := color
      cases hue <;> cases bright <;> rfl
  | _ => rfl

/-- How many digits the code of a parameter has. -/
def digitCount (parameter : RenditionParameter) : Nat :=
  if parameter.code < 10 then 1 else if parameter.code < 100 then 2 else 3

/-- A parameter as a text: its code. -/
def display (parameter : RenditionParameter) : String := Nat.repr parameter.code.toNat

instance : ToString RenditionParameter := ⟨display⟩

end RenditionParameter

/-- A rendition sequence, of one parameter or two. -/
structure Rendition where
  first : RenditionParameter
  second : Option RenditionParameter
  deriving DecidableEq, Repr

namespace Rendition

/-- The sequence of one parameter. -/
def single (parameter : RenditionParameter) : Rendition := ⟨parameter, none⟩

/-- The sequence of two parameters. -/
def pair (first second : RenditionParameter) : Rendition := ⟨first, some second⟩

/-- The sequence that takes everything back. -/
def reset : Rendition := single .reset

/-- The parameters of a sequence, in order. -/
def parameters (rendition : Rendition) : List RenditionParameter :=
  rendition.first :: rendition.second.toList

/-- The sequence that changes an attribute. -/
def ofAttribute : Attribute → Rendition
  | .bold => single (.intensity .bold)
  | .normal => single (.intensity .normal)
  | .faint => single .faint
  | .italic => single .italic
  | .underline => single .underline
  | .blink => single .blink
  | .negative => single .reverseVideo
  | .strikethrough => single .strikethrough
  | .reset => reset

/-- The sequence that sets a paint.  A foreground with an intensity is set in
the standard color of its hue, whichever color it names. -/
def ofPaint : Paint → Rendition
  | .foreground color => single (.foreground color)
  | .weightedForeground intensity color => pair (.intensity intensity) (.foreground color.base)
  | .background color => single (.background color)

/-- How many bytes a sequence has. -/
def length (rendition : Rendition) : Nat :=
  match rendition.second with
  | none => 3 + rendition.first.digitCount
  | some second => 4 + rendition.first.digitCount + second.digitCount

/-- Puts a sequence at the end of a buffer and counts its bytes. -/
def encode (rendition : Rendition) (buffer : ByteArray) : EscapeOutput :=
  let started := (EscapeOutput.onto buffer).introduce.appendDecimal rendition.first.code.toUInt16
  match rendition.second with
  | none => started.conclude 'm'
  | some second => (started.separate.appendDecimal second.code.toUInt16).conclude 'm'

/-- Appends a sequence to an output. -/
def appendTo (rendition : Rendition) (output : EscapeOutput) : EscapeOutput :=
  output.appendEncoded rendition.encode

/-- A sequence as a text. -/
def display (rendition : Rendition) : String :=
  match rendition.second with
  | none => "\x1b[" ++ rendition.first.display ++ "m"
  | some second => "\x1b[" ++ rendition.first.display ++ ";" ++ second.display ++ "m"

instance : ToString Rendition := ⟨display⟩

/-- Writes a sequence and answers how many bytes it has. -/
def write (rendition : Rendition) (writer : Writer) : Except RenderError Nat × Writer :=
  let encoded := rendition.encode ByteArray.empty
  let (result, later) := writer.writeAll encoded.bytes
  (result.map fun _ => encoded.written, later)

end Rendition

end TerminalMarkup
