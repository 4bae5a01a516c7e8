import TerminalMarkup.Text

/-!
# Terminal colors

A terminal of the basic kind has sixteen colors: eight hues, each in a standard
and a bright form.  They are numbered from zero, the standard forms of all the
hues first, so that a color's number and the color determine each other
(`Color.ofIndex_index`, `Color.index_ofIndex`).

A color is selected for one of two channels, the characters or the cells behind
them.  What a selection asks of the terminal is a `Paint`: a color on one of
the channels, or, for terminals whose only bright foregrounds are bold ones, an
intensity together with a color for the characters.

Terminals differ in one respect that matters here.  Most have codes for all
sixteen foreground colors; some older ones have codes for the eight standard
colors only and show the bright ones when the characters are bold.  Which of
the two a terminal is can be told from its name.
-/

set_option autoImplicit false

namespace TerminalMarkup

/-! ## Hues and colors -/

/-- The eight hues, in the order of their numbers. -/
inductive Hue where
  | black
  | red
  | green
  | yellow
  | blue
  | purple
  | cyan
  | white
  deriving DecidableEq, Repr

namespace Hue

/-- The number of a hue among the eight. -/
def offset : Hue → Fin 8
  | black => 0
  | red => 1
  | green => 2
  | yellow => 3
  | blue => 4
  | purple => 5
  | cyan => 6
  | white => 7

/-- The hue of a number; the hues repeat after eight. -/
def ofNumber (number : Nat) : Hue :=
  match number % 8 with
  | 0 => black
  | 1 => red
  | 2 => green
  | 3 => yellow
  | 4 => blue
  | 5 => purple
  | 6 => cyan
  | _ => white

end Hue

/-- One of the sixteen colors. -/
structure Color where
  /-- The hue, which a color shares with the other color of its pair. -/
  hue : Hue
  /-- Whether this is the bright color of the pair. -/
  bright : Bool
  deriving DecidableEq, Repr

namespace Color

/-- The number of the hue, which places a color within its group of eight. -/
def offset (color : Color) : Fin 8 := color.hue.offset

/-- The number of a color among the sixteen. -/
def index (color : Color) : Fin 16 :=
  if color.bright then color.offset.natAdd 8 else color.offset.castAdd 8

/-- The color of a number: the second eight are bright. -/
def ofIndex (index : Fin 16) : Color := ⟨.ofNumber index.val, 8 ≤ index.val⟩

/-- The standard color of the same hue. -/
def base (color : Color) : Color := { color with bright := false }

/-- Colors are ordered by number. -/
instance : Ord Color := ⟨fun first second => compare first.index second.index⟩

/-- A color is the color of its number. -/
theorem ofIndex_index (color : Color) : ofIndex color.index = color := by
  obtain ⟨hue, bright⟩ := color
  cases hue <;> cases bright <;> rfl

/-- A number is the number of its color. -/
theorem index_ofIndex : ∀ index : Fin 16, (ofIndex index).index = index := by
  decide

end Color

/-! ## Selecting a color -/

/-- What a color is selected for. -/
inductive Channel where
  /-- The characters. -/
  | foreground
  /-- The cells behind the characters. -/
  | background
  deriving DecidableEq, Repr

/-- The word for a channel. -/
def Channel.word : Channel → String
  | .foreground => "foreground"
  | .background => "background"

/-- The weight of the characters; normal comes before bold. -/
inductive Intensity where
  | normal
  | bold
  deriving DecidableEq, Repr, Ord

/-- What a terminal is asked to do for a color selection. -/
inductive Paint where
  | foreground (color : Color)
  /-- Draw characters with an intensity and in the standard color of a hue. -/
  | weightedForeground (intensity : Intensity) (color : Color)
  | background (color : Color)
  deriving DecidableEq, Repr

/-! ## Coding of bright foregrounds -/

/-- How a terminal is asked for a bright foreground. -/
inductive ColorCoding where
  /-- By a code of its own. -/
  | direct
  /-- By the code of the standard color and bold characters. -/
  | intensityBit
  deriving DecidableEq, Repr

namespace ColorCoding

/-- The word for a coding. -/
def word : ColorCoding → String
  | direct => "Direct"
  | intensityBit => "IntensityBit"

/-- Whether bright foregrounds are asked for by bold characters. -/
def isIntensityBit (coding : ColorCoding) : Bool := coding == intensityBit

/-- The names of the terminals known to lack codes for bright foregrounds. -/
def intensityBitTerminals : List String := ["linux", "vt100", "vt102", "vt220", "ansi", "cons25"]

/-- The coding for the terminal of a name, spelled exactly as listed; a
terminal that is not listed has all sixteen codes. -/
def ofTerminal (name : Text) : ColorCoding :=
  if intensityBitTerminals.any (·.toList == name) then intensityBit else direct

/-- The coding for a terminal whose name may be unknown. -/
def detect (name : Option Text) : ColorCoding := (name.map ofTerminal).getD direct

end ColorCoding

end TerminalMarkup
