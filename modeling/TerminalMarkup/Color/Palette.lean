import TerminalMarkup.Color
import TerminalMarkup.Fault

/-!
# Palettes

A palette says which paint each of the numbers zero to fifteen selects.  The
three standard palettes are one for backgrounds and one for foregrounds under
each coding:

| number | foreground, direct | foreground, intensity bit | background   |
|--------|--------------------|---------------------------|--------------|
| 0      | black              | normal, black             | black        |
| 7      | white              | normal, white             | white        |
| 8      | bright black       | bold, black               | bright black |
| 15     | bright white       | bold, white               | bright white |

A set of palettes has a slot for each of these uses, and any palette may stand
in any slot.  A number above fifteen is a fault whatever stands there, and the
fault names the channel that was selected on, which need not be the one that
the palette in the slot was made for.
-/

set_option autoImplicit false

namespace TerminalMarkup

/-- Sixteen paints by number. -/
structure Palette where
  channel : Channel
  entry : Fin 16 → Paint

namespace Palette

/-! ## The standard palettes -/

/-- Backgrounds, each color in its own form. -/
def background : Palette := ⟨.background, fun index => .background (.ofIndex index)⟩

/-- Foregrounds, each color in its own form. -/
def directForeground : Palette := ⟨.foreground, fun index => .foreground (.ofIndex index)⟩

/-- Foregrounds in standard colors, bold for the numbers from eight on. -/
def intensityForeground : Palette :=
  ⟨.foreground, fun index =>
    .weightedForeground (if 8 ≤ index.val then .bold else .normal) (Color.ofIndex index).base⟩

/-- The paints of a palette by number. -/
def entries (palette : Palette) : List Paint := List.ofFn palette.entry

/-! ## Looking up a number -/

/-- The paint of a number, if it has one. -/
def get? (palette : Palette) (index : UInt8) : Option Paint :=
  if inRange : index.toNat < 16 then some (palette.entry ⟨index.toNat, inRange⟩) else none

/-- The paint of a number; the fault otherwise names the palette's own channel. -/
def select (palette : Palette) (index : UInt8) : Except Fault Paint :=
  match palette.get? index with
  | some paint => .ok paint
  | none => .error (.unknownColor palette.channel index)

/-! A palette has a paint for the numbers zero to fifteen and for no other. -/

theorem get?_of_lt (palette : Palette) {index : UInt8} (known : index.toNat < 16) :
    palette.get? index = some (palette.entry ⟨index.toNat, known⟩) :=
  dif_pos known

theorem get?_of_le (palette : Palette) {index : UInt8} (beyond : 16 ≤ index.toNat) :
    palette.get? index = none :=
  dif_neg (Nat.not_lt.mpr beyond)

end Palette

/-- The palettes in use. -/
structure Palettes where
  /-- For backgrounds, under either coding. -/
  background : Palette
  /-- For foregrounds under the direct coding. -/
  direct : Palette
  /-- For foregrounds under the intensity-bit coding. -/
  intensityBit : Palette

namespace Palettes

/-- Every standard palette in the slot that it is made for. -/
def standard : Palettes := ⟨.background, .directForeground, .intensityForeground⟩

/-- Unless asked otherwise, palettes are the standard ones. -/
instance : Inhabited Palettes := ⟨standard⟩

/-- The palette that selections on a channel go to. -/
def active (palettes : Palettes) (coding : ColorCoding) : Channel → Palette
  | .background => palettes.background
  | .foreground =>
      match coding with
      | .direct => palettes.direct
      | .intensityBit => palettes.intensityBit

/-- The paint of a number on a channel; the fault otherwise names that channel,
whichever palette is in use for it. -/
def select (palettes : Palettes) (coding : ColorCoding) (channel : Channel) (index : UInt8) :
    Except Fault Paint :=
  match (palettes.active coding channel).get? index with
  | some paint => .ok paint
  | none => .error (.unknownColor channel index)

end Palettes

end TerminalMarkup
