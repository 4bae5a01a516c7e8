import TerminalMarkup.Color
import TerminalMarkup.Text.Numeral

/-!
# Faults and errors

A piece that names no command is text and no fault.  Two things can be wrong
with a piece that does name one: a color selection can give a number that no
color has, and a numeral can be malformed.

Rendering fails when the markup has a fault, when a writer does not take all
that is written, or when what was rendered is not the UTF-8 form of a text.
-/

set_option autoImplicit false

namespace TerminalMarkup

/-! ## Faults in markup -/

/-- What is wrong with a piece of markup. -/
inductive Fault where
  /-- The color selected on a channel is not one of the sixteen. -/
  | unknownColor (channel : Channel) (index : UInt8)
  /-- A numeral in a piece cannot be read. -/
  | malformedNumber (piece : Text) (cause : NumeralFault)
  deriving DecidableEq, Repr

namespace Fault

/-- Whether the fault is in a color selection. -/
def isColorFault : Fault → Bool
  | unknownColor _ _ => true
  | malformedNumber _ _ => false

/-- The fault in the numeral that a fault goes back to, if any. -/
def cause? : Fault → Option NumeralFault
  | unknownColor _ _ => none
  | malformedNumber _ cause => some cause

/-- The wording of a fault. -/
def message : Fault → String
  | unknownColor channel index =>
      "Unknown " ++ channel.word ++ " color index " ++ toString index.toNat ++ " (expected 0-15)"
  | malformedNumber piece cause =>
      "Malformed numeric argument in chunk '" ++ String.ofList piece ++ "': " ++ cause.message

end Fault

/-! ## Errors of rendering -/

/-- Why something was not rendered or written. -/
inductive RenderError where
  /-- The writer failed, for a reason that it gives. -/
  | io (reason : String)
  /-- The markup has a fault. -/
  | markup (fault : Fault)
  /-- The bytes stop being UTF-8 at a position. -/
  | invalidUtf8 (position : Nat)
  deriving DecidableEq, Repr

namespace RenderError

/-- Whether the writer failed. -/
def isIo : RenderError → Bool
  | io _ => true
  | _ => false

/-- Whether the markup has a fault. -/
def isMarkup : RenderError → Bool
  | markup _ => true
  | _ => false

/-- The fault in the markup, if that is the reason. -/
def fault? : RenderError → Option Fault
  | markup fault => some fault
  | _ => none

/-- The wording of an error. -/
def message : RenderError → String
  | io reason => "IO error: " ++ reason
  | markup fault => "Markup error: " ++ fault.message
  | invalidUtf8 position => "Invalid UTF-8 sequence at position " ++ toString position

end RenderError

end TerminalMarkup
