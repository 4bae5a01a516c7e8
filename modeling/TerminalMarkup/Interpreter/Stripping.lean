import TerminalMarkup.Interpreter

/-!
# Stripping markup

Stripping keeps the text of a marked-up text and drops its commands.  It
interprets the text with a sink that keeps the characters it is asked to show
and lets every other call pass without effect.  The commands are checked all the
same, by an interpreter with default settings, so what cannot be interpreted
cannot be stripped.

A text without delimiters is already its own text.  It is handed back as it is,
and nothing is logged.
-/

set_option autoImplicit false

namespace TerminalMarkup

/-! ## Plain text as a sink -/

/-- The characters shown so far. -/
structure PlainText where
  characters : Array Char
  deriving DecidableEq, Repr

namespace PlainText

/-- Nothing shown yet. -/
def empty : PlainText := ⟨#[]⟩

/-- What was shown, as a text. -/
def toText (shown : PlainText) : Text := shown.characters.toList

/-- Only a call that shows text has an effect. -/
instance : Sink PlainText where
  bold := id
  normal := id
  faint := id
  italic := id
  underline := id
  blink := id
  negative := id
  strikethrough := id
  reset := id
  paint _ := id
  eraseDisplay := id
  eraseDisplayAbove := id
  eraseDisplayBelow := id
  eraseLine := id
  eraseLineAfter := id
  eraseLineBefore := id
  moveCursor _ _ := id
  placeCursor _ _ := id
  lineFeed := id
  text characters shown := ⟨shown.characters ++ characters⟩

@[simp] theorem toText_empty : empty.toText = [] := rfl

@[simp] theorem toText_text (characters : Text) (shown : PlainText) :
    (Sink.text characters shown).toText = shown.toText ++ characters :=
  Array.toList_appendList

end PlainText

/-! ## Texts without their commands -/

/-- What stripping answers. -/
structure Stripped where
  text : Text
  /-- Whether that is the text given, handed back as it is. -/
  unchanged : Bool
  deriving DecidableEq, Repr

/-- Removes every command from a text. -/
def Text.strip (text : Text) : Logged (Except Fault Stripped) :=
  if Text.isPlain text then ⟨.ok ⟨text, true⟩, []⟩
  else
    let outcome := (default : Interpreter).interpret text PlainText.empty
    ⟨outcome.result.map fun _ => ⟨outcome.sink.toText, false⟩, outcome.log⟩

end TerminalMarkup
