import SassNesting.Text.Basic

/-! # Options of a conversion

The width of an indentation step may be any number; what is written is never wider than
`maxIndentWidth`. -/

namespace SassNesting

/-- The widest indentation step that is written. -/
def maxIndentWidth : Nat := 16

/-- How a stylesheet is written, and what it is called in messages. -/
structure Options where
  /-- The number of spaces per level. -/
  indentWidth : Nat := 2
  /-- Whether an empty line follows each node at the top. -/
  spaced : Bool := false
  /-- The name of the file the stylesheet comes from. -/
  fileName : Option Text := none
deriving DecidableEq

namespace Options

/-- Sets the width of an indentation step, to no more than what is written. -/
def setIndentWidth (o : Options) (width : Nat) : Options :=
  { o with indentWidth := min width maxIndentWidth }

/-- Sets whether an empty line follows each node at the top. -/
def setSpaced (o : Options) (spaced : Bool) : Options := { o with spaced }

/-- Sets the name of the file. -/
def setFileName (o : Options) (name : Text) : Options := { o with fileName := some name }

/-- What messages call the stylesheet: its file, or `css`. -/
def sourceName (o : Options) : Text := o.fileName.getD "css".toList

end Options

end SassNesting
