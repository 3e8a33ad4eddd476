import SassNesting.Document.Reading

/-! # Diagnostics

A diagnostic tells where a stylesheet goes wrong in a way a reader can use: the name of the
stylesheet, the line, and what is expected there. -/

namespace SassNesting

/-- A report of what is expected at a place of a stylesheet. -/
structure Diagnostic where
  /-- What the stylesheet is called. -/
  source : Text
  /-- The line of the place, counted from one. -/
  line : Nat
  /-- The wording of what is expected. -/
  expected : Text
  /-- The number of bytes before the place. -/
  pos : Nat
deriving DecidableEq

namespace Diagnostic

/-- The diagnostic for a place in a text. -/
def locate (source t expected : Text) (pos : Nat) : Diagnostic :=
  ⟨source, Text.lineAt t pos, expected, pos⟩

/-- What is wrong, without the place. -/
def detail (d : Diagnostic) : Text := "Invalid CSS: expected ".toList ++ d.expected

/-- The whole message: the name of the stylesheet, the line, and what is wrong. -/
def message (d : Diagnostic) : Text :=
  ['('] ++ d.source ++ "):".toList ++ Text.ofNat d.line ++ ": ".toList ++ d.detail

end Diagnostic

/-- The diagnostic for an error in a text. -/
def SyntaxError.diagnose (e : SyntaxError) (source t : Text) : Diagnostic :=
  .locate source t e.expected.text e.pos

/-- The reason for refusing bytes that are not the UTF-8 form of a text. -/
def notTextReason : Text := "stream did not contain valid UTF-8".toList

/-- The message for an input that is no text. -/
def unreadableMessage : Text := "Error reading input: ".toList ++ notTextReason

end SassNesting
