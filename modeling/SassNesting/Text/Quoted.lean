import SassNesting.Text.Unprintable

/-! # Quoted text

A text between double quotes, on one line, in which every character shows: the quote and the
backslash are written with a backslash before them, the common controls by a letter, and any other
character that does not show by itself by its code point in hexadecimal digits. -/

namespace SassNesting

namespace Text

/-- The code point of a character, in lower-case hexadecimal digits without leading zeros. -/
def escapeCodePoint (c : Char) : Text :=
  ['\\', 'u', '{'] ++ Nat.toDigits 16 c.toNat ++ ['}']

/-- A character as it stands between the quotes. -/
def escape (c : Char) : Text :=
  match c with
  | '"' => ['\\', '"']
  | '\\' => ['\\', '\\']
  | '\n' => ['\\', 'n']
  | '\r' => ['\\', 'r']
  | '\t' => ['\\', 't']
  | '\x00' => ['\\', '0']
  | c => if isUnprintable c then escapeCodePoint c else [c]

/-- The text between double quotes, each character escaped where it has to be. -/
def quote (t : Text) : Text := '"' :: (t.flatMap escape ++ ['"'])

end Text

end SassNesting
