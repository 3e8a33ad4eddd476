import SassNesting.Text.Basic

/-! # Lines of a text

A place in a text is a number of bytes of its UTF-8 form. The line of a place is found by counting
the line feeds that lie wholly before it, so a place inside a character counts as the place in front
of that character, and a place beyond the end as the end. -/

namespace SassNesting

namespace Text

/-- The number of line feeds among the characters that lie wholly within the first `pos` bytes. -/
def newlinesBefore : Text → Nat → Nat
  | [], _ => 0
  | c :: rest, pos =>
    if c.utf8Size ≤ pos then
      (if c = '\n' then 1 else 0) + newlinesBefore rest (pos - c.utf8Size)
    else 0

@[simp] theorem newlinesBefore_nil (pos : Nat) : newlinesBefore [] pos = 0 := rfl

theorem newlinesBefore_cons (c : Char) (rest : Text) (pos : Nat) :
    newlinesBefore (c :: rest) pos =
      if c.utf8Size ≤ pos then
        (if c = '\n' then 1 else 0) + newlinesBefore rest (pos - c.utf8Size)
      else 0 := rfl

/-- The line of the place `pos` bytes into the text, counted from one. -/
def lineAt (t : Text) (pos : Nat) : Nat := newlinesBefore t pos + 1

/-- The number of bytes before the place from which on `rest` is what is left of the text. -/
def offset (t rest : Text) : Nat := byteSize t - byteSize rest

end Text

end SassNesting
