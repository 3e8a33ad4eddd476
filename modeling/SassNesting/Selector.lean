import SassNesting.Text.Basic

/-! # Selectors

A selector is a text with two levels of structure. Commas part it into pieces, each of which selects
by itself, and blanks part a piece into tokens, from the outermost element to the innermost. A piece
of `n` tokens becomes `n` rules one inside the other, which is why readers bound the number of
tokens. -/

namespace SassNesting

namespace Selector

/-- The selector whose tokens are the given ones, one blank between two of them. -/
def ofTokens (tokens : List Text) : Text := [' '].intercalate tokens

/-! ## Pieces of a comma list -/

/-- The comma list of the given selectors, a comma and one blank between two of them. -/
def ofPieces (selectors : List Text) : Text := [',', ' '].intercalate selectors

/-- The selectors of a comma list: what stands between the commas, trimmed, where anything is left.
-/
def pieces (selector : Text) : List Text :=
  ((selector.splitOn ',').map Text.trim).filter (· ≠ [])

/-- The number of tokens of the longest piece of a comma list. -/
def depth (selector : Text) : Nat :=
  ((selector.splitOn ',').map fun piece => (Text.words piece).length).foldr max 0

/-! ## The first token and the others -/

/-- The first token of a selector. -/
def head (selector : Text) : Text :=
  (Text.trimStart selector).takeWhile fun c => !Text.isBlank c

/-- What is left of a selector without its first token. -/
def tail (selector : Text) : Text :=
  Text.trim ((Text.trimStart selector).dropWhile fun c => !Text.isBlank c)

/-- A selector without its first token is shorter, if anything is left of it. -/
theorem length_tail_lt {selector : Text} (h : tail selector ≠ []) :
    (tail selector).length < selector.length := by
  have hle := Nat.le_trans (Text.length_dropWhile_le (fun c => !Text.isBlank c) _)
    (Text.length_trimStart_le selector)
  unfold tail at h ⊢
  generalize hrest : (Text.trimStart selector).dropWhile (fun c => !Text.isBlank c) = rest at *
  cases rest with
  | nil => simp [Text.trim, Text.trimStart, Text.trimEnd] at h
  | cons c rest =>
    have hc : Text.isBlank c = true := by
      have := List.head?_dropWhile_not (fun c => !Text.isBlank c) (Text.trimStart selector)
      simpa [hrest] using this
    have hskip : Text.trim (c :: rest) = Text.trim rest := by
      simp [Text.trim, Text.trimStart, hc]
    rw [hskip]
    have := Text.length_trim_le rest
    grind

end Selector

end SassNesting
