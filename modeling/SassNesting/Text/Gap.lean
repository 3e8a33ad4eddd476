import SassNesting.Text.Basic

/-! # Gaps: blanks and comments between two items

A gap is what may stand between two items of a stylesheet: blanks and comments in any order. A
comment runs from an opening mark (slash, star) to the first closing mark (star, slash) after it;
one that is never closed runs to the end of the text. `Gap.read` reads the longest gap a text starts
with, and tells the blanks of it, which belong to a value, from the comments, which belong to
nothing. Selectors and values are both tokens with gaps after them, which `Gap.readTokens` reads. -/

namespace SassNesting

namespace Gap

/-- What follows the first closing mark of a comment, or nothing if there is none. -/
def skipComment : Text → Text
  | [] => []
  | '*' :: '/' :: rest => rest
  | _ :: rest => skipComment rest

/-- Skipping a comment never makes a text longer. -/
theorem length_skipComment_le (t : Text) : (skipComment t).length ≤ t.length := by
  fun_induction skipComment t <;> grind

/-- Reads the longest gap at the start of a text: its blanks, without the comments, and the text
after it. -/
def read : Text → Text × Text
  | [] => ([], [])
  | '/' :: '*' :: rest => read (skipComment rest)
  | c :: rest =>
    if Text.isBlank c then
      let (blanks, rest) := read rest
      (c :: blanks, rest)
    else ([], c :: rest)
termination_by t => t.length
decreasing_by
  · have := length_skipComment_le rest
    grind
  · grind

/-- The text after the longest gap at its start. -/
def skip (t : Text) : Text := (read t).2

/-- What follows a gap is never longer than the text. -/
theorem length_skip_le (t : Text) : (skip t).length ≤ t.length := by
  unfold skip
  fun_induction read t with
  | case1 => simp
  | case2 rest ih =>
    have := length_skipComment_le rest
    grind
  | case3 => grind
  | case4 => simp

/-! ## Tokens between gaps -/

/-- Reads the tokens at the start of a text, each of them a run of characters of one kind: the
tokens, each with the blanks of the gap after it, and the text that follows. -/
def readTokens (isChar : Char → Bool) (t : Text) : List (Text × Text) × Text :=
  if t.takeWhile isChar = [] then ([], t)
  else
    let gap := read (t.dropWhile isChar)
    let (tokens, rest) := readTokens isChar gap.2
    ((t.takeWhile isChar, gap.1) :: tokens, rest)
termination_by t.length
decreasing_by
  rename_i h
  exact Nat.lt_of_le_of_lt (length_skip_le _) (Text.length_dropWhile_lt h)

/-- What follows tokens is never longer than the text they are read from. -/
theorem length_readTokens_le (isChar : Char → Bool) (t : Text) :
    (readTokens isChar t).2.length ≤ t.length := by
  fun_induction readTokens isChar t with
  | case1 => simp
  | case2 t _ gap tokens rest hrest ih =>
    have hgap : gap.2.length ≤ _ := length_skip_le (t.dropWhile isChar)
    have htoken := Text.length_dropWhile_le isChar t
    rw [hrest] at ih
    simp only at ih ⊢
    omega

/-- The text of tokens, in which each gap has left its blanks. -/
def joinTokens (tokens : List (Text × Text)) : Text :=
  tokens.flatMap fun (token, blanks) => token ++ blanks

end Gap

end SassNesting
