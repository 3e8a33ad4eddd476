/-! # Text as a list of characters

A stylesheet is read, cut and put together again character by character, so a text is held as the
list of its characters and reading it is recursion on that list. This file fixes which characters
count as blank, and the ways of cutting a text at its blanks: trimming, and splitting into words.
Positions in a text are counted in bytes of its UTF-8 form, which `Text.byteSize` measures. -/

namespace SassNesting

/-- A text, held as the list of its characters. -/
abbrev Text := List Char

namespace Text

/-! ## Blank characters -/

/-- The ranges of code points with the Unicode property `White_Space`, first and last included. -/
def blankRanges : List (Nat × Nat) :=
  [(0x09, 0x0D), (0x20, 0x20), (0x85, 0x85), (0xA0, 0xA0), (0x1680, 0x1680), (0x2000, 0x200A),
    (0x2028, 0x2029), (0x202F, 0x202F), (0x205F, 0x205F), (0x3000, 0x3000)]

/-- A character is blank when it has the Unicode property `White_Space`. -/
def isBlank (c : Char) : Bool :=
  blankRanges.any fun (first, last) => first ≤ c.toNat && c.toNat ≤ last

/-! ## Trimming and words -/

/-- The text without the blanks it starts with. -/
def trimStart (t : Text) : Text := t.dropWhile isBlank

/-- The text without the blanks it ends with. -/
def trimEnd (t : Text) : Text := (t.reverse.dropWhile isBlank).reverse

/-- The text without the blanks it starts or ends with. -/
def trim (t : Text) : Text := trimEnd (trimStart t)

/-- The maximal runs of characters that are not blank, in order. -/
def words (t : Text) : List Text := (t.splitOnP isBlank).filter (· ≠ [])

/-- Trimming the start never makes a text longer. -/
theorem length_trimStart_le (t : Text) : (trimStart t).length ≤ t.length :=
  (List.dropWhile_sublist isBlank).length_le

/-- Trimming the end never makes a text longer. -/
theorem length_trimEnd_le (t : Text) : (trimEnd t).length ≤ t.length := by
  simpa [trimEnd] using (List.dropWhile_sublist isBlank (l := t.reverse)).length_le

/-- Trimming never makes a text longer. -/
theorem length_trim_le (t : Text) : (trim t).length ≤ t.length :=
  Nat.le_trans (length_trimEnd_le _) (length_trimStart_le t)

/-! ## Leading runs -/

/-- What follows a leading run of characters is never longer than the text. -/
theorem length_dropWhile_le (p : Char → Bool) (t : Text) : (t.dropWhile p).length ≤ t.length :=
  (List.dropWhile_sublist p).length_le

/-- What follows a leading run of characters is shorter than the text, if the run is not empty. -/
theorem length_dropWhile_lt {p : Char → Bool} {t : Text} (h : t.takeWhile p ≠ []) :
    (t.dropWhile p).length < t.length := by
  have hsplit := congrArg List.length (List.takeWhile_append_dropWhile (p := p) (l := t))
  have hpos := List.length_pos_iff.2 h
  grind

/-! ## Order -/

/-- Whether one text comes before another, or is equal to it, in the order by code points. The bytes
of the UTF-8 forms give the same order. -/
def inOrder : Text → Text → Bool
  | [], _ => true
  | _ :: _, [] => false
  | c :: s, d :: t => c.toNat < d.toNat || c.toNat = d.toNat && inOrder s t

/-! ## Size and lines -/

/-- The number of bytes of the text in UTF-8. -/
def byteSize : Text → Nat
  | [] => 0
  | c :: t => c.utf8Size + byteSize t

@[simp] theorem byteSize_nil : byteSize [] = 0 := rfl

@[simp] theorem byteSize_cons (c : Char) (t : Text) :
    byteSize (c :: t) = c.utf8Size + byteSize t := rfl

@[simp] theorem byteSize_append (s t : Text) : byteSize (s ++ t) = byteSize s + byteSize t := by
  induction s with
  | nil => simp
  | cons c s ih => simp [ih, Nat.add_assoc]

/-- The lines one after another, each with a line feed after it. -/
def unlines (lines : List Text) : Text := lines.flatMap (· ++ ['\n'])

@[simp] theorem unlines_nil : unlines [] = [] := rfl

@[simp] theorem unlines_cons (line : Text) (lines : List Text) :
    unlines (line :: lines) = line ++ '\n' :: unlines lines := by
  simp [unlines]

/-- The decimal digits of a number. -/
def ofNat (n : Nat) : Text := Nat.toDigits 10 n

/-- The text whose UTF-8 form is `bytes`, if there is one. -/
def ofBytes? (bytes : ByteArray) : Option Text := (String.fromUTF8? bytes).map String.toList

/-- The UTF-8 form of a text. -/
def toBytes (t : Text) : ByteArray := (String.ofList t).toUTF8

/-- A text is read back from its UTF-8 form. -/
theorem ofBytes?_toBytes (t : Text) : ofBytes? t.toBytes = some t := by
  have h : String.fromUTF8? (String.ofList t).toUTF8 = some (String.ofList t) :=
    dif_pos (String.ofList t).isValidUTF8
  rw [ofBytes?, toBytes, h, Option.map_some, String.toList_ofList]

end Text

end SassNesting
