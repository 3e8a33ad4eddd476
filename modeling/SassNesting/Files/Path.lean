import SassNesting.Text.Basic

/-! # Paths

A path is a text whose segments are parted by slashes; names that are no text have no path here.
This file has what is needed of paths as texts: their segments, the name at their end, and the
extension of a name. The extension is what follows the last dot of a name; a name with no dot, or
with its only dot in front, has none. -/

namespace SassNesting

/-- A path to a file or a directory. -/
abbrev Path := Text

namespace Path

/-- The segment that stands for the directory it is in. -/
def here : Text := ['.']

/-- The segment that stands for the directory above. -/
def above : Text := ['.', '.']

/-- The segments of a path; those that are empty come from a slash at an end or next to another. -/
def segments (p : Path) : List Text := p.splitOn '/'

/-- Whether a path names the standard input: a hyphen, with nothing after it that leads elsewhere.
-/
def isStandardInput (p : Path) : Bool :=
  match segments p with
  | first :: rest => first = ['-'] && rest.all fun segment => segment = [] || segment = here
  | [] => false

/-- The path of a name in a directory. -/
def join (directory : Path) (name : Text) : Path :=
  if directory.getLast? = some '/' then directory ++ name else directory ++ '/' :: name

/-- The name at the end of a path: what follows the last slash. -/
def name (p : Path) : Text := (p.reverse.takeWhile (· ≠ '/')).reverse

/-- A path up to its name: what comes up to and with the last slash. -/
def upToName (p : Path) : Text := (p.reverse.dropWhile (· ≠ '/')).reverse

/-! ## Extensions -/

/-- The stem and the extension of a name. -/
def splitExtension (name : Text) : Text × Option Text :=
  match name.reverse.dropWhile (· ≠ '.') with
  | _ :: stem =>
    if stem = [] ∨ name = above then (name, none)
    else (stem.reverse, some (name.reverse.takeWhile (· ≠ '.')).reverse)
  | [] => (name, none)

/-- The extension of a name, if it has one. -/
def extension? (name : Text) : Option Text := (splitExtension name).2

/-- The path with the extension of its name replaced, or added if there is none. A name of two dots
and an extension has a dot for its stem; without the extension it stands for the directory above, to
which none can be added. -/
def withExtension (p : Path) (extension : Text) : Path :=
  match splitExtension (name p) with
  | (['.'], some _) => upToName p ++ above
  | (stem, _) => upToName p ++ stem ++ '.' :: extension

end Path

end SassNesting
