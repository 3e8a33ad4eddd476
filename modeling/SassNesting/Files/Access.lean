import SassNesting.Files.Path

/-! # Access to files

A conversion is run on files that are really there as on files that are held in memory, so what it
needs of them is a class of operations: to tell directories, to list them, and to read and write
files. An operation that fails tells why, and changes nothing. -/

namespace SassNesting

/-- Why a file cannot be read or written. -/
inductive FileError where
  /-- There is nothing at the path. -/
  | notFound
  /-- The path leads through something that is not a directory. -/
  | notDirectory
  /-- The path leads to a directory. -/
  | isDirectory
  /-- Another reason, by its number. -/
  | other (code : Nat) (description : Text)
deriving DecidableEq

namespace FileError

/-- The number by which systems know the reason. -/
def code : FileError → Nat
  | notFound => 2
  | notDirectory => 20
  | isDirectory => 21
  | other code _ => code

/-- The reason in words. -/
def description : FileError → Text
  | notFound => "No such file or directory".toList
  | notDirectory => "Not a directory".toList
  | isDirectory => "Is a directory".toList
  | other _ description => description

/-- The reason as messages give it. -/
def message (e : FileError) : Text :=
  e.description ++ " (os error ".toList ++ Text.ofNat e.code ++ [')']

end FileError

/-- The operations on files that a run needs. -/
class FileAccess (m : Type → Type) where
  /-- Whether a path leads to a directory. -/
  isDirectory : Path → m Bool
  /-- The names of what is in a directory, in any order. -/
  names : Path → m (Except FileError (List Text))
  /-- The content of a file. -/
  read : Path → m (Except FileError ByteArray)
  /-- Gives a file a new content; the file need not exist. -/
  write : Path → ByteArray → m (Except FileError Unit)
  /-- All of the standard input. -/
  standardInput : m ByteArray

end SassNesting
