import SassNesting.CommandLine.Run

/-! # The command line

Runs the command line on the files of the machine: hands the arguments to the run, prints what it
has to say, and exits with its code.

The variable `SASS_NESTING_LOG` of the environment may name the level up to which the log is shown.
That this is a variable of its own is deliberate: a variable that several programs read would turn
on the log of all of them, and hold filters that `shownLevel` does not understand. Only where the
level is read from is decided here; `runArguments` takes it as an argument. -/

namespace SassNesting

namespace FileError

/-- The reason with a given number, which some operations give with its sign turned. -/
def ofCode (code : UInt32) (description : String) : FileError :=
  let number := min code.toNat (-code).toNat
  if number = FileError.code .notFound then .notFound
  else if number = FileError.code .notDirectory then .notDirectory
  else if number = FileError.code .isDirectory then .isDirectory
  else .other number description.toList

/-- The reason for which an operation of the machine failed. -/
def ofFailure : IO.Error → FileError
  | .noFileOrDirectory _ _ _ => .notFound
  | .inappropriateType _ code description => ofCode code description
  | .permissionDenied _ code description => ofCode code description
  | .resourceExhausted _ code description => ofCode code description
  | .invalidArgument _ code description => ofCode code description
  | .otherError code description => ofCode code description
  | e => .other 5 (toString e).toList

end FileError

/-- Runs an operation of the machine and tells why it failed, if it did. -/
def attempt {α : Type} (operation : IO α) : IO (Except FileError α) := do
  match ← operation.toBaseIO with
  | .ok a => return .ok a
  | .error e => return .error (.ofFailure e)

instance : FileAccess IO where
  isDirectory p := do
    match ← attempt (IO.FS.realPath (String.ofList p)) with
    | .ok place => place.isDir
    | .error _ => return false
  names p := attempt do
    let place ← IO.FS.realPath (String.ofList p)
    return (← place.readDir).toList.map fun entry => entry.fileName.toList
  read p := attempt (IO.FS.readBinFile (String.ofList p))
  write p content := attempt (IO.FS.writeBinFile (String.ofList p) content)
  standardInput := do (← IO.getStdin).readBinToEnd

/-- Prints a message where it belongs: output to the standard output, the rest to the standard
error. -/
def Message.print : Message → IO Unit
  | output t => IO.print (String.ofList t)
  | problem line => IO.eprintln (String.ofList line)
  | event e => IO.eprintln (String.ofList e.line)

end SassNesting

def main (arguments : List String) : IO UInt32 := do
  let level := (← IO.getEnv "SASS_NESTING_LOG").map String.toList
  let outcome ← SassNesting.runArguments (arguments.map String.toList) level
  outcome.messages.forM SassNesting.Message.print
  return outcome.exitCode.toUInt32
