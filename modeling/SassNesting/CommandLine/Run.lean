import SassNesting.CommandLine.Arguments
import SassNesting.Conversion
import SassNesting.Files.Access
import SassNesting.Node.Outline

/-! # Running the command line

A run converts one stylesheet, or every stylesheet of a directory in the order of their names. What
it has to say comes back as a report: messages in order, and whether anything failed. Apart from
that it only reads its inputs and writes its outputs, so it runs wherever files can be accessed. -/

namespace SassNesting

/-! ## Reports -/

/-- Something that a run has to say. -/
inductive Message where
  /-- A piece of the output. -/
  | output (text : Text)
  /-- A line that tells what went wrong. -/
  | problem (line : Text)
  /-- An event in the log. -/
  | event (event : Event)
deriving DecidableEq

/-- What a run has to say, and whether anything failed. -/
structure Report where
  /-- The messages, in order. -/
  messages : List Message := []
  /-- Whether anything failed. -/
  failed : Bool := false
deriving DecidableEq

namespace Report

/-- One report after another. -/
def append (r s : Report) : Report := ⟨r.messages ++ s.messages, r.failed || s.failed⟩

instance : Append Report := ⟨append⟩

/-- A piece of output. -/
def output (text : Text) : Report := ⟨[.output text], false⟩

/-- A failure and the line that tells of it. -/
def failure (line : Text) : Report := ⟨[.problem line], true⟩

/-- Events for the log. -/
def log (events : List Event) : Report := ⟨events.map .event, false⟩

end Report

/-! ## Converting -/

variable {m : Type → Type} [Monad m] [FileAccess m]

/-- Gives a file its new content; if that fails, the report tells why. -/
def writeOutput (p : Path) (text : Text) : m Report := do
  match ← FileAccess.write p text.toBytes with
  | .ok () => return {}
  | .error e => return .failure ("Error writing ".toList ++ p ++ ": ".toList ++ e.message)

/-- Puts a result where the settings want it: into a file, or into the output. -/
def deliver (s : Settings) (file : Option Path) (text : Text) : m Report :=
  match s.output, s.write, file with
  | some p, _, _ => writeOutput p text
  | none, true, some p => writeOutput (p.withExtension "sass".toList) text
  | none, true, none => return .failure "Error: --write requires an input file".toList
  | none, false, _ => return .output text

/-- What a check says of a stylesheet without errors. -/
def soundMessage : Option Path → Text
  | some p => p ++ ": ok\n".toList
  | none => "ok\n".toList

/-- Converts a stylesheet, from a file or from the standard input. -/
def runSheet (s : Settings) (file : Option Path) (t : Text) : m Report := do
  let o := s.options file
  let log := Report.log (conversionEvents o t)
  match buildSheet o t with
  | .error d => return log ++ .failure d.message
  | .ok sheet =>
    if s.check then return log ++ .output (soundMessage file)
    else return log ++ (← deliver s file (if s.tree then sheet.outline else sheet.sass o))

/-- Converts the stylesheet in a file. -/
def runFile (s : Settings) (p : Path) : m Report := do
  match ← FileAccess.read p with
  | .error e => return .failure ("Error reading ".toList ++ p ++ ": ".toList ++ e.message)
  | .ok bytes =>
    match Text.ofBytes? bytes with
    | none => return .failure ("Error reading ".toList ++ p ++ ": ".toList ++ notTextReason)
    | some t => runSheet s (some p) t

/-- Converts the stylesheets in several files, one after another, whatever becomes of each. -/
def runFiles (s : Settings) : List Path → m Report
  | [] => return {}
  | p :: rest => do
    let first ← runFile s p
    let others ← runFiles s rest
    return first ++ others

/-- The names of stylesheets among the names in a directory, in ascending order. -/
def sheetNames (names : List Text) : List Text :=
  (names.filter fun name => Path.extension? name = some "css".toList).mergeSort Text.inOrder

/-- Converts the stylesheets in a directory. -/
def runDirectory (s : Settings) (directory : Path) : m Report := do
  match ← FileAccess.names directory with
  | .error e =>
    return .failure ("Error reading directory ".toList ++ directory ++ ": ".toList ++ e.message)
  | .ok names =>
    let files := (sheetNames names).map (Path.join directory)
    let report ← runFiles s files
    return .log [.directoryStarted directory files.length] ++ report

/-- Converts what the settings name: the standard input, a directory, or a file. -/
def run (s : Settings) : m Report := do
  match s.input.filter fun p => !p.isStandardInput with
  | none =>
    match Text.ofBytes? (← FileAccess.standardInput) with
    | none => return .failure ("Error: ".toList ++ unreadableMessage)
    | some t => runSheet s none t
  | some p =>
    if ← FileAccess.isDirectory p then
      if s.output ≠ none then
        return .failure "Error: --output cannot be used with directory input".toList
      else runDirectory s p
    else runFile s p

/-! ## The log that is shown -/

/-- The level up to which the log is shown, or none if nothing of it is. A level that the
environment names counts before the verbosity; a word that is no level shows nothing. Deliberately
only the bare name of a level is understood, in any case of its letters: a list of filters such as
`part=debug,other` sets the levels of single parts of a program, and this one has no parts to tell
apart, so it is a word that is no level. -/
def shownLevel (verbosity : Nat) : Option Text → Option Level
  | some word =>
    [Level.error, .warn, .info, .debug, .trace].find? fun level =>
      level.name = word.map Char.toLower
  | none =>
    match verbosity with
    | 0 => some .warn
    | 1 => some .debug
    | _ => some .trace

/-- Whether a message is shown: all but the events beyond a level. -/
def Message.isShown (level : Option Level) : Message → Bool
  | event e => level.any fun level => e.level.rank ≤ level.rank
  | _ => true

/-! ## Outcomes -/

/-- What a command line has to say, and its exit code. -/
structure Outcome where
  /-- The messages that are shown, in order. -/
  messages : List Message
  /-- Zero on success, one if a conversion failed, two if the arguments do not fit. -/
  exitCode : Nat
deriving DecidableEq

/-- The name of the command. -/
def commandName : Text := "css2sass".toList

/-- How the command is called. -/
def usageLine : Text := "Usage: ".toList ++ commandName ++ " [OPTIONS] [INPUT]".toList

/-- What the command says of its version. -/
def versionLine : Text := commandName ++ " 1.0.0".toList

/-- The overview of the options. -/
def optionLines : List Text := List.map String.toList
  ["Arguments:",
    "  [INPUT]  Input file or directory (reads from stdin if not provided)",
    "",
    "Options:",
    "  -o, --output <OUTPUT>  Write output to the specified file (not valid with directory input)",
    "  -w, --write            Write output next to each input, with a .sass extension",
    "      --check            Only check that the input parses (exit 0 if valid, 1 if invalid)",
    "      --tree             Print the transformed tree outline instead of Sass",
    "      --indent <INDENT>  Spaces per indentation level (0-16) [default: 2]",
    "      --spaced           Put a blank line after every top-level rule",
    "  -v, --verbose...       Increase log verbosity (-v debug, -vv trace)",
    "  -h, --help             Print help",
    "  -V, --version          Print version"]

/-- What is said when help is asked for: what the command does, how it is called, and its options.
-/
def helpText : Text :=
  Text.unlines
    (["Convert flat CSS stylesheets into nested Sass".toList, [], usageLine, []] ++ optionLines)

/-- What is said instead of a conversion. -/
def Reply.outcome : Reply → Outcome
  | version => ⟨[.output (Text.unlines [versionLine])], 0⟩
  | help => ⟨[.output helpText], 0⟩
  | misuse => ⟨[.problem usageLine], 2⟩

/-- Runs a command line, with the level of the log that the environment names if it names one. -/
def runArguments (arguments : List Text) (environmentLevel : Option Text) : m Outcome := do
  match Settings.ofArguments arguments with
  | .error reply => return reply.outcome
  | .ok s =>
    let report ← run s
    let level := shownLevel s.verbosity environmentLevel
    return ⟨report.messages.filter (Message.isShown level), if report.failed then 1 else 0⟩

end SassNesting
