import SassNesting.Files.Path
import SassNesting.Options

/-! # Arguments of the command line

The arguments are read from left to right into settings. A long option follows two hyphens, and its
value either an equals sign or as the next argument; short options may share one hyphen, and the
last of them may have its value attached. Two hyphens alone end the options. The first argument that
asks for the version or for help, or that does not fit, decides what is answered instead of a
conversion. -/

namespace SassNesting

/-- What the arguments ask for. -/
structure Settings where
  /-- The file or directory to convert. -/
  input : Option Path := none
  /-- The file to write. -/
  output : Option Path := none
  /-- Whether to write a file next to each input. -/
  write : Bool := false
  /-- Whether to check the input only. -/
  check : Bool := false
  /-- Whether to give the outline of the tree instead of Sass. -/
  tree : Bool := false
  /-- The number of spaces per level, if it is given. -/
  indent : Option Nat := none
  /-- Whether an empty line follows each node at the top. -/
  spaced : Bool := false
  /-- How many times more of the log is asked for. -/
  verbosity : Nat := 0
deriving DecidableEq

/-- The options of the conversions, for a stylesheet from a file or from the standard input. -/
def Settings.options (s : Settings) (file : Option Path) : Options :=
  let o := (({} : Options).setIndentWidth (s.indent.getD 2)).setSpaced s.spaced
  match file with
  | some p => o.setFileName p
  | none => o

/-- What is answered instead of a conversion. -/
inductive Reply where
  /-- The version. -/
  | version
  /-- An overview of the options. -/
  | help
  /-- That the arguments do not fit. -/
  | misuse
deriving DecidableEq

/-! ## Options -/

/-- An option without a value. -/
inductive Switch where
  /-- Write a file next to each input. -/
  | write
  /-- Check the input only. -/
  | check
  /-- Give the outline of the tree. -/
  | tree
  /-- Put an empty line after each node at the top. -/
  | spaced
  /-- Show more of the log. -/
  | verbose
  /-- Give the version. -/
  | version
  /-- Give an overview of the options. -/
  | help
deriving DecidableEq

/-- An option with a value. -/
inductive Parameter where
  /-- The file to write. -/
  | output
  /-- The number of spaces per level. -/
  | indent
deriving DecidableEq

/-- The options by their long names. -/
def longOptions : List (Text × (Switch ⊕ Parameter)) :=
  [("output".toList, .inr .output), ("write".toList, .inl .write), ("check".toList, .inl .check),
    ("tree".toList, .inl .tree), ("indent".toList, .inr .indent), ("spaced".toList, .inl .spaced),
    ("verbose".toList, .inl .verbose), ("version".toList, .inl .version),
    ("help".toList, .inl .help)]

/-- The options by their short names. -/
def shortOptions : List (Char × (Switch ⊕ Parameter)) :=
  [('o', .inr .output), ('w', .inl .write), ('v', .inl .verbose), ('V', .inl .version),
    ('h', .inl .help)]

/-- What a switch does to the settings; only the verbosity may be raised more than once. -/
def Switch.apply (s : Settings) : Switch → Except Reply Settings
  | write => if s.write then .error .misuse else .ok { s with write := true }
  | check => if s.check then .error .misuse else .ok { s with check := true }
  | tree => if s.tree then .error .misuse else .ok { s with tree := true }
  | spaced => if s.spaced then .error .misuse else .ok { s with spaced := true }
  | verbose => .ok { s with verbosity := s.verbosity + 1 }
  | version => .error .version
  | help => .error .help

/-- The number that decimal digits write. -/
def digitsValue (digits : Text) : Nat :=
  digits.foldl (fun n c => 10 * n + (c.toNat - '0'.toNat)) 0

/-- The number that decimal digits write, if there are any digits and the number is not too large.
-/
def boundedDigits? (bound : Nat) (digits : Text) : Option Nat :=
  if digits ≠ [] ∧ digits.all Char.isDigit ∧ digitsValue digits ≤ bound then
    some (digitsValue digits)
  else none

/-- The indentation width that a text gives: a decimal number with or without a sign, from zero to
the widest step that is written. -/
def indentWidth? : Text → Option Nat
  | '+' :: digits => boundedDigits? maxIndentWidth digits
  | '-' :: digits => boundedDigits? 0 digits
  | digits => boundedDigits? maxIndentWidth digits

/-- What a parameter with its value does to the settings; it may be given once. -/
def Parameter.apply (s : Settings) (value : Text) : Parameter → Except Reply Settings
  | output =>
    if s.output ≠ none ∨ value = [] then .error .misuse else .ok { s with output := some value }
  | indent =>
    match s.indent, indentWidth? value with
    | none, some width => .ok { s with indent := some width }
    | _, _ => .error .misuse

/-! ## Arguments -/

/-- Reads a long option, without its hyphens: the new settings, and the parameter that still needs a
value, if there is one. -/
def readLong (s : Settings) (long : Text) : Except Reply (Settings × Option Parameter) :=
  match longOptions.lookup (long.takeWhile (· ≠ '=')), long.dropWhile (· ≠ '=') with
  | some (.inl switch), [] => (switch.apply s).map (·, none)
  | some (.inr parameter), [] => .ok (s, some parameter)
  | some (.inr parameter), _ :: value => (parameter.apply s value).map (·, none)
  | _, _ => .error .misuse

/-- Reads short options, without their hyphen: the new settings, and the parameter that still needs
a value, if there is one. -/
def readShort (s : Settings) : Text → Except Reply (Settings × Option Parameter)
  | [] => .ok (s, none)
  | c :: rest =>
    match shortOptions.lookup c with
    | some (.inl switch) =>
      match switch.apply s with
      | .ok s => readShort s rest
      | .error reply => .error reply
    | some (.inr parameter) =>
      match rest with
      | [] => .ok (s, some parameter)
      | '=' :: value => (parameter.apply s value).map (·, none)
      | value => (parameter.apply s value).map (·, none)
    | none => .error .misuse

/-- Takes an argument as the input; there may be one, and it is not empty. -/
def readInput (s : Settings) (argument : Text) : Except Reply Settings :=
  if s.input ≠ none ∨ argument = [] then .error .misuse else .ok { s with input := some argument }

/-- Whether an argument reads as an option and so cannot be the value of one. -/
def looksLikeOption : Text → Bool
  | '-' :: _ :: _ => true
  | _ => false

/-- Reads the arguments one after another. -/
def readArguments (s : Settings) : List Text → Except Reply Settings
  | [] => .ok s
  | argument :: rest =>
    if argument = ['-', '-'] then rest.foldlM readInput s
    else
      let step :=
        match argument with
        | '-' :: '-' :: long => readLong s long
        | '-' :: c :: short => readShort s (c :: short)
        | _ => (readInput s argument).map (·, none)
      match step with
      | .error reply => .error reply
      | .ok (s, none) => readArguments s rest
      | .ok (s, some parameter) =>
        match rest with
        | [] => .error .misuse
        | value :: rest =>
          if looksLikeOption value then .error .misuse
          else
            match parameter.apply s value with
            | .ok s => readArguments s rest
            | .error reply => .error reply

/-- The settings that the arguments make up. One file to write does not go with one per input. -/
def Settings.ofArguments (arguments : List Text) : Except Reply Settings :=
  match readArguments {} arguments with
  | .ok s => if s.output ≠ none ∧ s.write then .error .misuse else .ok s
  | .error reply => .error reply

end SassNesting
