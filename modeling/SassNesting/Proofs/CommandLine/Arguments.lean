import SassNesting.CommandLine.Arguments

/-! # Settings and the arguments that ask for them

Settings can be asked for if their values are those of arguments: paths that are not empty, an
indentation step that is written, and one place at most for the result. Arguments make up such
settings only, and all of them (`exists_arguments_iff`), so what holds of all settings that can be
asked for holds of all command lines, and settings that are changed within these bounds are those of
another command line. -/

namespace SassNesting

namespace Settings

/-- Settings `s` whose values can be those of arguments. -/
structure HasValues (s : Settings) : Prop where
  /-- The input is not empty. -/
  input_ne : s.input ≠ some []
  /-- The path of the file to write is not empty. -/
  output_ne : s.output ≠ some []
  /-- The indentation step is one that is written. -/
  indent_le : ∀ width, s.indent = some width → width ≤ maxIndentWidth

/-- Settings `s` that can be asked for: in addition to `HasValues s`, one file to write does not go
with one per input. -/
structure IsAskable (s : Settings) : Prop extends HasValues s where
  /-- There is one place at most for the result. -/
  one_place : ¬(s.output ≠ none ∧ s.write = true)

/-- Settings that can be asked for can be asked for with any input `p ≠ []` instead of theirs. -/
theorem IsAskable.setInput {s : Settings} (h : s.IsAskable) {p : Path} (hp : p ≠ []) :
    IsAskable { s with input := some p } where
  input_ne := by simpa using hp
  output_ne := h.output_ne
  indent_le := h.indent_le
  one_place := h.one_place

end Settings

open Settings

/-! ## What arguments make up -/

variable {s r : Settings}

/-- The settings `{}` before any argument. -/
theorem Settings.hasValues_empty : HasValues {} where
  input_ne := by simp
  output_ne := by simp
  indent_le := by simp

/-- A switch changes none of the values: `switch.apply s` keeps `HasValues`. -/
theorem Switch.hasValues_of_apply {switch : Switch} (hs : s.HasValues)
    (h : switch.apply s = .ok r) :
    r.HasValues := by
  cases switch <;> simp only [Switch.apply] at h
  case verbose => cases h; exact ⟨hs.input_ne, hs.output_ne, hs.indent_le⟩
  case version => cases h
  case help => cases h
  all_goals
    split at h
    · cases h
    · cases h
      exact ⟨hs.input_ne, hs.output_ne, hs.indent_le⟩

/-- A number that `boundedDigits? bound digits` gives is within `bound`. -/
theorem le_of_boundedDigits? {bound width : Nat} {digits : Text}
    (h : boundedDigits? bound digits = some width) : width ≤ bound := by
  unfold boundedDigits? at h
  split at h
  · rename_i hdigits
    cases h
    exact hdigits.2.2
  · cases h

/-- A width that `indentWidth? value` gives is one that is written: at most `maxIndentWidth`. -/
theorem le_of_indentWidth? {value : Text} {width : Nat} (h : indentWidth? value = some width) :
    width ≤ maxIndentWidth := by
  unfold indentWidth? at h
  split at h
  · exact le_of_boundedDigits? h
  · exact Nat.le_trans (le_of_boundedDigits? h) (Nat.zero_le _)
  · exact le_of_boundedDigits? h

/-- A parameter takes a value that it can have: `parameter.apply s value` keeps `HasValues`. -/
theorem Parameter.hasValues_of_apply {parameter : Parameter} {value : Text} (hs : s.HasValues)
    (h : parameter.apply s value = .ok r) : r.HasValues := by
  cases parameter with
  | output =>
      simp only [Parameter.apply] at h
      split at h
      · cases h
      · rename_i hvalue
        cases h
        exact ⟨hs.input_ne, by simpa using (not_or.1 hvalue).2, hs.indent_le⟩
  | indent =>
      simp only [Parameter.apply] at h
      split at h
      · rename_i width _ hwidth
        cases h
        refine ⟨hs.input_ne, hs.output_ne, ?_⟩
        rintro _ ⟨⟩
        exact le_of_indentWidth? hwidth
      · cases h

/-- An input that `readInput s argument` takes is not empty. -/
theorem hasValues_of_readInput {argument : Text} (hs : s.HasValues)
    (h : readInput s argument = .ok r) : r.HasValues := by
  unfold readInput at h
  split at h
  · cases h
  · rename_i hargument
    cases h
    exact ⟨by simpa using (not_or.1 hargument).2, hs.output_ne, hs.indent_le⟩

/-- The result of a step that has no parameter without a value. -/
theorem eq_of_map_eq_ok {step : Except Reply Settings} {parameter? : Option Parameter}
    (h : step.map (fun s => (s, none)) = .ok (r, parameter?)) : step = .ok r := by
  cases step with
  | error reply => cases h
  | ok s => cases h; rfl

/-- A long option keeps `HasValues`, with or without its value attached. -/
theorem hasValues_of_readLong {long : Text} {parameter? : Option Parameter} (hs : s.HasValues)
    (h : readLong s long = .ok (r, parameter?)) : r.HasValues := by
  unfold readLong at h
  split at h
  · exact Switch.hasValues_of_apply hs (eq_of_map_eq_ok h)
  · cases h
    exact hs
  · exact Parameter.hasValues_of_apply hs (eq_of_map_eq_ok h)
  · cases h

/-- Short options keep `HasValues`, all those of one argument. -/
theorem hasValues_of_readShort {short : Text} {parameter? : Option Parameter} (hs : s.HasValues)
    (h : readShort s short = .ok (r, parameter?)) : r.HasValues := by
  fun_induction readShort s short with
  | case1 s =>
      cases h
      exact hs
  | case2 s c rest switch hlookup s₁ happly ih =>
      exact ih (Switch.hasValues_of_apply hs happly) h
  | case3 => cases h
  | case4 s c parameter hlookup =>
      cases h
      exact hs
  | case5 => exact Parameter.hasValues_of_apply hs (eq_of_map_eq_ok h)
  | case6 => exact Parameter.hasValues_of_apply hs (eq_of_map_eq_ok h)
  | case7 => cases h

/-- Inputs that are taken one after another keep `HasValues`. -/
theorem hasValues_of_readInputs {arguments : List Text} (hs : s.HasValues)
    (h : arguments.foldlM readInput s = .ok r) : r.HasValues := by
  induction arguments generalizing s with
  | nil =>
      cases h
      exact hs
  | cons argument rest ih =>
      rw [List.foldlM_cons] at h
      cases hfirst : readInput s argument with
      | error reply =>
          rw [hfirst] at h
          cases h
      | ok s₁ =>
          rw [hfirst] at h
          exact ih (hasValues_of_readInput hs hfirst) h

/-- What `readArguments s arguments` makes up of settings with `HasValues s` has values that
arguments can have. -/
theorem hasValues_of_readArguments {arguments : List Text} (hs : s.HasValues)
    (h : readArguments s arguments = .ok r) : r.HasValues := by
  -- In both cases with more to read, the argument that was read is of one of three kinds.
  fun_induction readArguments s arguments with
  | case1 s =>
      cases h
      exact hs
  | case2 s rest => exact hasValues_of_readInputs hs h
  | case3 => cases h
  | case4 s argument rest hargument step s₁ hone ih =>
      refine ih ?_ h
      unfold step at hone
      split at hone
      · exact hasValues_of_readLong hs hone
      · exact hasValues_of_readShort hs hone
      · exact hasValues_of_readInput hs (eq_of_map_eq_ok hone)
  | case5 => cases h
  | case6 => cases h
  | case7 s argument hargument step s₁ parameter hone value rest hvalue s₂ happly ih =>
      refine ih (Parameter.hasValues_of_apply ?_ happly) h
      unfold step at hone
      split at hone
      · exact hasValues_of_readLong hs hone
      · exact hasValues_of_readShort hs hone
      · exact hasValues_of_readInput hs (eq_of_map_eq_ok hone)
  | case8 => cases h

/-- What `ofArguments` makes up can be asked for: `s.IsAskable` for the settings `s` of any
arguments. -/
theorem Settings.isAskable_of_ofArguments {arguments : List Text}
    (h : ofArguments arguments = .ok s) : s.IsAskable := by
  unfold ofArguments at h
  split at h
  · rename_i s₁ hread
    split at h
    · cases h
    · rename_i hplace
      cases h
      exact ⟨hasValues_of_readArguments hasValues_empty hread, hplace⟩
  · cases h

/-! ## Arguments for settings -/

/-- The argument `--long` for a switch, if the switch is on. -/
def switchArgument (on : Bool) (long : Text) : List Text := if on then ['-' :: '-' :: long] else []

/-- The argument `--long=value` for a parameter with its value attached, if there is a value. -/
def parameterArgument {α : Type} (long : Text) (shown : α → Text) (value? : Option α) : List Text :=
  value?.elim [] fun value => ['-' :: '-' :: (long ++ '=' :: shown value)]

/-- Arguments that ask for settings `s`: the options by their long names, and the input behind `--`.
-/
def Settings.arguments (s : Settings) : List Text :=
  switchArgument s.write "write".toList ++ (switchArgument s.check "check".toList ++
    (switchArgument s.tree "tree".toList ++ (switchArgument s.spaced "spaced".toList ++
      (parameterArgument "indent".toList Text.ofNat s.indent ++
        (parameterArgument "output".toList id s.output ++
          (List.replicate s.verbosity "--verbose".toList ++
            s.input.elim [] fun p => [['-', '-'], p]))))))

/-- A long option for which `readLong` needs no further argument is read apart from what follows. -/
theorem readArguments_long {long : Text} (hlong : long ≠ []) (h : readLong s long = .ok (r, none))
    (rest : List Text) : readArguments s (('-' :: '-' :: long) :: rest) = readArguments r rest := by
  rw [readArguments, if_neg (by simpa using hlong)]
  simp only [h]

/-- A `switchArgument`, on or off, is read apart from what follows: `s` becomes `r`. -/
theorem readArguments_switchArgument {on : Bool} {long : Text} (hlong : long ≠ [])
    (hoff : on = false → s = r) (hon : on = true → readLong s long = .ok (r, none))
    (rest : List Text) :
    readArguments s (switchArgument on long ++ rest) = readArguments r rest := by
  cases on with
  | false =>
      rw [hoff rfl]
      rfl
  | true => exact readArguments_long hlong (hon rfl) rest

/-- A `parameterArgument`, with or without a value, is read apart from what follows: `s` becomes
`r`. -/
theorem readArguments_parameterArgument {α : Type} {long : Text} {shown : α → Text}
    {value? : Option α} (hnone : value? = none → s = r)
    (hsome : ∀ value, value? = some value → readLong s (long ++ '=' :: shown value) = .ok (r, none))
    (rest : List Text) :
    readArguments s (parameterArgument long shown value? ++ rest) = readArguments r rest := by
  cases value? with
  | none =>
      rw [hnone rfl]
      rfl
  | some value => exact readArguments_long (by simp) (hsome value rfl) rest

/-- The argument `--verbose`, given `n` times, raises `s.verbosity` by `n`. -/
theorem readArguments_verbose (n : Nat) (rest : List Text) :
    readArguments s (List.replicate n "--verbose".toList ++ rest) =
      readArguments { s with verbosity := s.verbosity + n } rest := by
  induction n generalizing s with
  | zero => rfl
  | succ n ih =>
      have hone : readLong s "verbose".toList =
          .ok ({ s with verbosity := s.verbosity + 1 }, none) := rfl
      calc readArguments s ("--verbose".toList :: (List.replicate n "--verbose".toList ++ rest))
          = readArguments { s with verbosity := s.verbosity + 1 }
              (List.replicate n "--verbose".toList ++ rest) :=
            readArguments_long (by decide) hone _
        _ = readArguments { s with verbosity := s.verbosity + 1 + n } rest := ih
        _ = readArguments { s with verbosity := s.verbosity + (n + 1) } rest := by
            rw [Nat.add_assoc, Nat.add_comm 1 n]

/-- The digits of a width that is written give it: `indentWidth? (Text.ofNat width) = some width`.
-/
theorem indentWidth?_ofNat :
    ∀ width ≤ maxIndentWidth, indentWidth? (Text.ofNat width) = some width := by
  decide

/-- Settings with `s.HasValues` are read from `s.arguments`. -/
theorem readArguments_arguments (h : s.HasValues) : readArguments {} s.arguments = .ok s := by
  obtain ⟨input, output, write, check, tree, indent, spaced, verbosity⟩ := s
  obtain ⟨hinput, houtput, hindent⟩ := h
  dsimp only at hinput houtput hindent
  have hwidth : ∀ width, indent = some width →
      readLong { write, check, tree, spaced } ("indent".toList ++ '=' :: Text.ofNat width) =
        .ok ({ write, check, tree, spaced, indent }, none) := by
    rintro width rfl
    calc readLong { write, check, tree, spaced } ("indent".toList ++ '=' :: Text.ofNat width)
        = (Parameter.indent.apply { write, check, tree, spaced } (Text.ofNat width)).map
          (·, none) :=
          rfl
      _ = .ok ({ write, check, tree, spaced, indent := some width }, none) := by
          simp only [Parameter.apply, indentWidth?_ofNat width (hindent width rfl)]
          rfl
  have hpath : ∀ p, output = some p →
      readLong { write, check, tree, spaced, indent } ("output".toList ++ '=' :: id p) =
        .ok ({ write, check, tree, spaced, indent, output }, none) := by
    rintro p rfl
    calc readLong { write, check, tree, spaced, indent } ("output".toList ++ '=' :: id p)
        = (Parameter.output.apply { write, check, tree, spaced, indent } p).map (·, none) := rfl
      _ = .ok ({ write, check, tree, spaced, indent, output := some p }, none) := by
          rw [Parameter.apply, if_neg (by simpa using houtput)]
          rfl
  -- Each argument in turn fills in its field.
  unfold Settings.arguments
  rw [readArguments_switchArgument (r := { write }) (by decide) (by rintro rfl; rfl)
      (by rintro rfl; rfl),
    readArguments_switchArgument (r := { write, check }) (by decide) (by rintro rfl; rfl)
      (by rintro rfl; rfl),
    readArguments_switchArgument (r := { write, check, tree }) (by decide) (by rintro rfl; rfl)
      (by rintro rfl; rfl),
    readArguments_switchArgument (r := { write, check, tree, spaced }) (by decide)
      (by rintro rfl; rfl) (by rintro rfl; rfl),
    readArguments_parameterArgument (r := { write, check, tree, spaced, indent })
      (by rintro rfl; rfl) hwidth,
    readArguments_parameterArgument (r := { write, check, tree, spaced, indent, output })
      (by rintro rfl; rfl) hpath,
    readArguments_verbose, Nat.zero_add]
  cases input with
  | none => rfl
  | some p =>
      have hp : p ≠ [] := by simpa using hinput
      rw [Option.elim_some, readArguments, if_pos rfl, List.foldlM_cons, readInput,
        if_neg (by simpa using hp)]
      rfl

/-- Settings with `s.IsAskable` are read from their arguments: `ofArguments s.arguments = .ok s`. -/
theorem Settings.ofArguments_arguments (h : s.IsAskable) : ofArguments s.arguments = .ok s := by
  rw [ofArguments, readArguments_arguments h.toHasValues]
  exact if_neg h.one_place

/-- **The settings of command lines.** There are arguments with `ofArguments arguments = .ok s` iff
`s.IsAskable`: command lines make up all settings that can be asked for, and no others. -/
theorem Settings.exists_arguments_iff :
    (∃ arguments, ofArguments arguments = .ok s) ↔ s.IsAskable :=
  ⟨fun ⟨_, h⟩ => isAskable_of_ofArguments h, fun h => ⟨s.arguments, ofArguments_arguments h⟩⟩

end SassNesting
