import SassNesting.CommandLine.Run
import SassNesting.Proofs.Files.Workspace
import SassNesting.Proofs.CommandLine.Arguments

/-! # What comes of a run

Run on files in memory, a conversion of one stylesheet is settled by what it reads: its input is
refused with a line that tells why, or a text is printed, or a text is written to a file
(`effectOf_run`). So a run that fails changes nothing and prints nothing, and one that succeeds
changes at most the file it was asked to write; that file then holds what would have been printed
(`effect_confined`). -/

namespace SassNesting

/-! ## Effects -/

/-- What a message adds to the standard output: the text of an `output`. -/
def Message.stdout : Message → Text
  | output text => text
  | _ => []

/-- What a message adds to the standard error, apart from the log: the line of a `problem`. -/
def Message.stderr : Message → Text
  | problem line => line ++ ['\n']
  | _ => []

/-- What comes of a run, apart from the log. -/
structure Effect where
  /-- What is printed to the standard output. -/
  stdout : Text
  /-- What is printed to the standard error. -/
  stderr : Text
  /-- The exit code. -/
  exitCode : Nat
  /-- The files afterwards. -/
  after : Workspace

/-- What an action on files gives in a workspace `w`, and the workspace afterwards. -/
def Workspace.perform {α : Type} (w : Workspace) (action : StateM Workspace α) : α × Workspace :=
  action w

/-- What comes of a command line in a workspace `w`, with `level` as the level of the log in the
environment. -/
def Workspace.effect (w : Workspace) (arguments : List Text) (level : Option Text) : Effect :=
  let (outcome, after) := w.perform (runArguments arguments level)
  ⟨outcome.messages.flatMap Message.stdout, outcome.messages.flatMap Message.stderr,
    outcome.exitCode, after⟩

/-- What comes of a run that ends with the report `r` and leaves the workspace `after`. -/
def Report.effect (r : Report) (after : Workspace) : Effect :=
  ⟨r.messages.flatMap Message.stdout, r.messages.flatMap Message.stderr, if r.failed then 1 else 0,
    after⟩

/-- What comes of an `action` in a workspace `w`, if it ends with a report. -/
def Workspace.effectOf (w : Workspace) (action : StateM Workspace Report) : Effect :=
  (w.perform action).1.effect (w.perform action).2

namespace Workspace

variable {α β : Type} (w : Workspace)

/-! ## Actions -/

@[simp] theorem perform_pure (a : α) : w.perform (pure a) = (a, w) := rfl

@[simp] theorem perform_bind (action : StateM Workspace α) (next : α → StateM Workspace β) :
    w.perform (action >>= next) =
      (w.perform action).2.perform (next (w.perform action).1) := rfl

@[simp] theorem perform_read (p : Path) : w.perform (FileAccess.read p) = (w.read p, w) := rfl

@[simp] theorem perform_names (p : Path) : w.perform (FileAccess.names p) = (w.names p, w) := rfl

@[simp] theorem perform_isDirectory (p : Path) :
    w.perform (FileAccess.isDirectory p) = (w.isDirectory p, w) := rfl

@[simp] theorem perform_standardInput :
    w.perform FileAccess.standardInput = (w.input, w) := rfl

theorem perform_write (p : Path) (content : ByteArray) :
    w.perform (FileAccess.write p content) =
      match w.write p content with
      | .ok v => (.ok (), v)
      | .error e => (.error e, w) := by
  have hget : w.perform get = (w, w) := rfl
  simp only [FileAccess.write, perform_bind, hget]
  cases w.write p content <;> rfl

end Workspace

/-! ## The effect of a report -/

section Streams

variable {stream : Message → Text} (hstream : ∀ e, stream (.event e) = [])

include hstream

/-- Events add nothing to a `stream` that is not the log. -/
theorem flatMap_map_event (events : List Event) :
    (events.map Message.event).flatMap stream = [] := by
  rw [List.flatMap_map]
  exact List.flatMap_eq_nil_iff.2 fun e _ => hstream e

/-- For a `stream` that is not the log it does not matter which messages `Message.isShown level`
lets through. -/
theorem flatMap_filter_isShown (level : Option Level) (messages : List Message) :
    (messages.filter (Message.isShown level)).flatMap stream = messages.flatMap stream := by
  induction messages with
  | nil => rfl
  | cons message messages ih =>
      by_cases hone : message.isShown level = true
      · rw [List.filter_cons_of_pos hone, List.flatMap_cons, List.flatMap_cons, ih]
      · -- Only events are not shown.
        have hnone : stream message = [] := by
          cases message with
          | event e => exact hstream e
          | output text => exact absurd rfl hone
          | problem line => exact absurd rfl hone
        rw [List.filter_cons_of_neg hone, List.flatMap_cons, hnone, List.nil_append, ih]

end Streams

/-- The events in front of what a run has to say do not count: `Report.log events ++ r` has the
effect of `r`. -/
theorem Report.effect_log_append (events : List Event) (r : Report) (w : Workspace) :
    (Report.log events ++ r).effect w = r.effect w := by
  have hmessages : (Report.log events ++ r).messages = events.map Message.event ++ r.messages := rfl
  have hfailed : (Report.log events ++ r).failed = r.failed := rfl
  rw [effect, hmessages, hfailed, List.flatMap_append, List.flatMap_append,
    flatMap_map_event fun _ => rfl, flatMap_map_event fun _ => rfl]
  rfl

/-- The effect of a command line is that of `run s` for its settings `s`, whatever of the log is
shown. -/
theorem Workspace.effect_eq {arguments : List Text} {s : Settings}
    (h : Settings.ofArguments arguments = .ok s) (w : Workspace) (level : Option Text) :
    w.effect arguments level = w.effectOf (run s) := by
  rw [effect, runArguments, h]
  simp only [perform_bind, perform_pure]
  rw [flatMap_filter_isShown fun _ => rfl, flatMap_filter_isShown fun _ => rfl]
  rfl

/-! ## One stylesheet -/

/-- What becomes of a stylesheet. -/
inductive Delivery where
  /-- Nothing; a line tells why. -/
  | refuse (line : Text)
  /-- A text is printed. -/
  | print (text : Text)
  /-- A text is written to a file. -/
  | store (p : Path) (text : Text)

/-- What comes of a delivery in a workspace `w`. -/
def Delivery.effect (w : Workspace) : Delivery → Effect
  | refuse line => ⟨[], line ++ ['\n'], 1, w⟩
  | print text => ⟨text, [], 0, w⟩
  | store p text =>
    match w.write p text.toBytes with
    | .ok v => ⟨[], [], 0, v⟩
    | .error e => ⟨[], "Error writing ".toList ++ p ++ ": ".toList ++ e.message ++ ['\n'], 1, w⟩

/-- The file that settings name as the input, if it is not the standard input. -/
def Settings.file (s : Settings) : Option Path := s.input.filter fun p => !p.isStandardInput

/-- The text that a stylesheet `t` is converted to, or the line that tells of its error. -/
def Settings.result (s : Settings) (file : Option Path) (t : Text) : Except Text Text :=
  match buildSheet (s.options file) t with
  | .error d => .error d.message
  | .ok sheet =>
    .ok (if s.check then soundMessage file
      else if s.tree then sheet.outline else sheet.sass (s.options file))

/-- What becomes of a `text` that a stylesheet is converted to: with `check` it is printed, else
stored at `output` if there is one, or next to the input with `write`. -/
def Settings.place (s : Settings) (file : Option Path) (text : Text) : Delivery :=
  if s.check then .print text
  else
    match s.output, s.write, file with
    | some p, _, _ => .store p text
    | none, true, some p => .store (p.withExtension "sass".toList) text
    | none, true, none => .refuse "Error: --write requires an input file".toList
    | none, false, _ => .print text

/-- What becomes of a stylesheet `t`: its `Settings.result` is placed, and an error in it refused.
-/
def Settings.delivery (s : Settings) (file : Option Path) (t : Text) : Delivery :=
  match s.result file t with
  | .error line => .refuse line
  | .ok text => s.place file text

/-- The stylesheet in a file, or with `none` in the standard input, or the line that tells why it
cannot be read. -/
def Workspace.sheet (w : Workspace) : Option Path → Except Text Text
  | none =>
    match Text.ofBytes? w.input with
    | none => .error ("Error: ".toList ++ unreadableMessage)
    | some t => .ok t
  | some p =>
    match w.read p with
    | .error e => .error ("Error reading ".toList ++ p ++ ": ".toList ++ e.message)
    | .ok bytes =>
      match Text.ofBytes? bytes with
      | none => .error ("Error reading ".toList ++ p ++ ": ".toList ++ notTextReason)
      | some t => .ok t

/-- What becomes of the stylesheet in a file, or with `none` in the standard input. -/
def Workspace.delivery (w : Workspace) (s : Settings) (file : Option Path) : Delivery :=
  match w.sheet file with
  | .error line => .refuse line
  | .ok t => s.delivery file t

variable {w : Workspace} {s : Settings} {file : Option Path}

/-- The effect of `Report.failure line` is that of `Delivery.refuse line`. -/
theorem effect_failure (line : Text) (w : Workspace) :
    (Report.failure line).effect w = (Delivery.refuse line).effect w := by
  simp [Report.effect, Report.failure, Delivery.effect, Message.stdout, Message.stderr]

/-- The effect of `Report.output text` is that of `Delivery.print text`. -/
theorem effect_output (text : Text) (w : Workspace) :
    (Report.output text).effect w = (Delivery.print text).effect w := by
  simp [Report.effect, Report.output, Delivery.effect, Message.stdout, Message.stderr]

/-- The effect of `writeOutput p text` is that of `Delivery.store p text`. -/
theorem effectOf_writeOutput (w : Workspace) (p : Path) (text : Text) :
    w.effectOf (writeOutput p text) = (Delivery.store p text).effect w := by
  rw [Workspace.effectOf, writeOutput, Workspace.perform_bind, Workspace.perform_write,
    Delivery.effect]
  cases w.write p text.toBytes with
  | ok v => rfl
  | error e => simp [Report.effect, Report.failure, Message.stdout, Message.stderr]

/-- Results go where the settings want them: the effect of `deliver s file text` is that of
`s.place file text`. -/
theorem effectOf_deliver (hcheck : s.check = false) (text : Text) :
    w.effectOf (deliver s file text) = (s.place file text).effect w := by
  unfold Settings.place deliver
  rw [if_neg (by simp [hcheck])]
  cases s.output with
  | some p => exact effectOf_writeOutput w p text
  | none =>
      cases s.write with
      | false => exact effect_output text w
      | true =>
          cases file with
          | none => exact effect_failure _ w
          | some p => exact effectOf_writeOutput w _ text

/-- The effect of `runSheet s file t` is that of `s.delivery file t`. -/
theorem effectOf_runSheet (t : Text) :
    w.effectOf (runSheet s file t) = (s.delivery file t).effect w := by
  rw [runSheet, Settings.delivery, Settings.result]
  cases buildSheet (s.options file) t with
  | error d => exact (Report.effect_log_append _ _ _).trans (effect_failure d.message w)
  | ok sheet =>
      cases hcheck : s.check with
      | true =>
          simp only [if_true, Settings.place, hcheck]
          exact (Report.effect_log_append _ _ _).trans (effect_output _ w)
      | false =>
          simp only [Bool.false_eq_true, if_false]
          exact (Report.effect_log_append _ _ _).trans (effectOf_deliver hcheck _)

/-- The effect of `runFile s p` is that of `w.delivery s (some p)`. -/
theorem effectOf_runFile (w : Workspace) (s : Settings) (p : Path) :
    w.effectOf (runFile s p) = (w.delivery s (some p)).effect w := by
  rw [Workspace.effectOf, runFile, Workspace.perform_bind, Workspace.perform_read,
    Workspace.delivery, Workspace.sheet]
  cases w.read p with
  | error e => exact effect_failure _ w
  | ok bytes =>
      dsimp only
      cases Text.ofBytes? bytes with
      | none => exact effect_failure _ w
      | some t => exact effectOf_runSheet t

/-- The effect of `run s` on the standard input or on a file is that of `w.delivery s s.file`. -/
theorem effectOf_run (hinput : ∀ p, s.file = some p → w.isDirectory p = false) :
    w.effectOf (run s) = (w.delivery s s.file).effect w := by
  have hfile : (s.input.filter fun p => !p.isStandardInput) = s.file := rfl
  rw [Workspace.effectOf, run, hfile]
  cases hinputFile : s.file with
  | none =>
      rw [Workspace.perform_bind, Workspace.perform_standardInput, Workspace.delivery,
        Workspace.sheet]
      dsimp only
      cases Text.ofBytes? w.input with
      | none => exact effect_failure _ w
      | some t => exact effectOf_runSheet t
  | some p =>
      dsimp only
      rw [Workspace.perform_bind, Workspace.perform_isDirectory, hinput p hinputFile]
      exact effectOf_runFile w s p

/-! ## What is changed -/

/-- The three effects of a delivery `d`: it fails with a line and changes nothing, prints a text and
changes nothing, or writes a text and prints nothing. -/
theorem Delivery.effect_cases (d : Delivery) (w : Workspace) :
    (∃ line, d.effect w = ⟨[], line, 1, w⟩) ∨
      (∃ text, d = .print text ∧ d.effect w = ⟨text, [], 0, w⟩) ∨
      ∃ p text v, d = .store p text ∧ w.write p text.toBytes = .ok v ∧
        d.effect w = ⟨[], [], 0, v⟩ := by
  cases d with
  | refuse line => exact Or.inl ⟨_, rfl⟩
  | print text => exact Or.inr (Or.inl ⟨text, rfl, rfl⟩)
  | store p text =>
      rw [effect]
      cases hwrite : w.write p text.toBytes with
      | error e => exact Or.inl ⟨_, rfl⟩
      | ok v => exact Or.inr (Or.inr ⟨p, text, v, rfl, hwrite, rfl⟩)

/-- The exit code of a delivery is `0` or `1`. -/
theorem Delivery.exitCode_effect (d : Delivery) (w : Workspace) :
    (d.effect w).exitCode = 0 ∨ (d.effect w).exitCode = 1 := by
  obtain ⟨line, h⟩ | ⟨text, -, h⟩ | ⟨p, text, v, -, -, h⟩ := d.effect_cases w
  · exact Or.inr (by rw [h])
  · exact Or.inl (by rw [h])
  · exact Or.inl (by rw [h])

/-- A file `p` to which settings `s` want a result to be written. -/
inductive Settings.WritesTo (s : Settings) : Path → Prop where
  /-- The file that is named. -/
  | output {p : Path} (h : s.output = some p) : WritesTo s p
  /-- The file next to the input. -/
  | besideInput {p : Path} (h : s.write = true) (hfile : s.file = some p) :
      WritesTo s (p.withExtension "sass".toList)

/-- The same settings without a file to write: no `output` and no `write`. -/
def Settings.printing (s : Settings) : Settings := { s with output := none, write := false }

/-- A stylesheet is refused, or it is converted to a `text` that `s.place file` deals with. -/
theorem Workspace.delivery_cases (w : Workspace) (s : Settings) (file : Option Path) :
    (∃ line, w.delivery s file = .refuse line) ∨ ∃ text, w.delivery s file = s.place file text := by
  rw [Workspace.delivery]
  cases w.sheet file with
  | error line => exact Or.inl ⟨line, rfl⟩
  | ok t =>
      dsimp only [Settings.delivery]
      cases s.result file t with
      | error line => exact Or.inl ⟨line, rfl⟩
      | ok text => exact Or.inr ⟨text, rfl⟩

/-- Settings with `check`, or without `output` and `write`, print:
`s.place file text = .print text`. -/
theorem Settings.place_eq_print (h : s.check = true ∨ s.output = none ∧ s.write = false)
    (file : Option Path) (text : Text) : s.place file text = .print text := by
  unfold Settings.place
  rcases h with hcheck | ⟨houtput, hwrite⟩
  · rw [if_pos hcheck]
  · rw [houtput, hwrite]
    split <;> rfl

/-- Settings with `s.WritesTo p` write to `p`: `s.place s.file text = .store p text`. -/
theorem Settings.place_eq_store {p : Path} (hplace : ¬(s.output ≠ none ∧ s.write = true))
    (hp : s.WritesTo p) (hcheck : s.check = false) (text : Text) :
    s.place s.file text = .store p text := by
  unfold Settings.place
  rw [if_neg (by simp [hcheck])]
  cases hp with
  | output h => rw [h]
  | besideInput h hfile =>
      cases houtput : s.output with
      | none => rw [h, hfile]
      | some q => exact absurd ⟨by simp [houtput], h⟩ hplace

/-- Settings without `output` have results written next to the input only:
`p = q.withExtension "sass".toList`. -/
theorem Settings.eq_withExtension_of_place {p q : Path} {text result : Text}
    (houtput : s.output = none)
    (h : s.place (some q) result = .store p text) : p = q.withExtension "sass".toList := by
  unfold Settings.place at h
  rw [houtput] at h
  split at h
  · cases h
  · cases hwrite : s.write with
    | false =>
        rw [hwrite] at h
        cases h
    | true =>
        rw [hwrite] at h
        cases h
        rfl

/-- Settings that want nothing written print a text or refuse their input. -/
theorem Workspace.delivery_eq_print (h : s.check = true ∨ s.output = none ∧ s.write = false)
    (w : Workspace) (file : Option Path) :
    (∃ line, w.delivery s file = .refuse line) ∨ ∃ text, w.delivery s file = .print text := by
  obtain hrefuse | ⟨text, hplace⟩ := w.delivery_cases s file
  · exact Or.inl hrefuse
  · exact Or.inr ⟨text, hplace.trans (Settings.place_eq_print h file text)⟩

/-- Settings with `s.WritesTo p` refuse their input, or store the text at `p` that `s.printing`
prints. -/
theorem Workspace.delivery_eq_store {p : Path} (hplace : ¬(s.output ≠ none ∧ s.write = true))
    (hp : s.WritesTo p) (hcheck : s.check = false) (w : Workspace) :
    (∃ line, w.delivery s s.file = .refuse line) ∨
      ∃ text, w.delivery s s.file = .store p text ∧
        w.delivery s.printing s.file = .print text := by
  have hresult : ∀ t, s.printing.result s.file t = s.result s.file t := fun _ => rfl
  rw [Workspace.delivery, Workspace.delivery]
  cases w.sheet s.file with
  | error line => exact Or.inl ⟨line, rfl⟩
  | ok t =>
      dsimp only [Settings.delivery]
      rw [hresult]
      cases s.result s.file t with
      | error line => exact Or.inl ⟨line, rfl⟩
      | ok text =>
          exact Or.inr ⟨text, Settings.place_eq_store hplace hp hcheck text,
            Settings.place_eq_print (Or.inr ⟨rfl, rfl⟩) s.file text⟩

/-- If settings `s` can be asked for, so can `s.printing`. -/
theorem Settings.IsAskable.printing (h : s.IsAskable) : s.printing.IsAskable where
  input_ne := h.input_ne
  output_ne := by simp [Settings.printing]
  indent_le := h.indent_le
  one_place := by simp [Settings.printing]

/-- The workspace `v` differs from `w` at most at the file that `p` leads to. -/
def Workspace.DiffersOnlyAt (v w : Workspace) (p : Path) : Prop :=
  ∃ place, v.resolve p = .ok place ∧ ∀ l, l ≠ place → v.find? l = w.find? l

/-- **What a run on one input changes.** A command line for the standard input or a file fails with
nothing printed and nothing changed, or succeeds without a problem. Only with `s.WritesTo p` and
without `check` it changes anything; then it prints nothing, changes the file at `p` alone, and
gives it what the command line for `s.printing` prints. -/
theorem effect_confined {arguments : List Text} {s : Settings} {w : Workspace}
    (hs : Settings.ofArguments arguments = .ok s)
    (hinput : ∀ p, s.file = some p → w.isDirectory p = false) (level : Option Text) :
    let e := w.effect arguments level
    (e.exitCode = 1 ∧ e.stdout = [] ∧ e.after = w ∨ e.exitCode = 0 ∧ e.stderr = []) ∧
      (s.check = true ∨ s.output = none ∧ s.write = false → e.after = w) ∧
      ∀ p, s.WritesTo p → s.check = false → e.exitCode = 0 →
        e.stdout = [] ∧ e.after.DiffersOnlyAt w p ∧
          (∃ plain, Settings.ofArguments plain = .ok s.printing) ∧
          ∀ plain level', Settings.ofArguments plain = .ok s.printing →
            (w.effect plain level').exitCode = 0 ∧
              e.after.read p = .ok (w.effect plain level').stdout.toBytes := by
  intro e
  have haskable : s.IsAskable := Settings.exists_arguments_iff.1 ⟨arguments, hs⟩
  have he : e = (w.delivery s s.file).effect w :=
    (w.effect_eq hs level).trans (effectOf_run hinput)
  clear_value e
  subst he
  refine ⟨?_, ?_, ?_⟩
  · obtain ⟨line, h⟩ | ⟨text, -, h⟩ | ⟨p, text, v, -, -, h⟩ :=
      (w.delivery s s.file).effect_cases w
    · exact Or.inl (by simp [h])
    · exact Or.inr (by simp [h])
    · exact Or.inr (by simp [h])
  · intro hnothing
    obtain ⟨line, h⟩ | ⟨text, h⟩ := Workspace.delivery_eq_print hnothing w s.file
    · rw [h]
      rfl
    · rw [h]
      rfl
  · intro p hp hcheck hsuccess
    obtain ⟨line, h⟩ | ⟨text, hstore, hprint⟩ :=
      Workspace.delivery_eq_store haskable.one_place hp hcheck w
    · rw [h] at hsuccess
      cases hsuccess
    · rw [hstore] at hsuccess ⊢
      have hplain : ∀ plain level', Settings.ofArguments plain = .ok s.printing →
          w.effect plain level' = (Delivery.print text).effect w := by
        intro plain level' h
        rw [w.effect_eq h, effectOf_run (s := s.printing) hinput]
        exact congrArg (Delivery.effect w) hprint
      obtain ⟨line, h⟩ | ⟨text', h, -⟩ | ⟨p', text', v, heq, hwrite, h⟩ :=
        (Delivery.store p text).effect_cases w
      · rw [h] at hsuccess
        cases hsuccess
      · cases h
      · cases heq
        obtain ⟨hread, place, hresolve, hothers⟩ := Workspace.read_of_write hwrite
        rw [h]
        refine ⟨rfl, ⟨place, hresolve, hothers⟩,
          Settings.exists_arguments_iff.2 haskable.printing, ?_⟩
        intro plain level' hplainArguments
        rw [hplain plain level' hplainArguments]
        exact ⟨rfl, hread⟩

/-- The file `a.css` in the working directory is converted to `a.sass` next to it. -/
theorem effect_confined_besideInput :
    let w : Workspace :=
      { entries := [(["a.css".toList], .file (Text.toBytes "a\x7bb:c\x7d".toList))] }
    let s : Settings := { input := some "a.css".toList, write := true }
    let e := w.effect ["-w".toList, "a.css".toList] none
    Settings.ofArguments ["-w".toList, "a.css".toList] = .ok s ∧
      (∀ p, s.file = some p → w.isDirectory p = false) ∧ s.WritesTo "a.sass".toList ∧
      s.check = false ∧ e.exitCode = 0 ∧ e.stdout = [] ∧
      e.after.DiffersOnlyAt w "a.sass".toList ∧
      e.after.read "a.sass".toList = .ok (w.effect ["a.css".toList] none).stdout.toBytes := by
  intro w s e
  have hs : Settings.ofArguments ["-w".toList, "a.css".toList] = .ok s := by decide +kernel
  have hplain : Settings.ofArguments ["a.css".toList] = .ok s.printing := by decide +kernel
  have hinput : ∀ p, s.file = some p → w.isDirectory p = false := by
    rintro p ⟨⟩
    decide +kernel
  have hwrites : s.WritesTo "a.sass".toList := .besideInput (p := "a.css".toList) rfl rfl
  have hexit : e.exitCode = 0 := by
    have hread : w.read "a.css".toList = .ok (Text.toBytes "a\x7bb:c\x7d".toList) := by rfl
    have hparse : buildSheet (s.options (some "a.css".toList)) "a\x7bb:c\x7d".toList =
        .ok [.rule ['a'] [.declaration ['b'] ['c']]] := by decide +kernel
    have he : e = (w.delivery s (some "a.css".toList)).effect w :=
      (w.effect_eq hs none).trans (effectOf_run hinput)
    rw [he, Workspace.delivery, Workspace.sheet, hread]
    simp only [Text.ofBytes?_toBytes, Settings.delivery, Settings.result, hparse]
    rfl
  obtain ⟨-, -, hwritten⟩ := effect_confined hs hinput none
  obtain ⟨hstdout, hdiffers, -, hprinted⟩ := hwritten _ hwrites rfl hexit
  exact ⟨hs, hinput, hwrites, rfl, hexit, hstdout, hdiffers, (hprinted _ none hplain).2⟩

end SassNesting
