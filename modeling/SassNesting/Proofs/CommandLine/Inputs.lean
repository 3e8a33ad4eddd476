import SassNesting.Proofs.CommandLine.Directories

/-! # What becomes of the inputs

A run that writes next to its inputs puts files only under names with the extension of outputs
(`Workspace.AddsSass`), so the stylesheets of a directory stay as they are, and no two of them are
written to one file. A single input may have that extension itself. Then the run reads it and writes
its result in the same place: this is the one way in which an input is lost (`effect_keeps_inputs`,
`effect_overwrites_input`). -/

namespace SassNesting

open SassNesting.Path

/-! ## Inputs -/

/-- The files that are read as stylesheets: the file that settings `s` name, or the stylesheets that
a directory lists that they name. -/
def Workspace.inputs (w : Workspace) (s : Settings) : List Path :=
  match s.file with
  | none => []
  | some p =>
    if w.isDirectory p then
      match w.names p with
      | .ok names => (sheetNames names).map p.join
      | .error _ => []
    else [p]

/-- The extension that outputs next to their inputs have. -/
def outputExtension : Text := "sass".toList

variable {w v : Workspace} {s : Settings} {p : Path} {content : ByteArray}

/-- What is written next to an input `p` is written to `p.withExtension outputExtension`, and the
input has been read. -/
theorem Workspace.of_delivery_eq_store (houtput : s.output = none) {q : Path} {text : Text}
    (h : w.delivery s (some p) = .store q text) :
    q = p.withExtension outputExtension ∧ ∃ content, w.read p = .ok content := by
  constructor
  · obtain ⟨line, hrefuse⟩ | ⟨result, hplace⟩ := w.delivery_cases s (some p)
    · rw [hrefuse] at h
      cases h
    · rw [hplace] at h
      exact Settings.eq_withExtension_of_place houtput h
  · cases hread : w.read p with
    | ok content => exact ⟨content, rfl⟩
    | error e =>
        rw [Workspace.delivery, Workspace.sheet, hread] at h
        cases h

/-- The file that is put for an input `p` is in the directory `w.parent p`, has the extension of
outputs, and replaces no directory. -/
theorem Workspace.of_mem_files (houtput : s.output = none) {file : Location × ByteArray}
    (hfile : file ∈ (w.delivery s (some p)).files w) :
    ∃ place, w.parent p = .ok place ∧
      file.1 = place ++ [renamed (Path.name p) outputExtension] ∧
      extension? (renamed (Path.name p) outputExtension) = some outputExtension ∧
      w.find? file.1 ≠ some .directory := by
  cases hdelivery : w.delivery s (some p) with
  | refuse line =>
      rw [hdelivery] at hfile
      cases hfile
  | print text =>
      rw [hdelivery] at hfile
      cases hfile
  | store q text =>
      obtain ⟨rfl, content, hread⟩ := Workspace.of_delivery_eq_store houtput hdelivery
      have hslash : '/' ∉ renamed (Path.name p) outputExtension :=
        slash_notMem_renamed (slash_notMem_name p) (by decide)
      rw [hdelivery, Delivery.files] at hfile
      split at hfile
      · rename_i location htarget
        cases List.mem_singleton.1 hfile
        obtain ⟨place, hparent, hlocation, hproper, hnew⟩ := parent_of_target htarget
        rw [withExtension_eq, parent_upToName_append w p hslash] at hparent
        rw [withExtension_eq, name_upToName_append p hslash] at hlocation hproper
        refine ⟨place, hparent, hlocation, ?_, hnew⟩
        obtain ⟨_, _, -, -, -, hcases⟩ := parent_of_read hread
        have hname : Path.name p ≠ [] := by
          rcases hcases with ⟨-, hproper⟩ | ⟨-, habove⟩
          · exact hproper.ne_nil
          · rw [habove]
            decide
        rcases renamed_cases hname outputExtension with habove | ⟨stem, hstem, hrenamed⟩
        · exact absurd habove hproper.ne_above
        · rw [hrenamed, extension?, splitExtension_append hstem (by decide) (by decide)]
      · cases hfile

/-! ## Workspaces with outputs added -/

namespace Workspace

/-- The workspace `v` has the directories of `w`, and the same files but for those whose names have
the extension of outputs. -/
structure AddsSass (w v : Workspace) : Prop extends SameDirectories w v where
  /-- What has a name without the extension is the same. -/
  find?_name : ∀ place name, extension? name ≠ some outputExtension →
    v.find? (place ++ [name]) = w.find? (place ++ [name])

namespace SameDirectories

theorem symm (h : SameDirectories w v) : SameDirectories v w :=
  ⟨h.directory_eq.symm, fun l => (h.find?_iff l).symm⟩

/-- A path that leads somewhere leads there as before: `w.resolve p` is kept. -/
theorem resolve (h : SameDirectories w v) {location : Location}
    (hresolve : w.resolve p = .ok location) :
    v.resolve p = .ok location := by
  have hstart : v.start p = w.start p := by rw [start, start, h.directory_eq]
  rw [Workspace.resolve, hstart]
  exact walk_of_directories (fun l hl => (h.find?_iff l).1 hl) hresolve

/-- A file that is at its place in `v` still is read as before. -/
theorem read (h : SameDirectories w v) {location : Location} (hresolve : w.resolve p = .ok location)
    (hfound : v.find? location = some (.file content)) : v.read p = .ok content := by
  rw [Workspace.read, h.resolve hresolve]
  simp only [hfound]

/-- A path that can be written to is written to at the same place: `w.target p` is kept. -/
theorem target (h : SameDirectories w v) {location : Location}
    (htarget : w.target p = .ok location) :
    v.target p = .ok location := by
  have hstart : v.start p = w.start p := by rw [start, start, h.directory_eq]
  obtain ⟨front, last, place, hsegments, hlast, hwalk, hplace, rfl, hfile⟩ :=
    exists_of_target htarget
  have hwalk' : v.walk (v.start p) front = .ok place := by
    rw [hstart]
    exact walk_of_directories (fun l hl => (h.find?_iff l).1 hl) hwalk
  rw [Workspace.target_eq hsegments hlast.ne_nil hwalk' ((h.find?_iff place).1 hplace),
    if_neg (not_or.2 ⟨hlast.ne_here, hlast.ne_above⟩), h.isDirectory_eq,
    if_neg fun hdirectory => hfile (isDirectory_iff.1 hdirectory)]

/-- What is put for a delivery `d` is put at the same places: `d.files v = d.files w`. -/
theorem files_eq (h : SameDirectories w v) (d : Delivery) : d.files v = d.files w := by
  cases d with
  | refuse line => rfl
  | print text => rfl
  | store q text =>
      rw [Delivery.files, Delivery.files]
      cases hw : w.target q with
      | ok location => rw [h.target hw]
      | error e =>
          cases hv : v.target q with
          | error e' => rfl
          | ok location =>
              rw [h.symm.target hv] at hw
              cases hw

end SameDirectories

namespace AddsSass

theorem refl (w : Workspace) : w.AddsSass w := ⟨.refl w, fun _ _ _ => rfl⟩

theorem symm (h : w.AddsSass v) : v.AddsSass w :=
  ⟨h.toSameDirectories.symm, fun place name hname => (h.find?_name place name hname).symm⟩

/-- A file with the extension of outputs may be put: `putFile` keeps `AddsSass`. -/
theorem putFile (h : w.AddsSass v) {place : Location} {name : Text} {file : Location × ByteArray}
    (hlocation : file.1 = place ++ [name]) (hname : extension? name = some outputExtension)
    (hfile : w.find? file.1 ≠ some .directory) : w.AddsSass (v.putFile file) where
  toSameDirectories := h.toSameDirectories.put hfile
  find?_name := by
    intro place' name' hname'
    rw [← h.find?_name place' name' hname']
    refine find?_put_of_ne ?_
    rw [hlocation]
    intro heq
    obtain ⟨-, hlast⟩ := List.append_inj' heq rfl
    rw [List.singleton_inj] at hlast
    rw [hlast] at hname'
    exact hname' hname

/-- A file `p` without the extension of outputs is read as before. -/
theorem read (h : w.AddsSass v) (hproper : IsProper (Path.name p))
    (hname : extension? (Path.name p) ≠ some outputExtension) (hread : w.read p = .ok content) :
    v.read p = .ok content := by
  obtain ⟨place, location, -, hresolve, hfound, hcases⟩ := parent_of_read hread
  rcases hcases with ⟨rfl, -⟩ | ⟨-, habove⟩
  · exact h.toSameDirectories.read hresolve ((h.find?_name place _ hname).trans hfound)
  · exact absurd habove hproper.ne_above

/-- For a stylesheet `p`, by its extension `css`, the same file is put in `v` as in `w`. -/
theorem files_eq (h : w.AddsSass v) (hname : extension? (Path.name p) = some "css".toList) :
    (v.delivery s (some p)).files v = (w.delivery s (some p)).files w := by
  have hproper : IsProper (Path.name p) := isProper_of_extension? hname (by decide)
  have hne : extension? (Path.name p) ≠ some outputExtension := by
    rw [hname]
    decide
  have hdelivery : (v.delivery s (some p)).files w = (w.delivery s (some p)).files w := by
    rw [delivery, delivery, sheet, sheet]
    cases hw : w.read p with
    | ok content => rw [h.read hproper hne hw]
    | error e =>
        cases hv : v.read p with
        | error e' => rfl
        | ok content =>
            rw [h.symm.read hproper hne hv] at hw
            cases hw
  rw [h.toSameDirectories.files_eq, hdelivery]

/-- The files that are put for any inputs keep `AddsSass`. -/
theorem foldl_putFile {paths : List Path} (h : w.AddsSass v) (houtput : s.output = none) :
    w.AddsSass
      ((paths.flatMap fun p => (w.delivery s (some p)).files w).foldl Workspace.putFile v) := by
  have hfiles : ∀ file ∈ paths.flatMap fun p => (w.delivery s (some p)).files w,
      ∃ place name, file.1 = place ++ [name] ∧ extension? name = some outputExtension ∧
        w.find? file.1 ≠ some .directory := by
    intro file hfile
    obtain ⟨p, -, hfile⟩ := List.mem_flatMap.1 hfile
    obtain ⟨place, -, hlocation, hname, hnew⟩ := of_mem_files houtput hfile
    exact ⟨place, _, hlocation, hname, hnew⟩
  generalize paths.flatMap (fun p => (w.delivery s (some p)).files w) = files at hfiles
  induction files generalizing v with
  | nil => exact h
  | cons file rest ih =>
      rw [List.forall_mem_cons] at hfiles
      obtain ⟨⟨place, name, hlocation, hname, hnew⟩, hrest⟩ := hfiles
      exact ih (h.putFile hlocation hname hnew) hrest

end AddsSass

/-- After `runFiles` has converted several stylesheets next to themselves, the files are there that
are put for each of them at the start, in `w`. -/
theorem after_runFiles {paths : List Path} (houtput : s.output = none)
    (hpaths : ∀ p ∈ paths, extension? (Path.name p) = some "css".toList) (h : w.AddsSass v) :
    (v.effectOf (runFiles s paths)).after =
      (paths.flatMap fun p => (w.delivery s (some p)).files w).foldl Workspace.putFile v := by
  induction paths generalizing v with
  | nil => rfl
  | cons p rest ih =>
      rw [List.forall_mem_cons] at hpaths
      have hfirst : (v.effectOf (runFile s p)).after =
          ((w.delivery s (some p)).files w).foldl Workspace.putFile v := by
        rw [effectOf_runFile, Delivery.effect_eq fun _ _ _ => rfl, h.files_eq hpaths.1]
      have hnext : w.AddsSass (((w.delivery s (some p)).files w).foldl Workspace.putFile v) := by
        rw [← List.flatMap_singleton fun p => (w.delivery s (some p)).files w]
        exact h.foldl_putFile houtput
      rw [effectOf_runFiles_cons, hfirst, Effect.andThen, ih hpaths.2 hnext, List.flatMap_cons,
        List.foldl_append]

/-- A file `p` that is converted next to itself stays as it is if its name differs from that of its
output, `renamed (Path.name p) outputExtension`. -/
theorem read_putFile (houtput : s.output = none) (hread : w.read p = .ok content)
    (hname : Path.name p ≠ renamed (Path.name p) outputExtension) {file : Location × ByteArray}
    (hfile : file ∈ (w.delivery s (some p)).files w) : (w.putFile file).read p = .ok content := by
  obtain ⟨place, hparent, hlocation, -, hnew⟩ := of_mem_files houtput hfile
  obtain ⟨place', location, hparent', hresolve, hfound, hcases⟩ := parent_of_read hread
  rw [hparent] at hparent'
  cases hparent'
  -- The input is at another place in the directory of the output, or above it.
  have hne : location ≠ file.1 := by
    rw [hlocation]
    rcases hcases with ⟨rfl, -⟩ | ⟨rfl, -⟩
    · intro heq
      exact hname (List.singleton_inj.1 (List.append_cancel_left heq))
    · intro heq
      have hlength := congrArg List.length heq
      simp at hlength
  have hdirectories : SameDirectories w (w.putFile file) := (SameDirectories.refl w).put hnew
  exact hdirectories.read hresolve ((find?_put_of_ne hne).trans hfound)

/-- A file `p` that is converted next to itself stays as it is, unless its name has the extension of
outputs and its result is put in its place. -/
theorem read_after_delivery (houtput : s.output = none) (hread : w.read p = .ok content) :
    let v := ((w.delivery s (some p)).effect w).after
    v.read p = .ok content ∨
      extension? (Path.name p) = some outputExtension ∧
        ∃ text, w.delivery s (some p) = .store p text ∧ v.read p = .ok text.toBytes := by
  intro v
  obtain ⟨line, h⟩ | ⟨text, -, h⟩ | ⟨q, text, v', hstore, hwrite, h⟩ :=
    (w.delivery s (some p)).effect_cases w
  · have hv : v = w := congrArg Effect.after h
    exact Or.inl (hv ▸ hread)
  · have hv : v = w := congrArg Effect.after h
    exact Or.inl (hv ▸ hread)
  · have hv : v = v' := congrArg Effect.after h
    rw [hv]
    obtain ⟨rfl, -⟩ := of_delivery_eq_store houtput hstore
    obtain ⟨target, htarget, rfl⟩ := exists_of_write hwrite
    have hfile : (target, text.toBytes) ∈ (w.delivery s (some p)).files w := by
      rw [hstore, Delivery.files, htarget]
      exact List.mem_singleton.2 rfl
    by_cases hsame : Path.name p = renamed (Path.name p) outputExtension
    · -- The result is written to the path of the input.
      have hpath : p.withExtension outputExtension = p := by
        rw [withExtension_eq, ← hsame, upToName_append_name]
      obtain ⟨-, -, -, hname, -⟩ := of_mem_files houtput hfile
      rw [hpath] at hstore hwrite
      exact Or.inr ⟨hsame ▸ hname, text, hstore, (read_of_write hwrite).1⟩
    · exact Or.inl (read_putFile houtput hread hsame hfile)

end Workspace

/-! ## Runs -/

section Run

open Workspace

variable {names : List Text} {name : Text} {directory : Path}

/-- A name in a directory is the name of its path: `Path.name (directory.join name) = name`. -/
theorem name_join (directory : Path) (hslash : '/' ∉ name) :
    Path.name (directory.join name) = name := by
  obtain ⟨front, -, hjoin⟩ := exists_join_eq directory
  rw [hjoin, (name_append_name front hslash).1]

/-- The `names` that a directory lists have no slash, if no name in the workspace has one. -/
theorem Workspace.slash_notMem_of_names (hslash : ∀ entry ∈ w.entries, ∀ name ∈ entry.1, '/' ∉ name)
    (h : w.names directory = .ok names) : ∀ name ∈ names, '/' ∉ name := by
  intro name hname
  unfold Workspace.names at h
  split at h
  · cases h
  · split at h
    · cases h
    · cases h
    · cases h
      obtain ⟨entry, hentry, hin⟩ := List.mem_filterMap.1 hname
      split at hin
      · exact hslash entry hentry name (List.mem_of_getLast? hin)
      · cases hin

/-- A stylesheet that a directory lists is `directory.join name`, for a `name` without slashes that
has the extension `css`. -/
theorem Workspace.exists_name_of_mem_inputs
    (hslash : ∀ entry ∈ w.entries, ∀ name ∈ entry.1, '/' ∉ name) (h : w.names directory = .ok names)
    (hp : p ∈ (sheetNames names).map directory.join) :
    ∃ name, p = directory.join name ∧ '/' ∉ name ∧ extension? name = some "css".toList := by
  obtain ⟨name, hname, rfl⟩ := List.mem_map.1 hp
  obtain ⟨hmem, hextension⟩ := mem_sheetNames.1 hname
  exact ⟨name, rfl, slash_notMem_of_names hslash h name hmem, hextension⟩

/-- The three cases of `w.inputs s`: there are none, or the file that settings name is the only one,
or they are the stylesheets that a directory lists. -/
theorem Workspace.inputs_cases (w : Workspace) (s : Settings) :
    (s.file = none ∧ w.inputs s = []) ∨
      (∃ p, s.file = some p ∧ w.isDirectory p = false ∧ w.inputs s = [p]) ∨
      ∃ p names, s.file = some p ∧ w.names p = .ok names ∧
        w.inputs s = (sheetNames names).map p.join := by
  unfold Workspace.inputs
  cases s.file with
  | none => exact Or.inl ⟨rfl, rfl⟩
  | some p =>
      right
      cases hdirectory : w.isDirectory p with
      | false => exact Or.inl ⟨p, rfl, hdirectory, by simp [hdirectory]⟩
      | true =>
          right
          have hnames : ∃ names, w.names p = .ok names := by
            unfold Workspace.isDirectory at hdirectory
            split at hdirectory
            · rename_i hresolve
              rw [Workspace.names, hresolve]
              simp only [isDirectory_iff.1 hdirectory]
              exact ⟨_, rfl⟩
            · cases hdirectory
          obtain ⟨names, hnames⟩ := hnames
          refine ⟨p, names, rfl, hnames, ?_⟩
          simp only [hdirectory, if_true, hnames]

/-- The stylesheets `directory.join name` and `directory.join name'` are written to different paths
and to different places, if they differ. -/
theorem ne_of_mem_sheetNames {name' : Text} (hslash : '/' ∉ name) (hslash' : '/' ∉ name')
    (houtput : s.output = none) (hname : extension? name = some "css".toList)
    (hname' : extension? name' = some "css".toList)
    (hne : directory.join name ≠ directory.join name') :
    (directory.join name).withExtension outputExtension ≠
        (directory.join name').withExtension outputExtension ∧
      ∀ file ∈ (w.delivery s (some (directory.join name))).files w,
        ∀ other ∈ (w.delivery s (some (directory.join name'))).files w, file.1 ≠ other.1 := by
  have hrenamed : renamed name outputExtension ≠ renamed name' outputExtension := by
    intro heq
    exact hne (congrArg directory.join (renamed_inj (by decide) hname hname' heq))
  constructor
  · intro heq
    have hlast := congrArg Path.name heq
    rw [withExtension_eq, withExtension_eq,
      name_upToName_append _ (slash_notMem_renamed (slash_notMem_name _) (by decide)),
      name_upToName_append _ (slash_notMem_renamed (slash_notMem_name _) (by decide)),
      name_join directory hslash, name_join directory hslash'] at hlast
    exact hrenamed hlast
  · intro file hfile other hother heq
    obtain ⟨place, -, hlocation, -, -⟩ := of_mem_files houtput hfile
    obtain ⟨place', -, hlocation', -, -⟩ := of_mem_files houtput hother
    rw [name_join directory hslash] at hlocation
    rw [name_join directory hslash'] at hlocation'
    rw [hlocation, hlocation'] at heq
    exact hrenamed (List.singleton_inj.1 (List.append_inj' heq rfl).2)

/-- From the standard input nothing is written with `s.write`: the workspace is `w` afterwards. -/
theorem after_delivery_standardInput (houtput : s.output = none) (hwrite : s.write = true) :
    ((w.delivery s none).effect w).after = w := by
  obtain ⟨line, h⟩ | ⟨text, h⟩ := w.delivery_cases s none
  · rw [h]
    rfl
  · unfold Settings.place at h
    rw [houtput, hwrite] at h
    rw [h]
    split <;> rfl

/-- **What becomes of the inputs of a run with `s.write`.** The run puts for each of its inputs what
is put for it at the start, by `files`. Every input that can be read is the same afterwards, unless
its name has the extension of outputs and its result is put in its place; and different inputs are
written to different paths and to different places. -/
theorem effect_keeps_inputs {arguments : List Text} (hs : Settings.ofArguments arguments = .ok s)
    (hwrite : s.write = true) (hslash : ∀ entry ∈ w.entries, ∀ name ∈ entry.1, '/' ∉ name)
    (level : Option Text) :
    let e := w.effect arguments level
    let files p := (w.delivery s (some p)).files w
    e.after = ((w.inputs s).flatMap files).foldl putFile w ∧
      (∀ p ∈ w.inputs s, ∀ content, w.read p = .ok content →
        e.after.read p = .ok content ∨
          extension? (Path.name p) = some outputExtension ∧
            ∃ text, w.delivery s (some p) = .store p text ∧ e.after.read p = .ok text.toBytes) ∧
      ∀ p ∈ w.inputs s, ∀ q ∈ w.inputs s, p ≠ q →
        p.withExtension outputExtension ≠ q.withExtension outputExtension ∧
          ∀ file ∈ files p, ∀ other ∈ files q, file.1 ≠ other.1 := by
  intro e files
  have houtput : s.output = none := by
    by_contra hne
    exact (Settings.exists_arguments_iff.1 ⟨arguments, hs⟩).one_place ⟨hne, hwrite⟩
  have he : e = w.effectOf (run s) := w.effect_eq hs level
  obtain ⟨hfile, hinputs⟩ | ⟨p, hfile, hdirectory, hinputs⟩ |
    ⟨directory, names, hfile, hnames, hinputs⟩ :=
    w.inputs_cases s
  · have hrun : e = (w.delivery s none).effect w := by
      rw [he, effectOf_run (by simp [hfile]), hfile]
    rw [hinputs, hrun, after_delivery_standardInput houtput hwrite]
    exact ⟨rfl, by simp, by simp⟩
  · have hrun : e = (w.delivery s (some p)).effect w := by
      rw [he, effectOf_run (by simpa [hfile] using hdirectory), hfile]
    rw [hinputs, List.flatMap_singleton, hrun]
    refine ⟨congrArg Effect.after (Delivery.effect_eq fun _ _ _ => rfl), ?_, ?_⟩
    · rw [List.forall_mem_singleton]
      exact fun content hread => read_after_delivery houtput hread
    · rw [List.forall_mem_singleton, List.forall_mem_singleton]
      exact fun hne => absurd rfl hne
  · obtain ⟨hinput, hpath⟩ := Option.filter_eq_some_iff.1 hfile
    have hsheets : ∀ p ∈ (sheetNames names).map directory.join,
        extension? (Path.name p) = some "css".toList := by
      intro p hp
      obtain ⟨name, rfl, hnoSlash, hextension⟩ := exists_name_of_mem_inputs hslash hnames hp
      rw [name_join directory hnoSlash, hextension]
    have hafter : e.after = ((w.inputs s).flatMap files).foldl putFile w := by
      rw [he, effectOf_run_directory hinput (by simpa using hpath) houtput hnames, hinputs]
      exact after_runFiles houtput hsheets (.refl w)
    refine ⟨hafter, ?_, ?_⟩
    · rw [hinputs]
      intro p hp content hread
      have hextension := hsheets p hp
      have hadds : w.AddsSass e.after := hafter ▸ (AddsSass.refl w).foldl_putFile houtput
      refine Or.inl (hadds.read (isProper_of_extension? hextension (by decide)) ?_ hread)
      rw [hextension]
      decide
    · rw [hinputs]
      intro p hp q hq
      obtain ⟨name, rfl, hnoSlash, hextension⟩ := exists_name_of_mem_inputs hslash hnames hp
      obtain ⟨name', rfl, hnoSlash', hextension'⟩ := exists_name_of_mem_inputs hslash hnames hq
      exact ne_of_mem_sheetNames hnoSlash hnoSlash' houtput hextension hextension'

/-- Two stylesheets of the directory `d`, one of which has an error. -/
theorem effect_keeps_inputs_directory :
    let w : Workspace :=
      { entries :=
          [(["d".toList], .directory),
            (["d".toList, "a.css".toList], .file (Text.toBytes "a\x7bb:c\x7d".toList)),
            (["d".toList, "b.css".toList], .file (Text.toBytes "a\x7b".toList))] }
    let s : Settings := { input := some "d".toList, write := true }
    let e := w.effect ["-w".toList, "d".toList] none
    Settings.ofArguments ["-w".toList, "d".toList] = .ok s ∧ s.write = true ∧
      (∀ entry ∈ w.entries, ∀ name ∈ entry.1, '/' ∉ name) ∧
      "d/a.css".toList ∈ w.inputs s ∧ "d/b.css".toList ∈ w.inputs s ∧
      e.after.read "d/a.css".toList = .ok (Text.toBytes "a\x7bb:c\x7d".toList) ∧
      withExtension "d/a.css".toList outputExtension ≠
        withExtension "d/b.css".toList outputExtension := by
  intro w s e
  have hs : Settings.ofArguments ["-w".toList, "d".toList] = .ok s := by decide +kernel
  have hslash : ∀ entry ∈ w.entries, ∀ name ∈ entry.1, '/' ∉ name := by simp [w]
  have hinputs : w.inputs s =
      (sheetNames ["a.css".toList, "b.css".toList]).map (join "d".toList) := rfl
  have hmem : ∀ name ∈ ["a.css".toList, "b.css".toList], join "d".toList name ∈ w.inputs s := by
    intro name hname
    rw [hinputs]
    refine List.mem_map_of_mem (mem_sheetNames.2 ⟨hname, ?_⟩)
    revert name
    decide +kernel
  have ha : "d/a.css".toList ∈ w.inputs s := hmem "a.css".toList (by decide)
  have hb : "d/b.css".toList ∈ w.inputs s := hmem "b.css".toList (by decide)
  have hread : w.read "d/a.css".toList = .ok (Text.toBytes "a\x7bb:c\x7d".toList) := rfl
  obtain ⟨-, hkept, hapart⟩ := effect_keeps_inputs hs rfl hslash none
  refine ⟨hs, rfl, hslash, ha, hb, ?_, (hapart _ ha _ hb (by decide)).1⟩
  rcases hkept _ ha _ hread with hsame | ⟨hextension, -⟩
  · exact hsame
  · exact absurd hextension (by decide +kernel)

/-- The file `a.sass` has the extension of outputs and is overwritten with its own conversion. -/
theorem effect_overwrites_input :
    let w : Workspace :=
      { entries := [(["a.sass".toList], .file (Text.toBytes "a\x7bb:c\x7d".toList))] }
    let s : Settings := { input := some "a.sass".toList, write := true }
    let e := w.effect ["-w".toList, "a.sass".toList] none
    Settings.ofArguments ["-w".toList, "a.sass".toList] = .ok s ∧ s.write = true ∧
      w.inputs s = ["a.sass".toList] ∧
      w.read "a.sass".toList = .ok (Text.toBytes "a\x7bb:c\x7d".toList) ∧ e.exitCode = 0 ∧
      e.after.read "a.sass".toList = .ok (Text.toBytes "a\n  :b c\n".toList) ∧
      e.after.read "a.sass".toList ≠ w.read "a.sass".toList := by
  intro w s e
  have hs : Settings.ofArguments ["-w".toList, "a.sass".toList] = .ok s := by decide +kernel
  have hread : w.read "a.sass".toList = .ok (Text.toBytes "a\x7bb:c\x7d".toList) := rfl
  have hinput : ∀ p, s.file = some p → w.isDirectory p = false := by
    rintro p ⟨⟩
    decide +kernel
  have hbuild : buildSheet (s.options (some "a.sass".toList)) "a\x7bb:c\x7d".toList =
      .ok [.rule ['a'] [.declaration ['b'] ['c']]] := by decide +kernel
  have hsass : Body.sass (s.options (some "a.sass".toList))
      [.rule ['a'] [.declaration ['b'] ['c']]] =
      "a\n  :b c\n".toList := by decide +kernel
  have hdelivery : w.delivery s (some "a.sass".toList) =
      .store "a.sass".toList "a\n  :b c\n".toList := by
    rw [Workspace.delivery, Workspace.sheet, hread]
    simp only [Text.ofBytes?_toBytes, Settings.delivery, Settings.result, hbuild, ← hsass]
    rfl
  have he : e = (w.delivery s (some "a.sass".toList)).effect w :=
    (w.effect_eq hs none).trans (effectOf_run hinput)
  rw [hdelivery] at he
  have hafter : e.after.read "a.sass".toList = .ok (Text.toBytes "a\n  :b c\n".toList) := by
    rw [he]
    rfl
  refine ⟨hs, rfl, rfl, hread, ?_, hafter, ?_⟩
  · rw [he]
    rfl
  · rw [hafter, hread]
    intro heq
    have htext := congrArg Text.ofBytes? (Except.ok.inj heq)
    rw [Text.ofBytes?_toBytes, Text.ofBytes?_toBytes] at htext
    exact absurd htext (by decide)

end Run

end SassNesting
