import Mathlib.Data.List.Basic
import SassNesting.Proofs.CommandLine.Effects
import SassNesting.Proofs.Files.Directory

/-! # The stylesheets of a directory

A run on a directory does to each stylesheet in it what a run on that stylesheet alone does. What is
written on the way never is a stylesheet that is still to be read, so each is read as it was at the
start; and no two stylesheets are written to the same file. So what is printed is what the single
runs print, one after another in the order of the names, the run fails if one of them does, and it
leaves the files that they leave (`effect_directory`). -/

namespace SassNesting

open SassNesting.Path

/-! ## The order of names -/

namespace Text

/-- `Text.inOrder` is total: of two texts one comes before the other, or they are equal. -/
theorem inOrder_total (s t : Text) : inOrder s t = true ∨ inOrder t s = true := by
  induction s generalizing t with
  | nil => exact Or.inl rfl
  | cons c s ih =>
      cases t with
      | nil => exact Or.inr rfl
      | cons d t =>
          simp only [inOrder, Bool.or_eq_true, Bool.and_eq_true, decide_eq_true_eq]
          rcases Nat.lt_trichotomy c.toNat d.toNat with hlt | heq | hgt
          · exact Or.inl (Or.inl hlt)
          · exact (ih t).imp (fun h => Or.inr ⟨heq, h⟩) (fun h => Or.inr ⟨heq.symm, h⟩)
          · exact Or.inr (Or.inl hgt)

/-- `Text.inOrder` is transitive: what comes before a text comes before all that comes after it. -/
theorem inOrder_trans {s t u : Text} (hst : inOrder s t = true) (htu : inOrder t u = true) :
    inOrder s u = true := by
  induction s generalizing t u with
  | nil => rfl
  | cons c s ih =>
      cases t with
      | nil => cases hst
      | cons d t =>
          cases u with
          | nil => cases htu
          | cons e u =>
              simp only [inOrder, Bool.or_eq_true, Bool.and_eq_true, decide_eq_true_eq] at hst htu ⊢
              rcases hst with hcd | ⟨hcd, hst⟩
              · exact Or.inl (by omega)
              · rcases htu with hde | ⟨hde, htu⟩
                · exact Or.inl (by omega)
                · exact Or.inr ⟨by omega, ih hst htu⟩

/-- Behind the same `front` the order is that of what follows. -/
theorem inOrder_append (front s t : Text) : inOrder (front ++ s) (front ++ t) = inOrder s t := by
  induction front with
  | nil => rfl
  | cons c front ih => simpa [inOrder] using ih

end Text

/-- The names that `sheetNames` gives are in order. -/
theorem pairwise_sheetNames (names : List Text) :
    (sheetNames names).Pairwise fun s t => Text.inOrder s t = true := by
  have htrans : ∀ s t u, Text.inOrder s t = true → Text.inOrder t u = true →
      Text.inOrder s u = true := fun _ _ _ => Text.inOrder_trans
  have htotal : ∀ s t, (Text.inOrder s t || Text.inOrder t s) = true := by
    intro s t
    rw [Bool.or_eq_true]
    exact Text.inOrder_total s t
  exact List.pairwise_mergeSort htrans htotal _

/-- The texts in `sheetNames names` are those of `names` that have the extension `css`. -/
theorem mem_sheetNames {names : List Text} {name : Text} :
    name ∈ sheetNames names ↔ name ∈ names ∧ extension? name = some "css".toList := by
  rw [sheetNames, List.mem_mergeSort, List.mem_filter, decide_eq_true_eq]

/-! ## One run after another -/

/-- What comes of a run and then another one: `e.andThen f` has the output of `e` and then that of
`f`, fails if one of them fails, and leaves the files of `f`. -/
def Effect.andThen (e f : Effect) : Effect :=
  ⟨e.stdout ++ f.stdout, e.stderr ++ f.stderr, max e.exitCode f.exitCode, f.after⟩

/-- A report `r ++ q` has the effect of `r` and then that of `q`. -/
theorem Report.effect_append (r q : Report) (w v : Workspace) :
    (r ++ q).effect v = (r.effect w).andThen (q.effect v) := by
  have hmessages : (r ++ q).messages = r.messages ++ q.messages := rfl
  have hfailed : (r ++ q).failed = (r.failed || q.failed) := rfl
  simp only [effect, Effect.andThen, hmessages, hfailed, List.flatMap_append]
  cases r.failed <;> cases q.failed <;> rfl

/-- The effect of `runFiles s (p :: rest)` is that of `runFile s p` and then that of
`runFiles s rest`, from the files that the first leaves. -/
theorem effectOf_runFiles_cons (w : Workspace) (s : Settings) (p : Path) (rest : List Path) :
    w.effectOf (runFiles s (p :: rest)) =
      (w.effectOf (runFile s p)).andThen
        ((w.effectOf (runFile s p)).after.effectOf (runFiles s rest)) := by
  simp only [Workspace.effectOf, runFiles, Workspace.perform_bind, Workspace.perform_pure]
  exact Report.effect_append _ _ _ _

/-! ## One stylesheet of a directory -/

/-- A stylesheet with the name `name` in the directory at `place`. -/
structure Workspace.HasSheet (w : Workspace) (place : Location) (name : Text) : Prop where
  /-- The name has no slash. -/
  slash_notMem : '/' ∉ name
  /-- The name has the extension of stylesheets. -/
  extension_eq : extension? name = some "css".toList
  /-- There is a file of the name. -/
  exists_content : ∃ content, w.find? (place ++ [name]) = some (.file content)

/-- What a delivery puts into a workspace: for `store p text` the file that `p` leads to with the
bytes of `text`, and otherwise nothing. -/
def Delivery.files (w : Workspace) : Delivery → List (Location × ByteArray)
  | store p text =>
    match w.target p with
    | .ok location => [(location, text.toBytes)]
    | .error _ => []
  | _ => []

/-- Where a delivery `d` writes to the place it would write to in another workspace `w`, it has the
same effect there, up to the files afterwards; and it puts the same `d.files w`. -/
theorem Delivery.effect_eq {d : Delivery} {w v : Workspace}
    (h : ∀ p text, d = .store p text → v.target p = w.target p) :
    d.effect v = { d.effect w with after := (d.files w).foldl Workspace.putFile v } := by
  cases d with
  | refuse line => rfl
  | print text => rfl
  | store p text =>
      have htarget := h p text rfl
      simp only [effect, files, Workspace.write, htarget]
      cases w.target p <;> rfl

/-- The workspace `v` has the directories of `w` and the same stylesheets in the one at `place`. -/
structure Workspace.KeepsSheets (w v : Workspace) (place : Location) : Prop extends
    SameDirectories w v where
  /-- What has the name of a stylesheet is the same. -/
  find?_sheet : ∀ name, extension? name = some "css".toList →
    v.find? (place ++ [name]) = w.find? (place ++ [name])

section Sheet

open Workspace

variable {w v : Workspace} {s : Settings} {front : Path} {place : Location} {name : Text}

namespace Workspace.HasSheet

/-- The name of a stylesheet leads to something in the directory: it is not empty, not `here` and
not `above`. -/
theorem isProper (h : w.HasSheet place name) : IsProper name :=
  isProper_of_extension? h.extension_eq (by decide)

/-- A stylesheet in a directory is no directory itself. -/
theorem isDirectory_eq_false (h : w.HasSheet place name) (hfront : w.LeadsTo front place) :
    w.isDirectory (front ++ '/' :: name) = false := by
  obtain ⟨content, hfile⟩ := h.exists_content
  rw [hfront.isDirectory_name h.isProper h.slash_notMem, hfile]
  rfl

/-- Stylesheets that are kept are delivered as before: `v.delivery` agrees with `w.delivery` on
them. -/
theorem delivery_eq (h : w.HasSheet place name) (hfront : w.LeadsTo front place)
    (hkept : w.KeepsSheets v place) :
    v.delivery s (some (front ++ '/' :: name)) = w.delivery s (some (front ++ '/' :: name)) := by
  obtain ⟨content, hfile⟩ := h.exists_content
  have hfile' : v.find? (place ++ [name]) = some (.file content) :=
    (hkept.find?_sheet name h.extension_eq).trans hfile
  have hread : v.read (front ++ '/' :: name) = w.read (front ++ '/' :: name) := by
    rw [hfront.read_name h.isProper h.slash_notMem hfile,
      (hkept.leadsTo hfront).read_name h.isProper h.slash_notMem hfile']
  rw [delivery, delivery, sheet, sheet, hread]

/-- The path `p` that a stylesheet `name` is written to has the stem of `name`, and is in the same
directory; for a dot as stem it would be the directory above. -/
theorem eq_of_delivery (h : w.HasSheet place name) (houtput : s.output = none) {p : Path}
    {text : Text} (hdelivery : w.delivery s (some (front ++ '/' :: name)) = .store p text) :
    ∃ stem, name = stem ++ '.' :: "css".toList ∧ '/' ∉ stem ∧
      p = front ++ '/' :: if stem = here then above else stem ++ '.' :: "sass".toList := by
  obtain ⟨stem, -, hname, hsplit⟩ := exists_stem_of_extension? h.extension_eq
  refine ⟨stem, hname, fun hslash => h.slash_notMem (hname ▸ List.mem_append_left _ hslash), ?_⟩
  rw [← withExtension_append_name h.slash_notMem hsplit]
  obtain ⟨line, hrefuse⟩ | ⟨result, hplace⟩ :=
    w.delivery_cases s (some (front ++ '/' :: name))
  · rw [hrefuse] at hdelivery
    cases hdelivery
  · rw [hplace] at hdelivery
    exact Settings.eq_withExtension_of_place houtput hdelivery

/-- A stylesheet that is kept is written where it would have been: `v.target p = w.target p`. -/
theorem target_eq (h : w.HasSheet place name) (hfront : w.LeadsTo front place)
    (houtput : s.output = none) (hsame : SameDirectories w v) {p : Path} {text : Text}
    (hdelivery : w.delivery s (some (front ++ '/' :: name)) = .store p text) :
    v.target p = w.target p := by
  obtain ⟨stem, -, hslash, rfl⟩ := h.eq_of_delivery houtput hdelivery
  refine hsame.target_eq hfront ?_ ?_
  · split
    · decide
    · simpa using hslash
  · split
    · decide
    · simp

/-- A file that is put for a stylesheet stands at `place ++ [stem.sass]` for the stem of the
stylesheet, and replaces no directory. -/
theorem of_mem_files (h : w.HasSheet place name) (hfront : w.LeadsTo front place)
    (houtput : s.output = none) {file : Location × ByteArray}
    (hfile : file ∈ (w.delivery s (some (front ++ '/' :: name))).files w) :
    ∃ stem, name = stem ++ '.' :: "css".toList ∧ file.1 = place ++ [stem ++ '.' :: "sass".toList] ∧
      w.find? file.1 ≠ some .directory := by
  cases hdelivery : w.delivery s (some (front ++ '/' :: name)) with
  | refuse line =>
      rw [hdelivery] at hfile
      cases hfile
  | print text =>
      rw [hdelivery] at hfile
      cases hfile
  | store p text =>
      obtain ⟨stem, hname, hslash, rfl⟩ := h.eq_of_delivery houtput hdelivery
      refine ⟨stem, hname, ?_⟩
      rw [hdelivery, Delivery.files] at hfile
      by_cases hhere : stem = here
      · rw [if_pos hhere, hfront.target_name (by decide) (by decide), if_pos (Or.inr rfl)] at hfile
        cases hfile
      · rw [if_neg hhere, hfront.target_name (by simpa using hslash) (by simp)] at hfile
        split at hfile
        · rename_i location htarget
          rw [List.mem_singleton] at hfile
          subst hfile
          split at htarget
          · cases htarget
          · split at htarget
            · cases htarget
            · rename_i hdirectory
              cases htarget
              exact ⟨rfl, fun hfound => hdirectory (isDirectory_iff.2 hfound)⟩
        · cases hfile

end Workspace.HasSheet

/-- A file that is put for a stylesheet is no stylesheet, so `putFile` keeps `KeepsSheets`. -/
theorem Workspace.KeepsSheets.putFile (hkept : w.KeepsSheets v place) {stem : Text}
    {file : Location × ByteArray} (hplace : file.1 = place ++ [stem ++ '.' :: "sass".toList])
    (hfile : w.find? file.1 ≠ some .directory) : w.KeepsSheets (v.putFile file) place where
  toSameDirectories := hkept.toSameDirectories.put hfile
  find?_sheet := by
    intro name hname
    rw [← hkept.find?_sheet name hname]
    refine find?_put_of_ne ?_
    rw [hplace]
    intro heq
    obtain ⟨other, -, rfl, -⟩ := exists_stem_of_extension? hname
    have hlast := congrArg List.reverse (List.singleton_inj.1 (List.append_cancel_left heq))
    simp at hlast

/-- Several files that are put keep `KeepsSheets`. -/
theorem Workspace.KeepsSheets.foldl_putFile {files : List (Location × ByteArray)}
    (hfiles : ∀ file ∈ files, ∃ stem, file.1 = place ++ [stem ++ '.' :: "sass".toList] ∧
      w.find? file.1 ≠ some .directory) (hkept : w.KeepsSheets v place) :
    w.KeepsSheets (files.foldl Workspace.putFile v) place := by
  induction files generalizing v with
  | nil => exact hkept
  | cons file rest ih =>
      obtain ⟨stem, hplace, hfile⟩ := hfiles file List.mem_cons_self
      exact ih (fun other hother => hfiles other (List.mem_cons_of_mem file hother))
        (hkept.putFile hplace hfile)

/-- What comes of `runFiles` on the stylesheets of a directory is what comes of each `delivery name`
alone, in the workspace `w` at the start, with the files of all. -/
theorem effectOf_runFiles {names : List Text} (hfront : w.LeadsTo front place)
    (houtput : s.output = none) (hnames : ∀ name ∈ names, w.HasSheet place name)
    (hkept : w.KeepsSheets v place) :
    let delivery name := w.delivery s (some (front ++ '/' :: name))
    v.effectOf (runFiles s (names.map fun name => front ++ '/' :: name)) =
      ⟨names.flatMap fun name => ((delivery name).effect w).stdout,
        names.flatMap fun name => ((delivery name).effect w).stderr,
        if ∃ name ∈ names, ((delivery name).effect w).exitCode = 1 then 1 else 0,
        (names.flatMap fun name => (delivery name).files w).foldl putFile v⟩ := by
  intro delivery
  induction names generalizing v with
  | nil => rfl
  | cons name rest ih =>
      have hsheet := hnames name List.mem_cons_self
      -- In front of the others the first is converted as it would be at the start.
      have hfirst : v.effectOf (runFile s (front ++ '/' :: name)) =
          { (delivery name).effect w with after := ((delivery name).files w).foldl putFile v } := by
        rw [effectOf_runFile, hsheet.delivery_eq hfront hkept]
        exact Delivery.effect_eq fun p text h =>
          hsheet.target_eq hfront houtput hkept.toSameDirectories h
      have hkept' : w.KeepsSheets (((delivery name).files w).foldl putFile v) place := by
        refine hkept.foldl_putFile fun file hfile => ?_
        obtain ⟨stem, -, hplace⟩ := hsheet.of_mem_files hfront houtput hfile
        exact ⟨stem, hplace⟩
      have hcode : max ((delivery name).effect w).exitCode
          (if ∃ name ∈ rest, ((delivery name).effect w).exitCode = 1 then 1 else 0) =
            if ∃ other ∈ name :: rest, ((delivery other).effect w).exitCode = 1 then 1 else 0 := by
        rcases (delivery name).exitCode_effect w with hzero | hone
        · simp [hzero]
        · simp only [hone, List.mem_cons, exists_eq_or_imp, true_or, if_true]
          split <;> rfl
      rw [List.map_cons, effectOf_runFiles_cons, hfirst,
        ih (fun other hother => hnames other (List.mem_cons_of_mem name hother)) hkept',
        Effect.andThen, hcode, ← List.foldl_append]
      rfl

/-- A delivery puts one file at most: two files in `d.files w` are equal. -/
theorem Delivery.eq_of_mem_files {d : Delivery} {file other : Location × ByteArray}
    (hfile : file ∈ d.files w) (hother : other ∈ d.files w) : file = other := by
  cases d with
  | refuse line => cases hfile
  | print text => cases hfile
  | store p text =>
      rw [files] at hfile hother
      cases htarget : w.target p with
      | error e =>
          rw [htarget] at hfile
          cases hfile
      | ok location =>
          rw [htarget, List.mem_singleton] at hfile hother
          rw [hfile, hother]

/-- Stylesheets of a directory that put a file at the same place put the same file there: the place
gives the stem. -/
theorem Workspace.HasSheet.eq_of_mem_files {other : Text} (h : w.HasSheet place name)
    (hother : w.HasSheet place other) (hfront : w.LeadsTo front place) (houtput : s.output = none)
    {file file' : Location × ByteArray}
    (hfile : file ∈ (w.delivery s (some (front ++ '/' :: name))).files w)
    (hfile' : file' ∈ (w.delivery s (some (front ++ '/' :: other))).files w)
    (heq : file.1 = file'.1) : file = file' := by
  obtain ⟨stem, hname, hplace, -⟩ := h.of_mem_files hfront houtput hfile
  obtain ⟨stem', hname', hplace', -⟩ := hother.of_mem_files hfront houtput hfile'
  rw [hplace, hplace'] at heq
  have hstem : stem = stem' :=
    List.append_cancel_right (List.singleton_inj.1 (List.append_cancel_left heq))
  have hsame : name = other := by rw [hname, hname', hstem]
  subst hsame
  exact Delivery.eq_of_mem_files hfile hfile'

/-- An entry at `l` that is not `w.find? l` is there after all stylesheets of a directory are
converted iff it is there after one of them is converted alone. -/
theorem find?_files_iff {names : List Text} (hfront : w.LeadsTo front place)
    (houtput : s.output = none) (hnames : ∀ name ∈ names, w.HasSheet place name) {l : Location}
    {entry : Option Entry} (hchange : entry ≠ w.find? l) :
    let delivery name := w.delivery s (some (front ++ '/' :: name))
    ((names.flatMap fun name => (delivery name).files w).foldl putFile w).find? l = entry ↔
      ∃ name ∈ names, ((delivery name).effect w).after.find? l = entry := by
  intro delivery
  have hafter : ∀ name, ((delivery name).effect w).after =
      ((delivery name).files w).foldl putFile w :=
    fun name => congrArg Effect.after (Delivery.effect_eq fun _ _ _ => rfl)
  simp only [hafter]
  refine find?_foldl_flatMap_iff ?_ ?_ w hchange
  · intro name hname file hfile
    obtain ⟨stem, -, hplace, -⟩ := (hnames name hname).of_mem_files hfront houtput hfile
    simp [hplace]
  · intro name hname file hfile other hother file' hfile' heq
    rw [(hnames name hname).eq_of_mem_files (hnames other hother) hfront houtput hfile hfile' heq]

end Sheet

/-! ## The directory -/

section Directory

open Workspace

variable {arguments : List Text} {s : Settings} {w : Workspace} {directory : Path}
  {names : List Text}
  {front : Path} {place : Location} {name : Text}

/-- A name in `sheetNames names`, for the names that a directory lists, is that of a stylesheet in
it, unless it leads to a directory. -/
theorem hasSheet_of_mem_sheetNames (hfront : w.LeadsTo front place)
    (hlisted : ∀ name ∈ names, w.find? (place ++ [name]) ≠ none)
    (hslash : ∀ name ∈ names, '/' ∉ name) (hname : name ∈ sheetNames names)
    (hfile : w.isDirectory (front ++ '/' :: name) = false) :
    w.HasSheet place name := by
  obtain ⟨hmem, hextension⟩ := mem_sheetNames.1 hname
  have hproper : IsProper name := isProper_of_extension? hextension (by decide)
  refine ⟨hslash name hmem, hextension, ?_⟩
  rw [hfront.isDirectory_name hproper (hslash name hmem)] at hfile
  cases hfound : w.find? (place ++ [name]) with
  | none => exact absurd hfound (hlisted name hmem)
  | some entry =>
      cases entry with
      | directory =>
          rw [hfound] at hfile
          cases hfile
      | file content => exact ⟨content, rfl⟩

/-- The effect of a command line for the stylesheet `front ++ '/' :: name` is that of its delivery.
-/
theorem effect_sheet (hsheet : w.HasSheet place name) (hfront : w.LeadsTo front place)
    (hs : Settings.ofArguments arguments = .ok { s with input := some (front ++ '/' :: name) })
    (level : Option Text) :
    w.effect arguments level = (w.delivery s (some (front ++ '/' :: name))).effect w := by
  have hfile : Settings.file { s with input := some (front ++ '/' :: name) } =
      some (front ++ '/' :: name) := by
    rw [Settings.file, Option.filter_some,
      isStandardInput_append_name front hsheet.slash_notMem hsheet.isProper]
    rfl
  rw [w.effect_eq hs, effectOf_run, hfile]
  · rfl
  · intro p hp
    rw [hfile] at hp
    cases hp
    exact hsheet.isDirectory_eq_false hfront

/-- The effect of `run s` on a directory is that of `runFiles` on `sheetNames names`, for the names
that it lists. -/
theorem effectOf_run_directory (hinput : s.input = some directory)
    (hpath : directory.isStandardInput = false) (houtput : s.output = none)
    (hnames : w.names directory = .ok names) :
    w.effectOf (run s) = w.effectOf (runFiles s ((sheetNames names).map directory.join)) := by
  have hfile : (s.input.filter fun p => !p.isStandardInput) = some directory := by
    rw [hinput, Option.filter_some, hpath]
    rfl
  have hdirectory : w.isDirectory directory = true := by
    obtain ⟨place, hresolve, hplace, -⟩ := exists_of_names hnames
    rw [Workspace.isDirectory, hresolve]
    exact isDirectory_iff.2 hplace
  rw [effectOf, run, hfile]
  simp only [perform_bind, perform_isDirectory, hdirectory, if_true, houtput, ne_eq,
    not_true_eq_false, if_false, runDirectory, perform_names, hnames, perform_pure]
  exact Report.effect_log_append _ _ _

/-- **A run on a directory is the sequence of the runs on its stylesheets.** Where the stylesheets
that `directory` lists are files, the runs on `sheets` in the order of their paths print what the
run on the directory prints, it fails if one of them does, and it changes what they change, each of
them starting from the same files `w`. The command line for a stylesheet is any whose settings are
`s` with the input `some p`, and there is one. -/
theorem effect_directory (hs : Settings.ofArguments arguments = .ok s)
    (hinput : s.input = some directory) (hpath : directory.isStandardInput = false)
    (houtput : s.output = none) (hnames : w.names directory = .ok names)
    (hslash : ∀ name ∈ names, '/' ∉ name)
    (hfiles : ∀ name ∈ sheetNames names, w.isDirectory (directory.join name) = false)
    (level : Option Text) :
    let sheets := (sheetNames names).map directory.join
    let e := w.effect arguments level
    (sheets.Pairwise fun p q => Text.inOrder p q = true) ∧
      sheets.Perm
        ((names.filter fun name => extension? name = some "css".toList).map directory.join) ∧
      (∀ p ∈ sheets, ∃ single, Settings.ofArguments single = .ok { s with input := some p }) ∧
      ∀ (single : Path → List Text) (levels : Path → Option Text),
        (∀ p ∈ sheets, Settings.ofArguments (single p) = .ok { s with input := some p }) →
        let each p := w.effect (single p) (levels p)
        e.stdout = sheets.flatMap (fun p => (each p).stdout) ∧
          e.stderr = sheets.flatMap (fun p => (each p).stderr) ∧
          e.exitCode = (if ∃ p ∈ sheets, (each p).exitCode = 1 then 1 else 0) ∧
          ∀ l entry, entry ≠ w.find? l →
            (e.after.find? l = entry ↔ ∃ p ∈ sheets, (each p).after.find? l = entry) := by
  intro sheets e
  have haskable : s.IsAskable := Settings.exists_arguments_iff.1 ⟨arguments, hs⟩
  obtain ⟨front, hdirectory, hjoin⟩ := exists_join_eq directory
  obtain ⟨place, hresolve, hplace, hlisted⟩ := exists_of_names hnames
  have hfront : w.LeadsTo front place := by
    refine leadsTo_of_resolve ?_ hdirectory hresolve hplace
    rintro rfl
    exact haskable.input_ne hinput
  have hsheets : ∀ name ∈ sheetNames names, w.HasSheet place name := fun name hname =>
    hasSheet_of_mem_sheetNames hfront hlisted hslash hname (hjoin name ▸ hfiles name hname)
  have hpaths : sheets = (sheetNames names).map fun name => front ++ '/' :: name :=
    List.map_congr_left fun name _ => hjoin name
  refine ⟨?_, (List.mergeSort_perm _ _).map _, ?_, ?_⟩
  · rw [hpaths, List.pairwise_map]
    refine (pairwise_sheetNames names).imp fun {a b} hab => ?_
    rw [List.append_cons front '/' a, List.append_cons front '/' b, Text.inOrder_append]
    exact hab
  · intro p hp
    refine Settings.exists_arguments_iff.2 (haskable.setInput ?_)
    rw [hpaths] at hp
    obtain ⟨name, -, rfl⟩ := List.mem_map.1 hp
    simp
  · intro single levels hsingle each
    have heach : ∀ name ∈ sheetNames names,
        each (front ++ '/' :: name) = (w.delivery s (some (front ++ '/' :: name))).effect w := by
      intro name hname
      have hmem : front ++ '/' :: name ∈ sheets := hpaths ▸ List.mem_map_of_mem hname
      exact effect_sheet (hsheets name hname) hfront (hsingle _ hmem) _
    have he : e =
        w.effectOf (runFiles s ((sheetNames names).map fun name => front ++ '/' :: name)) := by
      rw [← hpaths]
      exact (w.effect_eq hs level).trans (effectOf_run_directory hinput hpath houtput hnames)
    rw [effectOf_runFiles hfront houtput hsheets ⟨.refl w, fun _ _ => rfl⟩] at he
    have hstream : ∀ stream : Effect → Text,
        (sheetNames names).flatMap (fun name =>
          stream ((w.delivery s (some (front ++ '/' :: name))).effect w)) =
            sheets.flatMap fun p => stream (each p) := by
      intro stream
      rw [hpaths, List.flatMap_map]
      exact List.flatMap_congr fun name hname => by rw [heach name hname]
    have hany : ∀ P : Effect → Prop,
        (∃ name ∈ sheetNames names, P ((w.delivery s (some (front ++ '/' :: name))).effect w)) ↔
          ∃ p ∈ sheets, P (each p) := by
      intro P
      rw [hpaths]
      constructor
      · rintro ⟨name, hname, h⟩
        exact ⟨_, List.mem_map_of_mem hname, heach name hname ▸ h⟩
      · rintro ⟨p, hp, h⟩
        obtain ⟨name, hname, rfl⟩ := List.mem_map.1 hp
        exact ⟨name, hname, heach name hname ▸ h⟩
    rw [he]
    refine ⟨hstream Effect.stdout, hstream Effect.stderr, ?_, ?_⟩
    · exact if_congr (hany fun e => e.exitCode = 1) rfl rfl
    · intro l entry hchange
      exact (find?_files_iff hfront houtput hsheets hchange).trans
        (hany fun e => e.after.find? l = entry)

/-- Of two stylesheets in the directory `d`, `a.css` is not text; a third file is no stylesheet. -/
theorem effect_directory_notText :
    let w : Workspace :=
      { entries :=
          [(["d".toList], .directory),
            (["d".toList, "b.css".toList], .file (Text.toBytes "a\x7b\x7d".toList)),
            (["d".toList, "a.css".toList], .file ⟨#[0xFF]⟩),
            (["d".toList, "c.txt".toList], .file .empty)] }
    let names := ["b.css".toList, "a.css".toList, "c.txt".toList]
    let sheets := ["d/a.css".toList, "d/b.css".toList]
    let e := w.effect ["-w".toList, "d".toList] none
    let each p := w.effect ["-w".toList, p] none
    Settings.ofArguments ["-w".toList, "d".toList] =
      .ok { input := some "d".toList, write := true } ∧
      w.names "d".toList = .ok names ∧ (sheetNames names).map (join "d".toList) = sheets ∧
      (∀ name ∈ sheetNames names, w.isDirectory (join "d".toList name) = false) ∧
      e.stdout = sheets.flatMap (fun p => (each p).stdout) ∧
      e.stderr = sheets.flatMap (fun p => (each p).stderr) ∧
      e.exitCode = (if ∃ p ∈ sheets, (each p).exitCode = 1 then 1 else 0) ∧
      ∀ l entry, entry ≠ w.find? l →
        (e.after.find? l = entry ↔ ∃ p ∈ sheets, (each p).after.find? l = entry) := by
  intro w names sheets e each
  have hs : Settings.ofArguments ["-w".toList, "d".toList] =
      .ok { input := some "d".toList, write := true } := by decide +kernel
  have hnames : w.names "d".toList = .ok names := rfl
  have hsheets : (sheetNames names).map (join "d".toList) = sheets := by
    have hfilter : names.filter (fun name => extension? name = some "css".toList) =
        ["b.css".toList, "a.css".toList] := by decide +kernel
    rw [sheetNames, hfilter, List.mergeSort]
    change ((List.mergeSort ["b.css".toList] Text.inOrder).merge
      (List.mergeSort ["a.css".toList] Text.inOrder) Text.inOrder).map (join "d".toList) = sheets
    rw [List.mergeSort_singleton, List.mergeSort_singleton, List.cons_merge_cons,
      if_neg (by decide), List.merge_right]
    rfl
  have hfiles : ∀ name ∈ sheetNames names, w.isDirectory (join "d".toList name) = false := by
    intro name hname
    have hcases : name = "b.css".toList ∨ name = "a.css".toList ∨ name = "c.txt".toList := by
      simpa [names] using (mem_sheetNames.1 hname).1
    rcases hcases with rfl | rfl | rfl <;> decide +kernel
  have hsingle : ∀ p ∈ (sheetNames names).map (join "d".toList),
      Settings.ofArguments ["-w".toList, p] = .ok { input := some p, write := true } := by
    rw [hsheets]
    decide +kernel
  obtain ⟨-, -, -, h⟩ := effect_directory hs rfl (by decide) rfl hnames (by decide) hfiles none
  rw [hsheets] at h
  exact ⟨hs, hnames, hsheets, hfiles,
    h (fun p => ["-w".toList, p]) (fun _ => none) (hsheets ▸ hsingle)⟩

end Directory

end SassNesting
