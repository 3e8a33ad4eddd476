import SassNesting.Proofs.Files.Workspace

/-! # What is in a directory

A path that leads to a directory, a slash and a name lead to what has the name there; where such a
path is read and written depends on the directories alone (`LeadsTo`). So it stays as it is while
files are written. Of several files that are written one after another each keeps its content, as
long as no two of them are at one location with different contents (`find?_foldl_putFile`); then
they change together what they change apart (`find?_foldl_flatMap_iff`). -/

namespace SassNesting

namespace Workspace

open SassNesting.Path

variable {w v : Workspace} {front : Path} {place : Location} {name : Text}

/-- A directory is told from all else: `Entry.isDirectory found` holds of `some .directory` only. -/
theorem isDirectory_iff {found : Option Entry} :
    Entry.isDirectory found = true ↔ found = some .directory := by
  rcases found with _ | _ | content <;> simp [Entry.isDirectory]

/-! ## Behind a path to a directory -/

/-- A path `front`, with a slash behind it, leads to a directory at `place`. -/
structure LeadsTo (w : Workspace) (front : Path) (place : Location) : Prop where
  /-- The path is followed to the place. -/
  walk_segments : w.walk (w.start (front ++ ['/'])) front.segments = .ok place
  /-- A directory is there. -/
  find?_place : w.find? place = some .directory

/-- What follows a slash does not count for `w.start`, where a path starts. -/
theorem start_append_cons (w : Workspace) (front p : Path) :
    w.start (front ++ '/' :: p) = w.start (front ++ ['/']) := by
  cases front <;> rfl

namespace LeadsTo

/-- A `name` leads to what has the name in the directory: `place ++ [name]`. -/
theorem resolve_name (h : w.LeadsTo front place) (hname : IsProper name) (hslash : '/' ∉ name) :
    w.resolve (front ++ '/' :: name) = .ok (place ++ [name]) := by
  rw [resolve, start_append_cons, segments_append_name front hslash,
    walk_append_of_ok h.walk_segments, walk_name hname h.find?_place]

/-- A `name` leads to a directory if there is one of the name. -/
theorem isDirectory_name (h : w.LeadsTo front place) (hname : IsProper name) (hslash : '/' ∉ name) :
    w.isDirectory (front ++ '/' :: name) = Entry.isDirectory (w.find? (place ++ [name])) := by
  rw [isDirectory, h.resolve_name hname hslash]

/-- What is read by a `name` is the content of the file of the name. -/
theorem read_name (h : w.LeadsTo front place) (hname : IsProper name) (hslash : '/' ∉ name)
    {content : ByteArray} (hfile : w.find? (place ++ [name]) = some (.file content)) :
    w.read (front ++ '/' :: name) = .ok content := by
  rw [read, h.resolve_name hname hslash]
  simp only [hfile]

/-- Where a last segment `name` is written to: at `place ++ [name]`, unless it leads to a directory.
-/
theorem target_name (h : w.LeadsTo front place) (hslash : '/' ∉ name) (hname : name ≠ []) :
    w.target (front ++ '/' :: name) =
      if name = here ∨ name = above then .error .isDirectory
      else if Entry.isDirectory (w.find? (place ++ [name])) then .error .isDirectory
      else .ok (place ++ [name]) := by
  refine target_eq (segments_append_name front hslash) hname ?_ h.find?_place
  rw [start_append_cons]
  exact h.walk_segments

end LeadsTo

/-- A path that leads to a directory does so with or without a slash at its end. -/
theorem leadsTo_of_resolve {directory : Path} (hdirectory : directory ≠ [])
    (hfront : directory = front ∨ directory = front ++ ['/'])
    (hresolve : w.resolve directory = .ok place) (hplace : w.find? place = some .directory) :
    w.LeadsTo front place := by
  refine ⟨?_, hplace⟩
  unfold resolve at hresolve
  rcases hfront with rfl | rfl
  · have hstart : w.start (directory ++ ['/']) = w.start directory := by
      obtain ⟨c, directory, rfl⟩ := List.exists_cons_of_ne_nil hdirectory
      rfl
    rw [hstart, hresolve]
  · -- Behind the slash is an empty segment, which stays where it is.
    have hempty : segments [] = [[]] := rfl
    rw [segments_append_cons, hempty] at hresolve
    obtain ⟨middle, hmiddle, hstay⟩ := exists_walk_of_append hresolve
    rw [walk_stay (Or.inl rfl) (find?_of_walk_cons hstay)] at hstay
    cases hstay
    exact hmiddle

/-- What `w.names directory` lists is in the directory. -/
theorem exists_of_names {directory : Path} {names : List Text} (h : w.names directory = .ok names) :
    ∃ place, w.resolve directory = .ok place ∧ w.find? place = some .directory ∧
      ∀ name ∈ names, w.find? (place ++ [name]) ≠ none := by
  unfold Workspace.names at h
  split at h
  · cases h
  · rename_i place hresolve
    split at h
    · cases h
    · cases h
    · rename_i hplace
      cases h
      refine ⟨place, hresolve, hplace, ?_⟩
      intro name hname
      obtain ⟨⟨location, entry⟩, hentry, hin⟩ := List.mem_filterMap.1 hname
      dsimp only at hin
      split at hin
      · rename_i hparent
        obtain ⟨parent, rfl⟩ := List.getLast?_eq_some_iff.1 hin
        rw [List.dropLast_concat] at hparent
        subst hparent
        rw [find?, if_neg (by simp), ne_eq, List.lookup_eq_none_iff]
        intro hnone
        have hne := hnone _ hentry
        simp at hne
      · cases hin

/-! ## The directory that a name is in -/

/-- Where the last segment of a path `p` is followed from. -/
def parent (w : Workspace) (p : Path) : Except FileError Location :=
  w.walk (w.start p) p.segments.dropLast

variable {p : Path} {location : Location}

/-- A path starts where it did if `other` is put in the place of its name. -/
theorem start_upToName_append (w : Workspace) (p : Path) {other : Text} (hother : '/' ∉ other) :
    w.start (upToName p ++ other) = w.start p := by
  rcases upToName_cases p with hnil | ⟨front, hfront⟩
  · have hname := upToName_append_name p
    rw [hnil, List.nil_append] at hname
    have hslash := slash_notMem_name p
    rw [hname] at hslash
    rw [hnil, List.nil_append, start, start, if_neg fun h => hother (List.mem_of_head? h),
      if_neg fun h => hslash (List.mem_of_head? h)]
  · have hname := upToName_append_name p
    rw [hfront, ← List.append_cons] at hname
    rw [hfront, ← List.append_cons, start_append_cons w front other,
      ← start_append_cons w front (Path.name p), hname]

/-- Another name is in the same directory: `w.parent` is kept if `other` is put in the place of the
name. -/
theorem parent_upToName_append (w : Workspace) (p : Path) {other : Text} (hother : '/' ∉ other) :
    w.parent (upToName p ++ other) = w.parent p := by
  obtain ⟨front, hfront⟩ := exists_segments_eq p
  have hsegments := hfront _ (slash_notMem_name p)
  rw [upToName_append_name] at hsegments
  rw [parent, parent, start_upToName_append w p hother, hfront other hother, hsegments,
    List.dropLast_concat, List.dropLast_concat]

/-- The last segment of a path is its name, `Path.name p`. -/
theorem segments_eq_dropLast_append (p : Path) :
    p.segments = p.segments.dropLast ++ [Path.name p] := by
  obtain ⟨front, hfront⟩ := exists_segments_eq p
  have hsegments := hfront _ (slash_notMem_name p)
  rw [upToName_append_name] at hsegments
  rw [hsegments, List.dropLast_concat]

/-- A path is written to in the directory `w.parent p`, under its name. -/
theorem parent_of_target (h : w.target p = .ok location) :
    ∃ place, w.parent p = .ok place ∧ location = place ++ [Path.name p] ∧
      IsProper (Path.name p) ∧ w.find? location ≠ some .directory := by
  obtain ⟨front, last, place, hsegments, hlast, hwalk, -, hlocation, hfile⟩ := exists_of_target h
  have hsame := segments_eq_dropLast_append p
  rw [hsegments, List.dropLast_concat] at hsame
  obtain rfl : last = Path.name p := List.singleton_inj.1 (List.append_cancel_left hsame)
  refine ⟨place, ?_, hlocation, hlast, hfile⟩
  rw [parent, hsegments, List.dropLast_concat, hwalk]

/-- A file is read in the directory `w.parent p`, under the name of the path, or the name leads to
the directory above. -/
theorem parent_of_read {content : ByteArray} (h : w.read p = .ok content) :
    ∃ place location, w.parent p = .ok place ∧ w.resolve p = .ok location ∧
      w.find? location = some (.file content) ∧
      (location = place ++ [Path.name p] ∧ IsProper (Path.name p) ∨
        location = place.dropLast ∧ Path.name p = above) := by
  unfold read at h
  split at h
  · cases h
  · rename_i location hresolve
    split at h
    · cases h
    · cases h
    · rename_i found hfound
      cases h
      have hwalk := hresolve
      rw [resolve, segments_eq_dropLast_append] at hwalk
      obtain ⟨place, hplace, hlast⟩ := exists_walk_of_append hwalk
      have hdirectory := find?_of_walk_cons hlast
      refine ⟨place, location, hplace, hresolve, hfound, ?_⟩
      -- A segment that stays would lead to a directory.
      by_cases hstay : Path.name p = [] ∨ Path.name p = here
      · rw [walk_stay hstay hdirectory] at hlast
        cases hlast
        rw [hdirectory] at hfound
        cases hfound
      · rw [not_or] at hstay
        by_cases habove : Path.name p = above
        · refine Or.inr ⟨?_, habove⟩
          rw [habove, walk, hdirectory] at hlast
          simp only [if_neg (show ¬(above = [] ∨ above = here) by decide), if_true, walk] at hlast
          exact (Except.ok.inj hlast).symm
        · have hproper : IsProper (Path.name p) := ⟨hstay.1, hstay.2, habove⟩
          rw [walk_name hproper hdirectory] at hlast
          exact Or.inl ⟨(Except.ok.inj hlast).symm, hproper⟩

/-! ## While files are written -/

/-- The workspaces `w` and `v` have the same directories, and the same one is the working directory.
-/
structure SameDirectories (w v : Workspace) : Prop where
  /-- The working directory is the same. -/
  directory_eq : w.directory = v.directory
  /-- The directories are at the same places. -/
  find?_iff : ∀ l, w.find? l = some .directory ↔ v.find? l = some .directory

namespace SameDirectories

theorem refl (w : Workspace) : SameDirectories w w := ⟨rfl, fun _ => Iff.rfl⟩

/-- Files that are `put` where no directory is leave the directories. -/
theorem put (h : SameDirectories w v) {location : Location} {content : ByteArray}
    (hfile : w.find? location ≠ some .directory) :
    SameDirectories w (v.put location (.file content)) where
  directory_eq := h.directory_eq
  find?_iff l := by
    have hfile' : v.find? location ≠ some .directory := fun hv => hfile ((h.find?_iff _).2 hv)
    rw [h.find?_iff l]
    constructor
    · exact find?_put_of_directory hfile'
    · intro hdirectory
      by_cases hl : l = location
      · subst hl
        have hne : l ≠ [] := by
          rintro rfl
          exact hfile' (find?_nil v)
        rw [find?_put_self hne] at hdirectory
        cases hdirectory
      · rwa [find?_put_of_ne hl] at hdirectory

/-- The places that are directories are the same in `v` as in `w`. -/
theorem isDirectory_eq (h : SameDirectories w v) (l : Location) :
    Entry.isDirectory (v.find? l) = Entry.isDirectory (w.find? l) := by
  rw [Bool.eq_iff_iff, isDirectory_iff, isDirectory_iff, h.find?_iff]

/-- A path leads to the same directory in `v` as in `w`. -/
theorem leadsTo (h : SameDirectories w v) (hfront : w.LeadsTo front place) :
    v.LeadsTo front place where
  walk_segments := by
    have hstart : v.start (front ++ ['/']) = w.start (front ++ ['/']) := by
      rw [start, start, h.directory_eq]
    rw [hstart]
    exact walk_of_directories (fun l hl => (h.find?_iff l).1 hl) hfront.walk_segments
  find?_place := (h.find?_iff place).1 hfront.find?_place

/-- Behind a path to a directory, last segments are written to where they were: `v.target` agrees
with `w.target`. -/
theorem target_eq (h : SameDirectories w v) (hfront : w.LeadsTo front place) (hslash : '/' ∉ name)
    (hname : name ≠ []) : v.target (front ++ '/' :: name) = w.target (front ++ '/' :: name) := by
  rw [hfront.target_name hslash hname, (h.leadsTo hfront).target_name hslash hname,
    h.isDirectory_eq]

end SameDirectories

/-! ## Several files -/

/-- Puts a `file` with its content at a location. -/
def putFile (w : Workspace) (file : Location × ByteArray) : Workspace := w.put file.1 (.file file.2)

/-- The `files` that are put one after another have their contents, unless two of them are at one
location with different contents; and nothing else is changed. -/
theorem find?_foldl_putFile {files : List (Location × ByteArray)}
    (hne : ∀ file ∈ files, file.1 ≠ [])
    (hcontent : ∀ file ∈ files, ∀ other ∈ files, file.1 = other.1 → file.2 = other.2)
    (w : Workspace) :
    (∀ file ∈ files, (files.foldl putFile w).find? file.1 = some (.file file.2)) ∧
      ∀ l, (∀ file ∈ files, file.1 ≠ l) → (files.foldl putFile w).find? l = w.find? l := by
  induction files generalizing w with
  | nil => simp
  | cons first rest ih =>
      obtain ⟨hwritten, hkept⟩ := ih (fun file hfile => hne file (List.mem_cons_of_mem first hfile))
        (fun file hfile other hother => hcontent file (List.mem_cons_of_mem first hfile) other
          (List.mem_cons_of_mem first hother)) (w.putFile first)
      rw [List.foldl_cons]
      constructor
      · intro file hfile
        by_cases hagain : ∃ other ∈ rest, other.1 = file.1
        · -- What is written there last is the same.
          obtain ⟨other, hother, hplace⟩ := hagain
          rw [← hplace, hwritten other hother,
            hcontent other (List.mem_cons_of_mem first hother) file hfile hplace]
        · have hfirst : file = first := by
            rcases List.mem_cons.1 hfile with rfl | hrest
            · rfl
            · exact absurd ⟨file, hrest, rfl⟩ hagain
          subst hfirst
          rw [hkept file.1 fun other hother hplace => hagain ⟨other, hother, hplace⟩]
          exact find?_put_self (hne file hfile)
      · intro l hl
        rw [hkept l fun file hfile => hl file (List.mem_cons_of_mem first hfile)]
        exact find?_put_of_ne (Ne.symm (hl first List.mem_cons_self))

/-- Of files that are put group by group, all together change what each group changes by itself,
unless two of them are at one location with different contents: an entry at `l` that is not
`w.find? l` comes from one of the `groups`. -/
theorem find?_foldl_flatMap_iff {α : Type} {groups : List α}
    {files : α → List (Location × ByteArray)}
    (hne : ∀ a ∈ groups, ∀ file ∈ files a, file.1 ≠ [])
    (hcontent : ∀ a ∈ groups, ∀ file ∈ files a, ∀ b ∈ groups, ∀ other ∈ files b,
      file.1 = other.1 → file.2 = other.2)
    (w : Workspace) {l : Location} {entry : Option Entry} (hchange : entry ≠ w.find? l) :
    ((groups.flatMap files).foldl putFile w).find? l = entry ↔
      ∃ a ∈ groups, ((files a).foldl putFile w).find? l = entry := by
  obtain ⟨hwritten, hkept⟩ : (∀ file ∈ groups.flatMap files,
      ((groups.flatMap files).foldl putFile w).find? file.1 = some (.file file.2)) ∧
      ∀ l, (∀ file ∈ groups.flatMap files, file.1 ≠ l) →
        ((groups.flatMap files).foldl putFile w).find? l = w.find? l := by
    refine find?_foldl_putFile ?_ ?_ w
    · intro file hfile
      obtain ⟨a, ha, hfile⟩ := List.mem_flatMap.1 hfile
      exact hne a ha file hfile
    · intro file hfile other hother
      obtain ⟨a, ha, hfile⟩ := List.mem_flatMap.1 hfile
      obtain ⟨b, hb, hother⟩ := List.mem_flatMap.1 hother
      exact hcontent a ha file hfile b hb other hother
  have halone : ∀ a ∈ groups,
      (∀ file ∈ files a, ((files a).foldl putFile w).find? file.1 = some (.file file.2)) ∧
      ∀ l, (∀ file ∈ files a, file.1 ≠ l) → ((files a).foldl putFile w).find? l = w.find? l :=
    fun a ha => find?_foldl_putFile (hne a ha)
      (fun file hfile other hother => hcontent a ha file hfile a ha other hother) w
  constructor
  · intro h
    by_cases hl : ∃ a ∈ groups, ∃ file ∈ files a, file.1 = l
    · obtain ⟨a, ha, file, hfile, rfl⟩ := hl
      refine ⟨a, ha, ?_⟩
      rw [(halone a ha).1 file hfile, ← h, hwritten file (List.mem_flatMap.2 ⟨a, ha, hfile⟩)]
    · rw [hkept l ?_] at h
      · exact absurd h.symm hchange
      · intro file hfile heq
        obtain ⟨a, ha, hfile⟩ := List.mem_flatMap.1 hfile
        exact hl ⟨a, ha, file, hfile, heq⟩
  · rintro ⟨a, ha, h⟩
    by_cases hl : ∃ file ∈ files a, file.1 = l
    · obtain ⟨file, hfile, rfl⟩ := hl
      rw [hwritten file (List.mem_flatMap.2 ⟨a, ha, hfile⟩), ← h, (halone a ha).1 file hfile]
    · rw [(halone a ha).2 l fun file hfile heq => hl ⟨file, hfile, heq⟩] at h
      exact absurd h.symm hchange

end Workspace

end SassNesting
