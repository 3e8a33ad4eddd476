import SassNesting.Files.Path

/-! # Paths taken apart

A slash parts the segments of a path, so the path of a name in a directory has the segments of the
directory and then the name. A name with an extension is a stem, a dot and the extension, and is
never one of the segments that lead nowhere or up; to replace the extension of the path replaces its
last segment. -/

namespace SassNesting

namespace Path

/-! ## Segments -/

/-- A slash parts the segments before it from the segments after it: `segments p ++ segments q`. -/
theorem segments_append_cons (p q : Path) : segments (p ++ '/' :: q) = segments p ++ segments q :=
  List.splitOn_append_cons_self p q

/-- A text without a slash is its only segment: `segments name = [name]`. -/
theorem segments_of_notMem {name : Text} (h : '/' ∉ name) : segments name = [name] :=
  List.splitOn_eq_singleton h

/-- Behind a slash, a text `name` without a slash is the last segment. -/
theorem segments_append_name (front : Path) {name : Text} (h : '/' ∉ name) :
    segments (front ++ '/' :: name) = segments front ++ [name] := by
  rw [segments_append_cons, segments_of_notMem h]

/-- A text without the character `c` has none from its end either. -/
theorem ne_of_mem_reverse {c : Char} {t : Text} (h : c ∉ t) :
    ∀ d ∈ t.reverse, decide (d ≠ c) = true := by
  intro d hd
  rw [decide_eq_true_eq]
  rintro rfl
  exact h (List.mem_reverse.1 hd)

/-- Behind a slash, a text `name` without a slash is the name at the end of the path, and
`front ++ ['/']` is what comes up to it. -/
theorem name_append_name (front : Path) {name : Text} (h : '/' ∉ name) :
    Path.name (front ++ '/' :: name) = name ∧ upToName (front ++ '/' :: name) = front ++ ['/'] := by
  have hchars := ne_of_mem_reverse h
  have hreverse : (front ++ '/' :: name).reverse = name.reverse ++ '/' :: front.reverse := by simp
  rw [Path.name, upToName, hreverse, List.takeWhile_append_of_pos hchars,
    List.dropWhile_append_of_pos hchars, List.takeWhile_cons_of_neg (by decide),
    List.dropWhile_cons_of_neg (by decide)]
  simp

/-- A path is what comes up to its name, and then its name: `upToName p ++ Path.name p = p`. -/
theorem upToName_append_name (p : Path) : upToName p ++ Path.name p = p := by
  rw [upToName, Path.name, ← List.reverse_append, List.takeWhile_append_dropWhile,
    List.reverse_reverse]

/-- The name at the end of a path, `Path.name p`, has no slash. -/
theorem slash_notMem_name (p : Path) : '/' ∉ Path.name p := by
  intro h
  have hall : (p.reverse.takeWhile (· ≠ '/')).all (· ≠ '/') = true := List.all_takeWhile
  simpa using List.all_eq_true.1 hall '/' (List.mem_reverse.1 h)

/-- What comes up to the name of a path, `upToName p`, is nothing, or ends with a slash. -/
theorem upToName_cases (p : Path) : upToName p = [] ∨ ∃ front, upToName p = front ++ ['/'] := by
  have hhead := List.head?_dropWhile_not (fun c => decide (c ≠ '/')) p.reverse
  rw [upToName]
  cases hdrop : p.reverse.dropWhile (· ≠ '/') with
  | nil => exact Or.inl rfl
  | cons c rest =>
      rw [hdrop] at hhead
      have hc : c = '/' := by simpa using hhead
      exact Or.inr ⟨rest.reverse, by rw [hc, List.reverse_cons]⟩

/-- Whatever `other` is put in the place of the name of a path, it is the last segment, and the
segments in front of it stay. -/
theorem exists_segments_eq (p : Path) :
    ∃ front, ∀ other, '/' ∉ other → segments (upToName p ++ other) = front ++ [other] := by
  rcases upToName_cases p with hnil | ⟨front, hfront⟩
  · refine ⟨[], fun other hother => ?_⟩
    rw [hnil, List.nil_append, segments_of_notMem hother, List.nil_append]
  · refine ⟨segments front, fun other hother => ?_⟩
    rw [hfront, ← List.append_cons, segments_append_name front hother]

/-- The name that is put in the place of the name of a path is the name of the new path:
`Path.name (upToName p ++ other) = other`. -/
theorem name_upToName_append (p : Path) {other : Text} (hother : '/' ∉ other) :
    Path.name (upToName p ++ other) = other := by
  rcases upToName_cases p with hnil | ⟨front, hfront⟩
  · have htake : (other.reverse ++ []).takeWhile (· ≠ '/') = other.reverse ++ [] :=
      List.takeWhile_append_of_pos (ne_of_mem_reverse hother)
    rw [List.append_nil] at htake
    rw [hnil, List.nil_append, Path.name, htake, List.reverse_reverse]
  · rw [hfront, ← List.append_cons, (name_append_name front hother).1]

/-- The path `join directory name` is a `front`, a slash and the name; the front is the directory,
up to a slash at its end. -/
theorem exists_join_eq (directory : Path) :
    ∃ front, (directory = front ∨ directory = front ++ ['/']) ∧
      ∀ name, join directory name = front ++ '/' :: name := by
  by_cases hslash : directory.getLast? = some '/'
  · obtain ⟨front, rfl⟩ := List.getLast?_eq_some_iff.1 hslash
    exact ⟨front, Or.inr rfl, fun name => by rw [join, if_pos hslash, ← List.append_cons]⟩
  · exact ⟨directory, Or.inl rfl, fun name => by rw [join, if_neg hslash]⟩

/-! ## Extensions -/

/-- A `name` with an extension is a stem, a dot and the extension. -/
theorem exists_stem_of_extension? {name extension : Text} (h : extension? name = some extension) :
    ∃ stem, stem ≠ [] ∧ name = stem ++ '.' :: extension ∧
      splitExtension name = (stem, some extension) := by
  have hcut : name.reverse.takeWhile (· ≠ '.') ++ name.reverse.dropWhile (· ≠ '.') =
      name.reverse := List.takeWhile_append_dropWhile
  unfold extension? splitExtension at h
  unfold splitExtension
  split at h
  · rename_i dot stem hdrop
    split at h
    · cases h
    · rename_i hstem
      rw [not_or] at hstem
      cases h
      have hdot : dot = '.' := by
        have hhead := List.head?_dropWhile_not (fun c => decide (c ≠ '.')) name.reverse
        rw [hdrop] at hhead
        simpa using hhead
      refine ⟨stem.reverse, by simpa using hstem.1, ?_, ?_⟩
      · rw [hdrop, hdot] at hcut
        calc name = name.reverse.reverse := name.reverse_reverse.symm
          _ = (name.reverse.takeWhile (· ≠ '.') ++ '.' :: stem).reverse := by rw [hcut]
          _ = _ := by simp
      · exact if_neg (not_or.2 hstem)
  · cases h

/-- A `segment` that leads to something in a directory, by its name. -/
structure IsProper (segment : Text) : Prop where
  /-- The segment is not empty. -/
  ne_nil : segment ≠ []
  /-- The segment is not that of the directory itself. -/
  ne_here : segment ≠ here
  /-- The segment is not that of the directory above. -/
  ne_above : segment ≠ above

/-- A path with a `name` behind a slash does not stand for the standard input. -/
theorem isStandardInput_append_name (front : Path) {name : Text} (hslash : '/' ∉ name)
    (hname : IsProper name) : isStandardInput (front ++ '/' :: name) = false := by
  rw [isStandardInput, segments_append_name front hslash]
  cases hfront : segments front with
  | nil => exact absurd hfront (List.splitOn_ne_nil '/' front)
  | cons first rest => simp [hname.ne_nil, hname.ne_here]

/-- A stem, a dot and an extension, `stem ++ '.' :: extension`, make up the name of something in a
directory. -/
theorem isProper_of_stem {stem extension : Text} (hstem : stem ≠ []) (hextension : extension ≠ []) :
    IsProper (stem ++ '.' :: extension) := by
  obtain ⟨c, stem, rfl⟩ := List.exists_cons_of_ne_nil hstem
  obtain ⟨d, extension, rfl⟩ := List.exists_cons_of_ne_nil hextension
  constructor
  · simp
  · simp [here]
  · -- Two dots are not enough for a stem, a dot and an extension.
    intro h
    have hlength := congrArg List.length h
    simp [above] at hlength
    omega

/-- A `name` with an extension is the name of something in a directory. -/
theorem isProper_of_extension? {name extension : Text} (h : extension? name = some extension)
    (hextension : extension ≠ []) : IsProper name := by
  obtain ⟨stem, hstem, hname, -⟩ := exists_stem_of_extension? h
  rw [hname]
  exact isProper_of_stem hstem hextension

/-- The cases of `splitExtension name`: a name has a stem and an extension, or it is its own stem
and has no extension. -/
theorem splitExtension_cases (name : Text) :
    splitExtension name = (name, none) ∨
      ∃ stem extension, stem ≠ [] ∧ name = stem ++ '.' :: extension ∧
        splitExtension name = (stem, some extension) := by
  cases hextension : extension? name with
  | some extension =>
      obtain ⟨stem, h⟩ := exists_stem_of_extension? hextension
      exact Or.inr ⟨stem, extension, h⟩
  | none =>
      left
      unfold extension? splitExtension at hextension
      unfold splitExtension
      split
      · rename_i hdrop
        rw [hdrop] at hextension
        split
        · rfl
        · rename_i hstem
          simp [hstem] at hextension
      · rfl

/-- A stem, a dot and an extension without a dot are a name that `splitExtension` takes apart into
this stem and this extension. -/
theorem splitExtension_append {stem extension : Text} (hstem : stem ≠ [])
    (hextension : extension ≠ []) (hdot : '.' ∉ extension) :
    splitExtension (stem ++ '.' :: extension) = (stem, some extension) := by
  have hchars := ne_of_mem_reverse hdot
  have hreverse : (stem ++ '.' :: extension).reverse =
      extension.reverse ++ '.' :: stem.reverse := by
    simp
  have habove : stem ++ '.' :: extension ≠ above := (isProper_of_stem hstem hextension).ne_above
  simp only [splitExtension, hreverse, List.takeWhile_append_of_pos hchars,
    List.dropWhile_append_of_pos hchars]
  simp [hstem, habove]

/-- The name that is put in the place of `name` to give it another extension. -/
def renamed (name extension : Text) : Text :=
  match splitExtension name with
  | (['.'], some _) => above
  | (stem, _) => stem ++ '.' :: extension

/-- To replace the extension of a path is to replace its name: by `renamed (Path.name p) extension`.
-/
theorem withExtension_eq (p : Path) (extension : Text) :
    withExtension p extension = upToName p ++ renamed (Path.name p) extension := by
  unfold withExtension renamed
  generalize splitExtension (Path.name p) = parts
  split <;> simp_all

/-- The name `renamed name other` has the stem of `name`, but a dot as stem makes it lead to the
directory above. -/
theorem renamed_of_splitExtension {name stem extension other : Text}
    (h : splitExtension name = (stem, some extension)) :
    renamed name other = if stem = here then above else stem ++ '.' :: other := by
  rw [renamed, h]
  by_cases hhere : stem = here
  · rw [if_pos hhere, hhere]
    rfl
  · rw [if_neg hhere]
    split
    · rename_i heq
      cases heq
      exact absurd rfl hhere
    · rename_i heq
      cases heq
      rfl

/-- The name `renamed name other` leads to the directory above, or it is a stem, a dot and `other`.
-/
theorem renamed_cases {name : Text} (hname : name ≠ []) (other : Text) :
    renamed name other = above ∨ ∃ stem, stem ≠ [] ∧ renamed name other = stem ++ '.' :: other := by
  rcases splitExtension_cases name with h | ⟨stem, extension, hstem, -, h⟩
  · refine Or.inr ⟨name, hname, ?_⟩
    rw [renamed, h]
    split
    · rename_i heq
      cases heq
    · rename_i heq
      cases heq
      rfl
  · rw [renamed_of_splitExtension h]
    by_cases hhere : stem = here
    · exact Or.inl (if_pos hhere)
    · exact Or.inr ⟨stem, hstem, if_neg hhere⟩

/-- The name `renamed name other` has no slash if `name` and `other` have none. -/
theorem slash_notMem_renamed {name other : Text} (hname : '/' ∉ name) (hother : '/' ∉ other) :
    '/' ∉ renamed name other := by
  rcases splitExtension_cases name with h | ⟨stem, extension, -, hstem, h⟩
  · rw [renamed, h]
    split
    · decide
    · rename_i heq
      cases heq
      simp [hname, hother]
  · rw [renamed_of_splitExtension h]
    split
    · decide
    · rw [hstem] at hname
      simp_all

/-- Names with the same extension are still different with another one: `renamed` is injective on
them. -/
theorem renamed_inj {name name' extension other : Text} (hother : other ≠ [])
    (h : extension? name = some extension) (h' : extension? name' = some extension)
    (heq : renamed name other = renamed name' other) : name = name' := by
  obtain ⟨stem, hstem, hname, hsplit⟩ := exists_stem_of_extension? h
  obtain ⟨stem', hstem', hname', hsplit'⟩ := exists_stem_of_extension? h'
  rw [renamed_of_splitExtension hsplit, renamed_of_splitExtension hsplit'] at heq
  suffices hsame : stem = stem' by rw [hname, hname', hsame]
  split at heq
  · rename_i hhere
    split at heq
    · rename_i hhere'
      rw [hhere, hhere']
    · exact absurd heq.symm (isProper_of_stem hstem' hother).ne_above
  · split at heq
    · exact absurd heq (isProper_of_stem hstem hother).ne_above
    · exact List.append_cancel_right heq

/-- To replace the extension of `front ++ '/' :: name` is to replace its last segment. The new one
has the stem of the old one, but a dot as stem makes it lead to the directory above. -/
theorem withExtension_append_name {front : Path} {name stem extension other : Text}
    (hslash : '/' ∉ name) (h : splitExtension name = (stem, some extension)) :
    withExtension (front ++ '/' :: name) other =
      front ++ '/' :: if stem = here then above else stem ++ '.' :: other := by
  obtain ⟨hname, hupTo⟩ := name_append_name front hslash
  rw [withExtension_eq, hname, hupTo, renamed_of_splitExtension h, ← List.append_cons]

end Path

end SassNesting
