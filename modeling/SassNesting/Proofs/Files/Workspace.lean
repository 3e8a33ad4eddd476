import SassNesting.Files.Workspace
import SassNesting.Proofs.Files.Path

/-! # Reading and writing in a workspace

Writing puts a file at one location, and never where a directory is. Paths are followed through
directories only, so whatever path could be followed before can be followed afterwards, to the same
location; and the path that was written to leads to the file that was put there
(`read_of_write`). -/

namespace SassNesting

namespace Workspace

open SassNesting.Path

/-! ## Entries -/

variable {w : Workspace} {location place : Location} {entry : Entry}

@[simp] theorem find?_nil (w : Workspace) : w.find? [] = some .directory := if_pos rfl

/-- At the location of an entry that is `put` there is the entry. -/
theorem find?_put_self (h : location ≠ []) :
    (w.put location entry).find? location = some entry := by
  rw [find?, if_neg h, put, List.lookup_cons_self]

/-- Away from the location of an entry that is `put` nothing changes. -/
theorem find?_put_of_ne (h : place ≠ location) :
    (w.put location entry).find? place = w.find? place := by
  have hkept : (w.entries.filter (·.1 ≠ location)).lookup place = w.entries.lookup place := by
    induction w.entries with
    | nil => rfl
    | cons pair entries ih =>
        obtain ⟨key, found⟩ := pair
        by_cases hkey : key = location
        · have hne : (place == key) = false := beq_eq_false_iff_ne.2 (hkey ▸ h)
          rw [List.filter_cons_of_neg (by simpa using hkey), ih, List.lookup_cons, hne]
        · rw [List.filter_cons_of_pos (by simpa using hkey), List.lookup_cons, List.lookup_cons, ih]
  have hne : (place == location) = false := beq_eq_false_iff_ne.2 h
  rw [find?, find?, put, List.lookup_cons, hne, hkept]

/-! ## Following paths -/

/-- To `walk` along `front ++ back` is to follow `front` and then, from where it leads to, `back`.
-/
theorem walk_append (w : Workspace) (location : Location) (front back : List Text) :
    w.walk location (front ++ back) = w.walk location front >>= fun place => w.walk place back := by
  fun_induction w.walk location front with
  | case1 => rfl
  | case2 location segment rest hnone => rw [List.cons_append, walk, hnone]; rfl
  | case3 location segment rest content hfile => rw [List.cons_append, walk, hfile]; rfl
  | case4 location segment rest hdirectory hstay ih =>
      rw [List.cons_append, walk, hdirectory]
      simpa only [if_pos hstay] using ih
  | case5 location rest hdirectory hstay ih =>
      rw [List.cons_append, walk, hdirectory]
      simpa only [if_neg hstay, if_true] using ih
  | case6 location segment rest hdirectory hstay habove ih =>
      rw [List.cons_append, walk, hdirectory]
      simpa only [if_neg hstay, if_neg habove] using ih

/-- Where `front` leads to, `back` is followed. -/
theorem walk_append_of_ok {front : List Text} (h : w.walk location front = .ok place)
    (back : List Text) : w.walk location (front ++ back) = w.walk place back := by
  rw [walk_append, h]
  rfl

/-- Segments `front ++ back` that lead somewhere do so through the place to which `front` leads. -/
theorem exists_walk_of_append {front back : List Text}
    (h : w.walk location (front ++ back) = .ok place) :
    ∃ middle, w.walk location front = .ok middle ∧ w.walk middle back = .ok place := by
  rw [walk_append] at h
  cases hfront : w.walk location front with
  | error e =>
      rw [hfront] at h
      cases h
  | ok middle =>
      rw [hfront] at h
      exact ⟨middle, rfl, h⟩

/-- Segments are followed from directories only. -/
theorem find?_of_walk_cons {segment : Text} {rest : List Text}
    (h : w.walk location (segment :: rest) = .ok place) : w.find? location = some .directory := by
  rw [walk] at h
  split at h
  · cases h
  · cases h
  · assumption

/-- A segment that stays where it is, `[]` or `here`, leads to the directory from which it is
followed. -/
theorem walk_stay {segment : Text} (hsegment : segment = [] ∨ segment = here)
    (h : w.find? location = some .directory) : w.walk location [segment] = .ok location := by
  rw [walk, h]
  simp only [if_pos hsegment]
  rw [walk]

/-- A segment with `IsProper` leads to what has the name in the directory from which it is followed.
-/
theorem walk_name {segment : Text} (hsegment : IsProper segment)
    (h : w.find? location = some .directory) :
    w.walk location [segment] = .ok (location ++ [segment]) := by
  rw [walk, h]
  simp only [if_neg (not_or.2 ⟨hsegment.ne_nil, hsegment.ne_here⟩), if_neg hsegment.ne_above]
  rw [walk]

/-- Where `v` keeps all directories of `w`, the segments that lead somewhere lead there as before.
-/
theorem walk_of_directories {v : Workspace}
    (h : ∀ l, w.find? l = some .directory → v.find? l = some .directory) {segments : List Text}
    (hwalk : w.walk location segments = .ok place) : v.walk location segments = .ok place := by
  fun_induction w.walk location segments with
  | case1 => rw [walk, hwalk]
  | case2 => cases hwalk
  | case3 => cases hwalk
  | case4 location segment rest hdirectory hstay ih =>
      rw [walk, h location hdirectory]
      simpa only [if_pos hstay] using ih hwalk
  | case5 location rest hdirectory hstay ih =>
      rw [walk, h location hdirectory]
      simpa only [if_neg hstay, if_true] using ih hwalk
  | case6 location segment rest hdirectory hstay habove ih =>
      rw [walk, h location hdirectory]
      simpa only [if_neg hstay, if_neg habove] using ih hwalk

/-- An entry that is `put` where no directory is leaves all directories. -/
theorem find?_put_of_directory (hplace : w.find? location ≠ some .directory) {l : Location}
    (h : w.find? l = some .directory) : (w.put location entry).find? l = some .directory := by
  rw [find?_put_of_ne, h]
  rintro rfl
  exact hplace h

/-! ## Places to write to -/

variable {p : Path} {front : List Text} {last : Text}

/-- Where a path is written to if its last segment `last` follows a directory at `place`: there,
unless `last` stays, leads up, or is the name of a directory. -/
theorem target_eq (hsegments : p.segments = front ++ [last]) (hlast : last ≠ [])
    (hwalk : w.walk (w.start p) front = .ok place) (hplace : w.find? place = some .directory) :
    w.target p =
      if last = here ∨ last = above then .error .isDirectory
      else if Entry.isDirectory (w.find? (place ++ [last])) then .error .isDirectory
      else .ok (place ++ [last]) := by
  have hnamed : (p.segments.reverse.dropWhile (· = [])).reverse = p.segments := by
    rw [hsegments, List.reverse_append, List.reverse_singleton, List.singleton_append,
      List.dropWhile_cons_of_neg (by simpa using hlast)]
    simp
  have hfollow : w.walk (w.start p) (front ++ [here]) = .ok place := by
    rw [walk_append_of_ok hwalk, walk_stay (Or.inr rfl) hplace]
  simp only [target, hnamed]
  simp only [hsegments, List.dropLast_concat, List.getLast?_concat, hfollow, ne_eq,
    not_true_eq_false, or_false]

/-- A path that can be written to ends with the name of something that is not a directory, in a
directory that is there. -/
theorem exists_of_target (h : w.target p = .ok location) :
    ∃ front last place, p.segments = front ++ [last] ∧ IsProper last ∧
      w.walk (w.start p) front = .ok place ∧ w.find? place = some .directory ∧
      location = place ++ [last] ∧ w.find? location ≠ some .directory := by
  unfold target at h
  dsimp only at h
  split at h
  · cases h
  · cases h
  · rename_i place last hfollow hlast
    split at h
    · cases h
    · rename_i hsegment
      simp only [not_or, ne_eq, Decidable.not_not] at hsegment
      obtain ⟨hhere, habove, hnamed⟩ := hsegment
      split at h
      · cases h
      · rename_i hdirectory
        cases h
        rw [hnamed] at hfollow
        obtain ⟨front, hfront⟩ := List.getLast?_eq_some_iff.1 hlast
        -- What is left without empty segments at the end does not end with one.
        have hne : last ≠ [] := by
          have hhead := List.head?_dropWhile_not (fun s => decide (s = [])) p.segments.reverse
          rw [List.getLast?_reverse] at hlast
          rw [hlast] at hhead
          simpa using hhead
        rw [hnamed] at hfront
        rw [hfront, List.dropLast_concat] at hfollow
        obtain ⟨middle, hmiddle, hstay⟩ := exists_walk_of_append hfollow
        have hplace := find?_of_walk_cons hstay
        rw [walk_stay (Or.inr rfl) hplace] at hstay
        cases hstay
        refine ⟨front, last, place, hfront, ⟨hne, hhere, habove⟩, hmiddle, hplace, rfl, ?_⟩
        intro hfound
        rw [hfound] at hdirectory
        exact hdirectory rfl

/-- What `w.write p content` writes is put at the place `w.target p`. -/
theorem exists_of_write {v : Workspace} {content : ByteArray} (h : w.write p content = .ok v) :
    ∃ place, w.target p = .ok place ∧ v = w.put place (.file content) := by
  unfold write at h
  split at h
  · cases h
  · rename_i place htarget
    cases h
    exact ⟨place, htarget, rfl⟩

/-- A file that is written can be read, and nothing else is changed: `v.read p = .ok content`, and
`v.find?` agrees with `w.find?` elsewhere. -/
theorem read_of_write {v : Workspace} {content : ByteArray} (h : w.write p content = .ok v) :
    v.read p = .ok content ∧ ∃ place, v.resolve p = .ok place ∧
      ∀ l, l ≠ place → v.find? l = w.find? l := by
  obtain ⟨location, htarget, rfl⟩ := exists_of_write h
  obtain ⟨front, last, place, hsegments, hlast, hwalk, hplace, rfl, hfile⟩ :=
    exists_of_target htarget
  have hkept : ∀ l, w.find? l = some .directory →
      (w.put (place ++ [last]) (.file content)).find? l = some .directory :=
    fun l hl => find?_put_of_directory hfile hl
  have hresolve : (w.put (place ++ [last]) (.file content)).resolve p = .ok (place ++ [last]) := by
    rw [resolve, hsegments]
    have hfollow := walk_of_directories hkept hwalk
    exact (walk_append_of_ok hfollow [last]).trans (walk_name hlast (hkept place hplace))
  refine ⟨?_, place ++ [last], hresolve, fun l hl => find?_put_of_ne hl⟩
  rw [read, hresolve]
  simp only [find?_put_self (List.append_ne_nil_of_right_ne_nil place (List.cons_ne_nil last []))]

end Workspace

end SassNesting
