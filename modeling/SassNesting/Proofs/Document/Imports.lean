import Mathlib.Data.List.Count
import SassNesting.Proofs.Document.Concatenation

/-! # The targets of imports

The value of an import that names a stylesheet file has a fixed form: an optional `url(`, an
optional quote, a path, the ending `.css`, an optional quote and an optional parenthesis. The path
has none of the characters that may stand around it, so a value has this form in one way at most,
and this path is what is kept of the value (`importTarget?_eq_some_iff`). Quotes and parentheses
need not match, and of several endings only the last one is cut off. Every other value is kept as it
is (`parse_directive`). -/

namespace SassNesting

namespace Directive

/-! ## Marks that may be missing -/

/-- The texts that `mark` and `other` make up, each of which is there or not. -/
theorem mem_optional_append_iff {mark other t : Text} :
    t ∈ [mark ++ other, mark, other, []] ↔ ∃ first last, (first = [] ∨ first = mark) ∧
      (last = [] ∨ last = other) ∧ t = first ++ last := by
  simp only [List.mem_cons, List.not_mem_nil, or_false]
  constructor
  · rintro (rfl | rfl | rfl | rfl)
    · exact ⟨mark, other, .inr rfl, .inr rfl, rfl⟩
    · exact ⟨t, [], .inr rfl, .inl rfl, (List.append_nil t).symm⟩
    · exact ⟨[], t, .inl rfl, .inr rfl, rfl⟩
    · exact ⟨[], [], .inl rfl, .inl rfl, rfl⟩
  · rintro ⟨first, last, rfl | rfl, rfl | rfl, rfl⟩ <;> simp

/-- Of `mark` and `other`, each of which is there or not, the text they make up tells which are
there. -/
theorem optional_append_inj {mark other first first' last last' : Text} (hmark : mark ≠ [])
    (hne : other ≠ mark) (hfirst : first = [] ∨ first = mark)
    (hfirst' : first' = [] ∨ first' = mark)
    (hlast : last = [] ∨ last = other) (hlast' : last' = [] ∨ last' = other)
    (h : first ++ last = first' ++ last') : first = first' ∧ last = last' := by
  -- The second mark alone never begins with the first one.
  have hno : ∀ {last last' : Text}, last = [] ∨ last = other → last' = [] ∨ last' = other →
      last ≠ mark ++ last' := by
    rintro _ _ (rfl | rfl) (rfl | rfl) heq
    · exact hmark (List.append_eq_nil_iff.1 heq.symm).1
    · exact hmark (List.append_eq_nil_iff.1 heq.symm).1
    · exact hne (heq.trans (List.append_nil mark))
    · exact hmark (List.self_eq_append_left.1 heq)
  rcases hfirst with rfl | rfl <;> rcases hfirst' with rfl | rfl
  · exact ⟨rfl, h⟩
  · exact absurd h (hno hlast hlast')
  · exact absurd h.symm (hno hlast' hlast)
  · exact ⟨rfl, List.append_cancel_left h⟩

/-! ## The form of an import -/

/-- The parts of the `value` of an import that names a stylesheet file. -/
@[ext] structure ImportParts (value : Text) where
  /-- The opening of a reference, or nothing. -/
  opening : Text
  /-- The quote before the path, or nothing. -/
  quoteBefore : Text
  /-- The path, without the ending. -/
  path : Text
  /-- The quote after the ending, or nothing. -/
  quoteAfter : Text
  /-- The closing parenthesis of a reference, or nothing. -/
  closing : Text
  /-- There is one way to open a reference. -/
  opening_cases : opening = [] ∨ opening = "url(".toList
  /-- There is one kind of quote. -/
  quoteBefore_cases : quoteBefore = [] ∨ quoteBefore = ['"']
  /-- The path names something. -/
  path_ne_nil : path ≠ []
  /-- The path has no blanks, parentheses and quotes. -/
  path_chars : ∀ c ∈ path, Text.isBlank c = false ∧ c ≠ '(' ∧ c ≠ ')' ∧ c ≠ '"'
  /-- The quote after the ending is of the same kind. -/
  quoteAfter_cases : quoteAfter = [] ∨ quoteAfter = ['"']
  /-- There is one way to close a reference. -/
  closing_cases : closing = [] ∨ closing = [')']
  /-- The parts and the ending of the path make up the value. -/
  value_eq : value = opening ++ quoteBefore ++ path ++ ".css".toList ++ quoteAfter ++ closing

/-- The texts in `pathOpenings` are `url(`, or nothing, and then a quote, or nothing. -/
theorem mem_pathOpenings_iff {t : Text} :
    t ∈ pathOpenings ↔ ∃ opening quote, (opening = [] ∨ opening = "url(".toList) ∧
      (quote = [] ∨ quote = ['"']) ∧ t = opening ++ quote := by
  have hall : pathOpenings = ["url(".toList ++ ['"'], "url(".toList, ['"'], []] := by decide
  rw [hall]
  exact mem_optional_append_iff

/-- The texts in `pathClosings` are a quote, or nothing, and then a parenthesis, or nothing. -/
theorem mem_pathClosings_iff {t : Text} :
    t ∈ pathClosings ↔ ∃ quote closing, (quote = [] ∨ quote = ['"']) ∧
      (closing = [] ∨ closing = [')']) ∧ t = quote ++ closing := by
  have hall : pathClosings = [['"'] ++ [')'], ['"'], [')'], []] := by decide
  rw [hall]
  exact mem_optional_append_iff

/-- No character of a text in `pathClosings` prolongs the path. -/
theorem isPathChar_eq_false_of_mem {t : Text} (ht : t ∈ pathClosings) {c : Char} (hc : c ∈ t) :
    isPathChar c = false := by
  have hall : pathClosings.all (·.all fun c => !isPathChar c) = true := by decide
  have hnot := List.all_eq_true.1 (List.all_eq_true.1 hall t ht) c hc
  simpa using hnot

/-- The characters with `isPathChar` are those that have no part in the form around the path. -/
theorem isPathChar_iff {c : Char} :
    isPathChar c = true ↔ Text.isBlank c = false ∧ c ≠ '(' ∧ c ≠ ')' ∧ c ≠ '"' := by
  simp [isPathChar, and_assoc]

/-! ## What comes before the path -/

/-- An `opening` in front of a path, unless it is nothing, shows within four characters. -/
theorem ne_opening_append {opening rest : Text} (hopening : opening ∈ pathOpenings)
    (hne : opening ≠ []) (hrest : ∀ c ∈ rest.take 4, isPathChar c = true) (more : Text) :
    opening ++ more ≠ rest := by
  rintro rfl
  simp only [pathOpenings, List.mem_cons, List.not_mem_nil, or_false] at hopening
  rcases hopening with rfl | rfl | rfl | rfl
  · exact absurd (hrest '(' (by simp)) (by decide)
  · exact absurd (hrest '(' (by simp)) (by decide)
  · exact absurd (hrest '"' (by simp)) (by decide)
  · exact hne rfl

/-- An `opening` in front of a path, if there is one, is taken off as a whole: `dropOpening` leaves
`rest`. -/
theorem dropOpening_append {opening rest : Text} (hopening : opening ∈ pathOpenings)
    (hrest : ∀ c ∈ rest.take 4, isPathChar c = true) : dropOpening (opening ++ rest) = rest := by
  have hnone : ∀ other ∈ pathOpenings, other ≠ [] → other.isPrefixOf? rest = none := by
    intro other hother hne
    rw [Option.eq_none_iff_forall_ne_some]
    intro more hmore
    exact ne_opening_append hother hne hrest more (List.append_eq_of_isPrefixOf?_eq_some hmore)
  have hquoted : List.isPrefixOf? ['u', 'r', 'l', '(', '"'] rest = none :=
    hnone _ (by decide) (by decide)
  have hbare : List.isPrefixOf? ['u', 'r', 'l', '('] rest = none :=
    hnone _ (by decide) (by decide)
  have hquote : List.isPrefixOf? ['"'] rest = none := hnone _ (by decide) (by decide)
  simp only [pathOpenings, List.mem_cons, List.not_mem_nil, or_false] at hopening
  -- The longer ones are tried first; where one of them fits by chance, a quote would start
  -- the path.
  rcases hopening with rfl | rfl | rfl | rfl
  · simp [dropOpening, pathOpenings, List.isPrefixOf?]
  · simp [dropOpening, pathOpenings, List.isPrefixOf?, hquote]
  · simp [dropOpening, pathOpenings, List.isPrefixOf?]
  · simp [dropOpening, pathOpenings, List.isPrefixOf?, hquoted, hbare, hquote]

/-- What `dropOpening` takes off the start of a value is in `pathOpenings`. -/
theorem exists_opening (value : Text) :
    ∃ opening ∈ pathOpenings, value = opening ++ dropOpening value := by
  rw [dropOpening]
  cases hfound : pathOpenings.findSome? fun opening => opening.isPrefixOf? value with
  | none =>
      have hnil := List.findSome?_eq_none_iff.1 hfound [] (by decide)
      rw [List.isPrefixOf?] at hnil
      cases hnil
  | some rest =>
      obtain ⟨opening, hopening, hrest⟩ := List.exists_of_findSome?_eq_some hfound
      exact ⟨opening, hopening, (List.append_eq_of_isPrefixOf?_eq_some hrest).symm⟩

/-! ## The path -/

namespace ImportParts

variable {value : Text}

/-- The path and its ending are characters with `isPathChar`. -/
theorem isPathChar_run (p : ImportParts value) :
    ∀ c ∈ p.path ++ pathEnding, isPathChar c = true := by
  intro c hc
  rcases List.mem_append.1 hc with hc | hc
  · exact isPathChar_iff.2 (p.path_chars c hc)
  · have hending : pathEnding.all isPathChar = true := by decide
    exact List.all_eq_true.1 hending c hc

/-- What comes before the path, `p.opening ++ p.quoteBefore`, is in `pathOpenings`. -/
theorem opening_mem (p : ImportParts value) : p.opening ++ p.quoteBefore ∈ pathOpenings :=
  mem_pathOpenings_iff.2 ⟨_, _, p.opening_cases, p.quoteBefore_cases, rfl⟩

/-- What comes after the ending, `p.quoteAfter ++ p.closing`, is in `pathClosings`. -/
theorem closing_mem (p : ImportParts value) : p.quoteAfter ++ p.closing ∈ pathClosings :=
  mem_pathClosings_iff.2 ⟨_, _, p.quoteAfter_cases, p.closing_cases, rfl⟩

/-- A value is an opening, the path with its ending, and a closing. -/
theorem value_eq_append (p : ImportParts value) :
    value = (p.opening ++ p.quoteBefore) ++
      ((p.path ++ pathEnding) ++ (p.quoteAfter ++ p.closing)) := by
  conv_lhs => rw [p.value_eq]
  simp only [pathEnding, List.append_assoc]

/-- What comes before the path is taken off the value by `dropOpening`. -/
theorem dropOpening_eq (p : ImportParts value) :
    dropOpening value = (p.path ++ pathEnding) ++ (p.quoteAfter ++ p.closing) := by
  have hfour : 4 ≤ (p.path ++ pathEnding).length := by
    rw [List.length_append]
    exact Nat.le_add_left 4 p.path.length
  conv_lhs => rw [p.value_eq_append]
  apply dropOpening_append p.opening_mem
  intro c hc
  rw [List.take_append_of_le_length hfour] at hc
  exact p.isPathChar_run c (List.mem_of_mem_take hc)

/-- The path with its ending goes as far as characters of a path do: it is a run for `isPathChar`.
-/
theorem isRun (p : ImportParts value) :
    IsRun isPathChar (p.path ++ pathEnding) (p.quoteAfter ++ p.closing) := by
  refine ⟨?_, p.isPathChar_run, ?_⟩
  · intro hnil
    exact p.path_ne_nil (List.append_eq_nil_iff.1 hnil).1
  · intro c hc
    exact isPathChar_eq_false_of_mem p.closing_mem (List.mem_of_mem_head? hc)

/-- The path is what is kept of the value: `importTarget? value = some p.path`. -/
theorem importTarget?_eq (p : ImportParts value) : importTarget? value = some p.path := by
  have hsuffix : pathEnding.isSuffixOf? (p.path ++ pathEnding) = some p.path :=
    List.isSuffixOf?_eq_some_iff_append_eq.2 rfl
  rw [importTarget?, p.dropOpening_eq, p.isRun.dropWhile_eq, p.isRun.takeWhile_eq,
    if_pos p.closing_mem, hsuffix, Option.filter_some, if_pos (by simpa using p.path_ne_nil)]

/-- A value has the form of an import in one way at most: `p = q`. -/
theorem unique (p q : ImportParts value) : p = q := by
  have hnamed := p.dropOpening_eq.symm.trans q.dropOpening_eq
  -- The path with its ending is the run of path characters behind the opening.
  have hrun := congrArg (List.takeWhile isPathChar) hnamed
  rw [p.isRun.takeWhile_eq, q.isRun.takeWhile_eq] at hrun
  have hafter := congrArg (List.dropWhile isPathChar) hnamed
  rw [p.isRun.dropWhile_eq, q.isRun.dropWhile_eq] at hafter
  have hbefore : p.opening ++ p.quoteBefore = q.opening ++ q.quoteBefore := by
    have hvalue := p.value_eq_append.symm.trans q.value_eq_append
    rw [hnamed] at hvalue
    exact List.append_cancel_right hvalue
  obtain ⟨hopening, hquoteBefore⟩ := optional_append_inj (by decide) (by decide)
    p.opening_cases q.opening_cases p.quoteBefore_cases q.quoteBefore_cases hbefore
  obtain ⟨hquoteAfter, hclosing⟩ := optional_append_inj (by decide) (by decide)
    p.quoteAfter_cases q.quoteAfter_cases p.closing_cases q.closing_cases hafter
  exact ImportParts.ext hopening hquoteBefore (List.append_cancel_right hrun) hquoteAfter hclosing

end ImportParts

/-- What is kept of the value of an import is `p.path` for the parts `p` of its form, if it has it.
-/
theorem importTarget?_eq_some_iff {value path : Text} :
    importTarget? value = some path ↔ ∃ p : ImportParts value, p.path = path := by
  constructor
  · intro h
    obtain ⟨opening, hopening, hvalue⟩ := exists_opening value
    rw [importTarget?] at h
    generalize dropOpening value = named at h hvalue
    split at h
    · rename_i hclosing
      obtain ⟨hsuffix, hne⟩ := Option.filter_eq_some_iff.1 h
      have hrun := List.isSuffixOf?_eq_some_iff_append_eq.1 hsuffix
      obtain ⟨reference, quoteBefore, hreference, hquoteBefore, rfl⟩ :=
        mem_pathOpenings_iff.1 hopening
      obtain ⟨quoteAfter, closing, hquoteAfter, hclosing, hafter⟩ :=
        mem_pathClosings_iff.1 hclosing
      refine ⟨⟨reference, quoteBefore, path, quoteAfter, closing, hreference, hquoteBefore,
        by simpa using hne, ?_, hquoteAfter, hclosing, ?_⟩, rfl⟩
      · intro c hc
        have hmem : c ∈ named.takeWhile isPathChar := hrun ▸ List.mem_append_left _ hc
        exact isPathChar_iff.1 (List.mem_takeWhile_imp hmem)
      · calc value = reference ++ quoteBefore ++ named := hvalue
          _ = reference ++ quoteBefore ++
              (named.takeWhile isPathChar ++ named.dropWhile isPathChar) := by
            rw [List.takeWhile_append_dropWhile]
          _ = reference ++ quoteBefore ++ path ++ ".css".toList ++ quoteAfter ++ closing := by
            rw [← hrun, hafter, pathEnding]
            simp only [List.append_assoc]
    · cases h
  · rintro ⟨p, rfl⟩
    exact p.importTarget?_eq

/-- What `keptValue` keeps differs from the value only where an import names a stylesheet file. -/
theorem keptValue_ne {name value : Text} (h : keptValue name value ≠ value) :
    name = "import".toList ∧ importTarget? value = some (keptValue name value) := by
  unfold keptValue at h ⊢
  split at h
  · rename_i hname
    refine ⟨hname, ?_⟩
    cases htarget : importTarget? value with
    | none =>
        rw [htarget] at h
        exact absurd rfl h
    | some path =>
        rw [if_pos hname]
        rfl
  · exact absurd rfl h

/-! ## Directives in a document -/

/-- A directive in front of a document `after`, behind a gap `front`, is a line of its own in front
of the stylesheet. -/
theorem parse_of_directive {front blanksFront name gap blanks value after : Text} {body : Body}
    (hfront : Gap.Closed front blanksFront) (hname : IsRun isNameChar name (gap ++ value ++ [';']))
    (hgap : Gap.Closed gap blanks) (hvalue : ∀ c ∈ value, c ≠ ';') (habsent : Gap.Absent value)
    (hafter : parse after = .ok body) :
    parse (front ++ '@' :: (name ++ gap ++ value ++ ';' :: after)) =
      .ok (node ⟨name, keptValue name value⟩ :: body) := by
  obtain ⟨gapAfter, hgapAfter, hsplit⟩ := Gap.exists_written_skip after
  obtain ⟨t, ht, hread⟩ := read_of_written (.intro hname hgap hvalue habsent hgapAfter)
    (Gap.absent_skip after)
  have htext : '@' :: (name ++ gap ++ value ++ ';' :: after) = '@' :: t := by
    rw [← ht, List.cons_append, List.append_assoc _ (';' :: gapAfter), List.cons_append, ← hsplit]
  have hat : Gap.skip (front ++ '@' :: t) = '@' :: t :=
    Gap.skip_of_written (.closed hfront) (Gap.absent_cons (by decide) (by decide) t)
  -- The directive comes before those of the document behind it, where the blocks are.
  have hall : readAll (Gap.skip (front ++ '@' :: t)) = ([⟨name, keptValue name value⟩] ++
      (readAll (Gap.skip after)).1, (readAll (Gap.skip after)).2) := by
    rw [hat, readAll_of_ok hread, List.singleton_append]
  have hreading := Reading.ofText_of_directives hall .complete
  obtain ⟨hfault, rfl⟩ := parse_eq_ok_iff_ofText.1 hafter
  rw [htext, parse_eq_ok_iff_ofText, hreading, Reading.body_followedBy (.inl rfl)]
  exact ⟨hfault, rfl⟩

/-- **What a directive leaves in a stylesheet**, for every `name` and `value`. In front of any
document, behind any gap, it adds a line with its name and with `keptValue name value`, which
differs from `value` only for an import of the form `ImportParts`. The form is then met in one way
only and its path is what is kept; in every other case the value is kept as it is written. -/
theorem parse_directive (name value : Text) :
    (∀ front blanksFront gap blanks after body, Gap.Closed front blanksFront →
      IsRun isNameChar name (gap ++ value ++ [';']) → Gap.Closed gap blanks →
        (∀ c ∈ value, c ≠ ';') → Gap.Absent value → parse after = .ok body →
          parse (front ++ '@' :: (name ++ gap ++ value ++ ';' :: after)) =
            .ok (.verbatim ('@' :: name ++ ' ' :: keptValue name value ++ [';']) :: body)) ∧
      (keptValue name value ≠ value →
        name = "import".toList ∧ ∃ p : ImportParts value, p.path = keptValue name value) ∧
      (name = "import".toList → ∀ p : ImportParts value,
        keptValue name value = p.path ∧ ∀ q : ImportParts value, q = p) ∧
      (¬ (name = "import".toList ∧ Nonempty (ImportParts value)) →
        keptValue name value = value) := by
  refine ⟨?_, ?_, ?_, ?_⟩
  · intro front blanksFront gap blanks after body hfront hname hgap hvalue habsent hafter
    exact parse_of_directive hfront hname hgap hvalue habsent hafter
  · intro h
    obtain ⟨hname, htarget⟩ := keptValue_ne h
    exact ⟨hname, importTarget?_eq_some_iff.1 htarget⟩
  · intro hname p
    refine ⟨?_, fun q => q.unique p⟩
    rw [keptValue, if_pos hname, p.importTarget?_eq, Option.getD_some]
  · intro h
    by_contra hne
    obtain ⟨hname, htarget⟩ := keptValue_ne hne
    obtain ⟨p, -⟩ := importTarget?_eq_some_iff.1 htarget
    exact h ⟨hname, ⟨p⟩⟩

/-- Of two endings the second one is cut off, and a quote before the path needs none after it:
`url("a.css.css)` becomes `a.css`. -/
theorem parse_directive_twoEndings :
    parse ("/**/".toList ++ '@' :: ("import".toList ++ " ".toList ++
        "url(\"a.css.css)".toList ++ ';' :: "\nx\x7by:z\x7d".toList)) =
      .ok [.verbatim "@import a.css;".toList,
        .rule "x".toList [.declaration "y".toList "z".toList]] ∧
    ∃ p : ImportParts "url(\"a.css.css)".toList, p.path = "a.css".toList ∧
      ∀ q : ImportParts "url(\"a.css.css)".toList, q = p := by
  have hkept : keptValue "import".toList "url(\"a.css.css)".toList = "a.css".toList := by decide
  obtain ⟨hparse, hchanged, hform, -⟩ := parse_directive "import".toList "url(\"a.css.css)".toList
  have hcomment : Gap.Closed "/**/".toList [] := .comment Gap.unclosed_nil .nil
  have hblank : Gap.Closed " ".toList " ".toList := .blank rfl .nil
  have hname : IsRun isNameChar "import".toList (" url(\"a.css.css);".toList) :=
    IsRun.of_takeWhile (t := "import url(\"a.css.css);".toList) (by decide)
  have hvalue : ∀ c ∈ "url(\"a.css.css)".toList, c ≠ ';' := by
    rintro c hc rfl
    revert hc
    decide
  have hafter : parse "\nx\x7by:z\x7d".toList =
      .ok [.rule "x".toList [.declaration "y".toList "z".toList]] := by decide +kernel
  refine ⟨?_, ?_⟩
  · rw [hparse _ _ _ _ _ _ hcomment hname hblank hvalue (Gap.absent_cons rfl (by decide) _) hafter,
      hkept]
    rfl
  · obtain ⟨p, hp⟩ := (hchanged (by rw [hkept]; decide)).2
    exact ⟨p, hp.trans hkept, (hform rfl p).2⟩

-- A blank at the end, an ending alone, or the name of another directive leave the value as it is.
example : keptValue "import".toList "a.css ".toList = "a.css ".toList ∧
    keptValue "import".toList "\".css\"".toList = "\".css\"".toList ∧
    keptValue "charset".toList "a.css".toList = "a.css".toList := by
  decide

end Directive

end SassNesting
