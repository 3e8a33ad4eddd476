import SassNesting.Proofs.Document.Soundness

/-! # What is written is read so

Each reader of documents takes the whole of an item that is written at the start of its text, if no
gap starts the text after the item. Together with the soundness of the readers this makes the
grammar and the readers say the same: a text is parsed into a stylesheet exactly if the grammar
assigns it a reading with that stylesheet (`parse_eq_ok_iff`). -/

namespace SassNesting

open Gap

/-! ## Directives -/

namespace Directive

/-- A directive that is `Written` starts no gap: `Absent (text ++ rest)`. -/
theorem absent_of_written {d : Directive} {text rest : Text} (h : Written d text rest) :
    Absent (text ++ rest) := by
  cases h
  exact absent_cons (by decide) (by decide) _

/-- A directive that is `Written d text rest` is read as it is written, after its at sign. -/
theorem read_of_written {d : Directive} {text rest : Text} (h : Written d text rest)
    (hrest : Absent rest) : ∃ t, text ++ rest = '@' :: t ∧ read t = .ok (d, rest) := by
  cases h with
  | @intro name gap blanks value after blanksAfter _ hname hgap hvalue habsent hafter =>
      refine ⟨name ++ (gap ++ (value ++ ';' :: (after ++ rest))), by simp, ?_⟩
      have hrun : IsRun isNameChar name (gap ++ (value ++ ';' :: (after ++ rest))) := by
        refine hname.of_head_eq ?_
        cases gap <;> cases value <;> rfl
      have hsemicolon : Absent (';' :: (after ++ rest)) := absent_cons (by decide) (by decide) _
      have hvalueOn : Absent (value ++ ';' :: (after ++ rest)) :=
        habsent.append (fun _ => hsemicolon) (by simp)
      have hchars : ∀ c ∈ value, isValueChar c = true := by
        intro c hc
        simpa [isValueChar] using hvalue c hc
      have hstop : isValueChar ';' ≠ true := by decide
      simp only [read, hrun.takeWhile_eq, hrun.dropWhile_eq, if_neg hrun.ne_nil,
        skip_of_written (.closed hgap) hvalueOn, List.dropWhile_append_of_pos hchars,
        List.takeWhile_append_of_pos hchars, List.dropWhile_cons_of_neg hstop,
        List.takeWhile_cons_of_neg hstop, List.append_nil, skip_of_written hafter hrest]

/-- Directives that are written in a `Sequence` are read one after another by `readAll`, up to a
text without an at sign at its start. -/
theorem readAll_of_sequence {ds : List Directive} {text rest : Text}
    (h : Sequence Written rest ds text) (hrest : Absent rest) (hhead : rest.head? ≠ some '@') :
    readAll (text ++ rest) = (ds, .ok rest) := by
  induction h with
  | nil => exact readAll_of_head_ne hhead
  | cons hd hmore ih =>
      have hnext := hmore.absent_append absent_of_written hrest
      obtain ⟨t, htext, hread⟩ := read_of_written hd hnext
      rw [List.append_assoc, htext, readAll_of_ok hread, ih]

end Directive

/-! ## Declarations -/

namespace Declaration

/-- The end of a declaration starts no gap, and no token of its value. -/
theorem EndWritten.absent {ending rest : Text} (h : EndWritten ending rest) :
    Absent (ending ++ rest) ∧ (ending ++ rest).takeWhile isValueChar = [] := by
  cases h with
  | semicolon => exact ⟨absent_cons (by decide) (by decide) _, by simp [isValueChar]⟩
  | brace => exact ⟨absent_cons (by decide) (by decide) _, by simp [isValueChar]⟩

/-- A declaration that is `Written` starts with a name, which starts no gap. -/
theorem absent_of_written {d : Declaration} {text rest : Text} (h : Written d text rest) :
    Absent (text ++ rest) ∧ (text ++ rest).takeWhile isNameChar ≠ [] := by
  cases h with
  | @intro name gap _ gapAfter _ value ending _ _ hname habsent =>
      have hrun : IsRun isNameChar name
          (gap ++ ':' :: (gapAfter ++ value ++ ending) ++ rest) := by
        refine hname.of_head_eq ?_
        cases gap <;> rfl
      rw [List.append_assoc name, List.append_assoc name, hrun.takeWhile_eq]
      exact ⟨hrun.absent_append habsent (by decide), hrun.ne_nil⟩

/-- A declaration that is written is read as it is written: `read (text ++ rest) = .ok (d, rest)`.
-/
theorem read_of_written {d : Declaration} {text rest : Text} (h : Written d text rest)
    (hrest : Absent rest) : read (text ++ rest) = .ok (d, rest) := by
  cases h with
  | @intro name gap _ gapAfter _ value ending _ tokens hname _ hgap hgapAfter hvalue hend =>
      have hassoc : (name ++ gap ++ ':' :: (gapAfter ++ value ++ ending)) ++ rest =
          name ++ (gap ++ ':' :: (gapAfter ++ (value ++ (ending ++ rest)))) := by simp
      have hrun : IsRun isNameChar name
          (gap ++ ':' :: (gapAfter ++ (value ++ (ending ++ rest)))) := by
        refine hname.of_head_eq ?_
        cases gap <;> rfl
      have hvalueOn : Absent (value ++ (ending ++ rest)) :=
        hvalue.absent_append (absent_of_tokenWritten (by decide)) hend.absent.1
      have htokens := readTokens_of_sequence (by decide) hvalue hend.absent.1 hend.absent.2
      have hcolon : Absent (':' :: (gapAfter ++ (value ++ (ending ++ rest)))) :=
        absent_cons (by decide) (by decide) _
      rw [hassoc, read, hrun.takeWhile_eq, hrun.dropWhile_eq, skip_of_written (.closed hgap) hcolon]
      simp only [skip_of_written (.closed hgapAfter) hvalueOn, readValue, htokens]
      -- After a semicolon the gap is read as well; a brace is left where it is.
      cases hend with
      | semicolon hgapEnd => simp only [List.cons_append, skip_of_written hgapEnd hrest]
      | brace => rfl

end Declaration

/-! ## Blocks -/

namespace Block

/-- Declarations that are written in a `Sequence` are read one after another by `readDeclarations`,
up to the brace that ends their block. -/
theorem readDeclarations_of_sequence {ds : List Declaration} {inside after blanks rest : Text}
    (h : Sequence Declaration.Written ('}' :: after ++ rest) ds inside)
    (hafter : Gap.Written after blanks rest) (hrest : Absent rest) :
    readDeclarations (inside ++ '}' :: (after ++ rest)) = .ok (ds, rest) := by
  induction h with
  | nil => rw [List.nil_append, readDeclarations_brace, skip_of_written hafter hrest]
  | @cons d ds text more hd hmore ih =>
      have hbrace : Absent ('}' :: after ++ rest) := absent_cons (by decide) (by decide) _
      have hnext : Absent (more ++ ('}' :: after ++ rest)) :=
        hmore.absent_append (fun h => (Declaration.absent_of_written h).1) hbrace
      have hassoc : text ++ more ++ '}' :: (after ++ rest) =
          text ++ (more ++ ('}' :: after ++ rest)) := by simp
      rw [hassoc]
      exact readDeclarations_of_ok (Declaration.absent_of_written hd).2
        (Declaration.read_of_written hd hnext) ih

/-- A block that is `Written` starts with a token, which starts no gap. -/
theorem absent_of_written {b : Block} {text rest : Text} (h : Written b text rest) :
    Absent (text ++ rest) := by
  cases h with
  | @intro selector gap _ inside after _ _ tokens _ _ hselector =>
      have hbrace : Absent ('{' :: (gap ++ inside ++ '}' :: after ++ rest)) :=
        absent_cons (by decide) (by decide) _
      have hstart := hselector.absent_append (absent_of_tokenWritten (by decide)) hbrace
      simpa using hstart

/-- A block that is written is read as it is written: `read (text ++ rest) = .ok (b, rest)`. -/
theorem read_of_written {b : Block} {text rest : Text} (h : Written b text rest)
    (hrest : Absent rest) : read (text ++ rest) = .ok (b, rest) := by
  cases h with
  | @intro selector gap blanks inside after _ _ tokens declarations hne hselector hdepth hgap hds
      hafter =>
      have hassoc : (selector ++ '{' :: (gap ++ inside ++ '}' :: after)) ++ rest =
          selector ++ '{' :: (gap ++ inside ++ '}' :: after ++ rest) := by simp
      have hopen : Absent ('{' :: (gap ++ inside ++ '}' :: after ++ rest)) :=
        absent_cons (by decide) (by decide) _
      have hclose : Absent ('}' :: after ++ rest) := absent_cons (by decide) (by decide) _
      have htokens := readTokens_of_sequence (by decide) hselector hopen (by simp [isSelectorChar])
      have hinside : Absent (inside ++ '}' :: (after ++ rest)) :=
        hds.absent_append (fun h => (Declaration.absent_of_written h).1) hclose
      have hskip : skip (gap ++ inside ++ '}' :: after ++ rest) =
          inside ++ '}' :: (after ++ rest) := by
        have hread := skip_of_written (.closed hgap) hinside
        simpa using hread
      -- The tokens are not none, so the reader goes on behind the brace.
      obtain ⟨token, more, rfl⟩ := List.exists_cons_of_ne_nil hne
      have hlimit := Nat.not_lt.2 (Selector.depth_le_iff.2 hdepth)
      rw [List.map_cons] at hlimit
      simp only [hassoc, read, readSelector, htokens, List.map_cons, hskip, if_neg hlimit,
        readDeclarations_of_sequence hds hafter hrest]

/-- Where a document ends, no gap starts, and `Block.read` yields the ending. -/
theorem read_of_ending_written {ending : Ending} {t : Text} (h : Ending.Written ending t) :
    Absent t ∧ read t = .error ending := by
  cases h with
  | complete => exact ⟨absent_nil, by simp [read, readSelector, readTokens]⟩
  | @openSelector _ tokens hne hselector =>
      have habsent := hselector.absent_append (absent_of_tokenWritten (by decide)) absent_nil
      have htokens := readTokens_of_sequence (by decide) hselector absent_nil rfl
      rw [List.append_nil] at habsent htokens
      obtain ⟨token, more, rfl⟩ := List.exists_cons_of_ne_nil hne
      exact ⟨habsent, by simp [read, readSelector, htokens]⟩
  | trailing =>
      refine ⟨absent_cons (by decide) (by decide) _, ?_⟩
      simp [read, readSelector, readTokens, isSelectorChar]

/-- Blocks that are written in a `Sequence` are read one after another by `readAll`, up to the
ending of the document. -/
theorem readAll_of_sequence {bs : List Block} {ending : Ending} {text tail : Text}
    (h : Sequence Written tail bs text) (hending : Ending.Written ending tail) :
    readAll (text ++ tail) = (bs, ending) := by
  obtain ⟨habsent, hread⟩ := read_of_ending_written hending
  induction h with
  | nil => exact readAll_of_error hread
  | cons hb hmore ih =>
      have hnext := hmore.absent_append absent_of_written habsent
      rw [List.append_assoc, readAll_of_ok (read_of_written hb hnext), ih]

end Block

/-! ## Documents -/

/-- An ending that is `Written` is no fault. -/
theorem Ending.Written.ne_fault {ending : Ending} {t : Text} (h : Written ending t)
    (fault : Fault) : ending ≠ .fault fault := by
  cases h <;> simp

/-- A document is read as it is written: `Written r t` gives `ofText t = r`. -/
theorem Reading.ofText_of_written {r : Reading} {t : Text} (h : Written r t) : ofText t = r := by
  cases h with
  | @intro gap blanks first second tail directives blocks ending hgap hfirst hhead hsecond
      hending =>
      -- From the end to the start: no gap starts what follows the gap of each item.
      have htail := (Block.read_of_ending_written hending).1
      have hblocks : Absent (second ++ tail) :=
        hsecond.absent_append Block.absent_of_written htail
      have hitems : Absent (first ++ (second ++ tail)) :=
        hfirst.absent_append Directive.absent_of_written hblocks
      rw [List.append_assoc] at hgap
      have hassoc : gap ++ first ++ second ++ tail = gap ++ (first ++ (second ++ tail)) := by simp
      rw [hassoc, ofText, skip_of_written hgap hitems,
        Directive.readAll_of_sequence hfirst hblocks hhead]
      simp only [Block.readAll_of_sequence hsecond hending]

/-- The readings that the grammar assigns to a text `t` are exactly `ofText t`, if it is without a
fault. -/
theorem Reading.written_iff {r : Reading} {t : Text} :
    Written r t ↔ ofText t = r ∧ ∀ fault, r.ending ≠ .fault fault := by
  constructor
  · intro h
    refine ⟨ofText_of_written h, ?_⟩
    intro fault
    cases h with
    | intro _ _ _ _ hending => exact hending.ne_fault fault
  · rintro ⟨rfl, hfault⟩
    exact written_ofText hfault

/-- A text is parsed exactly if `Reading.ofText t` meets no fault, and `parse t` is the stylesheet
of that reading. -/
theorem parse_eq_ok_iff_ofText {t : Text} {body : Body} :
    parse t = .ok body ↔
      (∀ fault, (Reading.ofText t).ending ≠ .fault fault) ∧ (Reading.ofText t).body = body := by
  simp only [parse]
  split
  · rename_i fault hending
    constructor
    · intro h
      cases h
    · intro h
      exact absurd hending (h.1 fault)
  · rename_i hending
    rw [Except.ok.injEq, and_iff_right hending]

/-- **The parser is the grammar.** A text is parsed to `body` iff the grammar assigns a reading `r`
to it with `r.body = body`: `parse` accepts exactly the texts that are `Written`. -/
theorem parse_eq_ok_iff (t : Text) (body : Body) :
    parse t = .ok body ↔ ∃ r : Reading, r.Written t ∧ r.body = body := by
  rw [parse_eq_ok_iff_ofText]
  constructor
  · rintro ⟨hfault, rfl⟩
    exact ⟨Reading.ofText t, Reading.written_ofText hfault, rfl⟩
  · rintro ⟨r, hwritten, rfl⟩
    obtain ⟨rfl, hfault⟩ := Reading.written_iff.1 hwritten
    exact ⟨hfault, rfl⟩

end SassNesting
