import SassNesting.Proofs.Document.Gaps
import SassNesting.Proofs.Selector.Pieces

/-! # What is read is written so

Each reader of documents takes from its text nothing but a way of writing what it yields, as the
grammar has it, and stops where no gap starts. From this it follows that a reading that meets no
fault is a reading the grammar assigns to the text (`Reading.written_ofText`). -/

namespace SassNesting

open Gap

/-! ## Directives -/

namespace Directive

/-- What `read` takes for a directive `d` is `Written` as one. -/
theorem exists_written_of_read {t rest : Text} {d : Directive} (h : read t = .ok (d, rest)) :
    ∃ text, Written d text rest ∧ '@' :: t = text ++ rest ∧ Absent rest := by
  simp only [read] at h
  split at h
  · simp at h
  · rename_i hname
    obtain ⟨gap, hgap, hvalueOn, habsent⟩ := exists_written_read (t.dropWhile isNameChar)
    rw [← skip] at hgap hvalueOn habsent
    set valueOn := skip (t.dropWhile isNameChar)
    split at h
    · rename_i after hafter
      obtain ⟨gapAfter, hgapAfter, hrest, habsentAfter⟩ := exists_written_read after
      simp only [Except.ok.injEq, Prod.mk.injEq] at h
      obtain ⟨rfl, rfl⟩ := h
      have hchars : ∀ c ∈ valueOn.takeWhile isValueChar, c ≠ ';' := by
        intro c hc
        simpa [isValueChar] using List.mem_takeWhile_imp hc
      have hvalue : valueOn = valueOn.takeWhile isValueChar ++ ';' :: after := by
        rw [← hafter, List.takeWhile_append_dropWhile]
      generalize valueOn.takeWhile isValueChar = value at hvalue hchars ⊢
      refine ⟨_, .intro ((IsRun.of_takeWhile hname).of_head_eq ?_) (hgap.toClosed ?_) hchars
        (Absent.left (hvalue ▸ habsent)) hgapAfter, ?_, habsentAfter⟩
      · rw [hvalueOn, hvalue]
        cases gap <;> cases value <;> rfl
      · rw [hvalue]
        simp
      · have hafterName : t.dropWhile isNameChar =
            gap ++ (value ++ ';' :: (gapAfter ++ skip after)) := by
          rw [skip, ← hrest, ← hvalue, ← hvalueOn]
        have hsplit : t = t.takeWhile isNameChar ++ t.dropWhile isNameChar :=
          List.takeWhile_append_dropWhile.symm
        calc '@' :: t = '@' :: (t.takeWhile isNameChar ++ t.dropWhile isNameChar) := by
              rw [← hsplit]
          _ = _ := by
              rw [hafterName]
              simp
    · simp at h

/-- What `readAll` takes for directives `ds` is a `Sequence` of them, and no at sign follows. -/
theorem exists_sequence_of_readAll {t rest : Text} {ds : List Directive}
    (h : readAll t = (ds, .ok rest)) (ht : Absent t) :
    ∃ text, Sequence Written rest ds text ∧ t = text ++ rest ∧ Absent rest ∧
      rest.head? ≠ some '@' := by
  -- The induction is on the reading; each directive is written in front of what is read after it.
  fun_induction readAll t generalizing ds rest with
  | case1 => simp at h
  | case2 t d after hread ds' result hrec ih =>
      simp only [Prod.mk.injEq] at h
      obtain ⟨rfl, rfl⟩ := h
      obtain ⟨text, hwritten, htext, habsent⟩ := exists_written_of_read hread
      obtain ⟨more, hmore, hafter, hrest, hhead⟩ := ih hrec habsent
      refine ⟨text ++ more, .cons (hafter ▸ hwritten) hmore, ?_, hrest, hhead⟩
      rw [htext, hafter, List.append_assoc]
  | case3 t hhead =>
      simp only [Prod.mk.injEq, Except.ok.injEq] at h
      obtain ⟨rfl, rfl⟩ := h
      refine ⟨[], .nil, rfl, ht, ?_⟩
      intro hat
      obtain ⟨after, rfl⟩ := List.head?_eq_some_iff.1 hat
      exact hhead after rfl

end Directive

/-! ## Declarations -/

namespace Declaration

/-- What `read` takes for a declaration `d` is `Written` as one. -/
theorem exists_written_of_read {t rest : Text} {d : Declaration} (ht : Absent t)
    (hname : t.takeWhile isNameChar ≠ []) (h : read t = .ok (d, rest)) :
    ∃ text, Written d text rest ∧ t = text ++ rest ∧ Absent rest := by
  simp only [read] at h
  split at h
  · rename_i valueOn hcolon
    obtain ⟨gap, hgap, hafter, -⟩ := exists_written_read (t.dropWhile isNameChar)
    rw [← skip, hcolon] at hgap hafter
    obtain ⟨gapAfter, hgapAfter, hvalueOn, habsent⟩ := exists_written_read valueOn
    rw [← skip] at hgapAfter hvalueOn habsent
    obtain ⟨value, hvalue, hskip, hstop, -⟩ :=
      exists_sequence_readTokens isValueChar habsent
    have hrun := IsRun.of_takeWhile hname
    have hsplit : t = t.takeWhile isNameChar ++ t.dropWhile isNameChar :=
      List.takeWhile_append_dropWhile.symm
    simp only [readValue] at h
    set tokens := readTokens isValueChar (skip valueOn)
    -- Both ways of ending a declaration leave the same name, gaps and value in front of the end.
    have hwritten : ∀ ending, tokens.2 = ending ++ rest → EndWritten ending rest →
        Written ⟨t.takeWhile isNameChar, Text.trimEnd (joinTokens tokens.1)⟩
          (t.takeWhile isNameChar ++ gap ++ ':' :: (gapAfter ++ value ++ ending)) rest ∧
        t = (t.takeWhile isNameChar ++ gap ++ ':' :: (gapAfter ++ value ++ ending)) ++ rest := by
      intro ending hrest hend
      refine ⟨.intro (hrun.of_head_eq ?_) (Absent.left (hsplit ▸ ht)) (hgap.toClosed (by simp))
        (hgapAfter.toClosed ?_) (hrest ▸ hvalue) hend, ?_⟩
      · rw [hafter]
        cases gap <;> rfl
      · rw [hskip, hrest]
        cases hend <;> simp
      · have hafterName : t.dropWhile isNameChar =
            gap ++ ':' :: (gapAfter ++ (value ++ (ending ++ rest))) := by
          rw [← hrest, ← hskip, ← hvalueOn, ← hafter]
        calc t = t.takeWhile isNameChar ++ t.dropWhile isNameChar := hsplit
          _ = _ := by
              rw [hafterName]
              simp
    split at h
    · rename_i after hsemicolon
      simp only [Except.ok.injEq, Prod.mk.injEq] at h
      obtain ⟨rfl, rfl⟩ := h
      obtain ⟨gapEnd, hgapEnd, hrest, hrestAbsent⟩ := exists_written_read after
      have hend : tokens.2 = ';' :: gapEnd ++ skip after := by
        rw [hsemicolon, List.cons_append, skip, ← hrest]
      obtain ⟨hd, htext⟩ := hwritten (';' :: gapEnd) hend (.semicolon hgapEnd)
      exact ⟨_, hd, htext, hrestAbsent⟩
    · rename_i after hbrace
      simp only [Except.ok.injEq, Prod.mk.injEq] at h
      obtain ⟨rfl, rfl⟩ := h
      obtain ⟨hd, htext⟩ := hwritten [] rfl (hbrace ▸ .brace)
      exact ⟨_, hd, htext, hstop⟩
    · simp at h
  · simp at h

end Declaration

/-! ## Blocks -/

namespace Block

/-- What `readDeclarations` takes for the declarations `ds` of a block is a `Sequence` of them, with
a brace and a gap after them. -/
theorem exists_sequence_of_readDeclarations {t rest : Text} {ds : List Declaration} (ht : Absent t)
    (h : readDeclarations t = .ok (ds, rest)) :
    ∃ inside after blanks, Sequence Declaration.Written ('}' :: after ++ rest) ds inside ∧
      Gap.Written after blanks rest ∧ t = inside ++ '}' :: (after ++ rest) ∧ Absent rest := by
  fun_induction readDeclarations t generalizing ds rest with
  | case1 after hname =>
      obtain ⟨gap, hgap, hrest, habsent⟩ := exists_written_read after
      simp only [Except.ok.injEq, Prod.mk.injEq] at h
      obtain ⟨rfl, rfl⟩ := h
      exact ⟨[], gap, _, .nil, hgap, by rw [skip, ← hrest, List.nil_append], habsent⟩
  | case2 => simp at h
  | case3 => simp at h
  | case4 => simp at h
  | case5 t hname d between hread ds' rest' hrec ih =>
      simp only [Except.ok.injEq, Prod.mk.injEq] at h
      obtain ⟨rfl, rfl⟩ := h
      obtain ⟨text, hd, htext, hbetween⟩ := Declaration.exists_written_of_read ht hname hread
      obtain ⟨inside, after, blanks, hds, hgap, hinside, habsent⟩ := ih hbetween hrec
      refine ⟨text ++ inside, after, blanks, .cons ?_ hds, hgap, ?_, habsent⟩
      · rw [List.cons_append, ← hinside]
        exact hd
      · rw [htext, hinside, List.append_assoc]

/-- What `read` takes for a block `b` is `Written` as one. -/
theorem exists_written_of_read {t rest : Text} {b : Block} (ht : Absent t)
    (h : read t = .ok (b, rest)) :
    ∃ text, Written b text rest ∧ t = text ++ rest ∧ Absent rest := by
  obtain ⟨selector, hselector, htext, -⟩ := exists_sequence_readTokens isSelectorChar ht
  simp only [read, readSelector] at h
  split at h
  · simp at h
  · simp at h
  · rename_i inside hinside hne
    split at h
    · simp at h
    · rename_i hdepth
      obtain ⟨gap, hgap, hafterGap, habsent⟩ := exists_written_read inside
      split at h
      · simp at h
      · rename_i ds after hds
        obtain ⟨declarations, gapAfter, blanksAfter, hsequence, hgapAfter, hdeclarations, hrest⟩ :=
          exists_sequence_of_readDeclarations habsent hds
        simp only [Except.ok.injEq, Prod.mk.injEq] at h
        obtain ⟨rfl, rfl⟩ := h
        rw [hdeclarations] at hafterGap hgap
        have hlimit := Selector.depth_le_iff.1 (Nat.le_of_not_lt hdepth)
        have hclosed := hgap.toClosed (by simp)
        refine ⟨selector ++ '{' :: (gap ++ declarations ++ '}' :: gapAfter),
          .intro ?_ ?_ hlimit hclosed hsequence hgapAfter, ?_, hrest⟩
        · intro hnil
          rw [hnil] at hne
          exact hne rfl
        · rw [hinside, hafterGap] at hselector
          simpa using hselector
        · rw [htext, hinside, hafterGap]
          simp
  · simp at h

/-- Where neither a gap nor a token of a selector starts, the text is at its end or at a brace. -/
theorem eq_nil_or_brace {t : Text} (ht : Absent t) (hstop : t.takeWhile isSelectorChar = []) :
    t = [] ∨ ∃ rest, t = '{' :: rest := by
  cases t with
  | nil => exact Or.inl rfl
  | cons c rest =>
      have hblank := ht.not_blank c rfl
      by_cases hc : c = '{'
      · exact Or.inr ⟨rest, by rw [hc]⟩
      · simp [isSelectorChar, hblank, hc] at hstop

/-- Where `read` ends the blocks without a fault, an ending of the document is `Written`. -/
theorem ending_written_of_read {t : Text} {ending : Ending} (ht : Absent t)
    (h : read t = .error ending) (hfault : ∀ fault, ending ≠ .fault fault) :
    Ending.Written ending t := by
  obtain ⟨selector, hselector, htext, hrest, hstop⟩ :=
    exists_sequence_readTokens isSelectorChar ht
  simp only [read, readSelector] at h
  split at h
  · -- The text is at its end.
    rename_i htokens hnil
    rw [hnil, List.map_eq_nil_iff.1 htokens] at hselector
    rw [hnil, List.append_nil] at htext
    cases hselector
    cases h
    exact htext ▸ .complete
  · -- No token is read, but there is some text.
    rename_i htokens hne
    rw [List.map_eq_nil_iff.1 htokens] at hselector
    cases hselector
    rw [List.nil_append] at htext
    rw [← htext] at hne hstop h
    obtain rfl | ⟨rest, rfl⟩ := eq_nil_or_brace ht hstop
    · exact absurd rfl hne
    · cases h
      exact .trailing
  · -- A brace follows the tokens: whatever goes wrong after it is a fault.
    split at h
    · cases h
      exact absurd rfl (hfault _)
    · split at h
      · cases h
        exact absurd rfl (hfault _)
      · cases h
  · -- No brace follows the tokens, so the text is at its end.
    rename_i hne hbrace _
    obtain hnil | ⟨rest, hrest⟩ := eq_nil_or_brace hrest hstop
    · cases h
      rw [hnil] at hselector htext
      rw [List.append_nil] at htext
      subst htext
      refine .openSelector ?_ hselector
      intro htokens
      apply hne
      rw [htokens]
      rfl
    · exact absurd hrest (hbrace rest)

/-- What `readAll` takes for blocks is a `Sequence` of them in front of an ending, if there is no
fault. -/
theorem exists_sequence_of_readAll {t : Text} (ht : Absent t)
    (hfault : ∀ fault, (readAll t).2 ≠ .fault fault) :
    ∃ text tail, Sequence Written tail (readAll t).1 text ∧ t = text ++ tail ∧
      Ending.Written (readAll t).2 tail := by
  fun_induction readAll t with
  | case1 t ending hread => exact ⟨[], t, .nil, rfl, ending_written_of_read ht hread hfault⟩
  | case2 t b rest hread bs ending hrec ih =>
      obtain ⟨text, hb, htext, hrest⟩ := exists_written_of_read ht hread
      rw [hrec] at ih
      obtain ⟨more, tail, hbs, hmore, hending⟩ := ih hrest hfault
      refine ⟨text ++ more, tail, .cons (hmore ▸ hb) hbs, ?_, hending⟩
      rw [htext, hmore, List.append_assoc]

end Block

/-! ## Documents -/

/-- A reading `ofText t` that meets no fault is one the grammar assigns to `t`. -/
theorem Reading.written_ofText {t : Text} (h : ∀ fault, (ofText t).ending ≠ .fault fault) :
    Written (ofText t) t := by
  obtain ⟨gap, hgap, ht, habsent⟩ := exists_written_read t
  unfold ofText at h ⊢
  split at h
  · exact absurd rfl (h _)
  · rename_i directives rest hdirectives
    obtain ⟨first, hfirst, hafter, hrest, hhead⟩ :=
      Directive.exists_sequence_of_readAll hdirectives habsent
    obtain ⟨second, tail, hsecond, hblocks, hending⟩ := Block.exists_sequence_of_readAll hrest h
    subst hblocks
    rw [← skip, hafter] at hgap ht
    rw [← List.append_assoc] at hgap ht
    rw [ht, ← List.append_assoc]
    exact .intro hgap hfirst hhead hsecond hending

end SassNesting
