import SassNesting.Proofs.Document.Faults

/-! # What a fault does not depend on

A reader that meets a fault has looked at the text in front of the place of the fault, and behind it
at the next two characters at most: a gap ends where neither a blank nor an opening mark of two
characters stands. So the fault is met alike in every text that agrees up to there (`IsLocal`),
first in an item, then behind gaps and other items, and at last in a document, where the error that
is reported is the same (`parse_error_local`). -/

namespace SassNesting

open Gap

/-! ## Local faults -/

/-- What `stops` tells of a text and a fault in it does not depend on what follows the two
characters from the place of the fault on, where there are two. -/
def IsLocal (stops : Text → Fault → Prop) : Prop :=
  ∀ t e c d after, stops t ⟨e, c :: d :: after⟩ →
    ∃ front, t = front ++ c :: d :: after ∧ ∀ x, stops (front ++ c :: d :: x) ⟨e, c :: d :: x⟩

/-- Two characters `c` and `d` tell whether a gap starts a text. -/
theorem Gap.Absent.of_two {front after : Text} {c d : Char} (h : Absent (front ++ c :: d :: after))
    (x : Text) : Absent (front ++ c :: d :: x) := by
  constructor
  · intro first hfirst
    apply h.not_blank
    cases front <;> exact hfirst
  · intro hmark
    apply h.not_comment
    rcases front with _ | ⟨_, _ | ⟨_, front⟩⟩ <;> simpa [List.cons_prefix_cons] using hmark

/-- Where no run starts a text, none starts a text with the same `head?`. -/
theorem takeWhile_eq_nil_of_head_eq {p : Char → Bool} {s t : Text} (hhead : s.head? = t.head?)
    (h : t.takeWhile p = []) : s.takeWhile p = [] := by
  by_contra hne
  exact takeWhile_ne_nil_of_head_eq hhead.symm hne h

/-- A text up to two characters `c` and `d` with a gap before it: what follows these does not change
how `skip` takes the gap. -/
theorem Gap.exists_skip_two {s front after : Text} {c d : Char}
    (h : skip s = front ++ c :: d :: after) :
    ∃ gap, s = gap ++ (front ++ c :: d :: after) ∧
      ∀ x, skip (gap ++ (front ++ c :: d :: x)) = front ++ c :: d :: x := by
  have happend : ∀ x, front ++ c :: d :: x = front ++ [c, d] ++ x := by simp
  obtain ⟨gap, hs, hgap⟩ := exists_skip_append (by simp) (h.trans (happend after))
  rw [← happend] at hs
  have habsent : Absent (front ++ c :: d :: after) := h ▸ absent_skip s
  refine ⟨gap, hs, fun x => ?_⟩
  have hskip := hgap x (happend x ▸ habsent.of_two x)
  rwa [← happend] at hskip

/-- Behind a gap a fault is local if `stops` is without the gap. -/
theorem IsLocal.behind_gap {stops : Text → Fault → Prop} (h : IsLocal stops) :
    IsLocal fun t fault => stops (skip t) fault := by
  intro t e c d after hstop
  obtain ⟨own, hskip, hown⟩ := h _ _ _ _ _ hstop
  obtain ⟨gap, rfl, hgap⟩ := exists_skip_two hskip
  refine ⟨gap ++ own, by rw [List.append_assoc], fun x => ?_⟩
  change stops (skip (gap ++ own ++ c :: d :: x)) _
  rw [List.append_assoc, hgap]
  exact hown x

/-- Behind a run of characters with `p` a fault is local if `stops` is without the run. -/
theorem IsLocal.behind_run {stops : Text → Fault → Prop} (h : IsLocal stops) (p : Char → Bool) :
    IsLocal fun t fault => stops (t.dropWhile p) fault := by
  intro t e c d after hstop
  obtain ⟨own, hdrop, hown⟩ := h _ _ _ _ _ hstop
  refine ⟨t.takeWhile p ++ own, ?_, fun x => ?_⟩
  · rw [List.append_assoc, ← hdrop, List.takeWhile_append_dropWhile]
  · have hhead : (own ++ c :: d :: x).head? = (t.dropWhile p).head? := by
      rw [hdrop]
      cases own <;> rfl
    obtain ⟨-, hrest⟩ := span_of_head_eq hhead
    change stops ((t.takeWhile p ++ own ++ c :: d :: x).dropWhile p) _
    rw [List.append_assoc, hrest]
    exact hown x

/-- A fault is still local if the text must not start with the character `first`. -/
theorem IsLocal.of_head_ne {stops : Text → Fault → Prop} (h : IsLocal stops) (first : Char) :
    IsLocal fun t fault => t.head? ≠ some first ∧ stops t fault := by
  rintro t e c d after ⟨hhead, hstop⟩
  obtain ⟨front, rfl, hfront⟩ := h _ _ _ _ _ hstop
  refine ⟨front, rfl, fun x => ⟨?_, hfront x⟩⟩
  cases front <;> exact hhead

/-- A fault that is told of texts without a gap at the start (`Absent`) is local if it is so in
these. -/
theorem IsLocal.of_absent {stops : Text → Fault → Prop}
    (h : ∀ t e c d after, Absent t → stops t ⟨e, c :: d :: after⟩ →
      ∃ front, t = front ++ c :: d :: after ∧ ∀ x, stops (front ++ c :: d :: x) ⟨e, c :: d :: x⟩) :
    IsLocal fun t fault => Absent t ∧ stops t fault := by
  rintro t e c d after ⟨ht, hstop⟩
  obtain ⟨front, rfl, hfront⟩ := h t e c d after ht hstop
  exact ⟨front, rfl, fun x => ⟨ht.of_two x, hfront x⟩⟩

/-- A fault at the start of a text is local. -/
theorem isLocal_start (expected : Expectation) : IsLocal fun t fault => fault = ⟨expected, t⟩ := by
  rintro t e c d after ⟨⟩
  exact ⟨[], rfl, fun x => rfl⟩

/-! ## Directives -/

/-- In a directive a fault of `read` is local: its name is missing in front of the next character.
-/
theorem Directive.isLocal_read : IsLocal fun t fault => read t = .error fault := by
  intro t e c d after h
  obtain ⟨own, -, hmissing⟩ := exists_missing_of_read h
  simp only [read] at h
  split at h
  · rename_i hname
    cases h
    refine ⟨[], rfl, fun x => ?_⟩
    have hhead : (c :: d :: x).head? = (c :: d :: after).head? := rfl
    simp only [List.nil_append, read, if_pos (takeWhile_eq_nil_of_head_eq hhead hname)]
  · split at h
    · cases h
    · -- A semicolon is missing only where nothing follows.
      obtain ⟨rfl, -⟩ := Fault.mk.inj (Except.error.inj h)
      cases hmissing

/-- In the first of the directives a fault of `readAll` is local. -/
theorem Directive.isLocal_readAll : IsLocal fun t fault => readAll t = ([], .error fault) := by
  intro t e c d after h
  obtain ⟨rest, rfl, hread⟩ := exists_at_of_readAll h
  obtain ⟨front, rfl, hfront⟩ := isLocal_read _ _ _ _ _ hread
  exact ⟨'@' :: front, rfl, fun x => readAll_of_error (hfront x)⟩

/-! ## Blocks -/

namespace Declaration

/-- Where no colon follows the gap after a name, `read` finds it missing there. -/
theorem read_of_head_ne {t : Text} (h : (skip (t.dropWhile isNameChar)).head? ≠ some ':') :
    read t = .error ⟨.colon, skip (t.dropWhile isNameChar)⟩ := by
  unfold read
  split
  · rename_i valueOn hcolon
    rw [hcolon] at h
    exact absurd rfl h
  · rfl

/-- In a declaration a fault of `read` is local: another character than its colon follows the gap
after its name. -/
theorem isLocal_read : IsLocal fun t fault => read t = .error fault := by
  intro t e c d after h
  obtain ⟨-, -, hmissing⟩ := exists_missing_of_read h
  have hcolon : (skip (t.dropWhile isNameChar)).head? ≠ some ':' ∧
      (⟨e, c :: d :: after⟩ : Fault) = ⟨.colon, skip (t.dropWhile isNameChar)⟩ := by
    simp only [read] at h
    split at h
    · split at h
      · cases h
      · cases h
      · -- The end of a declaration is missing only where nothing follows.
        obtain ⟨rfl, -⟩ := Fault.mk.inj (Except.error.inj h)
        cases hmissing []
    · rename_i hother
      refine ⟨fun hhead => ?_, (Except.error.inj h).symm⟩
      obtain ⟨valueOn, hvalueOn⟩ := List.head?_eq_some_iff.1 hhead
      exact hother valueOn hvalueOn
  obtain ⟨front, rfl, hfront⟩ :=
    (((isLocal_start .colon).of_head_ne ':').behind_gap.behind_run isNameChar) t e c d after hcolon
  refine ⟨front, rfl, fun x => ?_⟩
  obtain ⟨hhead, hstop⟩ := hfront x
  exact hstop ▸ read_of_head_ne hhead

end Declaration

namespace Block

/-- Between the braces of a block a fault of `readDeclarations` is local. -/
theorem isLocal_readDeclarations :
    IsLocal fun t fault => Absent t ∧ readDeclarations t = .error fault := by
  refine .of_absent fun t e c d after ht h => ?_
  -- The declarations in front of the fault are read alike, as in `exists_item_of_readDeclarations`.
  fun_induction readDeclarations t with
  | case1 => cases h
  | case2 t hname hbrace =>
      cases h
      refine ⟨[], rfl, fun x => ?_⟩
      have hhead : (c :: d :: x).head? = (c :: d :: after).head? := rfl
      rw [List.nil_append, readDeclarations, if_pos (takeWhile_eq_nil_of_head_eq hhead hname)]
      rintro rest heq
      cases heq
      exact hbrace _ rfl
  | case3 t hname fault hread =>
      cases h
      obtain ⟨front, rfl, hfront⟩ := Declaration.isLocal_read _ _ _ _ _ hread
      refine ⟨front, rfl, fun x => readDeclarations_of_read_error ?_ (hfront x)⟩
      refine takeWhile_ne_nil_of_head_eq ?_ hname
      cases front <;> rfl
  | case4 t hname first between hread fault hrec ih =>
      cases h
      obtain ⟨_, -, -, hbetween⟩ := Declaration.exists_written_of_read ht hname hread
      obtain ⟨own, rfl, hown⟩ := ih hbetween hrec
      have happend : ∀ x, own ++ c :: d :: x = own ++ [c, d] ++ x := by simp
      rw [happend] at hread
      obtain ⟨front, rfl, hfront⟩ := Declaration.exists_front_of_read (by simp) hread
      refine ⟨front ++ own, by simp, fun x => ?_⟩
      have hfirst := hfront x (happend x ▸ hbetween.of_two x)
      have hstart : (front ++ (own ++ [c, d] ++ x)).takeWhile Declaration.isNameChar ≠ [] := by
        refine takeWhile_ne_nil_of_head_eq ?_ hname
        cases front <;> cases own <;> rfl
      rw [List.append_assoc, happend, readDeclarations_of_read_ok hstart hfirst, ← happend, hown]
      rfl
  | case5 => cases h

/-- In a block a fault of `read` is local. -/
theorem isLocal_read : IsLocal fun t fault => Absent t ∧ read t = .error (.fault fault) := by
  refine .of_absent fun t e c d after ht h => ?_
  rcases read_cases t with ⟨ending, hread, hfault⟩ | ⟨tokens, inside, hselector, hne, hread⟩
  · rw [h] at hread
    cases hread
    exact absurd rfl (hfault _)
  obtain ⟨selector, rfl, htokens⟩ := exists_front_of_brace ht hselector
  rcases hread with ⟨hdepth, hread⟩ | ⟨hdepth, hread⟩
  · -- The selector is too long, whatever follows the brace.
    rw [h] at hread
    cases hread
    refine ⟨selector, rfl, fun x => ?_⟩
    obtain ⟨token, more, rfl⟩ := List.exists_cons_of_ne_nil hne
    simp only [read, htokens, if_pos hdepth]
  · have hds := readDeclarations_of_finish_error (hread.symm.trans h)
    obtain ⟨front, rfl, hfront⟩ :=
      isLocal_readDeclarations.behind_gap inside e c d after ⟨absent_skip inside, hds⟩
    refine ⟨selector ++ '{' :: front, by simp, fun x => ?_⟩
    have hassoc : selector ++ '{' :: front ++ c :: d :: x =
        selector ++ '{' :: (front ++ c :: d :: x) := by simp
    rw [hassoc, read_of_brace (htokens _) hne hdepth, finish, (hfront x).2]

end Block

/-! ## Documents -/

/-- In a document a fault of `ofText` is local. -/
theorem Reading.isLocal_ofText : IsLocal fun t fault => (ofText t).ending = .fault fault := by
  intro t e c d after h
  rcases hread : Directive.readAll (skip t) with ⟨ds, result⟩
  obtain ⟨first, middle, rfl, hstop, -, hfirst⟩ := Directive.exists_front_of_readAll hread
  cases result with
  | error fault =>
      -- The fault is in the directive behind those that are read.
      simp only [ofText, hread] at h
      cases h
      obtain ⟨own, rfl, hown⟩ := Directive.isLocal_readAll.behind_gap _ _ _ _ _ hstop
      refine ⟨first ++ own, by rw [List.append_assoc], fun x => ?_⟩
      have hother : Directive.readAll (skip (own ++ c :: d :: x)) = ([], .error ⟨e, c :: d :: x⟩) :=
        hown x
      change (ofText (first ++ own ++ c :: d :: x)).ending = _
      rw [List.append_assoc, ofText_of_directives (hfirst _) .complete, followedBy, ofText, hother]
  | ok rest =>
      obtain ⟨rfl, hhead⟩ := Directive.eq_of_readAll_nil hstop
      rcases hblocks : Block.readAll (skip middle) with ⟨bs, ending⟩
      simp only [ofText, hread, hblocks] at h
      cases h
      obtain ⟨second, last, rfl, hend, hsecond, hfront⟩ := Block.exists_front_of_readAll hblocks
      -- The fault is in the block behind those that are read, and no directive comes to stand
      -- there.
      have hblock : ∃ own, last = own ++ c :: d :: after ∧ ∀ x,
          (skip (second ++ (own ++ c :: d :: x))).head? ≠ some '@' ∧
            Block.read (skip (own ++ c :: d :: x)) = .error (.fault ⟨e, c :: d :: x⟩) := by
        rcases hsecond with ⟨rfl, -⟩ | ⟨-, -, hstart⟩
        · obtain ⟨own, hlast, hown⟩ := (Block.isLocal_read.of_head_ne '@').behind_gap last _ _ _ _
            ⟨hhead, absent_skip last, hend⟩
          exact ⟨own, hlast, fun x => ⟨(hown x).1, (hown x).2.2⟩⟩
        · obtain ⟨own, hlast, hown⟩ := Block.isLocal_read.behind_gap last _ _ _ _
            ⟨absent_skip last, hend⟩
          exact ⟨own, hlast, fun x => ⟨hstart _ ▸ hhead, (hown x).2⟩⟩
      obtain ⟨own, rfl, hown⟩ := hblock
      refine ⟨first ++ (second ++ own), by simp, fun x => ?_⟩
      have hassoc : first ++ (second ++ own) ++ c :: d :: x =
          first ++ (second ++ (own ++ c :: d :: x)) := by simp
      change (ofText (first ++ (second ++ own) ++ c :: d :: x)).ending = _
      rw [hassoc, ofText_of_directives (hfirst _) .complete, ofText_of_head_ne (hown x).1, hfront,
        Block.readAll_of_error (hown x).2, followedBy]

/-- A document whose reading meets a fault is refused with the error for it, `fault.toError t`. -/
theorem parse_of_fault {t : Text} {fault : Fault} (h : (Reading.ofText t).ending = .fault fault) :
    parse t = .error (fault.toError t) := by
  simp only [parse, h]

/-- **Errors are local.** The error `e` that is reported for a document has its place at a character
or at the end of the document, and is reported alike for every document with the same text `front`
up to this place and the same two characters behind it, with the same line. -/
theorem parse_error_local {s : Text} {e : SyntaxError} (h : parse s = .error e) :
    (∃ front rest, s = front ++ rest ∧ Text.byteSize front = e.pos) ∧
      ∀ front c d after, s = front ++ c :: d :: after → Text.byteSize front = e.pos →
        ∀ x, parse (front ++ c :: d :: x) = .error e ∧
          ∀ o, buildSheet o (front ++ c :: d :: x) = buildSheet o s := by
  obtain ⟨fault, hending, rfl⟩ := exists_fault_of_parse h
  obtain ⟨before, own, rfl, -, -⟩ := Reading.exists_missing hending
  have hpos : (fault.toError (before ++ own ++ fault.rest)).pos =
      Text.byteSize (before ++ own) := by
    rw [Fault.toError, Text.offset_append]
  refine ⟨⟨before ++ own, fault.rest, rfl, hpos.symm⟩, ?_⟩
  intro front c d after hs hfront x
  obtain ⟨hown, hrest⟩ := Text.append_inj_of_byteSize hs (hpos ▸ hfront.symm)
  rw [hown] at hending h hpos ⊢
  obtain ⟨expected, rest⟩ := fault
  dsimp only at hrest
  subst hrest
  obtain ⟨front', hsame, hlocal⟩ := Reading.isLocal_ofText _ _ _ _ _ hending
  obtain rfl := List.append_cancel_right hsame
  have hparse : parse (front ++ c :: d :: x) =
      .error ((⟨expected, c :: d :: after⟩ : Fault).toError (front ++ c :: d :: after)) := by
    rw [parse_of_fault (hlocal x), Fault.toError, Fault.toError, Text.offset_append,
      Text.offset_append]
  refine ⟨hparse, fun o => ?_⟩
  rw [buildSheet, buildSheet, hparse, h]
  simp only [SyntaxError.diagnose, Diagnostic.locate, hpos, Text.lineAt_byteSize]

/-- A missing colon on the second line, behind a block and a character of two bytes. -/
theorem parse_error_local_colon :
    parse "é\x7bp:q\x7d\na\x7bb c\x7d".toList = .error ⟨.colon, 12⟩ ∧
      ∀ x, parse ("é\x7bp:q\x7d\na\x7bb ".toList ++ 'c' :: '}' :: x) = .error ⟨.colon, 12⟩ ∧
        ∀ o, buildSheet o ("é\x7bp:q\x7d\na\x7bb ".toList ++ 'c' :: '}' :: x) =
          buildSheet o "é\x7bp:q\x7d\na\x7bb c\x7d".toList := by
  have h : parse "é\x7bp:q\x7d\na\x7bb c\x7d".toList = .error ⟨.colon, 12⟩ := by
    decide +kernel
  exact ⟨h, (parse_error_local h).2 "é\x7bp:q\x7d\na\x7bb ".toList 'c' '}' [] (by decide)
    (by decide)⟩

end SassNesting
