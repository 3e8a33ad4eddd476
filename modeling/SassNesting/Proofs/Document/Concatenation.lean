import SassNesting.Proofs.Document.Exchange
import SassNesting.Proofs.Document.Faults

/-! # Documents one after another

Behind a document that is read to its end, with no comment left open there, another document is read
as it is on its own (`Reading.ofText_append`): its items are added to those of the first one, and
its events and its error move by the length of the first one (`parse_append`). Only directives
behind blocks are not directives any more. -/

namespace SassNesting

open Gap

/-! ## Comments left open -/

/-- A gap starts the text `t`, and its last comment is never closed. -/
def Gap.LeavesOpen (t : Text) : Prop :=
  ∃ gap blanks inside, Closed gap blanks ∧ Unclosed inside ∧ t = gap ++ '/' :: '*' :: inside

/-- At the start of a document `t`, or behind a lexeme of it, a comment begins that is never closed.
-/
def Reading.LeavesOpen (t : Text) : Prop :=
  ∃ after, (after = t ∨ ∃ l, Ends t l after) ∧ Gap.LeavesOpen after

/-- Behind a gap `t` with no comment left open, another gap is skipped as it is on its own:
`skip (t ++ x) = skip x`. -/
theorem Gap.skip_append_of_not_leavesOpen {t : Text} (h : skip t = [])
    (hopen : ¬ Gap.LeavesOpen t) (x : Text) : skip (t ++ x) = skip x := by
  obtain ⟨gap, hgap, ht⟩ := exists_written_skip t
  rw [h] at hgap ht
  rw [List.append_nil] at ht
  subst ht
  generalize (read t).1 = blanks at hgap
  cases hgap with
  | closed hclosed => rw [skip, read_append_of_closed hclosed, skip]
  | unclosed hclosed hinside => exact absurd ⟨_, _, _, hclosed, hinside, rfl⟩ hopen

/-- A text `x` without slashes closes no comment. -/
theorem Gap.Unclosed.append {inside x : Text} (h : Unclosed inside) (hx : '/' ∉ x) :
    Unclosed (inside ++ x) := by
  induction inside with
  | nil =>
      intro hmark
      exact hx (hmark.subset (by simp))
  | cons c inside ih =>
      rw [unclosed_cons] at h
      rw [List.cons_append, unclosed_cons]
      refine ⟨?_, ih h.2⟩
      rintro ⟨rfl, hhead⟩
      cases inside with
      | nil => exact hx (List.mem_of_mem_head? hhead)
      | cons d inside => exact h.1 ⟨rfl, hhead⟩

/-- A text `x` without slashes belongs to the comment that is left open in front of it. -/
theorem Gap.LeavesOpen.exchange {after x : Text} (h : Gap.LeavesOpen after) (hx : '/' ∉ x)
    (l : Lexeme) : Exchange l after (after ++ x) := by
  obtain ⟨gap, blanks, inside, hgap, hinside, rfl⟩ := h
  have hread : ∀ {inside : Text}, Unclosed inside →
      read (gap ++ '/' :: '*' :: inside) = (blanks, []) := by
    intro inside hinside
    have hwritten := read_of_written (.unclosed hgap hinside) absent_nil
    rwa [List.append_nil] at hwritten
  have hassoc : gap ++ '/' :: '*' :: inside ++ x = gap ++ '/' :: '*' :: (inside ++ x) := by simp
  refine ⟨?_, fun _ => ?_, ?_⟩
  · rw [hassoc, hread hinside, hread (hinside.append hx)]
  · rw [hassoc]
    cases gap <;> rfl
  · rw [hassoc]
    exact hgap.head_ne_star (by simp)

/-! ## Readings -/

namespace Reading

/-- Texts with the same `skip` are read alike by `ofText`. -/
theorem ofText_congr {s t : Text} (h : skip s = skip t) : ofText s = ofText t := by
  rw [ofText, h, ofText]

/-- Behind a comment that is left open, a text `x` without slashes is not read:
`ofText (t ++ x) = ofText t`. -/
theorem LeavesOpen.ofText_append {t x : Text} (h : LeavesOpen t) (hx : '/' ∉ x) :
    ofText (t ++ x) = ofText t := by
  obtain ⟨after, rfl | ⟨l, hends⟩, hopen⟩ := h
  · exact ofText_congr (hopen.exchange hx .openBrace).skip_eq
  · obtain ⟨front, -, rfl, hread⟩ := hends.exchangeable
    rw [List.append_assoc]
    exact hread _ (hopen.exchange hx l)

/-- Behind a document `s` that is read to its end, with no comment left open, the document `t` is
read as it is on its own, unless it brings directives behind blocks: the reading of `s ++ t` is
`(ofText s).followedBy (ofText t)`. -/
theorem ofText_append {s t : Text} (hend : (ofText s).ending = .complete)
    (hopen : ¬ LeavesOpen s) (hat : (ofText s).blocks = [] ∨ (skip t).head? ≠ some '@') :
    ofText (s ++ t) = (ofText s).followedBy (ofText t) := by
  obtain ⟨front, after, rfl, hends, hstop, hread⟩ := exists_front s
  have hskip : skip after = [] := by
    rcases hstop with ⟨fault, hfault, -⟩ | hblock
    · rw [hend] at hfault
      cases hfault
    · rw [hend] at hblock
      have hending := Block.ending_written_of_read (absent_skip after) hblock (by simp)
      generalize skip after = rest at hending
      cases hending
      rfl
  have hclosed : ¬ Gap.LeavesOpen after := by
    intro hafter
    refine hopen ⟨after, ?_, hafter⟩
    rcases hends with rfl | hends
    · exact Or.inl rfl
    · exact Or.inr hends
  have hseam := skip_append_of_not_leavesOpen hskip hclosed t
  rw [List.append_assoc, hread (after ++ t) (hseam ▸ hat), ofText_congr hseam]

/-- A reading `r` that makes up no rules has no blocks. -/
theorem blocks_eq_nil {r : Reading} (h : ∀ node ∈ r.body, node.isRule = false) : r.blocks = [] := by
  rw [List.eq_nil_iff_forall_not_mem]
  intro b hb
  have hrule := h b.node (List.mem_append_right _ (List.mem_map_of_mem hb))
  simp [Block.node] at hrule

/-- The nodes of `r.followedBy s` are those of `r` and then those of `s`, unless there are
directives behind blocks. -/
theorem body_followedBy {r s : Reading} (h : r.blocks = [] ∨ s.directives = []) :
    (r.followedBy s).body = r.body ++ s.body := by
  rcases h with h | h <;> simp [followedBy, body, h]

/-- A fault is an end of the document: `fault.rest <:+ t`. -/
theorem suffix_of_fault {t : Text} {fault : Fault} (h : (ofText t).ending = .fault fault) :
    fault.rest <:+ t := by
  obtain ⟨front, own, ht, -⟩ := exists_missing h
  exact ⟨front ++ own, ht.symm⟩

/-- What is ignored as `trailing rest` is an end of the document. -/
theorem suffix_of_trailing {t rest : Text} (h : (ofText t).ending = .trailing rest) :
    rest <:+ t := by
  have hwritten : Written (ofText t) t := written_ofText (by simp [h])
  generalize ofText t = reading at h hwritten
  cases hwritten with
  | intro _ _ _ _ hending =>
      cases hending with
      | complete => cases h
      | openSelector => cases h
      | trailing =>
          cases h
          exact ⟨_, rfl⟩

end Reading

/-! ## Events -/

/-- An event of a text that stands behind `n` bytes. -/
def Event.movedBy (n : Nat) : Event → Event
  | restIgnored pos => restIgnored (n + pos)
  | e => e

/-- Behind a text `s`, the warning for the end of the document `t` is moved by the size of `s`. -/
theorem Reading.warnings_append (s t : Text) :
    (ofText t).ending.warnings (s ++ t) =
      ((ofText t).ending.warnings t).map (Event.movedBy (Text.byteSize s)) := by
  cases h : (ofText t).ending with
  | complete => rfl
  | openSelector => rfl
  | fault => rfl
  | trailing rest =>
      simp only [Ending.warnings, List.map_cons, List.map_nil, Event.movedBy,
        Text.offset_append_of_suffix (suffix_of_trailing h)]

/-- The events of a document `s` that is read to its end are followed by those of the document `t`
behind it, moved by the size of `s`. -/
theorem Reading.events_followedBy (s t : Text) (hend : (ofText s).ending = .complete)
    (h : (ofText s).blocks = [] ∨ (ofText t).directives = []) :
    ((ofText s).followedBy (ofText t)).events (s ++ t) =
      (ofText s).events s ++ ((ofText t).events t).map (Event.movedBy (Text.byteSize s)) := by
  have hdirective : Event.movedBy (Text.byteSize s) ∘ Directive.event = Directive.event := rfl
  have hblock : Event.movedBy (Text.byteSize s) ∘ Block.event = Block.event := rfl
  simp only [events, followedBy, hend, warnings_append, List.map_append, List.map_map, hdirective,
    hblock]
  rcases h with h | h <;> simp [h, Ending.warnings]

/-- A document is read to its end, with the ending `complete`, if it makes up a stylesheet and
nothing in it is warned of. -/
theorem Reading.ending_eq_complete {t : Text} {body : Body} (h : parse t = .ok body)
    (hwarn : ∀ e ∈ (ofText t).events t, e.level ≠ .warn) :
    (ofText t).ending = .complete ∧ (ofText t).body = body := by
  have hquiet : ∀ e ∈ (ofText t).ending.warnings t, e.level ≠ .warn := by
    intro e he
    exact hwarn e (List.mem_append_right _ he)
  obtain ⟨hfault, hbody⟩ := parse_eq_ok_iff_ofText.1 h
  refine ⟨?_, hbody⟩
  cases hending : (ofText t).ending with
  | complete => rfl
  | openSelector => simp [hending, Ending.warnings, Event.level] at hquiet
  | trailing => simp [hending, Ending.warnings, Event.level] at hquiet
  | fault fault => exact absurd hending (hfault fault)

/-- A fault in the document `t` behind another one is reported behind that one: at
`Text.byteSize s + e.pos`. -/
theorem parse_of_fault_append {s t : Text} {e : SyntaxError} (h : parse t = .error e)
    (hending : (Reading.ofText (s ++ t)).ending = (Reading.ofText t).ending) :
    parse (s ++ t) = .error ⟨e.expected, Text.byteSize s + e.pos⟩ := by
  obtain ⟨fault, hfault, rfl⟩ := exists_fault_of_parse h
  have hmoved := Text.offset_append_of_suffix (Reading.suffix_of_fault hfault) s
  simp only [parse, hending, hfault, Fault.toError, hmoved]

/-- **Documents behind each other.** Behind a document `s` that makes up a stylesheet, with nothing
in it to warn of and no comment left open at its end, a document `t` that brings no directives
behind blocks is read as it is on its own. Its nodes follow those of `s`, or else its error is
reported behind `s`, as many lines further down as `s` has line feeds; and its events follow those
of `s`, moved by the size of `s`. -/
theorem parse_append {s t : Text} {first : Body} (h : parse s = .ok first)
    (hwarn : ∀ e ∈ (Reading.ofText s).events s, e.level ≠ .warn) (hopen : ¬ Reading.LeavesOpen s)
    (hat : (∀ node ∈ first, node.isRule = false) ∨ (skip t).head? ≠ some '@') :
    (∀ second, parse t = .ok second → parse (s ++ t) = .ok (first ++ second)) ∧
      (∀ e, parse t = .error e →
        parse (s ++ t) = .error ⟨e.expected, Text.byteSize s + e.pos⟩ ∧
          ∀ o, ∃ d, buildSheet o t = .error d ∧
            buildSheet o (s ++ t) = .error ⟨d.source, d.line + s.count '\n', d.expected,
              Text.byteSize s + d.pos⟩) ∧
      (Reading.ofText (s ++ t)).events (s ++ t) = (Reading.ofText s).events s ++
        ((Reading.ofText t).events t).map (Event.movedBy (Text.byteSize s)) := by
  obtain ⟨hcomplete, rfl⟩ := Reading.ending_eq_complete h hwarn
  have hblocks : (Reading.ofText s).blocks = [] ∨ (skip t).head? ≠ some '@' :=
    hat.imp_left Reading.blocks_eq_nil
  have horder : (Reading.ofText s).blocks = [] ∨ (Reading.ofText t).directives = [] :=
    hblocks.imp_right fun hhead => by rw [Reading.ofText_of_head_ne hhead]
  have hread := Reading.ofText_append hcomplete hopen hblocks
  refine ⟨fun second hsecond => ?_, fun e he => ?_, ?_⟩
  · obtain ⟨hfault, rfl⟩ := parse_eq_ok_iff_ofText.1 hsecond
    rw [parse_eq_ok_iff_ofText, hread]
    exact ⟨hfault, Reading.body_followedBy horder⟩
  · have hmoved := parse_of_fault_append he (by rw [hread, Reading.followedBy])
    refine ⟨hmoved, fun o => ⟨e.diagnose o.sourceName t, by rw [buildSheet, he], ?_⟩⟩
    simp only [buildSheet, hmoved, SyntaxError.diagnose, Diagnostic.locate, Text.lineAt_append]
  · rw [hread]
    exact Reading.events_followedBy s t hcomplete horder

/-- Behind two lines with a directive on the first one, a colon that is missing on the first line of
its own document is missing on the third line. -/
theorem parse_append_colon :
    parse ("@x y;\n/**/\n".toList ++ "a\x7bb c".toList) = .error ⟨.colon, 15⟩ ∧
      ∀ o, ∃ d, buildSheet o "a\x7bb c".toList = .error d ∧
        buildSheet o ("@x y;\n/**/\n".toList ++ "a\x7bb c".toList) =
          .error ⟨d.source, d.line + 2, d.expected, 11 + d.pos⟩ := by
  have hopen : ¬ Reading.LeavesOpen "@x y;\n/**/\n".toList := by
    intro hopen
    have hbrace : '/' ∉ ['{'] := by decide
    have hread := hopen.ofText_append hbrace
    revert hread
    decide +kernel
  have hat : (∀ node ∈ [Node.verbatim "@x y;".toList], node.isRule = false) ∨
      (skip "a\x7bb c".toList).head? ≠ some '@' := Or.inl (by decide)
  have hparse : parse "@x y;\n/**/\n".toList = .ok [.verbatim "@x y;".toList] := by decide +kernel
  have herror : parse "a\x7bb c".toList = .error ⟨.colon, 4⟩ := by decide +kernel
  obtain ⟨-, hfailed, -⟩ := parse_append hparse (by decide +kernel) hopen hat
  exact hfailed _ herror

end SassNesting
