import SassNesting.Proofs.Document.Faults

/-! # What is ignored at the end of a document

Behind its last item a document may hold the tokens of a selector without a block, or a text that
does not start with a selector. Both are ignored, each with a warning of its own, and cut off in
front of them the document makes up the same stylesheet with nothing to warn of. These are the only
ways in which a part of a document that is parsed can be left out, and they exclude each other
(`ignored_with_warning`). -/

namespace SassNesting

open Gap

/-! ## Warnings -/

/-- The items of a document are told in detail only: at the level `.trace`. -/
theorem Reading.level_of_mem_items {r : Reading} {e : Event}
    (h : e ∈ r.directives.map Directive.event ++ r.blocks.map Block.event) : e.level = .trace := by
  rcases List.mem_append.1 h with h | h
  · obtain ⟨d, -, rfl⟩ := List.mem_map.1 h
    rfl
  · obtain ⟨b, -, rfl⟩ := List.mem_map.1 h
    rfl

/-- What is told of the end of a document is a warning: its level is `.warn`. -/
theorem Ending.level_of_mem_warnings {t : Text} {ending : Ending} {e : Event}
    (h : e ∈ ending.warnings t) : e.level = .warn := by
  cases ending with
  | complete => cases h
  | openSelector tokens => cases List.mem_singleton.1 h; rfl
  | trailing rest => cases List.mem_singleton.1 h; rfl
  | fault fault => cases h

/-- Regrouping a stylesheet warns of nothing: its events have the level `.debug`. -/
theorem Body.level_of_mem_regroupEvents {source : Text} {raw : Body} {e : Event}
    (h : e ∈ Body.regroupEvents source raw) : e.level = .debug := by
  rcases List.mem_cons.1 h with rfl | h
  · rfl
  · obtain ⟨stage, -, rfl⟩ := List.mem_map.1 h
    rfl

/-- The warnings in the log of a conversion: what each of them says, and its fields. -/
def warnings (o : Options) (t : Text) : List (Text × List (Text × FieldValue)) :=
  ((conversionEvents o t).filter (·.level = .warn)).map fun e => (e.message, e.fields)

/-- A conversion warns of the end of its document, by `Ending.warnings`, and of nothing else. -/
theorem warnings_eq (o : Options) (t : Text) :
    warnings o t = ((Reading.ofText t).ending.warnings t).map fun e => (e.message, e.fields) := by
  have hitems : ((Reading.ofText t).directives.map Directive.event ++
      (Reading.ofText t).blocks.map Block.event).filter (·.level = .warn) = [] :=
    List.filter_eq_nil_iff.2 fun e he => by simp [Reading.level_of_mem_items he]
  have hending : ((Reading.ofText t).ending.warnings t).filter (·.level = .warn) =
      (Reading.ofText t).ending.warnings t :=
    List.filter_eq_self.2 fun e he => by simp [Ending.level_of_mem_warnings he]
  rw [warnings, conversionEvents, Reading.events, List.filter_append, List.filter_append, hitems,
    hending, List.nil_append]
  cases parse t with
  | error e => rw [List.filter_nil, List.append_nil]
  | ok raw =>
      have hregroup : (Body.regroupEvents o.sourceName raw).filter (·.level = .warn) = [] :=
        List.filter_eq_nil_iff.2 fun e he => by simp [Body.level_of_mem_regroupEvents he]
      rw [hregroup, List.append_nil]

/-! ## Documents read to their end -/

/-- A document `t` that makes up a stylesheet by itself: every character of it belongs to an item of
the stylesheet or to a gap, and nothing is warned of. -/
structure IsReadWhole (o : Options) (t : Text) (body : Body) : Prop where
  /-- The document makes up the stylesheet. -/
  parsed : parse t = .ok body
  /-- Nothing is warned of. -/
  quiet : warnings o t = []
  /-- The items of the stylesheet and the gaps after them are all there is. -/
  covered : ∃ r : Reading, r.Written t ∧ r.ending = .complete ∧ r.body = body

/-- The document ends with the tokens of a selector that has no block. They are warned of, and
without them the document makes up `body` by itself (`IsReadWhole`). -/
def IgnoresSelector (o : Options) (t : Text) (body : Body) : Prop :=
  ∃ front tail tokens, t = front ++ tail ∧ tokens ≠ [] ∧
    Sequence (TokenWritten Block.isSelectorChar) [] tokens tail ∧
    warnings o t = [("ignoring selector with no declaration block".toList,
      [("selector".toList, .text (Selector.ofTokens (tokens.map (·.1))))])] ∧
    IsReadWhole o front body

/-- The document ends with a text that starts with a brace where a selector should start. Its place
is warned of, and without it the document makes up `body` by itself (`IsReadWhole`). -/
def IgnoresRest (o : Options) (t : Text) (body : Body) : Prop :=
  ∃ front rest, t = front ++ '{' :: rest ∧ Text.byteSize front < Text.byteSize t ∧
    warnings o t = [("ignoring trailing input that does not start a rule".toList,
      [("pos".toList, .number (Text.byteSize front))])] ∧
    IsReadWhole o front body

/-- A document whose reading has the ending `complete` is read whole. -/
theorem isReadWhole_of_complete {t : Text} (h : (Reading.ofText t).ending = .complete)
    (o : Options) : IsReadWhole o t (Reading.ofText t).body := by
  have hfault : ∀ fault, (Reading.ofText t).ending ≠ .fault fault := by
    intro fault
    simp [h]
  refine ⟨parse_eq_ok_iff_ofText.2 ⟨hfault, rfl⟩, ?_, Reading.ofText t,
    Reading.written_ofText hfault, h, rfl⟩
  rw [warnings_eq, h]
  rfl

/-- A document that is parsed to `body` is read whole, or what is behind its items is ignored. -/
theorem readWhole_or_ignores {t : Text} {body : Body} (h : parse t = .ok body) (o : Options) :
    IsReadWhole o t body ∨ IgnoresSelector o t body ∨ IgnoresRest o t body := by
  obtain ⟨hfault, rfl⟩ := parse_eq_ok_iff_ofText.1 h
  obtain ⟨front, tail, rfl, habsent, hstop, hfront⟩ := Reading.exists_cut t
  have hwhole : IsReadWhole o front (Reading.ofText (front ++ tail)).body := by
    have hread := isReadWhole_of_complete (t := front) (by rw [hfront]) o
    rwa [hfront] at hread
  have hwarn := warnings_eq o (front ++ tail)
  rcases hstop with ⟨fault, hending, -⟩ | hstop
  · exact absurd hending (hfault fault)
  · have hwritten := Block.ending_written_of_read habsent hstop hfault
    generalize hending : (Reading.ofText (front ++ tail)).ending = ending at hwritten hwarn
    cases hwritten with
    | complete =>
        exact Or.inl (isReadWhole_of_complete hending o)
    | @openSelector _ tokens hne hselector =>
        refine Or.inr (Or.inl ⟨front, tail, tokens, rfl, hne, hselector, ?_, hwhole⟩)
        rw [hwarn]
        rfl
    | @trailing rest =>
        refine Or.inr (Or.inr ⟨front, rest, rfl, ?_, ?_, hwhole⟩)
        · rw [Text.byteSize_append, Text.byteSize_cons]
          have := '{'.utf8Size_pos
          omega
        · rw [hwarn, Ending.warnings, Text.offset_append]
          rfl

/-- **What is left out is warned of.** What is left out of a document that is parsed is warned of
and changes nothing: exactly one of three holds. Nothing is left out (`IsReadWhole`); or the tokens
of a selector at the end of the document are, with a warning that names them (`IgnoresSelector`); or
the text from a brace on is, with a warning that gives its place (`IgnoresRest`). Cut off there, the
document makes up the same stylesheet, and nothing is warned of. After a syntax error there is no
warning either. -/
theorem ignored_with_warning (o : Options) (t : Text) :
    (∀ body, parse t = .ok body →
      (IsReadWhole o t body ∨ IgnoresSelector o t body ∨ IgnoresRest o t body) ∧
        ¬ (IsReadWhole o t body ∧ IgnoresSelector o t body) ∧
        ¬ (IsReadWhole o t body ∧ IgnoresRest o t body) ∧
        ¬ (IgnoresSelector o t body ∧ IgnoresRest o t body)) ∧
      ∀ e, parse t = .error e → warnings o t = [] := by
  constructor
  · -- The three cases have different warnings.
    intro body h
    refine ⟨readWhole_or_ignores h o, ?_, ?_, ?_⟩
    · rintro ⟨hwhole, _, _, _, _, _, _, hwarn, _⟩
      rw [hwhole.quiet] at hwarn
      cases hwarn
    · rintro ⟨hwhole, _, _, _, _, hwarn, _⟩
      rw [hwhole.quiet] at hwarn
      cases hwarn
    · rintro ⟨⟨_, _, _, _, _, _, hselector, _⟩, _, _, _, _, hrest, _⟩
      rw [hselector] at hrest
      simp at hrest
  · intro e h
    obtain ⟨fault, hfault, -⟩ := exists_fault_of_parse h
    rw [warnings_eq, hfault]
    rfl

/-- Two tokens with a comment between them are left out behind a block; where a second block is at
fault, nothing is warned of. -/
theorem ignored_with_warning_tokens :
    IgnoresSelector {} "a\x7bb:c\x7d d /*\x7b*/ e".toList
        [.rule "a".toList [.declaration "b".toList "c".toList]] ∧
      parse "a\x7bb:c\x7d d\x7be".toList = .error ⟨.colon, 10⟩ ∧
      warnings {} "a\x7bb:c\x7d d\x7be".toList = [] := by
  have hparse : parse "a\x7bb:c\x7d d /*\x7b*/ e".toList =
      .ok [.rule "a".toList [.declaration "b".toList "c".toList]] := by decide +kernel
  have herror : parse "a\x7bb:c\x7d d\x7be".toList = .error ⟨.colon, 10⟩ := by decide +kernel
  have hending : (Reading.ofText "a\x7bb:c\x7d d /*\x7b*/ e".toList).ending =
      .openSelector ["d".toList, "e".toList] := by decide +kernel
  refine ⟨?_, herror, (ignored_with_warning {} _).2 _ herror⟩
  obtain ⟨hone, -⟩ := (ignored_with_warning {} _).1 _ hparse
  rcases hone with hwhole | hselector | ⟨_, _, -, -, hrest, -⟩
  · have hquiet := hwhole.quiet
    rw [warnings_eq, hending] at hquiet
    cases hquiet
  · exact hselector
  · -- The field of the warning is a text and not a place.
    rw [warnings_eq, hending] at hrest
    have hfields : [("selector".toList,
        FieldValue.text (Selector.ofTokens ["d".toList, "e".toList]))] = [("pos".toList, _)] :=
      congrArg (List.flatMap Prod.snd) hrest
    cases hfields

end SassNesting
