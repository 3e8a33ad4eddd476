import SassNesting.Proofs.Sass.Lines

/-! # Indented Sass is read back

In a sheet whose lines are lines of text and whose rules are not empty, what the text says is enough
to tell the nodes: the indentation gives the depth, a rule is what has something deeper behind it,
and among the other nodes the directives are those at the margin. So two sheets of this kind that
are written alike are equal, whether a selector looks like a declaration or a directive, and whether
empty lines are put between the nodes at the top (`eq_of_sass_eq`). -/

namespace SassNesting

open Text

/-! ## Legible sheets -/

/-- A node whose value or line has no line feed in it, and which is not a rule without a body. -/
def Node.IsLegible : Node → Prop
  | .verbatim text => '\n' ∉ text
  | .declaration _ value => '\n' ∉ value
  | .rule _ body => body ≠ []

instance Node.decidableIsLegible : DecidablePred Node.IsLegible
  | .verbatim text => inferInstanceAs (Decidable ('\n' ∉ text))
  | .declaration _ value => inferInstanceAs (Decidable ('\n' ∉ value))
  | .rule _ body => inferInstanceAs (Decidable (body ≠ []))

/-- A sheet in which every node is legible, at every depth. -/
def Body.IsLegible : Body → Prop := Everywhere fun b => ∀ node ∈ b, node.IsLegible

instance Body.decidableIsLegible (body : Body) : Decidable body.IsLegible :=
  inferInstanceAs (Decidable (∀ b ∈ lists body, ∀ node ∈ b, node.IsLegible))

/-- A legible node keeps no line feed: there is none in `node.kept`. -/
theorem Node.IsLegible.newline_notMem_kept {node : Node} (h : node.IsLegible) :
    '\n' ∉ node.kept := by
  cases node with
  | verbatim text => exact h
  | declaration name value => exact h
  | rule s inner => exact List.not_mem_nil

/-- A node of a legible sheet, with its depth. -/
structure IsLegibleRow (row : Nat × Node) : Prop where
  /-- The node is one of a sheet. -/
  isSheetRow : IsSheetRow row
  /-- The node is legible. -/
  isLegible : row.2.IsLegible

/-- The nodes of the `sheet` that is built from a document are legible where the sheet is. -/
theorem isLegibleRow_of_buildSheet {o : Options} {t : Text} {sheet : Body}
    (h : buildSheet o t = .ok sheet) (hlegible : sheet.IsLegible) :
    ∀ row ∈ Body.preorder 0 sheet, IsLegibleRow row := by
  intro row hrow
  obtain ⟨raw, hparse, rfl⟩ := exists_parse_of_buildSheet h
  obtain ⟨b, hb, hmem⟩ := Body.exists_mem_lists_of_mem_preorder hrow
  exact ⟨isSheetRow_of_parse hparse hrow, hlegible b hb row.2 hmem⟩

namespace IsLegibleRow

variable {row other : Nat × Node}

/-- The line of a legible node, `sassLine width row`, is one line. -/
theorem newline_notMem_sassLine (h : IsLegibleRow row) (width : Nat) :
    '\n' ∉ sassLine width row := by
  rw [← List.count_eq_zero, h.isSheetRow.count_sassLine, List.count_eq_zero]
  exact h.isLegible.newline_notMem_kept

/-- The line of a legible node, `sassLine width row`, is not empty. -/
theorem sassLine_ne_nil (h : IsLegibleRow row) (width : Nat) : sassLine width row ≠ [] := by
  rw [h.isSheetRow.sassLine_eq]
  exact List.append_ne_nil_of_right_ne_nil _ h.isSheetRow.head?_sassLabel.1

/-- A legible node is told by its depth, its `sassLabel` and what is inside it: a rule is what has
something inside it, and of the other nodes the declarations are those that are not at the top. -/
theorem eq_of_sassLabel_eq (hrow : IsLegibleRow row) (hother : IsLegibleRow other)
    (hdepth : row.1 = other.1) (hlabel : row.2.sassLabel = other.2.sassLabel)
    (hinner : row.2.inner = other.2.inner) : row.2 = other.2 := by
  obtain ⟨hrow, hlegible⟩ := hrow
  obtain ⟨hother, hlegible'⟩ := hother
  -- Nodes of different kinds differ in their depth or in what is inside them, so what their labels
  -- have in common does not matter.
  cases hrow with
  | directive d =>
      cases hother with
      | directive e => exact congrArg Node.verbatim hlabel
      | declaration _ => cases hdepth
      | rule _ => exact absurd hinner.symm hlegible'
  | declaration hname =>
      cases hother with
      | directive e => cases hdepth
      | declaration hname' =>
          have hspace : ∀ {name : Text}, (∀ c ∈ name, isBlank c = false) → ' ' ∉ name :=
            fun h hmem => absurd (h ' ' hmem) (by decide)
          obtain ⟨rfl, rfl⟩ := append_cons_inj (hspace hname) (hspace hname')
            (List.cons.inj hlabel).2
          rfl
      | rule _ => exact absurd hinner.symm hlegible'
  | rule _ =>
      cases hother with
      | directive e => exact absurd hinner hlegible
      | declaration _ => exact absurd hinner hlegible
      | rule _ =>
          cases hlabel
          cases hinner
          rfl

end IsLegibleRow

/-- The lines of legible nodes can be read: `IsReadable` for `sassLine width`. -/
theorem isReadable_sassLine {width : Nat} (hwidth : 0 < width) :
    IsReadable IsLegibleRow (sassLine width) := by
  refine IsReadable.of_indented Node.sassLabel hwidth ?_ ?_ ?_
  · exact fun row hrow => hrow.isSheetRow.sassLine_eq width
  · exact fun row hrow => hrow.isSheetRow.head?_sassLabel.2
  · intro row other hrow hother hdepth hlabel hinner
    exact hrow.eq_of_sassLabel_eq hother hdepth hlabel hinner

/-! ## Texts of sheets -/

namespace Body

variable {o : Options} {body : Body}

/-- What is not one of `sassLines o 0 body` in the text of a sheet is an empty line. -/
theorem eq_nil_or_mem_sassLines {line : Text} (h : line ∈ body.flatMap (Node.sassParagraph o)) :
    line = [] ∨ line ∈ sassLines o 0 body := by
  obtain ⟨node, hnode, hline⟩ := List.mem_flatMap.1 h
  rcases List.mem_append.1 hline with hline | hline
  · rw [sassLines_eq_flatMap]
    exact Or.inr (List.mem_flatMap.2 ⟨node, hnode, hline⟩)
  · left
    cases hspaced : o.spaced <;> simp_all

/-- Without the empty lines, the text of a sheet is `sassLines o 0 body`, the lines of its nodes. -/
theorem filter_flatMap_sassParagraph (h : ∀ line ∈ sassLines o 0 body, line ≠ []) :
    (body.flatMap (Node.sassParagraph o)).filter (· ≠ []) = sassLines o 0 body := by
  have hempty : (if o.spaced then [([] : Text)] else []).filter (· ≠ []) = [] := by
    cases o.spaced <;> simp
  induction body with
  | nil => rfl
  | cons node rest ih =>
      rw [sassLines_cons, List.forall_mem_append] at h
      have hnode : (node.sassLines o 0).filter (· ≠ []) = node.sassLines o 0 :=
        List.filter_eq_self.2 fun line hline => decide_eq_true (h.1 line hline)
      rw [List.flatMap_cons, List.filter_append, ih h.2, Node.sassParagraph, List.filter_append,
        hempty, hnode, List.append_nil, sassLines_cons]

/-- Legible nodes are written on the same lines if the texts `sass o b` and `sass o c` are the same.
-/
theorem sassLines_eq_of_sass_eq {b c : Body} (hb : ∀ row ∈ preorder 0 b, IsLegibleRow row)
    (hc : ∀ row ∈ preorder 0 c, IsLegibleRow row) (h : sass o b = sass o c) :
    sassLines o 0 b = sassLines o 0 c := by
  have hlines : ∀ {body : Body}, (∀ row ∈ preorder 0 body, IsLegibleRow row) →
      ∀ line ∈ sassLines o 0 body, '\n' ∉ line ∧ line ≠ [] := by
    intro body hbody
    rw [sassLines_eq_map, List.forall_mem_map]
    exact fun row hrow => ⟨(hbody row hrow).newline_notMem_sassLine _,
      (hbody row hrow).sassLine_ne_nil _⟩
  have hall : ∀ {body : Body}, (∀ row ∈ preorder 0 body, IsLegibleRow row) →
      ∀ line ∈ body.flatMap (Node.sassParagraph o), '\n' ∉ line := by
    intro body hbody line hline
    rcases eq_nil_or_mem_sassLines hline with rfl | hline
    · exact List.not_mem_nil
    · exact (hlines hbody line hline).1
  -- Line by line the two texts are the same, and the lines of nodes are those that are not empty.
  have hparagraphs := (unlines_inj (hall hb) (hall hc)).1 h
  rw [← filter_flatMap_sassParagraph fun line hline => (hlines hb line hline).2, hparagraphs,
    filter_flatMap_sassParagraph fun line hline => (hlines hc line hline).2]

end Body

/-- **The text of a sheet determines the sheet.** Two documents whose sheets `b` and `c` are legible
have equal sheets if these are written alike, with the same options and levels that are indented at
all: `Body.sass o b = Body.sass o c` gives `b = c`. -/
theorem eq_of_sass_eq {o : Options} {s t : Text} {b c : Body} (ho : 0 < o.indentWidth)
    (hs : buildSheet o s = .ok b) (ht : buildSheet o t = .ok c) (hb : b.IsLegible)
    (hc : c.IsLegible) (h : Body.sass o b = Body.sass o c) : b = c := by
  have hwidth : 0 < min o.indentWidth maxIndentWidth := Nat.lt_min.2 ⟨ho, by decide⟩
  have hrows := isLegibleRow_of_buildSheet hs hb
  have hrows' := isLegibleRow_of_buildSheet ht hc
  have hlines := Body.sassLines_eq_of_sass_eq hrows hrows' h
  rw [Body.sassLines_eq_map, Body.sassLines_eq_map] at hlines
  exact (isReadable_sassLine hwidth).preorder_inj hrows hrows' hlines

/-- Two ways of writing a sheet in which one selector looks like a declaration and another one like
a directive, with empty lines between the nodes at the top. -/
theorem eq_of_sass_eq_lookalikes :
    ∃ b c,
      buildSheet ⟨20, true, none⟩
        "@x y; a :h\x7bp:q\x7d a c\x7br:s\x7d @m\x7bt:u\x7d".toList = .ok b ∧
      buildSheet ⟨20, true, none⟩
        "@x  y;a\t:h \x7bp:q\x7d@m\x7b t : u ; \x7d a c\x7br:s\x7d".toList = .ok c ∧
      b.IsLegible ∧ c.IsLegible ∧
      Body.sass ⟨20, true, none⟩ b = Body.sass ⟨20, true, none⟩ c ∧ b = c := by
  let sheet : Body := [.verbatim "@x y;".toList,
    .rule "a".toList [.rule ":h".toList [.declaration "p".toList "q".toList],
      .rule "c".toList [.declaration "r".toList "s".toList]],
    .rule "@m".toList [.declaration "t".toList "u".toList]]
  have hb : buildSheet ⟨20, true, none⟩
      "@x y; a :h\x7bp:q\x7d a c\x7br:s\x7d @m\x7bt:u\x7d".toList = .ok sheet := by
    decide +kernel
  have hc : buildSheet ⟨20, true, none⟩
      "@x  y;a\t:h \x7bp:q\x7d@m\x7b t : u ; \x7d a c\x7br:s\x7d".toList = .ok sheet := by
    decide +kernel
  have hlegible : sheet.IsLegible := by decide +kernel
  exact ⟨sheet, sheet, hb, hc, hlegible, hlegible, rfl,
    eq_of_sass_eq (by decide) hb hc hlegible hlegible rfl⟩

-- A rule without a body may be written like a declaration, so such rules have to be left out.
example : (buildSheet {} "a\x7bx:y\x7d a :p q\x7b\x7d".toList).map (Body.sass {}) =
    (buildSheet {} "a\x7bx:y;p:q\x7d".toList).map (Body.sass {}) := by
  decide +kernel

end SassNesting
