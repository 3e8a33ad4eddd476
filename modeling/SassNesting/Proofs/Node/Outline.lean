import SassNesting.Node.Outline
import SassNesting.Proofs.Node.Preorder
import SassNesting.Proofs.Text.Quoted

/-! # Outlines are read back

An outline is the line of the root and then that of each node in preorder. Whatever the texts of the
nodes hold, their quoted forms stay on one line and can be told from what follows them, and the
indentation shows the depth: so an outline determines its tree, and has as many lines as there are
nodes, and one more (`outline_eq_iff`). -/

namespace SassNesting

/-! ## Lines of nodes -/

/-- What the outline says of a node, behind the indentation of its line. -/
def Node.outlineLabel : Node → Text
  | .verbatim text => "value ".toList ++ text.quote
  | .declaration name value => "attr ".toList ++ name.quote ++ " = ".toList ++ value.quote
  | .rule selector _ => "rule ".toList ++ selector.quote

theorem Node.outlineLabel_verbatim (text : Text) :
    (Node.verbatim text).outlineLabel = "value ".toList ++ text.quote := rfl

theorem Node.outlineLabel_declaration (name value : Text) :
    (Node.declaration name value).outlineLabel =
      "attr ".toList ++ name.quote ++ " = ".toList ++ value.quote := rfl

theorem Node.outlineLabel_rule (selector : Text) (body : Body) :
    (Node.rule selector body).outlineLabel = "rule ".toList ++ selector.quote := rfl

/-- The line of the outline for a node at a depth. -/
def outlineLine (row : Nat × Node) : Text := outlineIndent row.1 ++ row.2.outlineLabel

/-- The lines of an outline are those of the nodes in preorder:
`(preorder depth body).map outlineLine`. -/
theorem Body.outlineLines_eq_map (depth : Nat) (body : Body) :
    Body.outlineLines depth body = (Body.preorder depth body).map outlineLine := by
  refine Body.eq_map_preorder (fun _ => rfl) ?_ depth body
  intro depth node rest
  have hnode : node.outlineLines depth =
      outlineLine (depth, node) :: Body.outlineLines (depth + 1) node.inner := by
    cases node with
    | verbatim text =>
        rw [outlineLine, Node.outlineLabel_verbatim, ← List.append_assoc]
        rfl
    | declaration name value =>
        rw [outlineLine, Node.outlineLabel_declaration, ← List.append_assoc, ← List.append_assoc,
          ← List.append_assoc]
        rfl
    | rule s inner =>
        rw [outlineLine, Node.outlineLabel_rule, ← List.append_assoc]
        rfl
  rw [Body.outlineLines_cons, hnode, List.cons_append]

/-- What an outline says of a node, `outlineLabel`, does not start with a space. -/
theorem Node.head?_outlineLabel (node : Node) : node.outlineLabel.head? ≠ some ' ' := by
  cases node with
  | verbatim text => exact ne_of_beq_false rfl
  | declaration name value => exact ne_of_beq_false rfl
  | rule s inner => exact ne_of_beq_false rfl

/-- The `outlineLabel` tells a node apart from others with the same inside them. -/
theorem Node.eq_of_outlineLabel_eq {a b : Node} (h : a.outlineLabel = b.outlineLabel)
    (hinner : a.inner = b.inner) : a = b := by
  -- Nodes of different kinds differ in the first character of what the outline says of them.
  cases a with
  | verbatim s =>
      cases b with
      | verbatim t => rw [Text.quote_inj (List.append_cancel_left h)]
      | declaration name value => cases congrArg List.head? h
      | rule t body => cases congrArg List.head? h
  | declaration name value =>
      cases b with
      | verbatim t => cases congrArg List.head? h
      | declaration other value' =>
          rw [Node.outlineLabel_declaration, Node.outlineLabel_declaration] at h
          simp only [List.append_assoc, List.append_cancel_left_eq] at h
          obtain ⟨rfl, hvalues⟩ := Text.quote_append_inj h
          rw [Text.quote_inj (List.append_cancel_left hvalues)]
      | rule t body => cases congrArg List.head? h
  | rule s body =>
      cases b with
      | verbatim t => cases congrArg List.head? h
      | declaration name value => cases congrArg List.head? h
      | rule t below =>
          rw [Node.inner_rule, Node.inner_rule] at hinner
          rw [Text.quote_inj (List.append_cancel_left h), hinner]

/-- The lines of an outline can be read: `IsReadable` for `outlineLine`. -/
theorem isReadable_outlineLine : IsReadable (fun _ => True) outlineLine := by
  refine IsReadable.of_indented Node.outlineLabel Nat.two_pos ?_ ?_ ?_
  · intro row _
    rw [outlineLine, outlineIndent, Nat.mul_comm]
  · exact fun row _ => row.2.head?_outlineLabel
  · intro row other _ _ _ hlabel hinner
    exact Node.eq_of_outlineLabel_eq hlabel hinner

/-- What an outline says of a node, `outlineLabel`, stays on one line. -/
theorem Node.newline_notMem_outlineLabel (node : Node) : '\n' ∉ node.outlineLabel := by
  cases node with
  | verbatim text => exact List.not_mem_append (by decide) (Text.newline_notMem_quote text)
  | declaration name value =>
      have hname : '\n' ∉ "attr ".toList ++ name.quote :=
        List.not_mem_append (by decide) (Text.newline_notMem_quote name)
      exact List.not_mem_append (List.not_mem_append hname (by decide))
        (Text.newline_notMem_quote value)
  | rule s inner => exact List.not_mem_append (by decide) (Text.newline_notMem_quote s)

/-- The line of a node, `outlineLine row`, is one line. -/
theorem newline_notMem_outlineLine (row : Nat × Node) : '\n' ∉ outlineLine row := by
  have hindent : '\n' ∉ outlineIndent row.1 := fun h =>
    absurd (List.eq_of_mem_replicate h) (by decide)
  exact List.not_mem_append hindent row.2.newline_notMem_outlineLabel

/-! ## Outlines of trees -/

/-- **The outline determines the tree.** Two stylesheets have the same outline only if they are
equal, whatever texts they hold. Cut at its line feeds, an outline is the line `root`, the lines of
the nodes in preorder, and nothing behind the last line feed; so there is one line feed more than
there are nodes, `Body.count b + 1`. -/
theorem outline_eq_iff (b c : Body) :
    (Body.outline b = Body.outline c ↔ b = c) ∧
      (Body.outline b).splitOn '\n' =
        "root".toList :: (Body.preorder 1 b).map outlineLine ++ [[]] ∧
      (Body.outline b).count '\n' = Body.count b + 1 := by
  have hlines : ∀ body : Body, ∀ line ∈ "root".toList :: Body.outlineLines 1 body, '\n' ∉ line := by
    intro body
    rw [Body.outlineLines_eq_map, List.forall_mem_cons, List.forall_mem_map]
    exact ⟨by decide, fun row _ => newline_notMem_outlineLine row⟩
  refine ⟨⟨?_, ?_⟩, ?_, ?_⟩
  · intro h
    have hall := (Text.unlines_inj (hlines b) (hlines c)).1 h
    rw [Body.outlineLines_eq_map, Body.outlineLines_eq_map] at hall
    exact isReadable_outlineLine.preorder_inj (fun _ _ => trivial) (fun _ _ => trivial)
      (List.cons.inj hall).2
  · rintro rfl
    rfl
  · rw [Body.outline, Text.splitOn_unlines (hlines b), Body.outlineLines_eq_map]
  · rw [Body.outline, Text.count_unlines_of_notMem (hlines b), List.length_cons,
      Body.outlineLines_eq_map, List.length_map, Body.length_preorder]

end SassNesting
