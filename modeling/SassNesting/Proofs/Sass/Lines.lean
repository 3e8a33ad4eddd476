import SassNesting.Proofs.Regrouping.Rows
import SassNesting.Proofs.Text.Lines

/-! # Lines of indented Sass

The nodes of a sheet are written in preorder, each on a line that its depth indents. What a
directive and a declaration keep as it is written may itself hold line feeds, and nothing else in a
sheet does: so the text has a line feed for each node and those that are kept, and is cut into the
lines of its nodes exactly where none is kept (`convert_lines`). -/

namespace SassNesting

open Text

/-! ## The line of a node -/

/-- What the line of a node says, behind its indentation. -/
def Node.sassLabel : Node → Text
  | .verbatim text => text
  | .declaration name value => ':' :: name ++ ' ' :: value
  | .rule selector _ => selector

/-- The line of a node at a depth, where each level adds `width` spaces in front of it. A line kept
as it is written starts at the margin. -/
def sassLine (width : Nat) : Nat × Node → Text
  | (_, .verbatim text) => text
  | (depth, node) => List.replicate (depth * width) ' ' ++ node.sassLabel

namespace Body

/-- The lines of a body are those of its nodes in preorder, by `sassLine`, with at most
`maxIndentWidth` spaces for a level. -/
theorem sassLines_eq_map (o : Options) (depth : Nat) (body : Body) :
    sassLines o depth body =
      (preorder depth body).map (sassLine (min o.indentWidth maxIndentWidth)) := by
  refine eq_map_preorder (fun _ => rfl) ?_ depth body
  intro depth node rest
  cases node with
  | verbatim text => simp [sassLine]
  | declaration name value => simp [sassLine, Node.sassLabel, Options.indent]
  | rule s inner => simp [sassLine, Node.sassLabel, Options.indent]

/-- The lines of a body are those of its nodes, `Node.sassLines`, one after another. -/
theorem sassLines_eq_flatMap (o : Options) (depth : Nat) (body : Body) :
    sassLines o depth body = body.flatMap (Node.sassLines o depth) := by
  induction body with
  | nil => rfl
  | cons node rest ih => rw [sassLines_cons, ih, List.flatMap_cons]

/-- Where no empty lines are asked for, `sass o body` is the lines of the nodes in preorder. -/
theorem sass_of_not_spaced {o : Options} (h : o.spaced = false) (body : Body) :
    sass o body =
      unlines ((preorder 0 body).map (sassLine (min o.indentWidth maxIndentWidth))) := by
  have hparagraph : Node.sassParagraph o = Node.sassLines o 0 := by
    funext node
    simp [Node.sassParagraph, h]
  rw [sass, hparagraph, ← sassLines_eq_flatMap, sassLines_eq_map]

end Body

/-! ## Lines of a sheet -/

namespace IsSheetRow

variable {row : Nat × Node}

/-- Every node of a sheet stands behind the indentation of its depth: `row.1 * width` spaces. -/
theorem sassLine_eq (h : IsSheetRow row) (width : Nat) :
    sassLine width row = List.replicate (row.1 * width) ' ' ++ row.2.sassLabel := by
  cases h with
  | directive d => simp [sassLine, Directive.node, Node.sassLabel]
  | declaration _ => rfl
  | rule _ => rfl

/-- What is behind the indentation, `sassLabel`, starts with a character, and not with a space. -/
theorem head?_sassLabel (h : IsSheetRow row) :
    row.2.sassLabel ≠ [] ∧ row.2.sassLabel.head? ≠ some ' ' := by
  cases h with
  | directive d => simp [Directive.node, Node.sassLabel]
  | declaration _ => simp [Node.sassLabel]
  | rule hspaced =>
      refine ⟨?_, hspaced.head?_ne_space⟩
      obtain ⟨c, rest, hcons, -⟩ := hspaced.starts
      simp [Node.sassLabel, hcons]

end IsSheetRow

/-! ## Line feeds -/

/-- What a node keeps as it is written: the line, or the value of a declaration. -/
def Node.kept : Node → Text
  | .verbatim text => text
  | .declaration _ value => value
  | .rule _ _ => []

/-- What the nodes of a body keep as it is written, at every depth, one after another. -/
def Body.kept (body : Body) : Text := (Body.preorder 0 body).flatMap fun row => row.2.kept

/-- The line of a node of a sheet has no line feeds in it but those in `row.2.kept`, what the node
keeps. -/
theorem IsSheetRow.count_sassLine {row : Nat × Node} (h : IsSheetRow row) (width : Nat) :
    (sassLine width row).count '\n' = row.2.kept.count '\n' := by
  have hindent : (List.replicate (row.1 * width) ' ').count '\n' = 0 :=
    List.count_eq_zero.2 fun hmem => absurd (List.eq_of_mem_replicate hmem) (by decide)
  rw [h.sassLine_eq, List.count_append, hindent, Nat.zero_add]
  cases h with
  | directive d => rfl
  | declaration hname =>
      have hnone : '\n' ∉ _ := fun hmem => absurd (hname '\n' hmem) (by decide)
      simp [Node.sassLabel, Node.kept, List.count_eq_zero.2 hnone]
  | rule hspaced => exact List.count_eq_zero.2 hspaced.newline_notMem

/-- The lines of nodes of a sheet, `rows`, have as many line feeds in them as what the nodes keep.
-/
theorem count_flatten_map_sassLine {rows : List (Nat × Node)} (h : ∀ row ∈ rows, IsSheetRow row)
    (width : Nat) :
    (rows.map (sassLine width)).flatten.count '\n' =
      (rows.flatMap fun row => row.2.kept).count '\n' := by
  induction rows with
  | nil => rfl
  | cons row rows ih =>
      rw [List.forall_mem_cons] at h
      rw [List.map_cons, List.flatten_cons, List.count_append, h.1.count_sassLine, ih h.2,
        List.flatMap_cons, List.count_append]

/-- Where nothing in `Body.kept sheet` is a line feed, no line of the sheet has one. -/
theorem newline_notMem_of_kept {sheet : Body}
    (hsheet : ∀ row ∈ Body.preorder 0 sheet, IsSheetRow row) (h : '\n' ∉ Body.kept sheet)
    (width : Nat) : ∀ line ∈ (Body.preorder 0 sheet).map (sassLine width), '\n' ∉ line := by
  rw [List.forall_mem_map]
  intro row hrow
  have hkept : '\n' ∉ row.2.kept := fun hmem => h (List.mem_flatMap.2 ⟨row, hrow, hmem⟩)
  rwa [← List.count_eq_zero, (hsheet row hrow).count_sassLine, List.count_eq_zero]

/-- **The lines of a conversion.** With the default options, what a document is converted to is the
lines of the nodes of its sheet in preorder, by `sassLine 2`: a directive at the margin, and a
selector or a declaration behind two spaces for each level. There are as many line feeds as nodes,
and those inside of values and directives (`Body.kept`); where there are none of these, cutting at
the line feeds gives the lines of the nodes, one by one. -/
theorem convert_lines {t : Text} {raw : Body} (h : parse t = .ok raw) :
    ∃ sheet out, buildSheet {} t = .ok sheet ∧ convert {} t = .ok out ∧
      out = unlines ((Body.preorder 0 sheet).map (sassLine 2)) ∧
      out.count '\n' = Body.count sheet + (Body.kept sheet).count '\n' ∧
      ('\n' ∉ Body.kept sheet →
        out.splitOn '\n' = (Body.preorder 0 sheet).map (sassLine 2) ++ [[]]) := by
  have hbuild := buildSheet_of_parse h {}
  have hsheet : ∀ row ∈ Body.preorder 0 (Body.regroup raw), IsSheetRow row :=
    fun _ => isSheetRow_of_parse h
  have hout : Body.sass {} (Body.regroup raw) =
      unlines ((Body.preorder 0 (Body.regroup raw)).map (sassLine 2)) :=
    Body.sass_of_not_spaced rfl _
  refine ⟨Body.regroup raw, Body.sass {} (Body.regroup raw), hbuild, ?_, hout, ?_, ?_⟩
  · rw [convert, hbuild]
  · rw [hout, count_unlines, count_flatten_map_sassLine hsheet, List.length_map,
      Body.length_preorder, Body.kept]
  · intro hnone
    rw [hout, splitOn_unlines (newline_notMem_of_kept hsheet hnone 2)]

/-- A directive, and two rules that are grouped under one token. -/
theorem convert_lines_grouped :
    ∃ raw, parse "@x y; a b\x7bp:q\nr\x7d a c\x7bs:t\x7d".toList = .ok raw ∧
      ∃ sheet out, buildSheet {} "@x y; a b\x7bp:q\nr\x7d a c\x7bs:t\x7d".toList = .ok sheet ∧
        convert {} "@x y; a b\x7bp:q\nr\x7d a c\x7bs:t\x7d".toList = .ok out ∧
        out = unlines ((Body.preorder 0 sheet).map (sassLine 2)) ∧
        out.count '\n' = Body.count sheet + (Body.kept sheet).count '\n' ∧
        ('\n' ∉ Body.kept sheet →
          out.splitOn '\n' = (Body.preorder 0 sheet).map (sassLine 2) ++ [[]]) := by
  have h : parse "@x y; a b\x7bp:q\nr\x7d a c\x7bs:t\x7d".toList =
      .ok [.verbatim "@x y;".toList,
        .rule "a b".toList [.declaration "p".toList "q\nr".toList],
        .rule "a c".toList [.declaration "s".toList "t".toList]] := by
    decide +kernel
  exact ⟨_, h, convert_lines h⟩

/-- A line feed inside a value or a directive is kept, so that a sheet of two nodes is written on
three lines, and one of a single node on two. -/
theorem convert_lineFeeds_kept :
    (∃ sheet out, buildSheet {} "a\x7bb:c\nd\x7d".toList = .ok sheet ∧
      convert {} "a\x7bb:c\nd\x7d".toList = .ok out ∧
      Body.count sheet = 2 ∧ out.count '\n' = 3) ∧
    ∃ sheet out, buildSheet {} "@x y\nz;".toList = .ok sheet ∧
      convert {} "@x y\nz;".toList = .ok out ∧ Body.count sheet = 1 ∧ out.count '\n' = 2 := by
  constructor
  · let sheet : Body := [.rule "a".toList [.declaration "b".toList "c\nd".toList]]
    exact ⟨sheet, "a\n  :b c\nd\n".toList, by decide +kernel, by decide +kernel, rfl,
      by decide +kernel⟩
  · exact ⟨[.verbatim "@x y\nz;".toList], "@x y\nz;\n".toList, by decide +kernel,
      by decide +kernel, rfl, by decide +kernel⟩

end SassNesting
