import SassNesting.Proofs.Node.Preorder
import SassNesting.Proofs.Regrouping.Meaning

/-! # Nodes of a sheet

What the nodes of the sheet that is built from a document look like, each with its depth: directives
are at the top, declarations are not, and a selector starts with a character that is not blank and
has no blanks in it but plain spaces, since it is put together from tokens (`isSheetRow_of_parse`).
-/

namespace SassNesting

open Selector Text

/-! ## Regrouped stylesheets -/

namespace Body

variable {raw : Body}

/-- The selectors of `regroup raw` are tokens joined by spaces and by commas (`IsSpaced`). -/
theorem everySelector_isSpaced_regroup (h : IsFlat raw) : EverySelector IsSpaced (regroup raw) := by
  have htokens : EverySelector HasToken (split raw) :=
    h.everySelector_split.mono fun _ hs => hs.has_token
  have hnested : EverySelector IsSpaced (nest (split raw)) :=
    (everySelector_nest htokens).mono fun _ => isSpaced_of_isToken
  have hspace : ∀ c ∈ [' '], isBlank c = true → c = ' ' := fun c hc _ => List.mem_singleton.1 hc
  have hcomma : ∀ c ∈ [',', ' '], isBlank c = true → c = ' ' :=
    List.forall_mem_cons.2 ⟨fun h => absurd h (by decide), hspace⟩
  apply everySelector_merge_of_append_comma
  · intro s t hs ht
    simpa using hs.join [',', ' '] hcomma ht
  · apply everySelector_collapse_of_append_blank _ hnested
    intro s t hs ht
    simpa using hs.join [' '] hspace ht

/-- Each node of `regroup raw` that is not a rule is one of the stylesheet `raw`. -/
theorem exists_mem_lists_of_regroup (h : IsFlat raw) {b : Body} {node : Node}
    (hb : b ∈ lists (regroup raw)) (hnode : node ∈ b) (hplain : node.isRule = false) :
    ∃ c ∈ lists raw, node ∈ c := by
  have hpieces := (everySelector_regroup h).mono fun _ hs => hs.pieces_ne_nil
  obtain ⟨path, hleaf⟩ := exists_leaf_of_mem_lists hpieces hb hnode hplain []
  rw [← mem_leavesAt, leavesAt_regroup h, mem_leavesAt] at hleaf
  exact exists_mem_lists_of_mem_leaves hleaf

/-- No declaration is at the top of `regroup raw`. -/
theorem declaration_notMem_regroup (h : IsFlat raw) (name value : Text) :
    .declaration name value ∉ regroup raw := by
  intro hmem
  have hplain : .declaration name value ∈ plain (regroup raw) := List.mem_filter.2 ⟨hmem, rfl⟩
  rw [plain_regroup h] at hplain
  exact h.no_declaration name value (List.mem_filter.1 hplain).1

/-- No line kept as it is written is inside a rule of `regroup raw`. -/
theorem verbatim_notMem_innerLists_regroup (h : IsFlat raw) {b : Body}
    (hb : b ∈ innerLists (regroup raw)) (text : Text) : .verbatim text ∉ b := by
  intro hmem
  obtain ⟨s, inner, hrule, hlist⟩ := mem_innerLists.1 hb
  have hinner : text ∈ (Node.rule s inner).verbatims := mem_verbatims_of_mem_lists hlist hmem
  rw [verbatims_rule_regroup h hrule rfl] at hinner
  exact absurd hinner List.not_mem_nil

end Body

/-! ## Rows -/

/-- A node of a sheet that is built from a document, with its depth. -/
inductive IsSheetRow : Nat × Node → Prop where
  /-- A directive stands at the top. -/
  | directive (d : Directive) : IsSheetRow (0, d.node)
  /-- A declaration stands inside a rule, and its name has no blank in it. -/
  | declaration {depth : Nat} {name value : Text} :
      (∀ c ∈ name, isBlank c = false) → IsSheetRow (depth + 1, .declaration name value)
  /-- A rule has a selector put together from tokens. -/
  | rule {depth : Nat} {selector : Text} {body : Body} :
      IsSpaced selector → IsSheetRow (depth, .rule selector body)

/-- The nodes of the sheet that is built from a document are directives at the top, declarations
inside rules, and rules with selectors put together from tokens: each `row` in preorder is
`IsSheetRow`. -/
theorem isSheetRow_of_parse {t : Text} {raw : Body} (h : parse t = .ok raw) {row : Nat × Node}
    (hrow : row ∈ Body.preorder 0 (Body.regroup raw)) : IsSheetRow row := by
  have hflat := Body.isFlat_of_parse h
  obtain ⟨depth, node⟩ := row
  obtain ⟨b, hb, hnode⟩ := Body.exists_mem_lists_of_mem_preorder hrow
  -- Passes make new selectors, but hand on every other node as it is in the document.
  rcases node.plain_or_rule with hplain | ⟨s, inner, rfl⟩
  · obtain ⟨c, hc, hmem⟩ := Body.exists_mem_lists_of_regroup hflat hb hnode hplain
    rcases Body.directive_or_declaration_of_parse h hc hmem hplain with ⟨d, rfl⟩ | ⟨d, rfl, hname⟩
    · rcases Body.mem_of_mem_preorder hrow with ⟨rfl, -⟩ | ⟨-, inner, hinner, hmem⟩
      · exact .directive d
      · exact absurd hmem (Body.verbatim_notMem_innerLists_regroup hflat hinner _)
    · rcases Body.mem_of_mem_preorder hrow with ⟨-, hmem⟩ | ⟨hdepth, -⟩
      · exact absurd hmem (Body.declaration_notMem_regroup hflat _ _)
      · obtain ⟨n, rfl⟩ : ∃ n, depth = n + 1 := ⟨depth - 1, by simp at hdepth; omega⟩
        exact .declaration hname
  · exact .rule (Body.everySelector_isSpaced_regroup hflat b hb s inner hnode)

end SassNesting
