import SassNesting.Proofs.Document.Completeness
import SassNesting.Proofs.Node.Arrangement
import SassNesting.Proofs.Node.Leaves
import SassNesting.Proofs.Selector.Spacing
import SassNesting.Regrouping.Nesting

/-! # What is parsed is flat

A stylesheet that is parsed has lines kept as they are written and rules, and its rules have nothing
but declarations inside them. Each selector is put together from tokens, so none of them is without
one, and no name of a declaration has a blank in it. -/

namespace SassNesting

open Selector Text

/-! ## Tokens of parsed selectors -/

/-- Each item of a `Sequence` is `Written` in front of some text. -/
theorem Sequence.exists_written_of_mem {α : Type} {Written : α → Text → Text → Prop}
    {rest text : Text} {items : List α} (h : Sequence Written rest items text) {item : α}
    (hitem : item ∈ items) : ∃ own more, Written item own more := by
  induction h with
  | nil => exact absurd hitem List.not_mem_nil
  | cons hwritten _ ih =>
      rcases List.mem_cons.1 hitem with rfl | hitem
      · exact ⟨_, _, hwritten⟩
      · exact ih hitem

/-- The selector of a block that is `Written` is put together from tokens, by `ofTokens`. -/
theorem Block.exists_tokens_of_written {b : Block} {text rest : Text} (h : b.Written text rest) :
    ∃ tokens, tokens ≠ [] ∧ (∀ token ∈ tokens, IsToken token) ∧ b.selector = ofTokens tokens := by
  cases h with
  | @intro _ _ _ _ _ _ _ tokens _ hne hselector _ _ _ _ =>
      refine ⟨tokens.map (·.1), by simpa using hne, ?_, rfl⟩
      intro token hmem
      obtain ⟨pair, hpair, rfl⟩ := List.mem_map.1 hmem
      obtain ⟨own, more, hwritten⟩ := hselector.exists_written_of_mem hpair
      cases hwritten with
      | intro hrun _ _ =>
          refine ⟨hrun.ne_nil, ?_⟩
          intro c hc
          have hchar := hrun.all c hc
          rw [Block.isSelectorChar, Bool.and_eq_true] at hchar
          simpa using hchar.1

/-- The selector of a block that is `Written` has a token. -/
theorem Block.hasToken_selector {b : Block} {text rest : Text} (h : b.Written text rest) :
    HasToken b.selector := by
  obtain ⟨tokens, hne, htokens, hselector⟩ := Block.exists_tokens_of_written h
  rw [hselector, HasToken, words_ofTokens htokens]
  exact hne

/-- No character of a name that is declared in a block is blank. -/
theorem Block.isBlank_name_of_written {b : Block} {text rest : Text} (h : b.Written text rest)
    {d : Declaration} (hd : d ∈ b.declarations) : ∀ c ∈ d.name, isBlank c = false := by
  intro c hc
  cases h with
  | intro _ _ _ _ hdeclarations _ =>
      obtain ⟨own, more, hwritten⟩ := hdeclarations.exists_written_of_mem hd
      cases hwritten with
      | intro hname _ _ _ _ _ =>
          have hchar := hname.all c hc
          rw [Declaration.isNameChar, Bool.and_eq_true, Bool.and_eq_true] at hchar
          simpa using hchar.1.1

/-! ## Flat stylesheets -/

namespace Body

/-- A stylesheet as it is parsed: no rule is inside another one, and no declaration is outside of
the rules. -/
structure IsFlat (body : Body) : Prop where
  /-- Each selector has a token. -/
  has_token : ∀ s inner, .rule s inner ∈ body → HasToken s
  /-- The rules have nothing but declarations inside them. -/
  declarations : ∀ s inner, .rule s inner ∈ body → ∀ node ∈ inner, ∃ d : Declaration, node = d.node
  /-- Outside of the rules there are no declarations. -/
  no_declaration : ∀ name value, .declaration name value ∉ body

/-- A rule of `r.body` is one of the blocks of the reading `r`. -/
theorem exists_block_of_mem {r : Reading} {s : Text} {inner : Body} (h : .rule s inner ∈ r.body) :
    ∃ b ∈ r.blocks, b.selector = s ∧ b.declarations.map Declaration.node = inner := by
  rcases List.mem_append.1 h with hdirective | hblock
  · obtain ⟨d, -, heq⟩ := List.mem_map.1 hdirective
    cases heq
  · obtain ⟨b, hb, heq⟩ := List.mem_map.1 hblock
    cases heq
    exact ⟨b, hb, rfl, rfl⟩

/-- What is parsed is flat: `parse t = .ok raw` gives `IsFlat raw`. -/
theorem isFlat_of_parse {t : Text} {raw : Body} (h : parse t = .ok raw) : IsFlat raw := by
  obtain ⟨hfault, rfl⟩ := parse_eq_ok_iff_ofText.1 h
  have hwritten := Reading.written_ofText hfault
  generalize Reading.ofText t = reading at hwritten
  constructor
  · intro s inner hrule
    obtain ⟨b, hb, rfl, -⟩ := exists_block_of_mem hrule
    cases hwritten with
    | intro _ _ _ hblocks _ =>
        obtain ⟨own, more, hown⟩ := hblocks.exists_written_of_mem hb
        exact Block.hasToken_selector hown
  · intro s inner hrule node hnode
    obtain ⟨b, -, -, rfl⟩ := exists_block_of_mem hrule
    obtain ⟨d, -, rfl⟩ := List.mem_map.1 hnode
    exact ⟨d, rfl⟩
  · intro name value hmem
    rcases List.mem_append.1 hmem with hdirective | hblock
    · obtain ⟨d, -, heq⟩ := List.mem_map.1 hdirective
      cases heq
    · obtain ⟨b, -, heq⟩ := List.mem_map.1 hblock
      cases heq

/-- In what is parsed the rules stand behind the directives: `RulesLast raw`. -/
theorem rulesLast_of_parse {t : Text} {raw : Body} (h : parse t = .ok raw) : RulesLast raw := by
  obtain ⟨-, rfl⟩ := parse_eq_ok_iff_ofText.1 h
  apply rulesLast_append
  · intro node hnode
    obtain ⟨d, -, rfl⟩ := List.mem_map.1 hnode
    rfl
  · intro node hnode
    obtain ⟨b, -, rfl⟩ := List.mem_map.1 hnode
    rfl

/-- Each selector `s` that is parsed is tidy: `IsTidy s`. -/
theorem isTidy_of_parse {t : Text} {raw : Body} (h : parse t = .ok raw) {s : Text} {inner : Body}
    (hrule : .rule s inner ∈ raw) : IsTidy s := by
  obtain ⟨hfault, rfl⟩ := parse_eq_ok_iff_ofText.1 h
  have hwritten := Reading.written_ofText hfault
  generalize Reading.ofText t = reading at hwritten hrule
  obtain ⟨b, hb, rfl, -⟩ := exists_block_of_mem hrule
  cases hwritten with
  | intro _ _ _ hblocks _ =>
      obtain ⟨own, more, hown⟩ := hblocks.exists_written_of_mem hb
      obtain ⟨tokens, hne, htokens, hselector⟩ := Block.exists_tokens_of_written hown
      rw [hselector]
      exact isTidy_ofTokens hne htokens

/-- A node in a parsed stylesheet that is not a rule is `d.node` for a directive `d`, or for a
declaration whose name has no blank in it. -/
theorem directive_or_declaration_of_parse {t : Text} {raw b : Body} (h : parse t = .ok raw)
    (hb : b ∈ lists raw) {node : Node} (hnode : node ∈ b) (hplain : node.isRule = false) :
    (∃ d : Directive, node = d.node) ∨
      ∃ d : Declaration, node = d.node ∧ ∀ c ∈ d.name, isBlank c = false := by
  have hflat := isFlat_of_parse h
  obtain ⟨hfault, rfl⟩ := parse_eq_ok_iff_ofText.1 h
  rcases List.mem_cons.1 hb with rfl | hb
  · rcases List.mem_append.1 hnode with hdirective | hblock
    · obtain ⟨d, -, rfl⟩ := List.mem_map.1 hdirective
      exact Or.inl ⟨d, rfl⟩
    · obtain ⟨block, -, rfl⟩ := List.mem_map.1 hblock
      simp [Block.node] at hplain
  · obtain ⟨s, inner, hrule, hlist⟩ := mem_innerLists.1 hb
    rcases List.mem_cons.1 hlist with rfl | hlist
    · -- The declaration is written between the braces of a block.
      obtain ⟨block, hblock, -, rfl⟩ := exists_block_of_mem hrule
      obtain ⟨d, hd, rfl⟩ := List.mem_map.1 hnode
      have hwritten := Reading.written_ofText hfault
      generalize Reading.ofText t = reading at hwritten hblock
      refine Or.inr ⟨d, rfl, ?_⟩
      cases hwritten with
      | intro _ _ _ hblocks _ =>
          obtain ⟨own, more, hown⟩ := hblocks.exists_written_of_mem hblock
          exact Block.isBlank_name_of_written hown hd
    · -- No list is further down.
      obtain ⟨u, below, hbelow, -⟩ := mem_innerLists.1 hlist
      obtain ⟨d, hd⟩ := hflat.declarations s inner hrule _ hbelow
      cases hd

namespace IsFlat

variable {body : Body}

/-- In a flat stylesheet there are no rules in the body `inner` of a rule. -/
theorem isRule_inner (h : IsFlat body) {s : Text} {inner : Body} (hrule : .rule s inner ∈ body)
    {node : Node} (hnode : node ∈ inner) : node.isRule = false := by
  obtain ⟨d, rfl⟩ := h.declarations s inner hrule node hnode
  rfl

/-- In a flat stylesheet every selector inside a rule has the property `P`, as there is none. -/
theorem everySelector_inner (h : IsFlat body) {s : Text} {inner : Body}
    (hrule : .rule s inner ∈ body) (P : Text → Prop) : EverySelector P inner := by
  rw [everySelector_iff]
  intro t below hbelow
  obtain ⟨d, hd⟩ := h.declarations s inner hrule _ hbelow
  cases hd

/-- A flat stylesheet is flat without its first node. -/
theorem of_cons {node : Node} {rest : Body} (h : IsFlat (node :: rest)) : IsFlat rest := by
  constructor
  · intro s inner hrule
    exact h.has_token s inner (List.mem_cons_of_mem node hrule)
  · intro s inner hrule
    exact h.declarations s inner (List.mem_cons_of_mem node hrule)
  · intro name value hmem
    exact h.no_declaration name value (List.mem_cons_of_mem node hmem)

/-- What is not a rule in a flat stylesheet is a line kept as it is written: `plain body` is made of
`verbatims body`. -/
theorem plain_eq_map_verbatims (h : IsFlat body) : plain body = (verbatims body).map .verbatim := by
  induction body with
  | nil => rfl
  | cons node rest ih =>
      rw [verbatims_cons, List.map_append, ← ih h.of_cons]
      cases node with
      | verbatim text => rfl
      | declaration name value => exact absurd List.mem_cons_self (h.no_declaration name value)
      | rule s inner =>
          have hinner : verbatims inner = [] := by
            rw [List.eq_nil_iff_forall_not_mem]
            intro text htext
            obtain ⟨node, hnode, hverbatim⟩ := mem_verbatims.1 htext
            obtain ⟨d, rfl⟩ := h.declarations s inner List.mem_cons_self node hnode
            exact absurd hverbatim List.not_mem_nil
          rw [Node.verbatims_rule, hinner]
          rfl

/-- A line kept as it is written has the path `[]` in a flat stylesheet. -/
theorem path_eq_nil_of_verbatim (h : IsFlat body) {path : TokenPath} {text : Text}
    (hleaf : (path, .verbatim text) ∈ leaves paths [] body) : path = [] := by
  obtain ⟨node, hnode, hleaf⟩ := mem_leaves.1 hleaf
  cases node with
  | verbatim line =>
      cases List.mem_singleton.1 hleaf
      rfl
  | declaration name value => exact absurd hnode (h.no_declaration name value)
  | rule s inner =>
      -- Inside a rule all leaves are declarations.
      obtain ⟨p, -, hp⟩ := List.mem_flatMap.1 hleaf
      obtain ⟨below, hbelow, hleaf⟩ := mem_leaves.1 hp
      obtain ⟨d, rfl⟩ := h.declarations s inner hnode below hbelow
      cases List.mem_singleton.1 hleaf

end IsFlat

end Body

end SassNesting
