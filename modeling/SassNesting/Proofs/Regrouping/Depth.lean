import Mathlib.Order.Bounds.Defs
import SassNesting.Proofs.Document.Flat
import SassNesting.Proofs.Regrouping.Chains
import SassNesting.Proofs.Regrouping.Merging
import SassNesting.Proofs.Regrouping.Pieces
import SassNesting.Proofs.Regrouping.Trie
import SassNesting.Regrouping.Pass

/-! # How deep rules are nested

Each token of a selector becomes one rule inside another, so a nested body is as deep as the longest
chain of rules was in tokens (`depth_nest`). For a document that is the number of tokens in the
longest piece of a selector, which reading limits; splitting makes no chain longer than one rule,
and the passes after nesting make no chain longer than it is. Therefore no stage of regrouping is
deeper than the limit (`depth_of_parse`). -/

namespace SassNesting

open Selector

/-! ## Depth -/

mutual

/-- The greatest sum of sizes of selectors along a chain of rules that starts with a node. -/
def Node.depthBy (size : Text → Nat) : Node → Nat
  | .verbatim _ => 0
  | .declaration _ _ => 0
  | .rule selector body => size selector + Body.depthBy size body

/-- The greatest sum of sizes of selectors along a chain of rules, each inside the one before. -/
def Body.depthBy (size : Text → Nat) : List Node → Nat
  | [] => 0
  | node :: rest => max (Node.depthBy size node) (Body.depthBy size rest)

end

namespace Body

/-- The number of rules in the longest chain of rules, each inside the one before. -/
def depth (body : Body) : Nat := depthBy (fun _ => 1) body

/-- The number of tokens along the longest chain of rules, by `Selector.steps`. -/
def tokenDepth (body : Body) : Nat := depthBy (fun s => (steps s).length) body

/-- The number of tokens in the longest piece of a selector at the top. -/
def selectorDepth (body : Body) : Nat :=
  ((body.filterMap Node.selector?).map Selector.depth).foldr max 0

variable {size : Text → Nat} {body : Body} {n : Nat}

/-- A body is at most `n` deep iff it is so along each of its rules:
`size s + depthBy size inner ≤ n`. -/
theorem depthBy_le_iff :
    depthBy size body ≤ n ↔ ∀ s inner, .rule s inner ∈ body → size s + depthBy size inner ≤ n := by
  induction body with
  | nil => simp [depthBy]
  | cons node rest ih =>
      rw [depthBy, Nat.max_le, ih]
      simp only [List.mem_cons, or_imp, forall_and]
      -- What is left to show is about the first node alone.
      refine and_congr_left fun _ => ?_
      cases node with
      | verbatim text => simp [Node.depthBy]
      | declaration name value => simp [Node.depthBy]
      | rule selector body =>
          rw [Node.depthBy]
          constructor
          · rintro h s inner heq
            cases heq
            exact h
          · exact fun h => h selector body rfl

/-- A body is deeper by one rule than the bodies of its rules: `1 + depth inner ≤ depth body`. -/
theorem one_add_depth_le {s : Text} {inner : Body} (h : .rule s inner ∈ body) :
    1 + depth inner ≤ depth body := by
  have hself : depthBy (fun _ => 1) body ≤ depth body := le_rfl
  exact depthBy_le_iff.1 hself s inner h

/-- The selectors at the top have at most `n` tokens in a piece iff each of them has. -/
theorem selectorDepth_le_iff :
    selectorDepth body ≤ n ↔ ∀ s inner, .rule s inner ∈ body → Selector.depth s ≤ n := by
  rw [selectorDepth, foldr_max_le_iff, List.forall_mem_map]
  constructor
  · intro h s inner hrule
    exact h s (List.mem_filterMap.2 ⟨.rule s inner, hrule, rfl⟩)
  · intro h s hs
    obtain ⟨node, hnode, hselector⟩ := List.mem_filterMap.1 hs
    cases node with
    | verbatim text => cases hselector
    | declaration name value => cases hselector
    | rule selector inner =>
        cases hselector
        exact h s inner hnode

/-! ## Chains of rules -/

/-- Down to a `list` that lies along a `path` of selectors there are as many rules as selectors. -/
theorem Inside.length_le_depth {path : List Text} {list body : Body} (h : Inside path list body) :
    path.length ≤ depth body := by
  induction h with
  | here => exact Nat.zero_le _
  | @rule s path inner list body hrule _ ih =>
      have hbelow : 1 + depth inner ≤ depth body := one_add_depth_le hrule
      rw [List.length_cons]
      omega

/-- There is a `path` of as many rules as a body is deep: `path.length = depth body`. -/
theorem exists_inside_depth (body : Body) :
    ∃ path list, Inside path list body ∧ path.length = depth body := by
  induction body using rule_induction with
  | step body ih =>
      cases hdepth : depth body with
      | zero => exact ⟨[], body, .here, rfl⟩
      | succ n =>
          -- Some rule is as deep as the body, since otherwise the body would be less deep.
          have hnot : ¬ depth body ≤ n := by omega
          rw [depth, depthBy_le_iff] at hnot
          push Not at hnot
          obtain ⟨s, inner, hrule, hlt⟩ := hnot
          have hle : 1 + depth inner ≤ depth body := one_add_depth_le hrule
          obtain ⟨path, list, hinside, hlength⟩ := ih s inner hrule
          refine ⟨s :: path, list, .rule hrule hinside, ?_⟩
          rw [depth] at hle hlength
          rw [List.length_cons, hlength]
          omega

/-- The numbers of rules in the chains of rules of a body. -/
def chainLengths (body : Body) : Set Nat :=
  {n | ∃ path list, Inside path list body ∧ path.length = n}

/-- The `depth` of a body is the number of rules in its longest chain. -/
theorem isGreatest_depth (body : Body) : IsGreatest (chainLengths body) (depth body) := by
  refine ⟨exists_inside_depth body, ?_⟩
  rintro n ⟨path, list, hinside, rfl⟩
  exact hinside.length_le_depth

/-! ## Nesting -/

/-- A rule is one token deeper than its share in the group of its first token. -/
theorem tokenDepth_share (s : Text) (inner : Body) :
    (steps s).length + tokenDepth inner =
      1 + tokenDepth (if tail s = [] then inner else [.rule (tail s) inner]) := by
  rw [steps_eq]
  by_cases htail : tail s = []
  · rw [if_pos htail, if_pos htail, List.length_singleton]
  · rw [if_neg htail, if_neg htail, List.length_cons, tokenDepth, tokenDepth, depthBy, depthBy,
      Node.depthBy, Nat.max_zero]
    omega

/-- A group is at most `n` tokens deep iff each `part` of it is. -/
theorem tokenDepth_group_le_iff {head : Text} {shares : List (Text × Body)} :
    tokenDepth (group head shares) ≤ n ↔ ∀ part, (head, part) ∈ shares → tokenDepth part ≤ n := by
  simp only [tokenDepth, depthBy_le_iff, group, List.mem_flatMap, List.mem_filter, Prod.exists,
    decide_eq_true_eq]
  constructor
  · intro h part hpart s inner hrule
    exact h s inner ⟨head, part, ⟨hpart, rfl⟩, hrule⟩
  · rintro h s inner ⟨token, part, ⟨hpart, rfl⟩, hrule⟩
    exact h part hpart s inner hrule

/-- A body is at most `n` tokens deep iff each of its groups is, with the token of the group. -/
theorem tokenDepth_le_iff :
    tokenDepth body ≤ n ↔
      ∀ head ∈ heads (shares body), 1 + tokenDepth (group head (shares body)) ≤ n := by
  have hrules : tokenDepth body ≤ n ↔ ∀ head part, (head, part) ∈ shares body →
      1 + tokenDepth part ≤ n := by
    rw [tokenDepth, depthBy_le_iff]
    constructor
    · intro h head part hshare
      obtain ⟨s, inner, hrule, -, rfl⟩ := mem_shares.1 hshare
      rw [← tokenDepth_share]
      exact h s inner hrule
    · intro h s inner hrule
      have hshare := h _ _ (mem_shares.2 ⟨s, inner, hrule, rfl, rfl⟩)
      rwa [← tokenDepth_share] at hshare
  rw [hrules]
  constructor
  · intro h head hhead
    -- There is a share for the token, so the bound is at least one.
    obtain ⟨part, hpart⟩ := mem_heads.1 hhead
    have hone := h head part hpart
    have hgroup : tokenDepth (group head (shares body)) ≤ n - 1 := by
      rw [tokenDepth_group_le_iff]
      intro other hother
      have := h head other hother
      omega
    omega
  · intro h head part hpart
    have hgroup := h head (mem_heads.2 ⟨part, hpart⟩)
    have hle : tokenDepth part ≤ tokenDepth (group head (shares body)) :=
      tokenDepth_group_le_iff.1 le_rfl part hpart
    omega

/-- A nested body is as deep in rules as the body is in tokens:
`depth (nest body) = tokenDepth body`. -/
theorem depth_nest (body : Body) : depth (nest body) = tokenDepth body := by
  induction hweight : weight body using Nat.strong_induction_on generalizing body with
  | _ n ih =>
      have hgroup : ∀ head ∈ heads (shares body),
          depth (nest (group head (shares body))) = tokenDepth (group head (shares body)) := by
        intro head hhead
        exact ih _ (hweight ▸ weight_group_lt hhead) _ rfl
      refine eq_of_forall_ge_iff fun m => ?_
      rw [tokenDepth_le_iff, depth, depthBy_le_iff]
      constructor
      · intro h head hhead
        rw [← hgroup head hhead]
        exact h head _ (mem_nest_rule.2 ⟨hhead, rfl⟩)
      · intro h s inner hrule
        obtain ⟨hhead, rfl⟩ := mem_nest_rule.1 hrule
        have hle := h s hhead
        rwa [← hgroup s hhead] at hle

/-! ## The other passes -/

/-- Collapsing chains makes no chain longer: `depth (collapse body) ≤ depth body`. -/
theorem depth_collapse_le (body : Body) : depth (collapse body) ≤ depth body := by
  induction body using rule_induction with
  | step body ih =>
      rw [depth, depthBy_le_iff]
      intro t joined hrule
      obtain ⟨s, inner, hmem, hjoined⟩ := mem_collapse_rule.1 hrule
      have hinner : depth (collapse inner) ≤ depth inner := ih s inner hmem
      have hbody : 1 + depth inner ≤ depth body := one_add_depth_le hmem
      have hbelow : depth joined ≤ depth (collapse inner) := by
        rcases Node.joined_cases hjoined with ⟨-, rfl, -⟩ | ⟨u, hu, -⟩
        · exact le_rfl
        · -- The body of the joined rule is that of a rule further in.
          have hmem' : .rule u joined ∈ collapse inner := by
            rw [hu]
            exact List.mem_cons_self
          have hle : 1 + depth joined ≤ depth (collapse inner) := one_add_depth_le hmem'
          omega
      have hle : 1 + depth joined ≤ depth body := by omega
      exact hle

/-- Merging makes no chain longer: `depth (merge body) ≤ depth body`. -/
theorem depth_merge_le (body : Body) : depth (merge body) ≤ depth body := by
  induction body using rule_induction with
  | step body ih =>
      rw [depth, depthBy_le_iff]
      intro t inner hrule
      obtain ⟨s, -, b, hmem, rfl, -, -⟩ := exists_of_mem_merge hrule
      have hb : depth (merge b) ≤ depth b := ih s b hmem
      have hbody : 1 + depth b ≤ depth body := one_add_depth_le hmem
      have hle : 1 + depth (merge b) ≤ depth body := by omega
      exact hle

/-! ## Stylesheets as they are parsed -/

section Flat

variable {raw : Body}

/-- Where there are declarations only, there is no chain of rules: `depthBy size inner = 0`. -/
theorem IsFlat.depthBy_inner (h : IsFlat raw) {s : Text} {inner : Body}
    (hrule : .rule s inner ∈ raw) (size : Text → Nat) : depthBy size inner = 0 := by
  rw [← Nat.le_zero, depthBy_le_iff]
  intro t below hbelow
  obtain ⟨d, hd⟩ := h.declarations s inner hrule _ hbelow
  cases hd

/-- In a flat stylesheet no rule is inside another one: `depth raw ≤ 1`. -/
theorem IsFlat.depth_le_one (h : IsFlat raw) : depth raw ≤ 1 := by
  rw [depth, depthBy_le_iff]
  intro s inner hrule
  rw [h.depthBy_inner hrule]

/-- After a flat stylesheet is written out no rule is inside another one: `depth (split raw) ≤ 1`.
-/
theorem IsFlat.depth_split_le_one (h : IsFlat raw) : depth (split raw) ≤ 1 := by
  rw [depth, depthBy_le_iff]
  intro piece inner hpiece
  obtain ⟨s, hrule, -⟩ := exists_mem_of_mem_split hpiece
  rw [h.depthBy_inner hrule]

end Flat

end Body

/-- The pieces of a selector have at most `n` tokens iff its longest part between commas has. -/
theorem Selector.length_steps_pieces_le_iff {s : Text} {n : Nat} :
    (∀ piece ∈ pieces s, (steps piece).length ≤ n) ↔ depth s ≤ n := by
  rw [depth_le_iff]
  constructor
  · intro h part hpart
    by_cases htrim : Text.trim part = []
    · rw [Text.trim_eq_nil_iff.1 htrim]
      exact Nat.zero_le n
    · have hpiece : Text.trim part ∈ pieces s :=
        List.mem_filter.2 ⟨List.mem_map_of_mem hpart, by simpa using htrim⟩
      have hle := h _ hpiece
      rwa [steps_of_hasToken (isSingle_of_mem_pieces hpiece).has_token, Text.words_trim] at hle
  · intro h piece hpiece
    obtain ⟨hmem, -⟩ := List.mem_filter.1 hpiece
    obtain ⟨part, hpart, rfl⟩ := List.mem_map.1 hmem
    rw [steps_of_hasToken (isSingle_of_mem_pieces hpiece).has_token, Text.words_trim]
    exact h part hpart

namespace Body

/-- After a flat stylesheet is written out, the tokens along its longest chain are those of the
longest piece of a selector: `tokenDepth (split raw) = selectorDepth raw`. -/
theorem IsFlat.tokenDepth_split {raw : Body} (h : IsFlat raw) :
    tokenDepth (split raw) = selectorDepth raw := by
  refine eq_of_forall_ge_iff fun n => ?_
  rw [tokenDepth, depthBy_le_iff, selectorDepth_le_iff]
  constructor
  · intro hsplit s inner hrule
    have hnode : ∀ piece, .rule piece inner ∈ (Node.rule s inner).split →
        (steps piece).length ≤ n := by
      intro piece hpiece
      have hle := hsplit piece inner (List.mem_flatMap.2 ⟨_, hrule, hpiece⟩)
      rwa [h.depthBy_inner hrule, Nat.add_zero] at hle
    rw [Node.split] at hnode
    by_cases hcomma : ',' ∈ s
    · rw [← length_steps_pieces_le_iff]
      intro piece hpiece
      apply hnode
      rw [if_pos hcomma]
      exact List.mem_map_of_mem hpiece
    · have hle := hnode s (by rw [if_neg hcomma]; exact List.mem_cons_self)
      rw [steps_of_hasToken (h.has_token s inner hrule)] at hle
      rw [depth_le_iff, List.splitOn_eq_singleton hcomma, List.forall_mem_singleton]
      exact hle
  · intro hselector piece inner hpiece
    obtain ⟨s, hrule, hs⟩ := exists_mem_of_mem_split hpiece
    rw [h.depthBy_inner hrule, Nat.add_zero]
    rcases hs with ⟨rfl, hcomma⟩ | hmem
    · have hle := hselector piece inner hrule
      rw [depth_le_iff, List.splitOn_eq_singleton hcomma, List.forall_mem_singleton] at hle
      rwa [steps_of_hasToken (h.has_token piece inner hrule)]
    · exact length_steps_pieces_le_iff.2 (hselector s inner hrule) piece hmem

/-- No piece of a selector that is parsed has more than `maxSelectorDepth` tokens. -/
theorem selectorDepth_le_of_parse {t : Text} {raw : Body} (h : parse t = .ok raw) :
    selectorDepth raw ≤ maxSelectorDepth := by
  obtain ⟨hfault, rfl⟩ := parse_eq_ok_iff_ofText.1 h
  have hwritten := Reading.written_ofText hfault
  generalize Reading.ofText t = reading at hwritten
  rw [selectorDepth_le_iff]
  intro s inner hrule
  obtain ⟨b, hb, rfl, -⟩ := exists_block_of_mem hrule
  cases hwritten with
  | intro _ _ _ hblocks _ =>
      obtain ⟨own, more, hown⟩ := hblocks.exists_written_of_mem hb
      cases hown with
      | intro _ _ hlimit _ _ _ => exact depth_le_iff.2 hlimit

/-- **How deep rules are nested.** The longest chain of rules in `nest (split raw)` has as many
rules as the longest piece of a selector in the document has tokens, `selectorDepth raw`. These are
no more than 256, and in no stage of regrouping is there a longer chain. -/
theorem depth_of_parse {t : Text} {raw : Body} (h : parse t = .ok raw) :
    IsGreatest (chainLengths (nest (split raw))) (selectorDepth raw) ∧
      selectorDepth raw ≤ 256 ∧
      ∀ stage ∈ raw :: raw.stages.map (·.2), ∀ n ∈ chainLengths stage, n ≤ 256 := by
  have hflat := isFlat_of_parse h
  have hlimit : selectorDepth raw ≤ 256 := selectorDepth_le_of_parse h
  have hnested : depth (nest (split raw)) = selectorDepth raw := by
    rw [depth_nest, hflat.tokenDepth_split]
  refine ⟨hnested ▸ isGreatest_depth _, hlimit, ?_⟩
  have hraw := hflat.depth_le_one
  have hsplit := hflat.depth_split_le_one
  have hcollapsed := depth_collapse_le (nest (split raw))
  have hmerged := depth_merge_le (collapse (nest (split raw)))
  have hstages : ∀ stage ∈ raw :: raw.stages.map (·.2), depth stage ≤ 256 := by
    simp only [stages, List.map_cons, List.map_nil, List.forall_mem_cons]
    exact ⟨by omega, by omega, by omega, by omega, by omega, by simp⟩
  intro stage hstage n hn
  exact ((isGreatest_depth stage).2 hn).trans (hstages stage hstage)

/-- Two selectors that share tokens, of which the second is a comma list with an empty piece. -/
theorem depth_of_parse_commaList :
    ∃ raw, parse "a b\x7b\x7d a b c d ,, e\x7bp:q\x7d".toList = .ok raw ∧ selectorDepth raw = 4 ∧
      IsGreatest (chainLengths (nest (split raw))) (selectorDepth raw) ∧
      selectorDepth raw ≤ 256 ∧
      ∀ stage ∈ raw :: raw.stages.map (·.2), ∀ n ∈ chainLengths stage, n ≤ 256 := by
  have h : parse "a b\x7b\x7d a b c d ,, e\x7bp:q\x7d".toList =
      .ok [.rule "a b".toList [],
        .rule "a b c d ,, e".toList [.declaration "p".toList "q".toList]] := by
    decide +kernel
  exact ⟨_, h, by decide +kernel, depth_of_parse h⟩

end Body

end SassNesting
