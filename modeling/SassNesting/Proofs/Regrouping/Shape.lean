import SassNesting.Proofs.Regrouping.Meaning

/-! # The shape of a regrouped stylesheet

Each pass hands a shape on to the next one. Nesting leaves lists whose rules stand last and open
with pairwise different tokens, collapsing leaves no rule with a rule as its only node, and merging
makes comma lists, which are the only way in which a rule comes to be alone in a body again. So
every list of the sheet that is built from a document is well grouped (`wellGrouped_buildSheet`). -/

namespace SassNesting

open Selector

namespace Body

/-- A list as `nest` leaves it. -/
structure Nested (body : Body) : Prop where
  /-- The rules stand behind the other nodes. -/
  rules_last : RulesLast body
  /-- Each selector has one piece. -/
  single : ∀ s inner, .rule s inner ∈ body → IsSingle s
  /-- The selectors open with pairwise different tokens. -/
  distinct : (openings body).Nodup

/-- A list as `collapse` leaves it, if it was `Nested` before. -/
structure Collapsed (body : Body) : Prop extends Nested body where
  /-- No rule has a rule as its only node. -/
  ne_singleton : ∀ s t inner, .rule s [.rule t inner] ∉ body

/-- Each list in `nest body` is `Nested`. -/
theorem everywhere_nested {body : Body} (h : EverySelector IsSingle body) :
    Everywhere Nested (nest body) := by
  refine everywhere_nest (fun _ hs => hs.tail) ?_ h
  intro b hb
  have hselectors := (everywhere_iff.1 (everySelector_nest_isSingle hb)).1
  refine ⟨rulesLast_nest b, hselectors, ?_⟩
  rw [openings_nest hb]
  exact nodup_heads _

/-- Each list in a nested body that is collapsed is `Collapsed`. -/
theorem everywhere_collapsed {body : Body} (h : Everywhere Nested body) :
    Everywhere Collapsed (collapse body) := by
  refine everywhere_collapse ?_ h
  intro b hb
  have hsingle : EverySelector IsSingle b := hb.mono fun _ hnested => hnested.single
  have hnested : Nested b := (everywhere_iff.1 hb).1
  refine ⟨⟨?_, ?_, ?_⟩, ?_⟩
  · apply hnested.rules_last.of_sublist
    rw [map_isRule_collapse]
  · exact (everywhere_iff.1 (everySelector_collapse hsingle)).1
  · rw [openings_collapse hsingle]
    exact hnested.distinct
  · intro s t inner hrule
    exact ne_singleton_of_mem_collapse hrule t inner rfl

/-- Each list in a collapsed body that is merged is `WellGrouped`. -/
theorem everywhere_wellGrouped {body : Body} (h : Everywhere Collapsed body) :
    Everywhere WellGrouped (merge body) := by
  refine everywhere_merge ?_ h
  intro b hb
  have hfilled : EverySelector IsFilled b :=
    hb.mono fun _ hcollapsed s inner hrule => (hcollapsed.single s inner hrule).isFilled
  have hmerged := (everywhere_iff.1 (everySelector_merge hfilled)).1
  have hcollapsed : Collapsed b := (everywhere_iff.1 hb).1
  refine ⟨?_, ?_, hmerged, ?_, ?_⟩
  · exact hcollapsed.rules_last.of_sublist (sublist_map_isRule_merge b)
  · intro s inner hrule
    exact (hmerged s inner hrule).pieces_ne_nil
  · rw [openings_merge]
    exact hcollapsed.distinct
  · -- A body that is a single rule was one before, which collapsing does not leave, or its rule
    -- stands for several rules.
    intro s t inner hrule
    obtain ⟨s', -, below, hmem, hbelow, -, -⟩ := exists_of_mem_merge hrule
    rcases eq_singleton_or_comma_of_merge hbelow.symm with ⟨u, c, rfl⟩ | hcomma
    · exact absurd hmem (hcollapsed.ne_singleton s' u c)
    · exact hcomma

/-- Each list in `regroup raw` is `WellGrouped`. -/
theorem everywhere_wellGrouped_regroup {raw : Body} (h : IsFlat raw) :
    Everywhere WellGrouped (regroup raw) :=
  everywhere_wellGrouped (everywhere_collapsed (everywhere_nested h.everySelector_split))

end Body

/-- **The shape of a sheet.** Every list of the `sheet` that is built from a document is
`WellGrouped`. Declarations are in rules only and lines kept as they are written only at the top,
and no path of tokens is chosen by two rules, or by two choices of pieces (`Body.selections`). -/
theorem wellGrouped_buildSheet {t : Text} {raw : Body} (h : parse t = .ok raw) (o : Options) :
    ∃ sheet, buildSheet o t = .ok sheet ∧
      (∀ b ∈ Body.lists sheet, Body.WellGrouped b) ∧
      (∀ name value, .declaration name value ∉ sheet) ∧
      (∀ b ∈ Body.innerLists sheet, ∀ text, .verbatim text ∉ b) ∧
      (Body.selections [] sheet).Nodup := by
  have hflat := Body.isFlat_of_parse h
  have hgrouped := Body.everywhere_wellGrouped_regroup hflat
  refine ⟨Body.regroup raw, buildSheet_of_parse h o, hgrouped, ?_, ?_, ?_⟩
  · intro name value hmem
    have hplain : .declaration name value ∈ Body.plain (Body.regroup raw) :=
      List.mem_filter.2 ⟨hmem, rfl⟩
    rw [Body.plain_regroup hflat] at hplain
    exact hflat.no_declaration name value (List.mem_filter.1 hplain).1
  · intro b hb text htext
    obtain ⟨s, inner, hrule, hmem⟩ := Body.mem_innerLists.1 hb
    have hnone := Body.verbatims_rule_regroup hflat hrule rfl
    have hverbatim : text ∈ Body.verbatims inner := Body.mem_verbatims_of_mem_lists hmem htext
    rw [Node.verbatims_rule] at hnone
    rw [hnone] at hverbatim
    exact absurd hverbatim List.not_mem_nil
  · exact Body.nodup_selections (hgrouped.mono fun _ hb => hb.distinct) []

/-- Two comma lists whose pieces are grouped with each other, behind a line that is kept. -/
theorem wellGrouped_buildSheet_commaLists :
    ∃ raw, parse "@x y; a b, d\x7bp:q\x7d a c, d\x7bp:q\x7d".toList = .ok raw ∧
      ∃ sheet, buildSheet {} "@x y; a b, d\x7bp:q\x7d a c, d\x7bp:q\x7d".toList = .ok sheet ∧
        (∀ b ∈ Body.lists sheet, Body.WellGrouped b) ∧
        (∀ name value, .declaration name value ∉ sheet) ∧
        (∀ b ∈ Body.innerLists sheet, ∀ text, .verbatim text ∉ b) ∧
        (Body.selections [] sheet).Nodup := by
  let inner : Body := [.declaration "p".toList "q".toList]
  have h : parse "@x y; a b, d\x7bp:q\x7d a c, d\x7bp:q\x7d".toList =
      .ok [.verbatim "@x y;".toList, .rule "a b, d".toList inner, .rule "a c, d".toList inner] := by
    decide +kernel
  exact ⟨_, h, wellGrouped_buildSheet h {}⟩

end SassNesting
