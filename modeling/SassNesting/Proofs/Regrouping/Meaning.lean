import SassNesting.Conversion
import SassNesting.Proofs.Document.Flat
import SassNesting.Proofs.Regrouping.Chains
import SassNesting.Proofs.Regrouping.Merging
import SassNesting.Proofs.Regrouping.Nesting
import SassNesting.Proofs.Regrouping.Pieces

/-! # Regrouping keeps the meaning

What a stylesheet means is what is declared along each path of tokens. Each pass keeps the leaves of
each path, on trees of any shape (`leaves_nest`, `leaves_split_and_merge`), and hands on selectors
of one piece to the passes that need them: so the sheet that is built from a document declares the
same as the document, path by path and in the same order, and has the same lines kept as they are
written, in front of all rules (`declaredAt_buildSheet`). -/

namespace SassNesting

open Selector

/-- A sheet is built from every document that is parsed, by the four passes:
`buildSheet o t = .ok (Body.regroup raw)`. -/
theorem buildSheet_of_parse {t : Text} {raw : Body} (h : parse t = .ok raw) (o : Options) :
    buildSheet o t = .ok (Body.regroup raw) := by
  rw [buildSheet, h]

/-- A sheet is built from a document only if `parse t` yields a stylesheet, and is that one
regrouped. -/
theorem exists_parse_of_buildSheet {o : Options} {t : Text} {sheet : Body}
    (h : buildSheet o t = .ok sheet) : ∃ raw, parse t = .ok raw ∧ Body.regroup raw = sheet := by
  cases hparse : parse t with
  | ok raw =>
      rw [buildSheet_of_parse hparse] at h
      exact ⟨raw, rfl, Except.ok.inj h⟩
  | error e =>
      rw [buildSheet, hparse] at h
      cases h

namespace Body

/-! ## Single passes -/

/-- **Nesting keeps every leaf** under its path of tokens, and those of a `path` in order:
`leavesAt wholePath` is the same before and after, and all in all `nest body` has the leaves of
`body`. -/
theorem leaves_nest {body : Body}
    (h : EverySelector (fun s => ∃ c ∈ s, Text.isBlank c = false) body) (context : TokenPath) :
    (∀ path, leavesAt wholePath context path (nest body) = leavesAt wholePath context path body) ∧
      (leaves wholePath context (nest body)).Perm (leaves wholePath context body) := by
  have htokens : EverySelector HasToken body := h.mono fun _ => Text.words_ne_nil_iff.2
  have hpaths := leavesAt_nest htokens context
  exact ⟨hpaths, perm_leaves hpaths⟩

/-- A rule inside another one leads to the same path as a rule at the top that has other blanks
between its tokens. -/
theorem leaves_nest_blanks :
    EverySelector (fun s => ∃ c ∈ s, Text.isBlank c = false)
        [.rule " a\t".toList [.rule "b  c".toList [.declaration "p".toList "q".toList]],
          .rule "a b\nc".toList [.verbatim "@x;".toList]] ∧
      (∀ path, leavesAt wholePath [] path
          (nest [.rule " a\t".toList [.rule "b  c".toList [.declaration "p".toList "q".toList]],
            .rule "a b\nc".toList [.verbatim "@x;".toList]]) =
        leavesAt wholePath [] path
          [.rule " a\t".toList [.rule "b  c".toList [.declaration "p".toList "q".toList]],
            .rule "a b\nc".toList [.verbatim "@x;".toList]]) ∧
      (leaves wholePath []
          (nest [.rule " a\t".toList [.rule "b  c".toList [.declaration "p".toList "q".toList]],
            .rule "a b\nc".toList [.verbatim "@x;".toList]])).Perm
        (leaves wholePath []
          [.rule " a\t".toList [.rule "b  c".toList [.declaration "p".toList "q".toList]],
            .rule "a b\nc".toList [.verbatim "@x;".toList]]) := by
  have htokens : EverySelector HasToken
      [.rule " a\t".toList [.rule "b  c".toList [.declaration "p".toList "q".toList]],
        .rule "a b\nc".toList [.verbatim "@x;".toList]] := by
    decide +kernel
  have h := htokens.mono fun _ => Text.words_ne_nil_iff.1
  exact ⟨h, leaves_nest h []⟩

/-- **Writing out and merging keep the leaves.** The body `split body` has all leaves of `body` in
order and no comma at the top, and `merge body` has those of each `path` in order. -/
theorem leaves_split_and_merge (body : Body) (context : TokenPath) :
    leaves paths context (split body) = leaves paths context body ∧
      (∀ s inner, .rule s inner ∈ split body → ',' ∉ s) ∧
      ∀ path, leavesAt paths context path (merge body) = leavesAt paths context path body := by
  refine ⟨leaves_split context body, ?_, fun path => leavesAt_merge context path body⟩
  intro s inner hrule
  obtain ⟨selector, -, hs⟩ := exists_mem_of_mem_split hrule
  rcases hs with ⟨rfl, hcomma⟩ | hpiece
  · exact hcomma
  · exact (isSingle_of_mem_pieces hpiece).no_comma

/-! ## All passes -/

variable {raw : Body}

/-- After a flat stylesheet is written out every selector of `split raw` has one piece. -/
theorem IsFlat.everySelector_split (h : IsFlat raw) : EverySelector IsSingle (split raw) := by
  apply Body.everySelector_split
  intro s inner hrule
  exact ⟨h.has_token s inner hrule, h.everySelector_inner hrule IsSingle⟩

/-- No selector of `regroup raw` has an empty piece. -/
theorem everySelector_regroup (h : IsFlat raw) : EverySelector IsFilled (regroup raw) := by
  have hnested : EverySelector IsSingle (nest (split raw)) :=
    everySelector_nest_isSingle h.everySelector_split
  have hcollapsed : EverySelector IsSingle (collapse (nest (split raw))) :=
    everySelector_collapse hnested
  apply everySelector_merge
  exact hcollapsed.mono fun _ hs => hs.isFilled

/-- Where every selector has one piece, `paths` and `wholePath` give the same leaves. -/
theorem leavesAt_of_isSingle {body : Body} (h : EverySelector IsSingle body)
    (context path : TokenPath) :
    leavesAt paths context path body = leavesAt wholePath context path body := by
  unfold leavesAt
  rw [leaves_congr (h.mono fun _ => paths_of_isSingle)]

/-- Regrouping keeps the leaves of each `path`, in order. -/
theorem leavesAt_regroup (h : IsFlat raw) (context path : TokenPath) :
    leavesAt paths context path (regroup raw) = leavesAt paths context path raw := by
  have hsplit : EverySelector IsSingle (split raw) := h.everySelector_split
  have hnested : EverySelector IsSingle (nest (split raw)) := everySelector_nest_isSingle hsplit
  have htokens : EverySelector HasToken (split raw) := hsplit.mono fun _ hs => hs.has_token
  calc leavesAt paths context path (regroup raw)
    _ = leavesAt paths context path (collapse (nest (split raw))) := leavesAt_merge context path _
    _ = leavesAt wholePath context path (collapse (nest (split raw))) :=
        leavesAt_of_isSingle (everySelector_collapse hnested) context path
    _ = leavesAt wholePath context path (nest (split raw)) := leavesAt_collapse _ context path
    _ = leavesAt wholePath context path (split raw) := leavesAt_nest htokens context path
    _ = leavesAt paths context path (split raw) := (leavesAt_of_isSingle hsplit context path).symm
    _ = leavesAt paths context path raw := leavesAt_split context path raw

/-- Regrouping keeps the nodes that are not rules: `plain (regroup raw) = plain raw`. -/
theorem plain_regroup (h : IsFlat raw) : plain (regroup raw) = plain raw := by
  have hself : ∀ body : Body, leavesAt paths [] [] body = plain body := by
    intro body
    have hpaths : EverySelector (fun s => ∀ p ∈ paths s, p ≠ []) body :=
      everySelector_of_forall fun s p hp => ne_nil_of_mem_paths hp
    exact leavesAt_self hpaths []
  rw [← hself, leavesAt_regroup h, hself]

/-- The rules of `regroup raw` stand behind the other nodes. -/
theorem rulesLast_regroup (raw : Body) : RulesLast (regroup raw) := by
  refine RulesLast.of_sublist (rulesLast_nest (split raw)) ?_
  have hmerge := sublist_map_isRule_merge (collapse (nest (split raw)))
  rwa [map_isRule_collapse] at hmerge

/-- In `regroup raw` no line kept as it is written is inside a rule. -/
theorem verbatims_rule_regroup (h : IsFlat raw) {node : Node} (hnode : node ∈ regroup raw)
    (hrule : node.isRule = true) : node.verbatims = [] := by
  rw [List.eq_nil_iff_forall_not_mem]
  intro text htext
  obtain ⟨s, inner, rfl⟩ := Node.exists_eq_rule hrule
  have hselectors : EverySelector (pieces · ≠ []) [.rule s inner] := by
    have hregroup := (everySelector_regroup h).mono fun _ hs => hs.pieces_ne_nil
    rw [everySelector_iff] at hregroup ⊢
    intro s' inner' hmem
    cases List.mem_singleton.1 hmem
    exact hregroup s inner hnode
  have htext' : text ∈ verbatims [.rule s inner] := by
    simpa using htext
  -- The line would be a leaf below the empty path, and a flat stylesheet has none there.
  obtain ⟨path, hpath⟩ := exists_leaf_of_mem_verbatims hselectors htext' []
  have hraw : Node.verbatim text ∈ leavesAt paths [] path raw := by
    rw [← leavesAt_regroup h, mem_leavesAt, mem_leaves]
    exact ⟨.rule s inner, hnode, by simpa using hpath⟩
  have hnil : path = [] := h.path_eq_nil_of_verbatim (mem_leavesAt.1 hraw)
  rw [hnil, ← mem_leavesAt, leavesAt_rule_self fun _ => ne_nil_of_mem_paths] at hpath
  exact absurd hpath List.not_mem_nil

/-- The stylesheet `regroup raw` is the lines kept as they are written, `verbatims raw`, and then
its rules. -/
theorem regroup_eq_append (h : IsFlat raw) :
    regroup raw = (verbatims raw).map .verbatim ++ (regroup raw).filter Node.isRule := by
  rw [← h.plain_eq_map_verbatims, ← plain_regroup h]
  exact (rulesLast_regroup raw).eq_append

/-- Regrouping keeps the `verbatims`, in order. -/
theorem verbatims_regroup (h : IsFlat raw) : verbatims (regroup raw) = verbatims raw := by
  have hrules : verbatims ((regroup raw).filter Node.isRule) = [] := by
    rw [List.eq_nil_iff_forall_not_mem]
    intro text htext
    obtain ⟨node, hnode, hverbatim⟩ := mem_verbatims.1 htext
    rw [List.mem_filter] at hnode
    rw [verbatims_rule_regroup h hnode.1 hnode.2] at hverbatim
    exact absurd hverbatim List.not_mem_nil
  have hlines : ∀ texts : List Text, verbatims (texts.map .verbatim) = texts := by
    intro texts
    induction texts with
    | nil => rfl
    | cons text texts ih =>
        rw [List.map_cons, verbatims_cons, ih]
        rfl
  calc verbatims (regroup raw)
    _ = verbatims ((verbatims raw).map .verbatim ++ (regroup raw).filter Node.isRule) := by
        rw [← regroup_eq_append h]
    _ = verbatims raw := by rw [verbatims_append, hrules, List.append_nil, hlines]

end Body

/-- **What a sheet declares.** The `sheet` that is built from a document declares the same along
every `path`, in the same order (`Body.declaredAt`), and its lines kept as they are written are
those of the document, in front of all rules. -/
theorem declaredAt_buildSheet {t : Text} {raw : Body} (h : parse t = .ok raw) (o : Options) :
    ∃ sheet, buildSheet o t = .ok sheet ∧
      (∀ path, Body.declaredAt path sheet = Body.declaredAt path raw) ∧
      Body.verbatims sheet = Body.verbatims raw ∧
      ∃ rules, sheet = (Body.verbatims raw).map .verbatim ++ rules ∧
        ∀ node ∈ rules, node.isRule = true ∧ node.verbatims = [] := by
  have hflat := Body.isFlat_of_parse h
  refine ⟨Body.regroup raw, buildSheet_of_parse h o, ?_, Body.verbatims_regroup hflat,
    (Body.regroup raw).filter Node.isRule, Body.regroup_eq_append hflat, ?_⟩
  · intro path
    unfold Body.declaredAt
    rw [Body.leavesAt_regroup hflat]
  · intro node hnode
    obtain ⟨hmem, hrule⟩ := List.mem_filter.1 hnode
    exact ⟨hrule, Body.verbatims_rule_regroup hflat hmem hrule⟩

/-- A comma list whose first piece is grouped with a later rule, behind a line that is kept. -/
theorem declaredAt_buildSheet_commaList :
    ∃ raw, parse "@x y; a b, d\x7bp:q\x7d a c\x7bp:q\x7d".toList = .ok raw ∧
      ∃ sheet, buildSheet {} "@x y; a b, d\x7bp:q\x7d a c\x7bp:q\x7d".toList = .ok sheet ∧
        (∀ path, Body.declaredAt path sheet = Body.declaredAt path raw) ∧
        Body.verbatims sheet = Body.verbatims raw ∧
        ∃ rules, sheet = (Body.verbatims raw).map .verbatim ++ rules ∧
          ∀ node ∈ rules, node.isRule = true ∧ node.verbatims = [] := by
  let inner : Body := [.declaration "p".toList "q".toList]
  have h : parse "@x y; a b, d\x7bp:q\x7d a c\x7bp:q\x7d".toList =
      .ok [.verbatim "@x y;".toList, .rule "a b, d".toList inner, .rule "a c".toList inner] := by
    decide +kernel
  exact ⟨_, h, declaredAt_buildSheet h {}⟩

end SassNesting
