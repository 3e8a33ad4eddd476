import SassNesting.Proofs.Regrouping.Meaning
import SassNesting.Proofs.Regrouping.Runs
import SassNesting.Proofs.Regrouping.Trie

/-! # Stylesheets without shared tokens

Where no two rules have the same first token, there is nothing to group. Each rule is nested into a
chain of its own, and the chain is collapsed to the rule again (`Body.collapse_nest_of_nodup`). What
is left of regrouping is that comma lists are written out and that runs of rules with equal bodies
are merged, also where a run goes on from one comma list to the next (`buildSheet_of_nodup_heads`).
-/

namespace SassNesting

open Selector

namespace Body

/-! ## Nesting rules by themselves -/

/-- Where all `shares` are for different tokens, the group of a token is its only share. -/
theorem group_of_nodup {shares : List (Text × Body)} (h : (shares.map (·.1)).Nodup)
    {share : Text × Body} (hshare : share ∈ shares) : group share.1 shares = share.2 := by
  induction shares with
  | nil => exact absurd hshare List.not_mem_nil
  | cons first rest ih =>
      rw [List.map_cons, List.nodup_cons] at h
      rw [group_cons]
      rcases List.mem_cons.1 hshare with rfl | hrest
      · have hnone : share.1 ∉ heads rest := by
          rw [heads, List.mem_eraseDups]
          exact h.1
        rw [if_pos rfl, group_eq_nil hnone, List.append_nil]
      · have hne : first.1 ≠ share.1 := by
          intro heq
          rw [heq] at h
          exact h.1 (List.mem_map_of_mem hrest)
        rw [if_neg hne, List.nil_append, ih h.2 hrest]

/-- Where all rules have different first tokens, each of them is nested by itself, as
`.rule share.1 (nest share.2)`. -/
theorem nest_of_nodup {body : Body} (h : ((shares body).map (·.1)).Nodup) :
    nest body = plain body ++ (shares body).map fun share => .rule share.1 (nest share.2) := by
  rw [nest_eq, heads, eraseDups_of_nodup h, List.map_map]
  congr 1
  apply List.map_congr_left
  intro share hshare
  rw [Function.comp_apply, group_of_nodup h hshare]

/-- A body without rules is left as it is when it is nested: `nest body = body`. -/
theorem nest_of_plain {body : Body} (h : ∀ node ∈ body, node.isRule = false) :
    nest body = body := by
  have hshares : shares body = [] :=
    List.filterMap_eq_nil_iff.2 fun node hnode => Node.share?_eq_none_iff.2 (h node hnode)
  have hplain : plain body = body := List.filter_eq_self.2 fun node hnode => by simp [h node hnode]
  rw [nest_eq, hshares, hplain, heads_nil, List.map_nil, List.append_nil]

/-- The group of a rule with a tidy selector `s`, and with no rules inside it, is a chain that is
collapsed to the rule again once it is nested. -/
theorem collapse_nest_share {s : Text} {inner : Body} (hs : IsTidy s)
    (hinner : ∀ node ∈ inner, node.isRule = false) :
    (Node.rule (head s) (nest (if tail s = [] then inner else [.rule (tail s) inner]))).collapse =
      .rule s inner := by
  -- Without its first token the selector is shorter, and still tidy.
  induction hlength : s.length using Nat.strong_induction_on generalizing s with
  | _ n ih =>
      rcases hs.eq_head_or_append with ⟨htail, hself⟩ | ⟨htail, hself⟩
      · rw [if_pos htail, nest_of_plain hinner, Node.collapse_rule, collapse_of_plain hinner,
          Node.joined_of_plain _ hinner, ← hself]
      · have hne : tail s ≠ [] := by
          obtain ⟨c, rest, hc, -⟩ := htail.starts
          rw [hc]
          exact List.cons_ne_nil c rest
        have hnest : nest [.rule (tail s) inner] = [.rule (head (tail s))
            (nest (if tail (tail s) = [] then inner else [.rule (tail (tail s)) inner]))] :=
          nest_of_nodup (List.nodup_singleton _)
        rw [if_neg hne, hnest, Node.collapse_rule, collapse_cons, collapse_nil,
          ih _ (hlength ▸ length_tail_lt hne) htail rfl, Node.joined, ← hself]

/-- The groups of rules with tidy selectors, and with no rules inside them, are collapsed to the
rules again once they are nested. -/
theorem collapse_map_shares {body : Body}
    (h : ∀ s inner, .rule s inner ∈ body → IsTidy s ∧ ∀ node ∈ inner, node.isRule = false) :
    collapse ((shares body).map fun share => .rule share.1 (nest share.2)) =
      body.filter Node.isRule := by
  induction body using plain_induction with
  | nil => rfl
  | plain node rest hplain ih =>
      rw [shares_cons_plain hplain, List.filter_cons_of_neg (by simp [hplain])]
      exact ih fun s inner hrule => h s inner (List.mem_cons_of_mem node hrule)
  | rule s inner rest _ ih =>
      obtain ⟨hs, hinner⟩ := h s inner List.mem_cons_self
      have hshares : shares (.rule s inner :: rest) =
          (head s, if tail s = [] then inner else [.rule (tail s) inner]) :: shares rest := rfl
      rw [hshares, List.map_cons, collapse_cons, collapse_nest_share hs hinner,
        List.filter_cons_of_pos (Node.isRule_rule s inner), ih]
      exact fun t below hrule => h t below (List.mem_cons_of_mem _ hrule)

/-- The tokens that rules are filed under are the first ones of their selectors, by `head`. -/
theorem map_fst_shares (body : Body) :
    (shares body).map (·.1) = (body.filterMap Node.selector?).map head := by
  rw [shares, List.map_filterMap, List.map_filterMap]
  refine List.filterMap_congr fun node _ => ?_
  cases node with
  | verbatim text => rfl
  | declaration name value => rfl
  | rule s inner => rfl

/-- A list is the same after it is nested and its chains are collapsed, if its rules stand last and
have tidy selectors with different first tokens, and no rules inside them:
`collapse (nest body) = body`. -/
theorem collapse_nest_of_nodup {body : Body} (hlast : RulesLast body)
    (hheads : ((body.filterMap Node.selector?).map head).Nodup)
    (h : ∀ s inner, .rule s inner ∈ body → IsTidy s ∧ ∀ node ∈ inner, node.isRule = false) :
    collapse (nest body) = body := by
  rw [← map_fst_shares] at hheads
  rw [nest_of_nodup hheads, collapse_append, collapse_of_plain fun _ => isRule_of_mem_plain,
    collapse_map_shares h]
  exact hlast.eq_append.symm

/-! ## Stylesheets as they are parsed -/

variable {t : Text} {raw : Body}

/-- After a document is parsed and its comma lists are written out, the selectors in `split raw` are
tidy, and no rule has rules inside it. -/
theorem isTidy_of_mem_split (h : parse t = .ok raw) {s : Text} {inner : Body}
    (hrule : .rule s inner ∈ split raw) : IsTidy s ∧ ∀ node ∈ inner, node.isRule = false := by
  obtain ⟨selector, hselector, hs⟩ := exists_mem_of_mem_split hrule
  refine ⟨?_, fun node hnode => (isFlat_of_parse h).isRule_inner hselector hnode⟩
  have htidy : IsTidy selector := isTidy_of_parse h hselector
  rcases hs with ⟨rfl, -⟩ | hpiece
  · exact htidy
  · exact htidy.of_mem_pieces hpiece

/-- The bodies of a document that is parsed are settled: `merge inner = inner`. -/
theorem merge_inner_of_mem_split (h : parse t = .ok raw) {s : Text} {inner : Body}
    (hrule : .rule s inner ∈ split raw) : merge inner = inner := by
  simpa using merge_append_of_plain (isTidy_of_mem_split h hrule).2 []

/-- Merging what is written out of a document makes one rule of each run:
`merge (split raw) = plain raw ++ runs.map Run.merged`. -/
theorem merge_split_of_maximalRuns (h : parse t = .ok raw) {runs : List Run}
    (hruns : MaximalRuns runs ((split raw).filter Node.isRule)) :
    merge (split raw) = plain raw ++ runs.map Run.merged := by
  have hsettled : ∀ run ∈ runs, merge run.body = run.body := by
    intro run hrun
    obtain ⟨s, hrule⟩ := hruns.exists_rule_mem hrun
    exact merge_inner_of_mem_split h (List.mem_filter.1 hrule).1
  have hlast : RulesLast (split raw) := rulesLast_split (rulesLast_of_parse h)
  rw [hlast.eq_append, merge_append_of_plain fun _ => isRule_of_mem_plain, plain_split,
    merge_of_maximalRuns hruns hsettled]

/-- A single comma list of tidy `pieces` is merged to itself after it is written out:
`merge (split raw) = raw`. -/
theorem merge_split_commaList (h : parse t = .ok raw) {pieces : List Text} {inner : Body}
    (hraw : raw = [.rule (ofPieces pieces) inner]) (hne : pieces ≠ [])
    (hpieces : ∀ piece ∈ pieces, IsTidy piece ∧ ',' ∉ piece) : merge (split raw) = raw := by
  have honly : ∀ piece ∈ pieces, Selector.pieces piece = [piece] := by
    intro piece hpiece
    obtain ⟨htidy, hcomma⟩ := hpieces piece hpiece
    exact htidy.pieces_eq hcomma
  let run : Run := ⟨pieces, inner⟩
  have hsplit : split raw = run.rules := by
    rw [hraw, split_cons, split_nil, List.append_nil]
    exact run.split_merged hne honly
  have hruns : MaximalRuns [run] ((split raw).filter Node.isRule) := by
    refine ⟨?_, List.forall_mem_singleton.2 hne, .singleton _⟩
    rw [hsplit, List.flatMap_singleton, List.filter_eq_self]
    intro node hnode
    obtain ⟨piece, -, rfl⟩ := List.mem_map.1 hnode
    rfl
  have hplain : plain raw = [] := by
    rw [hraw]
    rfl
  rw [merge_split_of_maximalRuns h hruns, hplain, hraw]
  rfl

end Body

open Body

/-- **Stylesheets without shared tokens.** Where the rules of `split raw` have different first
tokens, nesting and collapsing leave them as they are, and the sheet that is built is
`merge (split raw)`: it has one rule for each of the maximal runs of these rules with equal bodies,
which are the only ones there are, and nothing else is changed. A single comma list is built as it
is. -/
theorem buildSheet_of_nodup_heads {t : Text} {raw : Body} (h : parse t = .ok raw)
    (hheads : (((split raw).filterMap Node.selector?).map head).Nodup) (o : Options) :
    buildSheet o t = .ok (merge (split raw)) ∧ collapse (nest (split raw)) = split raw ∧
      (∃ runs, MaximalRuns runs ((split raw).filter Node.isRule) ∧
        (∀ others, MaximalRuns others ((split raw).filter Node.isRule) → others = runs) ∧
        merge (split raw) = plain raw ++ runs.map Run.merged) ∧
      ∀ pieces inner, raw = [.rule (ofPieces pieces) inner] → pieces ≠ [] →
        (∀ piece ∈ pieces, IsTidy piece ∧ ',' ∉ piece) → buildSheet o t = .ok raw := by
  have hcollapse : collapse (nest (split raw)) = split raw :=
    collapse_nest_of_nodup (rulesLast_split (rulesLast_of_parse h)) hheads
      fun _ _ => isTidy_of_mem_split h
  have hbuild : buildSheet o t = .ok (merge (split raw)) := by
    rw [buildSheet_of_parse h, regroup, hcollapse]
  refine ⟨hbuild, hcollapse, ?_, ?_⟩
  · have hrules : ∀ node ∈ (split raw).filter Node.isRule, node.isRule = true :=
      fun _ hnode => (List.mem_filter.1 hnode).2
    obtain ⟨runs, hruns⟩ := exists_maximalRuns hrules
    exact ⟨runs, hruns, fun _ hothers => hothers.unique hruns, merge_split_of_maximalRuns h hruns⟩
  · intro pieces inner hraw hne hpieces
    rw [hbuild, merge_split_commaList h hraw hne hpieces]

/-- A run that goes on from a comma list to the next rule, and a comma list that is built as it is.
-/
theorem buildSheet_of_nodup_heads_runs :
    (∃ raw, parse "@x y; a b , c\x7bp:q\x7d d e\x7bp:q\x7d f\x7b\x7d".toList = .ok raw ∧
        (((split raw).filterMap Node.selector?).map head).Nodup ∧
        buildSheet {} "@x y; a b , c\x7bp:q\x7d d e\x7bp:q\x7d f\x7b\x7d".toList =
          .ok (merge (split raw)) ∧
        collapse (nest (split raw)) = split raw ∧
        ∃ runs, MaximalRuns runs ((split raw).filter Node.isRule) ∧
          (∀ others, MaximalRuns others ((split raw).filter Node.isRule) → others = runs) ∧
          merge (split raw) = plain raw ++ runs.map Run.merged) ∧
      ∃ raw, parse "a b, c\x7bp:q\x7d".toList = .ok raw ∧
        (((split raw).filterMap Node.selector?).map head).Nodup ∧
        buildSheet {} "a b, c\x7bp:q\x7d".toList = .ok raw := by
  let inner : Body := [.declaration "p".toList "q".toList]
  have hruns : parse "@x y; a b , c\x7bp:q\x7d d e\x7bp:q\x7d f\x7b\x7d".toList =
      .ok [.verbatim "@x y;".toList, .rule "a b , c".toList inner, .rule "d e".toList inner,
        .rule "f".toList []] := by
    decide +kernel
  have hlist : parse "a b, c\x7bp:q\x7d".toList =
      .ok [.rule (ofPieces ["a b".toList, "c".toList]) inner] := by
    decide +kernel
  have hpieces : ∀ piece ∈ ["a b".toList, "c".toList], IsTidy piece ∧ ',' ∉ piece := by
    have htidy : IsTidy (ofPieces ["a b".toList, "c".toList]) :=
      isTidy_of_parse hlist List.mem_cons_self
    have hcut : pieces (ofPieces ["a b".toList, "c".toList]) = ["a b".toList, "c".toList] := by
      decide +kernel
    rw [← hcut]
    exact fun piece hpiece => ⟨htidy.of_mem_pieces hpiece, (isSingle_of_mem_pieces hpiece).no_comma⟩
  have hheads := buildSheet_of_nodup_heads hruns (by decide +kernel) {}
  have hsame := buildSheet_of_nodup_heads hlist (by decide +kernel) {}
  refine ⟨⟨_, hruns, by decide +kernel, hheads.1, hheads.2.1, hheads.2.2.1⟩, _, hlist,
    by decide +kernel, ?_⟩
  exact hsame.2.2.2 _ inner rfl (List.cons_ne_nil _ _) hpieces

end SassNesting
