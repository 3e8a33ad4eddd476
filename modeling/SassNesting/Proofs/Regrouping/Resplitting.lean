import SassNesting.Proofs.Regrouping.Unshared

/-! # Writing merged lists out again

Merging makes a comma list of each run of rules with equal bodies, and writing the list out cuts it
at its commas. Where the bodies are settled and each selector is its own only piece, this gives the
rules of the runs back one by one, so nothing of the list is lost (`Body.split_merge`). The rules
that a document is written out to are of this kind, also where a run goes on from one comma list to
the next (`Body.split_merge_split`). -/

namespace SassNesting

open Selector

namespace Body

/-- Nodes that are not rules are written out as they are: `split body = body`. -/
theorem split_of_plain {body : Body} (h : ∀ node ∈ body, node.isRule = false) :
    split body = body := by
  induction body with
  | nil => rfl
  | cons node rest ih =>
      rw [List.forall_mem_cons] at h
      rw [split_cons, Node.split_plain h.1, ih h.2, List.singleton_append]

/-- Runs that are merged are written out as their rules, one run after the other, if each selector
`s` is its only piece. -/
theorem split_map_merged {runs : List Run} (hne : ∀ run ∈ runs, run.selectors ≠ [])
    (h : ∀ run ∈ runs, ∀ s ∈ run.selectors, pieces s = [s]) :
    split (runs.map Run.merged) = runs.flatMap Run.rules := by
  rw [split, List.flatMap_map]
  exact List.flatMap_congr fun run hrun => Run.split_merged (hne run hrun) (h run hrun)

/-- A list is the same after it is merged and written out, if its rules stand last and have settled
bodies and selectors that are their only pieces: `split (merge body) = body`. -/
theorem split_merge {body : Body} (hlast : RulesLast body)
    (h : ∀ s inner, .rule s inner ∈ body → pieces s = [s] ∧ merge inner = inner) :
    split (merge body) = body := by
  have hrules : ∀ node ∈ body.filter Node.isRule, node.isRule = true :=
    fun _ hnode => (List.mem_filter.1 hnode).2
  obtain ⟨runs, hruns⟩ := exists_maximalRuns hrules
  have hsettled : ∀ run ∈ runs, merge run.body = run.body := by
    intro run hrun
    obtain ⟨s, hrule⟩ := hruns.exists_rule_mem hrun
    exact (h s run.body (List.mem_filter.1 hrule).1).2
  have honly : ∀ run ∈ runs, ∀ s ∈ run.selectors, pieces s = [s] := by
    intro run hrun s hs
    have hrule : .rule s run.body ∈ body.filter Node.isRule := by
      rw [hruns.rules_eq]
      exact List.mem_flatMap.2 ⟨run, hrun, List.mem_map_of_mem hs⟩
    exact (h s run.body (List.mem_filter.1 hrule).1).1
  calc split (merge body)
      = split (merge (plain body ++ body.filter Node.isRule)) := by rw [← hlast.eq_append]
    _ = split (plain body ++ runs.map Run.merged) := by
        rw [merge_append_of_plain fun _ => isRule_of_mem_plain, merge_of_maximalRuns hruns hsettled]
    _ = plain body ++ runs.flatMap Run.rules := by
        rw [split_append, split_of_plain fun _ => isRule_of_mem_plain,
          split_map_merged hruns.ne_nil honly]
    _ = body := by rw [← hruns.rules_eq, ← hlast.eq_append]

/-- After a document is parsed and its comma lists are written out, each selector is its only piece:
`pieces s = [s]`. -/
theorem pieces_of_mem_split {t : Text} {raw : Body} (h : parse t = .ok raw) {s : Text}
    {inner : Body} (hrule : .rule s inner ∈ split raw) : pieces s = [s] := by
  refine (isTidy_of_mem_split h hrule).1.pieces_eq ?_
  obtain ⟨selector, -, hs⟩ := exists_mem_of_mem_split hrule
  rcases hs with ⟨rfl, hcomma⟩ | hpiece
  · exact hcomma
  · exact (isSingle_of_mem_pieces hpiece).no_comma

/-- **Writing out undoes merging.** What a document is written out to is the same after it is merged
and written out again: `split (merge (split raw)) = split raw`. -/
theorem split_merge_split {t : Text} {raw : Body} (h : parse t = .ok raw) :
    split (merge (split raw)) = split raw :=
  split_merge (rulesLast_split (rulesLast_of_parse h)) fun _ _ hrule =>
    ⟨pieces_of_mem_split h hrule, merge_inner_of_mem_split h hrule⟩

/-- A run that goes on over three comma lists, with a selector that is there twice and one piece
that is empty, and a run of rules with nothing inside. -/
theorem split_merge_split_runs :
    ∃ raw, parse
      "@x y; a , b c\x7bp:q\x7d b c\x7bp:q\x7d d,, e\x7bp:q\x7d f, g\x7b\x7d f\x7b\x7d".toList =
        .ok raw ∧
      merge (split raw) = [.verbatim "@x y;".toList,
        .rule "a, b c, b c, d, e".toList [.declaration "p".toList "q".toList],
        .rule "f, g, f".toList []] ∧
      split (merge (split raw)) = split raw := by
  have hparse :
      parse
        "@x y; a , b c\x7bp:q\x7d b c\x7bp:q\x7d d,, e\x7bp:q\x7d f, g\x7b\x7d f\x7b\x7d".toList =
        .ok [.verbatim "@x y;".toList,
          .rule "a , b c".toList [.declaration "p".toList "q".toList],
          .rule "b c".toList [.declaration "p".toList "q".toList],
          .rule "d,, e".toList [.declaration "p".toList "q".toList], .rule "f, g".toList [],
          .rule "f".toList []] := by
    decide +kernel
  exact ⟨_, hparse, by decide +kernel, split_merge_split hparse⟩

end Body

end SassNesting
