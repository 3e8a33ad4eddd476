import SassNesting.Proofs.Regrouping.Chains
import SassNesting.Proofs.Regrouping.Trie

/-! # Nesting what is collapsed

What is nested from a body depends on what is filed under each path: the nodes that are not rules,
and the tokens that go on there (`Body.nest_ext`). A joined rule files what the chain files that it
stands for. So collapsing chains hides nothing from nesting (`Body.nest_collapse`), and a nested
body comes back when its chains are collapsed and it is nested again (`Body.nest_collapse_nest`). -/

namespace SassNesting

open Selector

/-! ## The tokens behind a path in joined rules -/

namespace Node

/-- What goes on in a rule depends on the tokens `steps s` of its selector only. -/
theorem branches_congr {s t : Text} (h : steps s = steps t) (path : TokenPath) (inner : Body) :
    (Node.rule s inner).branches path = (Node.rule t inner).branches path := by
  rw [Node.branches, Node.branches, h]

/-- In a rule for `s ++ ' ' :: u` the same tokens go on as in the chain of a rule for `s` and one
for `u`. -/
theorem branches_append_blank {s u : Text} (hs : HasToken s) (hu : HasToken u) (path : TokenPath)
    (inner : Body) :
    (Node.rule (s ++ ' ' :: u) inner).branches path =
      (Node.rule s [.rule u inner]).branches path := by
  -- The path goes through the first selector token by token, until nothing is left of it.
  induction path generalizing s with
  | nil => rw [branches_rule_nil, branches_rule_nil, (head_and_tail_append_blank hs u).1]
  | cons token path ih =>
      obtain ⟨hhead, hwords⟩ := head_and_tail_append_blank hs u
      have hlong : HasToken (tail (s ++ ' ' :: u)) := by
        rw [HasToken, hwords]
        exact List.append_ne_nil_of_right_ne_nil _ hu
      rw [branches_rule_cons, branches_rule_cons, hhead, if_neg (mt tail_eq_nil_iff.1 hlong)]
      congr 1
      by_cases htail : tail s = []
      · have hsteps : steps (tail (s ++ ' ' :: u)) = steps u := by
          rw [steps_of_hasToken hlong, hwords, tail_eq_nil_iff.1 htail, List.nil_append,
            steps_of_hasToken hu]
        rw [if_pos htail, Body.branches_cons, Body.branches_cons, branches_congr hsteps]
      · have hshort : HasToken (tail s) := hasToken_tail htail
        have hsteps : steps (tail (s ++ ' ' :: u)) = steps (tail s ++ ' ' :: u) := by
          rw [steps_of_hasToken hlong, hwords, steps_of_hasToken (hshort.append_blank u),
            Text.words_append_blank (by decide)]
        rw [if_neg htail, Body.branches_cons, Body.branches_cons, branches_congr hsteps, ih hshort]

/-- In `Node.joined s inner` the same tokens go on as in `.rule s inner`. -/
theorem branches_joined {s : Text} {inner : Body} (hs : HasToken s)
    (hinner : Body.EverySelector HasToken inner) (path : TokenPath) :
    (Node.joined s inner).branches path = (Node.rule s inner).branches path := by
  obtain ⟨t, joined, hjoined⟩ := Node.exists_joined_eq s inner
  rw [hjoined]
  rcases Node.joined_cases hjoined with ⟨rfl, rfl, -⟩ | ⟨u, rfl, rfl⟩
  · rfl
  · have hu : HasToken u := (Body.everySelector_iff.1 hinner u joined List.mem_cons_self).1
    exact branches_append_blank hs hu path joined

end Node

namespace Body

/-- Collapsing chains keeps the tokens that go on behind each `path`, in order. -/
theorem branches_collapse {body : Body} (h : EverySelector HasToken body) (path : TokenPath) :
    branches path (collapse body) = branches path body := by
  induction body using plain_induction generalizing path with
  | nil => rfl
  | plain node rest hplain ih =>
      rw [collapse_cons, branches_cons, ih (everySelector_cons.1 h).2, branches_cons,
        Node.collapse_plain hplain]
  | rule s inner rest ihinner ih =>
      obtain ⟨hs, hinner⟩ := everySelector_iff.1 h s inner List.mem_cons_self
      have hjoined : (Node.joined s (collapse inner)).branches path =
          (Node.rule s (collapse inner)).branches path :=
        Node.branches_joined hs (hasToken_collapse hinner) path
      rw [collapse_cons, branches_cons, ih (everySelector_cons.1 h).2, branches_cons,
        Node.collapse_rule, hjoined, Node.branches, Node.branches]
      simp only [ihinner hinner]

/-! ## What nesting depends on -/

/-- Bodies `b` and `c` are nested alike if under each `path` they file the same nodes that are not
rules, and the same tokens go on there in the order in which they first do. -/
theorem nest_ext {b c : Body} (hplain : ∀ path, plain (filed path b) = plain (filed path c))
    (hheads : ∀ path, heads (shares (filed path b)) = heads (shares (filed path c))) :
    nest b = nest c := by
  -- Under the paths that start with a token, the group of the token files what the body does.
  induction hweight : weight b using Nat.strong_induction_on generalizing b c with
  | _ n ih =>
      have hplainHere : plain b = plain c := hplain []
      have hheadsHere : heads (shares b) = heads (shares c) := hheads []
      rw [nest_eq, nest_eq, hplainHere, ← hheadsHere]
      congr 1
      apply List.map_congr_left
      intro head hhead
      have hlt : weight (group head (shares b)) < n := hweight ▸ weight_group_lt hhead
      have hgroup : nest (group head (shares b)) = nest (group head (shares c)) :=
        ih _ hlt (fun path => hplain (head :: path)) (fun path => hheads (head :: path)) rfl
      rw [hgroup]

/-- The nodes that are `filed` under a `path` and are not rules are the leaves at the path. -/
theorem plain_filed {body : Body} (h : EverySelector HasToken body) (path : TokenPath) :
    plain (filed path body) = leavesAt wholePath [] path body := by
  have hpaths : EverySelector (fun s => stepPath s = wholePath s) body := by
    refine h.mono ?_
    intro s hs
    rw [stepPath, steps_of_hasToken hs, wholePath]
  have hleaves : leavesAt stepPath [] path body = plain (filed path body) :=
    leavesAt_eq_plain_filed [] path body
  rw [← hleaves, leavesAt, leaves_congr hpaths, leavesAt]

/-- Bodies are nested alike before and after their chains are collapsed:
`nest (collapse body) = nest body`. -/
theorem nest_collapse {body : Body} (h : EverySelector HasToken body) :
    nest (collapse body) = nest body := by
  apply nest_ext
  · intro path
    rw [plain_filed (hasToken_collapse h), leavesAt_collapse, plain_filed h]
  · intro path
    rw [heads, heads, ← branches_eq_map_filed, ← branches_eq_map_filed, branches_collapse h]

/-- A nested body is left as it is when it is nested again: `nest (nest body) = nest body`. -/
theorem nest_nest (body : Body) : nest (nest body) = nest body := by
  simpa using nest_nest_append body []

/-- **Nesting undoes collapsing.** Where every selector has a character that is not blank, a nested
body whose chains are collapsed is nested to the same body again:
`nest (collapse (nest body)) = nest body`. -/
theorem nest_collapse_nest {body : Body}
    (h : EverySelector (fun s => ∃ c ∈ s, Text.isBlank c = false) body) :
    nest (collapse (nest body)) = nest body := by
  have htokens : EverySelector HasToken body := h.mono fun _ => Text.words_ne_nil_iff.2
  rw [nest_collapse (hasToken_nest htokens), nest_nest]

/-- A chain behind a branch, a rule without a body, and a line kept as it is written inside a rule.
-/
theorem nest_collapse_nest_branch :
    EverySelector (fun s => ∃ c ∈ s, Text.isBlank c = false)
        [.rule " a\tb ".toList [.rule "c".toList [.verbatim "@x;".toList]],
          .rule "a b c d".toList [], .rule "a e".toList []] ∧
      nest (collapse (nest [.rule " a\tb ".toList [.rule "c".toList [.verbatim "@x;".toList]],
          .rule "a b c d".toList [], .rule "a e".toList []])) =
        nest [.rule " a\tb ".toList [.rule "c".toList [.verbatim "@x;".toList]],
          .rule "a b c d".toList [], .rule "a e".toList []] := by
  have htokens : EverySelector HasToken
      [.rule " a\tb ".toList [.rule "c".toList [.verbatim "@x;".toList]],
        .rule "a b c d".toList [], .rule "a e".toList []] := by
    decide +kernel
  have h := htokens.mono fun _ => Text.words_ne_nil_iff.1
  exact ⟨h, nest_collapse_nest h⟩

end Body

end SassNesting
