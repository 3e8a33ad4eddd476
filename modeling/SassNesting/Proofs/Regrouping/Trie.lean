import SassNesting.Proofs.Regrouping.Nesting

/-! # The tree of prefixes

A nested body is the tree of the prefixes of its selectors. Every list in it stands at a path of
tokens, and what is in the list is told by the stylesheet before nesting: the nodes that are not
rules are the leaves at that path, and the rules are the tokens that go on behind the path in some
selector, in the order in which they first do (`Body.PrefixNode`). Such a tree can be added to: to
nest a body behind a nested one is to nest the two bodies together (`Body.nest_nest_append`). -/

namespace SassNesting

open Selector

/-! ## Nesting bit by bit -/

/-- From a list without repetitions none are removed: `l.eraseDups = l`. -/
theorem eraseDups_of_nodup {l : List Text} (h : l.Nodup) : l.eraseDups = l := by
  induction l with
  | nil => rfl
  | cons a l ih =>
      obtain ⟨ha, hl⟩ := List.nodup_cons.1 h
      have hfilter : l.filter (fun b => !b == a) = l := by
        rw [List.filter_eq_self]
        intro b hb
        have hne : b ≠ a := fun heq => ha (heq ▸ hb)
        simpa using hne
      rw [List.eraseDups_cons, hfilter, ih hl]

/-- Repetitions may be removed from the first part `l` of a list before they are removed from all of
it. -/
theorem eraseDups_eraseDups_append (l m : List Text) :
    (l.eraseDups ++ m).eraseDups = (l ++ m).eraseDups := by
  have hself : l.eraseDups.eraseDups = l.eraseDups := eraseDups_of_nodup (nodup_eraseDups l)
  have hsame : m.removeAll l.eraseDups = m.removeAll l := by
    simp only [List.removeAll, List.elem_eq_mem, List.mem_eraseDups]
  rw [List.eraseDups_append, List.eraseDups_append, hself, hsame]

namespace Body

theorem shares_append (b c : Body) : shares (b ++ c) = shares b ++ shares c :=
  List.filterMap_append

/-- A node that is not a rule puts nothing into a group: `shares (node :: rest) = shares rest`. -/
theorem shares_cons_plain {node : Node} (h : node.isRule = false) (rest : Body) :
    shares (node :: rest) = shares rest :=
  List.filterMap_cons_none (Node.share?_eq_none_iff.2 h)

theorem group_append (head : Text) (shares rest : List (Text × Body)) :
    group head (shares ++ rest) = group head shares ++ group head rest := by
  rw [group, List.filter_append, List.flatMap_append, ← group, ← group]

/-- The tokens that have a group are those before nesting, in the same order, whatever shares `rest`
come behind. -/
theorem heads_nest_append (body : Body) (rest : List (Text × Body)) :
    heads (shares (nest body) ++ rest) = heads (shares body ++ rest) := by
  have hheads : (shares (nest body)).map (·.1) = heads (shares body) := by
    rw [shares_nest, List.map_map]
    exact List.map_id _
  rw [heads, List.map_append, hheads, heads, eraseDups_eraseDups_append, heads, List.map_append]

theorem nest_nil : nest [] = [] := by
  rw [nest_eq]
  rfl

/-- To nest `ys` behind a nested body `nest xs` is to nest the two bodies together. -/
theorem nest_nest_append (xs ys : Body) : nest (nest xs ++ ys) = nest (xs ++ ys) := by
  -- Each group of a nested body is nested, and weighs less than the body.
  induction hweight : weight xs using Nat.strong_induction_on generalizing xs ys with
  | _ n ih =>
      have hgroup : ∀ head, nest (group head (shares (nest xs) ++ shares ys)) =
          nest (group head (shares xs ++ shares ys)) := by
        intro head
        rw [group_append, group_append, group_nest]
        by_cases hhead : head ∈ heads (shares xs)
        · have hlt : weight (group head (shares xs)) < n := hweight ▸ weight_group_lt hhead
          exact ih _ hlt _ _ rfl
        · rw [group_eq_nil hhead, nest_nil]
      rw [nest_eq, plain_append, plain_nest, shares_append, heads_nest_append, nest_eq (xs ++ ys),
        plain_append, shares_append]
      simp only [hgroup]

end Body

/-! ## The tokens behind a path -/

/-- The tokens of a selector `s`; a selector without tokens has a single one that is empty. -/
def Selector.steps (s : Text) : TokenPath := if Text.words s = [] then [[]] else Text.words s

/-- The tokens of a selector are its words, if there are any: `steps s = Text.words s`. -/
theorem Selector.steps_of_hasToken {s : Text} (h : HasToken s) : steps s = Text.words s :=
  if_neg h

/-- The tokens of a selector are `head s` and those of what is left, `tail s`. -/
theorem Selector.steps_eq (s : Text) :
    steps s = head s :: if tail s = [] then [] else steps (tail s) := by
  by_cases hwords : Text.words s = []
  · have hstart : Text.trimStart s = [] := Text.trimStart_eq_nil hwords
    rw [steps, if_pos hwords, head, tail, hstart]
    rfl
  · have hcut := (words_eq_head_cons hwords).1
    rw [steps, if_neg hwords, hcut]
    by_cases htail : tail s = []
    · rw [if_pos htail, tail_eq_nil_iff.1 htail]
    · rw [if_neg htail, steps, if_neg (mt tail_eq_nil_iff.2 htail)]

/-- The tokens of a selector as a single path. -/
def Selector.stepPath (s : Text) : List TokenPath := [steps s]

/-- The path `stepPath s` goes through the selector token by token. -/
theorem Selector.stepwise_stepPath (s : Text) : Stepwise stepPath s := by
  rw [Stepwise, stepPath, steps_eq]
  by_cases htail : tail s = []
  · rw [if_pos htail, if_pos htail]
  · rw [if_neg htail, if_neg htail, stepPath, List.map_singleton]

mutual

/-- The tokens that go on behind a `path` in the rules of a tree. Where the path is within a
selector, that is the next token; where a selector is within the path, its body goes on behind the
rest. -/
def Node.branches (path : TokenPath) : Node → List Text
  | .verbatim _ => []
  | .declaration _ _ => []
  | .rule selector body =>
    match (steps selector).isPrefixOf? path with
    | some rest => Body.branches rest body
    | none => ((path.isPrefixOf? (steps selector)).bind List.head?).toList

/-- The tokens that go on behind a `path` in the rules of a body, in order. -/
def Body.branches (path : TokenPath) : List Node → List Text
  | [] => []
  | node :: rest => Node.branches path node ++ Body.branches path rest

end

@[simp] theorem Body.branches_nil (path : TokenPath) : Body.branches path [] = [] := rfl

@[simp] theorem Body.branches_cons (path : TokenPath) (node : Node) (rest : Body) :
    Body.branches path (node :: rest) = node.branches path ++ Body.branches path rest := rfl

@[simp] theorem Body.branches_append (path : TokenPath) (b c : Body) :
    Body.branches path (b ++ c) = Body.branches path b ++ Body.branches path c := by
  induction b with
  | nil => rfl
  | cons node b ih => rw [List.cons_append, branches_cons, branches_cons, ih, List.append_assoc]

/-- Nothing goes on in a node that is not a rule: `node.branches path = []`. -/
theorem Node.branches_plain {node : Node} (h : node.isRule = false) (path : TokenPath) :
    node.branches path = [] :=
  Node.plain_cases (fun _ => rfl) (fun _ _ => rfl) h

/-- A rule begins with the first token of its selector: its branches behind `[]` are `[head s]`. -/
theorem Node.branches_rule_nil (s : Text) (inner : Body) :
    (Node.rule s inner).branches [] = [head s] := by
  rw [Node.branches, steps_eq]
  rfl

/-- Behind the first token `head s` of its selector a rule goes on as its share does, and behind
other tokens it does not. -/
theorem Node.branches_rule_cons (s token : Text) (path : TokenPath) (inner : Body) :
    (Node.rule s inner).branches (token :: path) =
      if head s = token then
        Body.branches path (if tail s = [] then inner else [.rule (tail s) inner])
      else [] := by
  rw [Node.branches, steps_eq]
  by_cases hhead : head s = token
  · by_cases htail : tail s = []
    · simp [List.isPrefixOf?, hhead, htail]
    · simp [List.isPrefixOf?, hhead, htail, Node.branches]
  · simp [List.isPrefixOf?, hhead, Ne.symm hhead]

namespace Body

/-! ## Nodes filed under a path -/

/-- What is filed under a path: under each of its tokens in turn the group of that token. -/
def filed : TokenPath → Body → Body
  | [], body => body
  | token :: path, body => filed path (group token (shares body))

/-- The leaves at a `path` are the nodes that are `filed` under it and are not rules. -/
theorem leavesAt_eq_plain_filed (context path : TokenPath) (body : Body) :
    leavesAt stepPath context (context ++ path) body = plain (filed path body) := by
  induction path generalizing context body with
  | nil =>
      rw [List.append_nil, filed]
      refine leavesAt_self (everySelector_of_forall fun s p hp => ?_) context
      rw [List.mem_singleton.1 hp, steps_eq]
      exact List.cons_ne_nil _ _
  | cons token path ih =>
      have hstep : context ++ token :: path = context ++ [token] ++ path := by simp
      rw [leavesAt_group (everySelector_of_forall stepwise_stepPath), hstep, ih, filed]

/-- At the top, behind the path `[]`, the tokens that go on are the first ones of the rules. -/
theorem branches_nil_path (body : Body) : branches [] body = (shares body).map (·.1) := by
  induction body using plain_induction with
  | nil => rfl
  | plain node rest hplain ih =>
      rw [branches_cons, Node.branches_plain hplain, List.nil_append, shares_cons_plain hplain, ih]
  | rule s inner rest _ ih =>
      rw [branches_cons, Node.branches_rule_nil, ih]
      rfl

/-- The tokens that go on behind `token :: path` do so behind `path` in the group of the token. -/
theorem branches_group (token : Text) (path : TokenPath) (body : Body) :
    branches (token :: path) body = branches path (group token (shares body)) := by
  induction body using plain_induction with
  | nil => rfl
  | plain node rest hplain ih =>
      rw [branches_cons, Node.branches_plain hplain, List.nil_append, shares_cons_plain hplain, ih]
  | rule s inner rest _ ih =>
      have hshares : shares (.rule s inner :: rest) =
          (head s, if tail s = [] then inner else [.rule (tail s) inner]) :: shares rest := rfl
      rw [branches_cons, Node.branches_rule_cons, ih, hshares, group_cons, branches_append]
      by_cases hhead : head s = token
      · rw [if_pos hhead, if_pos hhead]
      · rw [if_neg hhead, if_neg hhead, branches_nil]

/-- The tokens that go on behind a `path` are the first ones of the rules that are `filed` under it.
-/
theorem branches_eq_map_filed (path : TokenPath) (body : Body) :
    branches path body = (shares (filed path body)).map (·.1) := by
  induction path generalizing body with
  | nil => exact branches_nil_path body
  | cons token path ih => rw [branches_group, ih, filed]

/-! ## The lists of a nested body -/

/-- Along a `path` of selectors the rules of a body lead to a list inside it. -/
inductive Inside : List Text → Body → Body → Prop
  /-- The body itself. -/
  | here {body : Body} : Inside [] body body
  /-- A list inside the body of a rule. -/
  | rule {s : Text} {path : List Text} {inner list body : Body} :
      .rule s inner ∈ body → Inside path list inner → Inside (s :: path) list body

/-- Each list in `nest body` is what is `filed` under its path, nested. -/
theorem Inside.eq_nest_filed {path : List Text} {list body : Body}
    (h : Inside path list (nest body)) :
    list = nest (filed path body) := by
  induction path generalizing body with
  | nil =>
      cases h
      rfl
  | cons s path ih =>
      cases h with
      | rule hrule hinside =>
          obtain ⟨-, rfl⟩ := mem_nest_rule.1 hrule
          exact ih hinside

/-- The selectors of `nest body` are the first tokens of the body, each where it is first seen:
`heads (shares body)`. -/
theorem selectors_nest (body : Body) :
    (nest body).filterMap Node.selector? = heads (shares body) := by
  have hplain : (plain body).filterMap Node.selector? = [] := by
    rw [List.filterMap_eq_nil_iff]
    intro node hnode
    exact Node.plain_cases (fun _ => rfl) (fun _ _ => rfl) (isRule_of_mem_plain hnode)
  rw [nest_eq, List.filterMap_append, hplain, List.nil_append, List.filterMap_map]
  exact List.filterMap_some

/-- A list in the tree of the prefixes of the selectors of a body: the one at the given `path`. -/
structure PrefixNode (body : Body) (path : List Text) (list : Body) : Prop where
  /-- The rules stand behind the other nodes. -/
  rules_last : RulesLast list
  /-- The other nodes are those the body has at the path, in order. -/
  plain_eq : plain list = leavesAt stepPath [] path body
  /-- The selectors are the tokens that go on behind the path, in the order in which they first
  do. -/
  selectors_eq : list.filterMap Node.selector? = (branches path body).eraseDups
  /-- No two rules have the same selector. -/
  distinct : (list.filterMap Node.selector?).Nodup
  /-- No selector has a blank in it. -/
  no_blank : ∀ s inner, .rule s inner ∈ list → ∀ c ∈ s, Text.isBlank c = false

/-- Each list in `nest body` is one in the tree of prefixes: the `PrefixNode` at its path. -/
theorem Inside.prefixNode {path : List Text} {list body : Body} (h : Inside path list (nest body)) :
    PrefixNode body path list := by
  have hselectors : list.filterMap Node.selector? = (branches path body).eraseDups := by
    rw [h.eq_nest_filed, selectors_nest, heads, branches_eq_map_filed]
  refine ⟨?_, ?_, hselectors, ?_, ?_⟩
  · rw [h.eq_nest_filed]
    exact rulesLast_nest _
  · rw [h.eq_nest_filed, plain_nest]
    exact (leavesAt_eq_plain_filed [] path body).symm
  · rw [hselectors]
    exact nodup_eraseDups _
  · intro s inner hrule c hc
    rw [h.eq_nest_filed, mem_nest_rule] at hrule
    obtain ⟨part, hpart⟩ := mem_heads.1 hrule.1
    obtain ⟨t, -, -, rfl, -⟩ := mem_shares.1 hpart
    exact isBlank_of_mem_head hc

/-- **Nesting makes the tree of the prefixes of all selectors** (`PrefixNode`), and makes it bit by
bit as well as at once: what is nested stays as it is, `nest (nest xs) = nest xs`, and what comes
behind it is nested into it, `nest (nest xs ++ ys) = nest (xs ++ ys)`. -/
theorem nest_prefixTree (xs ys : Body) :
    nest (nest xs ++ ys) = nest (xs ++ ys) ∧ nest (nest xs) = nest xs ∧
      ∀ path list, Inside path list (nest xs) → PrefixNode xs path list := by
  have hself : nest (nest xs ++ []) = nest (xs ++ []) := nest_nest_append xs []
  rw [List.append_nil, List.append_nil] at hself
  exact ⟨nest_nest_append xs ys, hself, fun _ _ h => h.prefixNode⟩

/-- A group that is seen again behind another one keeps its place, and what is seen last may come
first in it. -/
theorem nest_prefixTree_revisited :
    Inside ["b".toList] [.declaration "p".toList "q".toList, .rule "x".toList []]
        (nest [.rule "b x".toList [], .rule "a".toList [],
          .rule "b".toList [.declaration "p".toList "q".toList]]) ∧
      PrefixNode [.rule "b x".toList [], .rule "a".toList [],
          .rule "b".toList [.declaration "p".toList "q".toList]]
        ["b".toList] [.declaration "p".toList "q".toList, .rule "x".toList []] := by
  have hnest : nest [.rule "b x".toList [], .rule "a".toList [],
      .rule "b".toList [.declaration "p".toList "q".toList]] =
        [.rule "b".toList [.declaration "p".toList "q".toList, .rule "x".toList []],
          .rule "a".toList []] := by
    decide +kernel
  have hinside : Inside ["b".toList] [.declaration "p".toList "q".toList, .rule "x".toList []]
      (nest [.rule "b x".toList [], .rule "a".toList [],
        .rule "b".toList [.declaration "p".toList "q".toList]]) := by
    rw [hnest]
    exact .rule List.mem_cons_self .here
  exact ⟨hinside, (nest_prefixTree _ []).2.2 _ _ hinside⟩

end Body

end SassNesting
