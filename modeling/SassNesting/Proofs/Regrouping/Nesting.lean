import SassNesting.Proofs.Node.Arrangement
import SassNesting.Proofs.Node.Leaves

/-! # What nesting keeps

Below a context, the leaves whose path goes on with a token are those of the group of that token
(`leavesAt_group`). Nesting a body and taking a group commute (`group_nest`), so the leaves of a
nested body are found step by step along their path. After the pass the rules of every list have
pairwise different tokens as their selectors and stand behind the other nodes. -/

namespace SassNesting

open Selector Text

/-! ## Shares and groups -/

/-- In `l.eraseDups` each element stands once. -/
theorem nodup_eraseDups (l : List Text) : l.eraseDups.Nodup := by
  -- Behind the first element the repetitions are removed from a list that is filtered before, so
  -- the induction is on the length.
  induction hlen : l.length using Nat.strong_induction_on generalizing l with
  | _ n ih =>
      cases l with
      | nil => exact List.nodup_nil
      | cons a l =>
          have hle := List.length_filter_le (fun b => !b == a) l
          rw [List.length_cons] at hlen
          rw [List.eraseDups_cons, List.nodup_cons]
          constructor
          · simp [List.mem_eraseDups]
          · exact ih _ (by omega) _ rfl

/-- The nodes that put nothing into a group are those that are not rules. -/
theorem Node.share?_eq_none_iff {node : Node} : node.share? = none ↔ node.isRule = false := by
  cases node <;> simp [Node.share?]

namespace Body

/-- The tokens that have a group, `heads shares`, are pairwise different. -/
theorem nodup_heads (shares : List (Text × Body)) : (heads shares).Nodup :=
  nodup_eraseDups _

/-- A token has a group if there is a share for it. -/
theorem mem_heads {head : Text} {shares : List (Text × Body)} :
    head ∈ heads shares ↔ ∃ part, (head, part) ∈ shares := by
  simp [heads, List.mem_eraseDups]

/-- The group of a token without shares is empty: `group head shares = []`. -/
theorem group_eq_nil {head : Text} {shares : List (Text × Body)} (h : head ∉ heads shares) :
    group head shares = [] := by
  rw [group, List.flatMap_eq_nil_iff]
  rintro ⟨token, part⟩ hshare
  rw [List.mem_filter, decide_eq_true_eq] at hshare
  obtain ⟨hmem, rfl⟩ := hshare
  exact absurd (mem_heads.2 ⟨part, hmem⟩) h

/-- A share `(head, part)` comes from a rule: `part` is the body of the rule, or a rule for the rest
of its selector. -/
theorem mem_shares {head : Text} {part body : Body} :
    (head, part) ∈ shares body ↔ ∃ s inner, .rule s inner ∈ body ∧ Selector.head s = head ∧
      (if tail s = [] then inner else [.rule (tail s) inner]) = part := by
  rw [shares, List.mem_filterMap]
  constructor
  · rintro ⟨node, hnode, hshare⟩
    rcases node.plain_or_rule with hplain | ⟨s, inner, rfl⟩
    · rw [Node.share?_eq_none_iff.2 hplain] at hshare
      simp at hshare
    · rw [Node.share?, Option.some.injEq, Prod.mk.injEq] at hshare
      exact ⟨s, inner, hnode, hshare⟩
  · rintro ⟨s, inner, hrule, rfl, rfl⟩
    exact ⟨.rule s inner, hrule, rfl⟩

/-- The tokens in `heads (shares body)` are tokens, if the selectors of the body have tokens. -/
theorem isToken_of_mem_heads {body : Body} (h : EverySelector HasToken body) {head : Text}
    (hhead : head ∈ heads (shares body)) : IsToken head := by
  obtain ⟨part, hpart⟩ := mem_heads.1 hhead
  obtain ⟨s, inner, hrule, rfl, -⟩ := mem_shares.1 hpart
  exact (words_eq_head_cons (everySelector_iff.1 h s inner hrule).1).2

/-- If `P` holds of every selector in a body and is kept by `tail`, it holds of every selector in a
group. -/
theorem everySelector_group {P : Text → Prop} (htail : ∀ s, P s → tail s ≠ [] → P (tail s))
    {body : Body} (h : EverySelector P body) (head : Text) :
    EverySelector P (group head (shares body)) := by
  rw [everySelector_iff]
  intro t inner ht
  obtain ⟨⟨token, part⟩, hshare, hpart⟩ := List.mem_flatMap.1 ht
  obtain ⟨s, body', hrule, -, rfl⟩ := mem_shares.1 (List.mem_filter.1 hshare).1
  obtain ⟨hs, hbody⟩ := everySelector_iff.1 h s body' hrule
  by_cases hnil : tail s = []
  · -- The rule is dissolved, and what is in its body is in the group.
    rw [if_pos hnil] at hpart
    exact everySelector_iff.1 hbody t inner hpart
  · -- The rule is in the group, without its first token.
    rw [if_neg hnil] at hpart
    cases List.mem_singleton.1 hpart
    exact ⟨htail s hs hnil, hbody⟩

/-! ## Groups of a nested body -/

/-- Nesting keeps the nodes that are not rules: `plain (nest body) = plain body`. -/
theorem plain_nest (body : Body) : plain (nest body) = plain body := by
  rw [nest_eq]
  simp [plain, List.filter_filter, List.filter_map, Function.comp_def]

/-- The rules of `nest body` are its groups, nested. -/
theorem mem_nest_rule {body inner : Body} {s : Text} :
    .rule s inner ∈ nest body ↔
      s ∈ heads (shares body) ∧ nest (group s (shares body)) = inner := by
  rw [nest_eq, List.mem_append, List.mem_map]
  constructor
  · rintro (hplain | ⟨head, hhead, heq⟩)
    · simp [plain] at hplain
    · cases heq
      exact ⟨hhead, rfl⟩
  · rintro ⟨hhead, rfl⟩
    exact Or.inr ⟨s, hhead, rfl⟩

/-- The shares of `nest body` are its groups, nested. -/
theorem shares_nest (body : Body) :
    shares (nest body) =
      (heads (shares body)).map fun head => (head, nest (group head (shares body))) := by
  have hplain : shares (plain body) = [] := by
    rw [shares, List.filterMap_eq_nil_iff]
    intro node hnode
    exact Node.share?_eq_none_iff.2 (isRule_of_mem_plain hnode)
  rw [nest_eq, shares, List.filterMap_append, ← shares, hplain, List.nil_append,
    List.filterMap_map, ← List.filterMap_eq_map]
  -- A rule of a first token alone gives its body to the group of that token.
  refine List.filterMap_congr ?_
  intro head hhead
  obtain ⟨part, hpart⟩ := mem_heads.1 hhead
  obtain ⟨s, -, -, rfl, -⟩ := mem_shares.1 hpart
  obtain ⟨hself, htail⟩ := head_and_tail_head s
  rw [Function.comp_apply, Node.share?, if_pos htail, hself, Function.comp_apply]

/-- The group of a token in `nest body` is its group in the body, nested. -/
theorem group_nest (body : Body) (head : Text) :
    group head (shares (nest body)) = nest (group head (shares body)) := by
  have hfilter : ((heads (shares body)).map fun k => (k, nest (group k (shares body)))).filter
      (·.1 = head) = ((heads (shares body)).filter (· = head)).map
        fun k => (k, nest (group k (shares body))) := by
    rw [List.filter_map]
    rfl
  rw [shares_nest, group, hfilter, List.filter_eq]
  by_cases hhead : head ∈ heads (shares body)
  · have hcount : (heads (shares body)).count head = 1 :=
      List.count_eq_one_of_mem (nodup_heads _) hhead
    rw [hcount]
    simp
  · have hcount : (heads (shares body)).count head = 0 := List.count_eq_zero_of_not_mem hhead
    rw [hcount, group_eq_nil hhead, nest_eq]
    rfl

/-- The rules of `nest body` stand behind the other nodes. -/
theorem rulesLast_nest (body : Body) : RulesLast (nest body) := by
  rw [nest_eq]
  apply rulesLast_append
  · exact fun node hnode => isRule_of_mem_plain hnode
  · intro node hnode
    obtain ⟨head, -, rfl⟩ := List.mem_map.1 hnode
    rfl

/-! ## Every list of a nested body -/

/-- If `Q` holds of every nested body, it holds of each list in one, since the bodies of its rules
are nested. -/
theorem everywhere_nest {P : Text → Prop} (htail : ∀ s, P s → tail s ≠ [] → P (tail s))
    {Q : Body → Prop} (hnest : ∀ b, EverySelector P b → Q (nest b)) {body : Body}
    (h : EverySelector P body) : Everywhere Q (nest body) := by
  -- A group may hold rules that stand in the body itself, so the induction is on the weight.
  induction hweight : weight body using Nat.strong_induction_on generalizing body with
  | _ n ih =>
      rw [everywhere_iff]
      refine ⟨hnest body h, fun s inner hrule => ?_⟩
      obtain ⟨hhead, rfl⟩ := mem_nest_rule.1 hrule
      have hlt : weight (group s (shares body)) < n := by
        rw [← hweight]
        exact weight_group_lt hhead
      exact ih _ hlt (everySelector_group htail h s) rfl

/-- Every selector of `nest body` is a token. -/
theorem everySelector_nest {body : Body} (h : EverySelector HasToken body) :
    EverySelector IsToken (nest body) := by
  refine everywhere_nest (fun _ _ => hasToken_tail) ?_ h
  intro b hb s inner hrule
  exact isToken_of_mem_heads hb (mem_nest_rule.1 hrule).1

/-- Every selector of `nest body` has a token. -/
theorem hasToken_nest {body : Body} (h : EverySelector HasToken body) :
    EverySelector HasToken (nest body) := by
  refine (everySelector_nest h).mono ?_
  intro s hs
  rw [HasToken, words_of_isToken hs]
  exact List.cons_ne_nil s []

/-- Every selector of `nest body` has one piece, if every selector of the body has. -/
theorem everySelector_nest_isSingle {body : Body} (h : EverySelector IsSingle body) :
    EverySelector IsSingle (nest body) := by
  refine everywhere_nest (fun _ hs => hs.tail) ?_ h
  intro b hb s inner hrule
  obtain ⟨part, hpart⟩ := mem_heads.1 (mem_nest_rule.1 hrule).1
  obtain ⟨t, below, ht, rfl, -⟩ := mem_shares.1 hpart
  exact (everySelector_iff.1 hb t below ht).1.head

/-- The selectors of a nested body open with the tokens that have a group, each once:
`heads (shares body)`. -/
theorem openings_nest {body : Body} (h : EverySelector IsSingle body) :
    openings (nest body) = heads (shares body) := by
  have hplain : openings (plain body) = [] := by
    rw [openings, List.flatMap_eq_nil_iff]
    intro node hnode
    exact Node.openings_of_not_rule (isRule_of_mem_plain hnode)
  have hheads : ∀ head ∈ heads (shares body), Selector.openings head = [head] := by
    intro head hhead
    have hrule : .rule head (nest (group head (shares body))) ∈ nest body :=
      mem_nest_rule.2 ⟨hhead, rfl⟩
    have hsingle := (everySelector_iff.1 (everySelector_nest_isSingle h) _ _ hrule).1
    have htoken := isToken_of_mem_heads (h.mono fun _ hs => hs.has_token) hhead
    rw [Selector.openings_of_isSingle hsingle, (head_and_tail_of_isToken htoken).1]
  rw [nest_eq, openings, List.flatMap_append, ← openings, hplain, List.nil_append,
    List.flatMap_map]
  exact (List.flatMap_congr hheads).trans (List.flatMap_singleton' _)

/-! ## Leaves of a nested body -/

end Body

/-- The paths that `pathsOf` gives a selector start with its first token, and go on as those of what
is left of the selector. -/
def Selector.Stepwise (pathsOf : Text → List TokenPath) (s : Text) : Prop :=
  pathsOf s = if tail s = [] then [[head s]] else (pathsOf (tail s)).map (head s :: ·)

/-- The path `wholePath` of all tokens goes through a selector token by token. -/
theorem Selector.stepwise_wholePath {s : Text} (hs : HasToken s) : Stepwise wholePath s := by
  rw [Stepwise, wholePath, (words_eq_head_cons hs).1]
  by_cases htail : tail s = []
  · rw [if_pos htail, tail_eq_nil_iff.1 htail]
  · rw [if_neg htail, wholePath, List.map_singleton]

namespace Body

/-- Where no path of a selector is empty, the leaves at the path of the context are `plain body`. -/
theorem leavesAt_self {pathsOf : Text → List TokenPath} {body : Body}
    (h : EverySelector (fun s => ∀ p ∈ pathsOf s, p ≠ []) body) (context : TokenPath) :
    leavesAt pathsOf context context body = plain body := by
  induction body with
  | nil => rfl
  | cons node rest ih =>
      rw [leavesAt_cons, ih (everySelector_cons.1 h).2]
      rcases node.plain_or_rule with hplain | ⟨s, inner, rfl⟩
      · rw [leavesAt_plain hplain, if_pos rfl]
        simp [plain, hplain]
      · rw [leavesAt_rule_self (everySelector_iff.1 h s inner List.mem_cons_self).1,
          List.nil_append]
        simp [plain]

/-- A rule has the leaves of its share, one token further down: under `context ++ [head s]`. -/
theorem leavesAt_share {pathsOf : Text → List TokenPath} {s : Text} (hs : Stepwise pathsOf s)
    (context path : TokenPath) (inner : Body) :
    leavesAt pathsOf context path [.rule s inner] =
      leavesAt pathsOf (context ++ [head s]) path
        (if tail s = [] then inner else [.rule (tail s) inner]) := by
  rw [leavesAt_rule, hs]
  by_cases htail : tail s = []
  · rw [if_pos htail, if_pos htail, List.flatMap_singleton]
  · rw [if_neg htail, if_neg htail, leavesAt_rule, List.flatMap_map]
    simp only [List.append_assoc, List.singleton_append]

/-- Where a path goes on with `token` after the context, the leaves are those of the group of that
token. -/
theorem leavesAt_group {pathsOf : Text → List TokenPath} {body : Body}
    (h : EverySelector (Stepwise pathsOf) body) (context : TokenPath) (token : Text)
    (path : TokenPath) :
    leavesAt pathsOf context (context ++ token :: path) body =
      leavesAt pathsOf (context ++ [token]) (context ++ token :: path)
        (group token (shares body)) := by
  induction body with
  | nil => rfl
  | cons node rest ih =>
      have hrest := (everySelector_cons.1 h).2
      rw [leavesAt_cons, ih hrest]
      cases hshare : node.share? with
      | none =>
          have hplain := Node.share?_eq_none_iff.1 hshare
          have hshares : shares (node :: rest) = shares rest := List.filterMap_cons_none hshare
          have hpath : context ≠ context ++ token :: path := by simp
          rw [leavesAt_plain hplain, if_neg hpath, hshares, List.nil_append]
      | some share =>
          have hshares : shares (node :: rest) = share :: shares rest :=
            List.filterMap_cons_some hshare
          have hmem : (share.1, share.2) ∈ shares [node] := by
            simp [shares, hshare]
          obtain ⟨s, inner, hnode, hhead, hpart⟩ := mem_shares.1 hmem
          rw [List.mem_singleton] at hnode
          subst hnode
          have hs := (everySelector_iff.1 h s inner List.mem_cons_self).1
          rw [leavesAt_share hs, hpart, hhead, hshares, group_cons, leavesAt_append]
          congr 1
          by_cases htoken : share.1 = token
          · rw [if_pos htoken, htoken]
          · -- The path goes on with another token, so the rule has no leaf there.
            rw [if_neg htoken, leavesAt_nil]
            apply leavesAt_eq_nil
            intro hprefix
            rw [List.prefix_append_right_inj, List.cons_prefix_cons] at hprefix
            exact htoken hprefix.1

/-- Nesting keeps the leaves of each `path`, in order. -/
theorem leavesAt_nest {body : Body} (h : EverySelector HasToken body) (context path : TokenPath) :
    leavesAt wholePath context path (nest body) = leavesAt wholePath context path body := by
  have hpaths : ∀ s, HasToken s → ∀ p ∈ wholePath s, p ≠ [] := by
    intro s hs p hp
    rw [List.mem_singleton.1 hp]
    exact hs
  have hstepwise : ∀ s, HasToken s → Stepwise wholePath s := fun _ => stepwise_wholePath
  by_cases hprefix : context <+: path
  · -- The induction follows the path below the context: each token leads into its group, in the
    -- nested body as in the body itself.
    obtain ⟨suffix, rfl⟩ := hprefix
    induction suffix generalizing context body with
    | nil =>
        rw [List.append_nil, leavesAt_self ((hasToken_nest h).mono hpaths),
          leavesAt_self (h.mono hpaths), plain_nest]
    | cons token suffix ih =>
        have hgroup := everySelector_group (fun _ _ => hasToken_tail) h token
        have hstep : context ++ token :: suffix = context ++ [token] ++ suffix := by simp
        rw [leavesAt_group ((hasToken_nest h).mono hstepwise), leavesAt_group (h.mono hstepwise),
          group_nest, hstep]
        exact ih hgroup (context ++ [token])
  · -- Away from the context neither has a leaf.
    rw [leavesAt_eq_nil hprefix, leavesAt_eq_nil hprefix]

end Body

end SassNesting
