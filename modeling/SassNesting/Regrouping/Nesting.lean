import SassNesting.Node.Basic
import SassNesting.Selector

/-! # Nesting by the first token

Rules whose selectors share their first token go under one rule for that token. A rule of that token
alone gives its body to the group; a longer one becomes a rule for the tokens that remain. Since a
group is nested in turn, the result is the tree of all the prefixes of the selectors. The groups
stand in the order in which their tokens are first seen, after the nodes that are not rules. -/

namespace SassNesting

/-! ## Groups -/

/-- The first token of a rule, and what the rule puts into the group of that token: its body if it
has no other token, or else the rule for the other tokens. -/
def Node.share? : Node → Option (Text × Body)
  | .rule selector body =>
    some (Selector.head selector,
      if Selector.tail selector = [] then body else [.rule (Selector.tail selector) body])
  | _ => none

namespace Body

/-- The nodes that are not rules. -/
def plain (body : Body) : Body := body.filter fun node => !node.isRule

/-- What each rule puts into which group, in order. -/
def shares (body : Body) : List (Text × Body) := body.filterMap Node.share?

/-- The tokens that have a group, each once, in the order in which they are first seen. -/
def heads (shares : List (Text × Body)) : List Text := (shares.map (·.1)).eraseDups

/-- The body of the group of a token: all that is put into it, in order. -/
def group (head : Text) (shares : List (Text × Body)) : Body :=
  (shares.filter (·.1 = head)).flatMap (·.2)

@[simp] theorem plain_nil : plain [] = [] := rfl

@[simp] theorem shares_nil : shares [] = [] := rfl

@[simp] theorem heads_nil : heads [] = [] := rfl

@[simp] theorem group_nil (head : Text) : group head [] = [] := rfl

theorem group_cons (head : Text) (share : Text × Body) (rest : List (Text × Body)) :
    group head (share :: rest) = (if share.1 = head then share.2 else []) ++ group head rest := by
  by_cases h : share.1 = head <;> simp [group, h]

end Body

/-! ## Weight

Putting rules into groups takes characters away from their selectors, or dissolves them. -/

mutual

/-- The number of nodes in a tree and of characters in its selectors. -/
def Node.weight : Node → Nat
  | .verbatim _ => 1
  | .declaration _ _ => 1
  | .rule selector body => 1 + selector.length + Body.weight body

/-- The number of nodes in a body and of characters in its selectors. -/
def Body.weight : List Node → Nat
  | [] => 0
  | node :: rest => Node.weight node + Body.weight rest

end

@[simp] theorem Node.weight_rule (selector : Text) (body : Body) :
    (Node.rule selector body).weight = 1 + selector.length + Body.weight body := rfl

namespace Body

@[simp] theorem weight_nil : weight [] = 0 := rfl

@[simp] theorem weight_cons (node : Node) (rest : Body) :
    weight (node :: rest) = node.weight + weight rest := rfl

@[simp] theorem weight_append (b c : Body) : weight (b ++ c) = weight b + weight c := by
  induction b with
  | nil => simp
  | cons node b ih => simp [ih, Nat.add_assoc]

end Body

/-- A rule puts less into its group than it weighs. -/
theorem Node.weight_share_lt {node : Node} {share : Text × Body} (h : node.share? = some share) :
    Body.weight share.2 < node.weight := by
  cases node with
  | verbatim => simp [Node.share?] at h
  | declaration => simp [Node.share?] at h
  | rule selector body =>
    simp only [Node.share?, Option.some.injEq] at h
    subst h
    by_cases htail : Selector.tail selector = []
    · simp only [htail, if_true, Node.weight_rule]
      omega
    · have := Selector.length_tail_lt htail
      simp only [htail, if_false, Body.weight_cons, Node.weight_rule, Body.weight_nil]
      omega

namespace Body

/-- A group weighs no more than the body it is made from. -/
theorem weight_group_le (head : Text) (body : Body) :
    weight (group head (shares body)) ≤ weight body := by
  induction body with
  | nil => simp
  | cons node rest ih =>
    rw [weight_cons]
    cases hshare : node.share? with
    | none =>
      have hshares : shares (node :: rest) = shares rest := List.filterMap_cons_none hshare
      rw [hshares]
      omega
    | some share =>
      have hlt := Node.weight_share_lt hshare
      have hshares : shares (node :: rest) = share :: shares rest := List.filterMap_cons_some hshare
      rw [hshares, group_cons, weight_append]
      split
      · omega
      · rw [weight_nil]
        omega

/-- A group weighs less than the body it is made from, if there is such a group. -/
theorem weight_group_lt {head : Text} {body : Body} (h : head ∈ heads (shares body)) :
    weight (group head (shares body)) < weight body := by
  have hmem : ∃ inner, (head, inner) ∈ shares body := by simpa [heads] using h
  clear h
  induction body with
  | nil => simp at hmem
  | cons node rest ih =>
    rw [weight_cons]
    cases hshare : node.share? with
    | none =>
      have hshares : shares (node :: rest) = shares rest := List.filterMap_cons_none hshare
      rw [hshares] at hmem ⊢
      have := ih hmem
      omega
    | some share =>
      have hlt := Node.weight_share_lt hshare
      have hle := weight_group_le head rest
      have hshares : shares (node :: rest) = share :: shares rest := List.filterMap_cons_some hshare
      rw [hshares, group_cons, weight_append]
      by_cases hhead : share.1 = head
      · rw [if_pos hhead]
        omega
      · obtain ⟨inner, hinner⟩ := hmem
        rw [hshares, List.mem_cons] at hinner
        have := ih ⟨inner, hinner.resolve_left (by rintro rfl; exact hhead rfl)⟩
        rw [if_neg hhead, weight_nil]
        omega

/-! ## Nesting -/

/-- Groups the rules of a body by their first token, and the bodies of the groups in turn. -/
def nest (body : Body) : Body :=
  let parts := shares body
  plain body ++ (heads parts).attach.map fun ⟨head, _⟩ => .rule head (nest (group head parts))
termination_by weight body
decreasing_by exact weight_group_lt ‹_›

/-- A nested body is its plain nodes, and then one rule per first token with its nested group. -/
theorem nest_eq (body : Body) :
    nest body = plain body ++
      (heads (shares body)).map fun head => .rule head (nest (group head (shares body))) := by
  rw [nest]
  simp

end Body

end SassNesting
