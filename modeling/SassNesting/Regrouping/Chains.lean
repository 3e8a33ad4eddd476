import SassNesting.Node.Basic

/-! # Collapsing chains

A rule that holds nothing but one other rule says the same as a single rule whose selector joins the
two. `Body.collapse` joins such rules, from the innermost outwards, so that no rule is left with a
rule as its only node.

A loop that starts at the outermost rule, and takes in the only rule of its body as long as there is
one, comes to the same: `Node.collapse_rule_singleton` is a turn of the loop,
`Node.collapse_of_ne_singleton` its end, and `Node.chain_induction` the induction along it. -/

namespace SassNesting

/-! ## Joining two rules -/

/-- A rule for a selector and a body, joined with the rule that is its only node if there is one. -/
def Node.joined (selector : Text) : Body → Node
  | [.rule inner body] => .rule (selector ++ ' ' :: inner) body
  | body => .rule selector body

/-- The two cases of `Node.joined s inner = .rule t joined`: the rule keeps `s` and `inner`, or it
takes the selector of the only rule in `inner` and the body of that rule. -/
theorem Node.joined_cases {s t : Text} {inner joined : Body}
    (h : Node.joined s inner = .rule t joined) :
    (t = s ∧ joined = inner ∧ ∀ u body, inner ≠ [.rule u body]) ∨
      ∃ u, inner = [.rule u joined] ∧ t = s ++ ' ' :: u := by
  unfold Node.joined at h
  split at h
  · cases h
    exact Or.inr ⟨_, rfl, rfl⟩
  · rename_i hne
    cases h
    exact Or.inl ⟨rfl, rfl, hne⟩

/-- `Node.joined s inner` is a rule. -/
theorem Node.exists_joined_eq (s : Text) (inner : Body) :
    ∃ t body, Node.joined s inner = .rule t body := by
  unfold Node.joined
  split
  · exact ⟨_, _, rfl⟩
  · exact ⟨_, _, rfl⟩

/-- `Node.joined s inner = .rule s inner` where `inner` is not a single rule. -/
theorem Node.joined_of_ne_singleton (s : Text) {inner : Body}
    (h : ∀ u body, inner ≠ [.rule u body]) :
    Node.joined s inner = .rule s inner := by
  obtain ⟨t, joined, hjoined⟩ := Node.exists_joined_eq s inner
  rcases Node.joined_cases hjoined with ⟨rfl, rfl, -⟩ | ⟨u, hu, -⟩
  · exact hjoined
  · exact absurd hu (h u joined)

/-! ## Joining every chain -/

mutual

/-- Joins every chain of rules in a tree, from the innermost rule outwards. By
`Node.collapse_rule_singleton` this is what a loop from the outermost rule inwards comes to. -/
def Node.collapse : Node → Node
  | .rule selector body => Node.joined selector (Body.collapse body)
  | node => node

/-- Joins every chain of rules in a body. -/
def Body.collapse : List Node → List Node
  | [] => []
  | node :: rest => Node.collapse node :: Body.collapse rest

end

@[simp] theorem Node.collapse_rule (selector : Text) (body : Body) :
    (Node.rule selector body).collapse = Node.joined selector (Body.collapse body) := rfl

namespace Body

@[simp] theorem collapse_nil : collapse [] = [] := rfl

@[simp] theorem collapse_cons (node : Node) (rest : Body) :
    collapse (node :: rest) = node.collapse :: collapse rest := rfl

/-- `collapse body = body.map Node.collapse`: chains are collapsed in each node by itself. -/
theorem collapse_eq_map (body : Body) : collapse body = body.map Node.collapse := by
  induction body with
  | nil => rfl
  | cons node rest ih => rw [collapse_cons, ih, List.map_cons]

end Body

/-! ## From the outermost rule inwards -/

/-- A turn of the loop: `.rule s [.rule u body]` takes in its only rule, and
`.rule (s ++ ' ' :: u) body` is what is collapsed then. -/
theorem Node.collapse_rule_singleton (s u : Text) (body : Body) :
    (Node.rule s [.rule u body]).collapse = (Node.rule (s ++ ' ' :: u) body).collapse := by
  rw [Node.collapse_rule, Body.collapse_cons, Body.collapse_nil, Node.collapse_rule,
    Node.collapse_rule]
  obtain ⟨t, joined, hjoined⟩ := Node.exists_joined_eq u (Body.collapse body)
  rw [hjoined, Node.joined]
  rcases Node.joined_cases hjoined with ⟨rfl, rfl, hne⟩ | ⟨v, hv, rfl⟩
  · exact (Node.joined_of_ne_singleton _ hne).symm
  · rw [hv, Node.joined, List.append_assoc, List.cons_append]

/-- The end of the loop: where `inner` is not a single rule, `.rule s inner` keeps its selector, and
what is left to do is `Body.collapse inner`. -/
theorem Node.collapse_of_ne_singleton (s : Text) {inner : Body}
    (h : ∀ u body, inner ≠ [.rule u body]) :
    (Node.rule s inner).collapse = .rule s (Body.collapse inner) := by
  refine Node.joined_of_ne_singleton s ?_
  intro u body hsingle
  rw [Body.collapse_eq_map, List.map_eq_singleton_iff] at hsingle
  obtain ⟨node, rfl, hnode⟩ := hsingle
  cases node with
  | verbatim text => simp [Node.collapse] at hnode
  | declaration name value => simp [Node.collapse] at hnode
  | rule v below => exact h v below rfl

/-- Induction along the loop: a rule with a single rule inside is led back to the rule that takes it
in, and any other rule to the nodes of its body. -/
@[elab_as_elim]
theorem Node.chain_induction {motive : Node → Prop} (verbatim : ∀ text, motive (.verbatim text))
    (declaration : ∀ name value, motive (.declaration name value))
    (chain : ∀ s u body, motive (.rule (s ++ ' ' :: u) body) → motive (.rule s [.rule u body]))
    (rule : ∀ s inner, (∀ u body, inner ≠ [.rule u body]) → (∀ node ∈ inner, motive node) →
      motive (.rule s inner))
    (node : Node) : motive node := by
  -- Of a body two things are shown at once: each of its nodes has the property, and so has a rule
  -- around it, whatever its selector, for the selector grows while the loop goes down.
  have hbody (body : Body) : (∀ node ∈ body, motive node) ∧ ∀ s, motive (.rule s body) := by
    induction body using Body.induction with
    | nil => exact ⟨nofun, fun s => rule s [] nofun nofun⟩
    | verbatim text rest ih =>
      have hnodes := List.forall_mem_cons.2 ⟨verbatim text, ih.1⟩
      exact ⟨hnodes, fun s => rule s _ nofun hnodes⟩
    | declaration name value rest ih =>
      have hnodes := List.forall_mem_cons.2 ⟨declaration name value, ih.1⟩
      exact ⟨hnodes, fun s => rule s _ nofun hnodes⟩
    | rule u body rest ihbody ih =>
      have hnodes := List.forall_mem_cons.2 ⟨ihbody.2 u, ih.1⟩
      refine ⟨hnodes, fun s => ?_⟩
      cases rest with
      | nil => exact chain s u body (ihbody.2 (s ++ ' ' :: u))
      | cons next rest => exact rule s _ nofun hnodes
  exact (hbody [node]).1 node List.mem_cons_self

end SassNesting
