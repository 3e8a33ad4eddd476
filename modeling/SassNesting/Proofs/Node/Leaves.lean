import SassNesting.Proofs.Node.Lists
import SassNesting.Proofs.Selector.Pieces

/-! # Leaves and their paths

What a stylesheet means is which declarations hold for which elements: each declaration holds
along the path of tokens of the selectors around it, once for each choice of pieces. `Body.leaves`
lists the nodes that are not rules with their paths, in the order in which they are written,
`Body.leavesAt` those of one path, and `Body.declaredAt` what they declare. Which paths a selector
stands for is a parameter: those of its pieces (`Selector.paths`), or the single path of all its
tokens (`Selector.wholePath`). -/

namespace SassNesting

open Selector

/-! ## Definitions -/

mutual

/-- The leaves of a node under a `context`, each with its path: a rule gives those of its body once
for each path of its selector. -/
def Node.leaves (pathsOf : Text → List TokenPath) (context : TokenPath) :
    Node → List (TokenPath × Node)
  | .verbatim text => [(context, .verbatim text)]
  | .declaration name value => [(context, .declaration name value)]
  | .rule selector body =>
    (pathsOf selector).flatMap fun path => Body.leaves pathsOf (context ++ path) body

/-- The leaves of a body under a `context`, in order, each with its path. -/
def Body.leaves (pathsOf : Text → List TokenPath) (context : TokenPath) :
    List Node → List (TokenPath × Node)
  | [] => []
  | node :: rest => Node.leaves pathsOf context node ++ Body.leaves pathsOf context rest

end

/-- The property and the value of a declaration. -/
def Node.declared? : Node → Option (Text × Text)
  | .declaration name value => some (name, value)
  | _ => none

mutual

/-- The lines kept as they are written, at every depth of a node. -/
def Node.verbatims : Node → List Text
  | .verbatim text => [text]
  | .declaration _ _ => []
  | .rule _ body => Body.verbatims body

/-- The lines kept as they are written, at every depth of a body, in order. -/
def Body.verbatims : List Node → List Text
  | [] => []
  | node :: rest => Node.verbatims node ++ Body.verbatims rest

end

/-- A node that is not a rule is its own leaf, at the path of its context: `[(context, node)]`. -/
theorem Node.leaves_plain {node : Node} (h : node.isRule = false)
    (pathsOf : Text → List TokenPath) (context : TokenPath) :
    node.leaves pathsOf context = [(context, node)] :=
  Node.plain_cases (fun _ => rfl) (fun _ _ => rfl) h

namespace Body

/-- The leaves of a body under a `context` that have the given `path`. -/
def leavesAt (pathsOf : Text → List TokenPath) (context path : TokenPath) (body : Body) :
    List Node :=
  ((leaves pathsOf context body).filter (·.1 = path)).map (·.2)

/-- What is declared along a `path`, in order: the property and the value of each declaration. -/
def declaredAt (path : TokenPath) (body : Body) : List (Text × Text) :=
  (leavesAt Selector.paths [] path body).filterMap Node.declared?

variable {pathsOf : Text → List TokenPath} {context path : TokenPath}

/-! ## Leaves of a list -/

@[simp] theorem leaves_nil : leaves pathsOf context [] = [] := rfl

@[simp] theorem leaves_cons (node : Node) (rest : Body) :
    leaves pathsOf context (node :: rest) =
      node.leaves pathsOf context ++ leaves pathsOf context rest := rfl

@[simp] theorem leaves_append (b c : Body) :
    leaves pathsOf context (b ++ c) = leaves pathsOf context b ++ leaves pathsOf context c := by
  induction b with
  | nil => rfl
  | cons node b ih => rw [List.cons_append, leaves_cons, leaves_cons, ih, List.append_assoc]

@[simp] theorem leavesAt_nil : leavesAt pathsOf context path [] = [] := rfl

@[simp] theorem leavesAt_append (b c : Body) :
    leavesAt pathsOf context path (b ++ c) =
      leavesAt pathsOf context path b ++ leavesAt pathsOf context path c := by
  simp [leavesAt]

theorem leavesAt_cons (node : Node) (rest : Body) :
    leavesAt pathsOf context path (node :: rest) =
      leavesAt pathsOf context path [node] ++ leavesAt pathsOf context path rest :=
  leavesAt_append [node] rest

/-- A rule has the leaves of its body, once for each path `p` of its selector, under `context ++ p`.
-/
theorem leavesAt_rule (selector : Text) (body : Body) :
    leavesAt pathsOf context path [.rule selector body] =
      (pathsOf selector).flatMap fun p => leavesAt pathsOf (context ++ p) path body := by
  simp only [leavesAt, leaves_cons, leaves_nil, List.append_nil, Node.leaves, List.filter_flatMap,
    List.map_flatMap]

/-- A node that is not a rule has a leaf at `path` only if that is its context. -/
theorem leavesAt_plain {node : Node} (h : node.isRule = false) :
    leavesAt pathsOf context path [node] = if context = path then [node] else [] := by
  unfold leavesAt
  rw [leaves_cons, leaves_nil, List.append_nil, Node.leaves_plain h]
  by_cases hpath : context = path
  · simp [hpath]
  · simp [hpath]

/-- The leaves of a list are those of its nodes, by `Node.leaves`. -/
theorem mem_leaves {leaf : TokenPath × Node} {body : Body} :
    leaf ∈ leaves pathsOf context body ↔ ∃ node ∈ body, leaf ∈ node.leaves pathsOf context := by
  induction body with
  | nil => simp
  | cons node rest ih => simp [ih]

/-- The leaves of a path, `leavesAt`, are the `leaves` that have it. -/
theorem mem_leavesAt {node : Node} {body : Body} :
    node ∈ leavesAt pathsOf context path body ↔ (path, node) ∈ leaves pathsOf context body := by
  simp [leavesAt]

/-- A leaf occurs in `leaves` as often as its node occurs in the `leavesAt` of its path. -/
theorem count_leavesAt (node : Node) (body : Body) :
    (leavesAt pathsOf context path body).count node =
      (leaves pathsOf context body).count (path, node) := by
  unfold leavesAt
  induction leaves pathsOf context body with
  | nil => rfl
  | cons leaf rest ih =>
      obtain ⟨p, n⟩ := leaf
      by_cases hpath : p = path
      · simp [hpath, List.count_cons, ih]
      · simp [hpath, ih]

/-- Bodies `b` and `c` with the same `leavesAt` each path have all in all the same leaves. -/
theorem perm_leaves {b c : Body}
    (h : ∀ path, leavesAt pathsOf context path b = leavesAt pathsOf context path c) :
    (leaves pathsOf context b).Perm (leaves pathsOf context c) := by
  rw [List.perm_iff_count]
  rintro ⟨path, node⟩
  rw [← count_leavesAt, h, count_leavesAt]

/-- Where `pathsOf` and `other` agree on all selectors, the leaves are the same. -/
theorem leaves_congr {other : Text → List TokenPath} {body : Body}
    (h : EverySelector (fun s => pathsOf s = other s) body) :
    leaves pathsOf context body = leaves other context body := by
  induction body using plain_induction generalizing context with
  | nil => rfl
  | plain node rest hplain ih =>
      rw [leaves_cons, leaves_cons, ih (everySelector_cons.1 h).2, Node.leaves_plain hplain,
        Node.leaves_plain hplain]
  | rule selector body rest ihbody ih =>
      obtain ⟨hselector, hbody⟩ := everySelector_iff.1 h selector body List.mem_cons_self
      rw [leaves_cons, leaves_cons, ih (everySelector_cons.1 h).2, Node.leaves, Node.leaves,
        hselector]
      simp only [ihbody hbody]

/-! ## Paths of leaves -/

/-- The path of a leaf prolongs its context: `context <+: leaf.1`. -/
theorem prefix_of_mem_leaves {body : Body} {leaf : TokenPath × Node}
    (h : leaf ∈ leaves pathsOf context body) : context <+: leaf.1 := by
  -- The context grows from rule to rule, so the induction is for all contexts.
  induction body using plain_induction generalizing context with
  | nil => simp at h
  | plain node rest hplain ih =>
      rw [leaves_cons, Node.leaves_plain hplain] at h
      rcases List.mem_cons.1 h with rfl | h
      · exact List.prefix_rfl
      · exact ih h
  | rule selector body rest ihbody ih =>
      rcases List.mem_append.1 h with h | h
      · obtain ⟨p, -, hp⟩ := List.mem_flatMap.1 h
        have hbelow : context ++ p <+: leaf.1 := ihbody hp
        exact (List.prefix_append context p).trans hbelow
      · exact ih h

/-- At a path that does not prolong the context there is no leaf: `leavesAt` is `[]`. -/
theorem leavesAt_eq_nil {body : Body} (h : ¬ context <+: path) :
    leavesAt pathsOf context path body = [] := by
  rw [leavesAt, List.map_eq_nil_iff, List.filter_eq_nil_iff]
  intro leaf hleaf hpath
  have hprefix : context <+: leaf.1 := prefix_of_mem_leaves hleaf
  rw [decide_eq_true_eq] at hpath
  rw [hpath] at hprefix
  exact h hprefix

/-- Where no path of its selector is empty, a rule has no leaf at the path of its context. -/
theorem leavesAt_rule_self {selector : Text} (h : ∀ p ∈ pathsOf selector, p ≠ []) (body : Body) :
    leavesAt pathsOf context context [.rule selector body] = [] := by
  rw [leavesAt_rule, List.flatMap_eq_nil_iff]
  intro p hp
  apply leavesAt_eq_nil
  intro hprefix
  -- A context that goes on with `p` is not longer than itself only if `p` is empty.
  have hlength := hprefix.length_le
  rw [List.length_append] at hlength
  have hzero : p.length = 0 := by omega
  exact h p hp (List.length_eq_zero_iff.1 hzero)

/-! ## Lines kept as they are written -/

@[simp] theorem verbatims_nil : verbatims [] = [] := rfl

@[simp] theorem verbatims_cons (node : Node) (rest : Body) :
    verbatims (node :: rest) = node.verbatims ++ verbatims rest := rfl

@[simp] theorem verbatims_append (b c : Body) :
    verbatims (b ++ c) = verbatims b ++ verbatims c := by
  induction b with
  | nil => rfl
  | cons node b ih => rw [List.cons_append, verbatims_cons, verbatims_cons, ih, List.append_assoc]

/-- The `verbatims` of a list are those of its nodes. -/
theorem mem_verbatims {body : Body} {text : Text} :
    text ∈ verbatims body ↔ ∃ node ∈ body, text ∈ node.verbatims := by
  induction body with
  | nil => simp
  | cons node rest ih => simp [ih]

end Body

@[simp] theorem Node.verbatims_rule (selector : Text) (body : Body) :
    (Node.rule selector body).verbatims = Body.verbatims body := rfl

/-! ## Leaves and lists -/

namespace Body

/-- The `verbatims` of a body are those in its `lists`. -/
theorem mem_verbatims_iff_lists {body : Body} {text : Text} :
    text ∈ verbatims body ↔ ∃ b ∈ lists body, .verbatim text ∈ b := by
  induction body using rule_induction with
  | step body ih =>
      rw [mem_verbatims]
      constructor
      · rintro ⟨node, hnode, htext⟩
        cases node with
        | verbatim line =>
            rw [List.mem_singleton.1 htext]
            exact ⟨body, List.mem_cons_self, hnode⟩
        | declaration name value => exact absurd htext List.not_mem_nil
        | rule s inner =>
            obtain ⟨b, hb, hmem⟩ := (ih s inner hnode).1 htext
            exact ⟨b, List.mem_cons_of_mem _ (mem_innerLists.2 ⟨s, inner, hnode, hb⟩), hmem⟩
      · rintro ⟨b, hb, hmem⟩
        rcases List.mem_cons.1 hb with rfl | hb
        · exact ⟨.verbatim text, hmem, List.mem_cons_self⟩
        · obtain ⟨s, inner, hrule, hinner⟩ := mem_innerLists.1 hb
          exact ⟨.rule s inner, hrule, (ih s inner hrule).2 ⟨b, hinner, hmem⟩⟩

/-- A line kept as it is written in a list of a body is one of the `verbatims` of the body. -/
theorem mem_verbatims_of_mem_lists {b body : Body} (hb : b ∈ lists body) {text : Text}
    (htext : .verbatim text ∈ b) : text ∈ verbatims body :=
  mem_verbatims_iff_lists.2 ⟨b, hb, htext⟩

/-- Each leaf is a node in one of the `lists`. -/
theorem exists_mem_lists_of_mem_leaves {pathsOf : Text → List TokenPath} {context path : TokenPath}
    {body : Body} {node : Node} (h : (path, node) ∈ leaves pathsOf context body) :
    ∃ b ∈ lists body, node ∈ b := by
  induction body using rule_induction generalizing context with
  | step body ih =>
      obtain ⟨top, htop, hleaf⟩ := mem_leaves.1 h
      rcases top.plain_or_rule with hplain | ⟨s, inner, rfl⟩
      · rw [Node.leaves_plain hplain, List.mem_singleton] at hleaf
        cases hleaf
        exact ⟨body, List.mem_cons_self, htop⟩
      · obtain ⟨p, -, hp⟩ := List.mem_flatMap.1 hleaf
        obtain ⟨b, hb, hmem⟩ := ih s inner htop hp
        exact ⟨b, List.mem_cons_of_mem _ (mem_innerLists.2 ⟨s, inner, htop, hb⟩), hmem⟩

/-- Where every selector has a piece, each node in one of the `lists` that is not a rule is a leaf.
-/
theorem exists_leaf_of_mem_lists {b body : Body} {node : Node}
    (h : EverySelector (pieces · ≠ []) body) (hb : b ∈ lists body) (hnode : node ∈ b)
    (hplain : node.isRule = false) (context : TokenPath) :
    ∃ path, (path, node) ∈ leaves Selector.paths context body := by
  induction body using rule_induction generalizing context with
  | step body ih =>
      rcases List.mem_cons.1 hb with rfl | hb
      · refine ⟨context, mem_leaves.2 ⟨node, hnode, ?_⟩⟩
        rw [Node.leaves_plain hplain]
        exact List.mem_cons_self
      · -- A rule without a piece would have no leaf; any piece leads to the leaves of the body.
        obtain ⟨s, inner, hrule, hmem⟩ := mem_innerLists.1 hb
        obtain ⟨hs, hinner⟩ := everySelector_iff.1 h s inner hrule
        obtain ⟨piece, hpiece⟩ := List.exists_mem_of_ne_nil (pieces s) hs
        have hwords : Text.words piece ∈ paths s := List.mem_map_of_mem hpiece
        obtain ⟨path, hpath⟩ := ih s inner hrule hinner hmem (context ++ Text.words piece)
        exact ⟨path, mem_leaves.2 ⟨.rule s inner, hrule, List.mem_flatMap.2 ⟨_, hwords, hpath⟩⟩⟩

/-- Where every selector has a piece, each line in `verbatims body` is a leaf. -/
theorem exists_leaf_of_mem_verbatims {body : Body} {text : Text}
    (h : EverySelector (pieces · ≠ []) body) (htext : text ∈ verbatims body) (context : TokenPath) :
    ∃ path, (path, .verbatim text) ∈ leaves Selector.paths context body := by
  obtain ⟨b, hb, hmem⟩ := mem_verbatims_iff_lists.1 htext
  exact exists_leaf_of_mem_lists h hb hmem rfl context

end Body

end SassNesting
