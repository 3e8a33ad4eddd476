import SassNesting.Proofs.Regrouping.Chains

/-! # Chains and the ways through them

A way leads from the top of a stylesheet through rules to an end: a node that is not a rule, or a
rule with nothing inside. Joining a chain puts one selector in the place of several on each way
through it, with a blank between two of them, so the texts of the ways stay as they are
(`Body.pathEnds_collapse`). After all chains are joined no rule has a rule as its only node, and the
bodies without such a rule are those that collapsing leaves as they are
(`Body.collapse_eq_self_iff`). What is proved of the ways goes along the loop from the outermost
rule inwards (`Node.chain_induction`, `Node.collapse_rule_singleton`). -/

namespace SassNesting

/-! ## Ways and ends -/

mutual

/-- The ends of a node that stands inside rules with the selectors `way`, each with the selectors on
the way to it: a node that is not a rule, or `none` for a rule with nothing inside. -/
def Node.ends (way : List Text) : Node → List (List Text × Option Node)
  | .verbatim text => [(way, some (.verbatim text))]
  | .declaration name value => [(way, some (.declaration name value))]
  | .rule selector body =>
    if body.isEmpty then [(way ++ [selector], none)] else Body.ends (way ++ [selector]) body

/-- The ends of a body that stands inside rules with the selectors `way`, in order. -/
def Body.ends (way : List Text) : List Node → List (List Text × Option Node)
  | [] => []
  | node :: rest => Node.ends way node ++ Body.ends way rest

end

/-- The text of a way: its selectors, with one blank between two of them. -/
def wayText (way : List Text) : Text := [' '].intercalate way

/-- The ends of a body, in order, each with the text of the way to it. -/
def Body.pathEnds (way : List Text) (body : Body) : List (Text × Option Node) :=
  (Body.ends way body).map fun (own, node) => (wayText own, node)

/-- A node that is not a rule is its own end: `[(way, some node)]`. -/
theorem Node.ends_plain {node : Node} (h : node.isRule = false) (way : List Text) :
    node.ends way = [(way, some node)] :=
  Node.plain_cases (fun _ => rfl) (fun _ _ => rfl) h

/-- A rule with something inside has the ends of its body, on the way `way ++ [selector]`. -/
theorem Node.ends_rule {body : Body} (h : body ≠ []) (way : List Text) (selector : Text) :
    (Node.rule selector body).ends way = Body.ends (way ++ [selector]) body := by
  rw [Node.ends, if_neg (by simpa using h)]

/-- A selector that is joined from `s` and `u` counts for `wayText` as the two do. -/
theorem wayText_joined (way after : List Text) (s u : Text) :
    wayText (way ++ (s ++ ' ' :: u) :: after) = wayText (way ++ s :: u :: after) := by
  unfold wayText
  induction way with
  | nil => cases after <;> simp
  | cons first way ih =>
      have hcons : ∀ t rest, [' '].intercalate (first :: (way ++ t :: rest)) =
          first ++ ' ' :: [' '].intercalate (way ++ t :: rest) := by
        intro t rest
        cases way <;> simp
      rw [List.cons_append, List.cons_append, hcons, hcons, ih]

namespace Body

@[simp] theorem ends_nil (way : List Text) : ends way [] = [] := rfl

@[simp] theorem ends_cons (way : List Text) (node : Node) (rest : Body) :
    ends way (node :: rest) = node.ends way ++ ends way rest := rfl

/-- The ends of a body are those of its nodes, `pathEnds way [node]`, one node after another. -/
theorem pathEnds_eq_flatMap (way : List Text) (body : Body) :
    pathEnds way body = body.flatMap fun node => pathEnds way [node] := by
  induction body with
  | nil => rfl
  | cons node rest ih =>
      rw [List.flatMap_cons, ← ih]
      simp [pathEnds]

/-- A rule with something inside has the ends of its body, on the way `way ++ [selector]`. -/
theorem pathEnds_rule {body : Body} (h : body ≠ []) (way : List Text) (selector : Text) :
    pathEnds way [.rule selector body] = pathEnds (way ++ [selector]) body := by
  simp [pathEnds, Node.ends_rule h]

/-- Inside rules the ways go through their selectors first: `way` in front of the `own` part of
each. -/
theorem ends_eq_map (way : List Text) (body : Body) :
    ends way body = (ends [] body).map fun (own, node) => (way ++ own, node) := by
  induction body using plain_induction generalizing way with
  | nil => rfl
  | plain node rest hplain ih =>
      rw [ends_cons, ends_cons, Node.ends_plain hplain, Node.ends_plain hplain, ih]
      simp
  | rule s inner rest ihinner ih =>
      rw [ends_cons, ends_cons, List.map_append, ih]
      congr 1
      by_cases hinner : inner = []
      · rw [hinner]
        rfl
      · rw [Node.ends_rule hinner, Node.ends_rule hinner, ihinner, ihinner ([] ++ [s]),
        List.map_map]
        simp [Function.comp_def]

/-! ## Ends of a collapsed body -/

/-- Inside the joined rule `.rule (s ++ ' ' :: u) body` the texts of the ways are those inside the
two rules it is joined from. -/
theorem pathEnds_joined (way : List Text) (s u : Text) (body : Body) :
    pathEnds way [.rule (s ++ ' ' :: u) body] = pathEnds way [.rule s [.rule u body]] := by
  rw [pathEnds_rule (List.cons_ne_nil _ _)]
  by_cases hbody : body = []
  · -- The rule is itself the end of the way.
    have htext := wayText_joined way [] s u
    subst hbody
    simpa [pathEnds, Node.ends] using htext
  · rw [pathEnds_rule hbody, pathEnds_rule hbody, pathEnds, pathEnds, ends_eq_map,
      ends_eq_map (way ++ [s] ++ [u]), List.map_map, List.map_map]
    apply List.map_congr_left
    intro (own, node) _
    simpa using wayText_joined way own s u

/-- Collapsing the chains of a node keeps its ends, in order, with the texts of the ways to them:
`pathEnds way [node.collapse] = pathEnds way [node]`. -/
theorem pathEnds_collapse_singleton (way : List Text) (node : Node) :
    pathEnds way [node.collapse] = pathEnds way [node] := by
  -- The induction is along the loop from the outermost rule inwards: a turn of it puts one selector
  -- in the place of two, and the text of the way is that of the two.
  induction node using Node.chain_induction generalizing way with
  | verbatim text => rfl
  | declaration name value => rfl
  | chain s u body ih => rw [Node.collapse_rule_singleton, ih, pathEnds_joined]
  | rule s inner hne ih =>
      rw [Node.collapse_of_ne_singleton s hne]
      by_cases hinner : inner = []
      · rw [hinner, collapse_nil]
      · have hcollapse : collapse inner ≠ [] := by simpa [collapse_eq_map] using hinner
        rw [pathEnds_rule hcollapse, pathEnds_rule hinner, pathEnds_eq_flatMap, collapse_eq_map,
          List.flatMap_map, pathEnds_eq_flatMap _ inner]
        exact List.flatMap_congr fun node hnode => ih node hnode _

/-- Collapsing chains keeps the ends of a body, in order, with the texts of the ways to them:
`pathEnds way (collapse body) = pathEnds way body`. -/
theorem pathEnds_collapse (way : List Text) (body : Body) :
    pathEnds way (collapse body) = pathEnds way body := by
  rw [pathEnds_eq_flatMap, collapse_eq_map, List.flatMap_map, pathEnds_eq_flatMap way body]
  exact List.flatMap_congr fun node _ => pathEnds_collapse_singleton way node

/-! ## Bodies without chains -/

/-- No rule has a rule as its only node, at any depth. -/
def Chainless : Body → Prop := Everywhere fun b => ∀ s t inner, .rule s [.rule t inner] ∉ b

/-- After chains are collapsed there are none: `Chainless (collapse body)`. -/
theorem chainless_collapse (body : Body) : Chainless (collapse body) := by
  have htrue : Everywhere (fun _ => True) body := fun _ _ => trivial
  refine everywhere_collapse ?_ htrue
  intro b _ s t inner hrule
  exact ne_singleton_of_mem_collapse hrule t inner rfl

/-- The bodies with `collapse body = body` are those without chains. -/
theorem collapse_eq_self_iff {body : Body} : collapse body = body ↔ Chainless body := by
  constructor
  · intro h
    rw [← h]
    exact chainless_collapse body
  · intro h
    induction body using rule_induction with
    | step body ih =>
        obtain ⟨hchain, hinner⟩ := everywhere_iff.1 h
        rw [collapse_eq_map]
        conv_rhs => rw [← List.map_id body]
        refine List.map_congr_left fun node hnode => ?_
        rcases node.plain_or_rule with hplain | ⟨s, inner, rfl⟩
        · exact Node.collapse_plain hplain
        · have hne : ∀ t below, inner ≠ [.rule t below] := by
            rintro t below rfl
            exact hchain s t below hnode
          rw [Node.collapse_of_ne_singleton s hne, ih s inner hnode (hinner s inner hnode), id_eq]

/-- **Collapsing takes away all chains and nothing else.** The body `collapse body` has no rule with
a rule as its only node and stays as it is when it is collapsed again, and it has the ends of
`body`: the nodes that are not rules and the rules with nothing inside, in order, each with the text
of the selectors around it (`pathEnds`). -/
theorem collapse_chains_and_ends (body : Body) :
    Chainless (collapse body) ∧ collapse (collapse body) = collapse body ∧
      ∀ way, pathEnds way (collapse body) = pathEnds way body :=
  ⟨chainless_collapse body, collapse_eq_self_iff.2 (chainless_collapse body),
    fun way => pathEnds_collapse way body⟩

end Body

end SassNesting
