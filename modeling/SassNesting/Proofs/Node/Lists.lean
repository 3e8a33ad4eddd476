import SassNesting.Node.Basic

/-! # The lists of nodes inside a stylesheet

A stylesheet is a list of nodes, and so is the body of each rule in it, at every depth.
`Body.lists` lists them all, and `Body.Everywhere` says that each of them has a property. A property
holds everywhere exactly if it holds of the list itself and everywhere in the bodies of its rules,
so facts about every depth are proved one level at a time (`Body.rule_induction`). -/

namespace SassNesting

/-! ## Rules and other nodes -/

/-- A node with `isRule` is `.rule s body`. -/
theorem Node.exists_eq_rule {node : Node} (h : node.isRule = true) :
    ∃ s body, node = .rule s body := by
  cases node with
  | verbatim text => simp at h
  | declaration name value => simp at h
  | rule s body => exact ⟨s, body, rfl⟩

/-- A node is not a rule, or is `.rule s body`. -/
theorem Node.plain_or_rule (node : Node) :
    node.isRule = false ∨ ∃ s body, node = .rule s body := by
  cases node with
  | verbatim text => exact Or.inl rfl
  | declaration name value => exact Or.inl rfl
  | rule s body => exact Or.inr ⟨s, body, rfl⟩

/-- A node that is not a rule is a line kept as it is written or a declaration. -/
@[elab_as_elim]
theorem Node.plain_cases {motive : Node → Prop} (verbatim : ∀ text, motive (.verbatim text))
    (declaration : ∀ name value, motive (.declaration name value)) {node : Node}
    (h : node.isRule = false) : motive node := by
  cases node with
  | verbatim text => exact verbatim text
  | declaration name value => exact declaration name value
  | rule s body => simp at h

/-- Induction on a body whose nodes are told apart only by `Node.isRule`. -/
@[elab_as_elim]
theorem Body.plain_induction {motive : Body → Prop} (nil : motive [])
    (plain : ∀ node rest, node.isRule = false → motive rest → motive (node :: rest))
    (rule : ∀ s body rest, motive body → motive rest → motive (.rule s body :: rest))
    (body : Body) : motive body := by
  induction body using Body.induction with
  | nil => exact nil
  | verbatim text rest ih => exact plain _ rest rfl ih
  | declaration name value rest ih => exact plain _ rest rfl ih
  | rule s body rest ihbody ih => exact rule s body rest ihbody ih

/-! ## Lists -/

mutual

/-- The body of a rule and all bodies of rules inside it. -/
def Node.innerLists : Node → List Body
  | .verbatim _ => []
  | .declaration _ _ => []
  | .rule _ body => body :: Body.innerLists body

/-- The bodies of the rules in a list of nodes, at every depth. -/
def Body.innerLists : List Node → List Body
  | [] => []
  | node :: rest => Node.innerLists node ++ Body.innerLists rest

end

namespace Body

/-- A list of nodes and the bodies of the rules in it, at every depth: `body :: innerLists body`. -/
def lists (body : Body) : List Body := body :: innerLists body

/-- An inner list is one of the `lists` of the body of a rule. -/
theorem mem_innerLists {b body : Body} :
    b ∈ innerLists body ↔ ∃ s inner, .rule s inner ∈ body ∧ b ∈ lists inner := by
  induction body with
  | nil => simp [innerLists]
  | cons node rest ih =>
      rw [innerLists, List.mem_append, ih]
      simp only [List.mem_cons, or_and_right, exists_or]
      -- What is left to show is about the first node alone.
      refine or_congr_left ?_
      cases node with
      | verbatim text => simp [Node.innerLists]
      | declaration name value => simp [Node.innerLists]
      | rule selector body =>
          rw [Node.innerLists, ← lists]
          constructor
          · exact fun h => ⟨selector, body, rfl, h⟩
          · rintro ⟨s, inner, heq, h⟩
            cases heq
            exact h

/-- Induction on the nesting of rules: `motive` holds of a list of nodes if it holds of the bodies
of its rules. -/
theorem rule_induction {motive : Body → Prop}
    (step : ∀ body, (∀ s inner, .rule s inner ∈ body → motive inner) → motive body) (body : Body) :
    motive body := by
  -- The induction is on the list, and carries that the property holds of the body of every rule in
  -- it: that the property holds of the rest of a list would say nothing about the rules in it.
  refine step body ?_
  induction body using plain_induction with
  | nil => simp
  | plain node rest hplain ih =>
      intro s inner h
      rcases List.mem_cons.1 h with rfl | h
      · simp at hplain
      · exact ih s inner h
  | rule selector body rest ihbody ih =>
      intro s inner h
      rcases List.mem_cons.1 h with heq | h
      · cases heq
        exact step body ihbody
      · exact ih s inner h

/-! ## Properties of every list -/

/-- The property `P` holds of a list of nodes and of the bodies of the rules in it, at every depth.
-/
def Everywhere (P : Body → Prop) (body : Body) : Prop := ∀ b ∈ lists body, P b

/-- To say `Everywhere P body` is to say `P body`, and `Everywhere P` of the bodies of its rules. -/
theorem everywhere_iff {P : Body → Prop} {body : Body} :
    Everywhere P body ↔ P body ∧ ∀ s inner, .rule s inner ∈ body → Everywhere P inner := by
  constructor
  · intro h
    refine ⟨h body List.mem_cons_self, ?_⟩
    intro s inner hrule b hb
    have hinner : b ∈ innerLists body := mem_innerLists.2 ⟨s, inner, hrule, hb⟩
    exact h b (List.mem_cons_of_mem body hinner)
  · rintro ⟨hbody, hinner⟩ b hb
    rcases List.mem_cons.1 hb with rfl | hb
    · exact hbody
    · obtain ⟨s, inner, hrule, hmem⟩ := mem_innerLists.1 hb
      exact hinner s inner hrule b hmem

/-- Where `P` implies `Q`, `Everywhere P` implies `Everywhere Q`. -/
theorem Everywhere.mono {P Q : Body → Prop} {body : Body} (h : Everywhere P body)
    (himp : ∀ b, P b → Q b) : Everywhere Q body := by
  intro b hb
  exact himp b (h b hb)

/-- The property `P` of selectors holds of every selector, at every depth. -/
def EverySelector (P : Text → Prop) : Body → Prop :=
  Everywhere fun b => ∀ s inner, .rule s inner ∈ b → P s

/-- To say `EverySelector P body` is to say `P` of the selectors of the rules in the list and of
every selector in their bodies. -/
theorem everySelector_iff {P : Text → Prop} {body : Body} :
    EverySelector P body ↔ ∀ s inner, .rule s inner ∈ body → P s ∧ EverySelector P inner := by
  rw [EverySelector, everywhere_iff]
  constructor
  · rintro ⟨hselectors, hinner⟩ s inner hrule
    exact ⟨hselectors s inner hrule, hinner s inner hrule⟩
  · intro h
    constructor
    · intro s inner hrule
      exact (h s inner hrule).1
    · intro s inner hrule
      exact (h s inner hrule).2

/-- To say `EverySelector P body` is to say `P` of the selectors in each of the `lists`. -/
theorem everySelector_iff_lists {P : Text → Prop} {body : Body} :
    EverySelector P body ↔ ∀ b ∈ lists body, ∀ s ∈ b.filterMap Node.selector?, P s := by
  refine forall₂_congr fun b _ => ?_
  constructor
  · intro h s hs
    obtain ⟨node, hnode, hselector⟩ := List.mem_filterMap.1 hs
    cases node with
    | verbatim text => simp [Node.selector?] at hselector
    | declaration name value => simp [Node.selector?] at hselector
    | rule selector inner =>
        cases hselector
        exact h s inner hnode
  · intro h s inner hrule
    exact h s (List.mem_filterMap.2 ⟨.rule s inner, hrule, rfl⟩)

instance (P : Text → Prop) [DecidablePred P] (body : Body) : Decidable (EverySelector P body) :=
  decidable_of_iff _ everySelector_iff_lists.symm

/-- Where `P` implies `Q`, `EverySelector P` implies `EverySelector Q`. -/
theorem EverySelector.mono {P Q : Text → Prop} {body : Body} (h : EverySelector P body)
    (himp : ∀ s, P s → Q s) : EverySelector Q body := by
  refine Everywhere.mono h ?_
  intro b hb s inner hrule
  exact himp s (hb s inner hrule)

/-- What holds of all selectors holds of every selector in a body. -/
theorem everySelector_of_forall {P : Text → Prop} (h : ∀ s, P s) {body : Body} :
    EverySelector P body :=
  fun _ _ s _ _ => h s

/-- To say `EverySelector P (node :: rest)` is to say it of `[node]` and of `rest`. -/
theorem everySelector_cons {P : Text → Prop} {node : Node} {rest : Body} :
    EverySelector P (node :: rest) ↔ EverySelector P [node] ∧ EverySelector P rest := by
  constructor
  · intro h
    rw [everySelector_iff] at h
    constructor
    · rw [everySelector_iff]
      intro s inner hrule
      exact h s inner (List.mem_cons.2 (Or.inl (List.mem_singleton.1 hrule)))
    · rw [everySelector_iff]
      exact fun s inner hrule => h s inner (List.mem_cons_of_mem node hrule)
  · rintro ⟨hnode, hrest⟩
    rw [everySelector_iff] at hnode hrest ⊢
    intro s inner hrule
    rcases List.mem_cons.1 hrule with hrule | hrule
    · exact hnode s inner (List.mem_singleton.2 hrule)
    · exact hrest s inner hrule

end Body

end SassNesting
