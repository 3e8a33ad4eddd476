import SassNesting.Proofs.Regrouping.Settled
import SassNesting.Regrouping.Pieces

/-! # Runs of rules with equal bodies

Rules fall apart into runs in one way: as many as possible that follow each other and have the same
body are a run (`exists_maximalRuns`, `MaximalRuns.unique`). Where the bodies are settled, merging
makes one rule of each run, with the comma list of its selectors (`Body.merge_of_maximalRuns`), and
writing out such a comma list gives the rules of the run back (`Run.split_merged`). -/

namespace SassNesting

open Selector

/-! ## Runs -/

/-- Rules that follow each other and have the same body. -/
structure Run where
  /-- The selectors of the rules, in order. -/
  selectors : List Text
  /-- The body of each of the rules. -/
  body : Body

namespace Run

/-- The rules of a run, one for each of its `selectors`. -/
def rules (run : Run) : Body := run.selectors.map fun s => .rule s run.body

/-- One rule for all `selectors` of a run, as a comma list. -/
def merged (run : Run) : Node := .rule (ofPieces run.selectors) run.body

end Run

/-- The list `rules` falls apart into `runs`, each of them as long as can be. -/
structure MaximalRuns (runs : List Run) (rules : Body) : Prop where
  /-- The rules are those of the runs, in order. -/
  rules_eq : rules = runs.flatMap Run.rules
  /-- Each run has a rule. -/
  ne_nil : ∀ run ∈ runs, run.selectors ≠ []
  /-- The run after a run has another body. -/
  ne_next : runs.IsChain fun run next => run.body ≠ next.body

/-- All rules fall apart into maximal runs: there are `runs` with `MaximalRuns runs rules`. -/
theorem exists_maximalRuns {rules : Body} (h : ∀ node ∈ rules, node.isRule = true) :
    ∃ runs, MaximalRuns runs rules := by
  induction rules with
  | nil => exact ⟨[], rfl, by simp, .nil⟩
  | cons node rest ih =>
      rw [List.forall_mem_cons] at h
      obtain ⟨runs, hruns⟩ := ih h.2
      obtain ⟨s, body, rfl⟩ := Node.exists_eq_rule h.1
      cases runs with
      | nil =>
          refine ⟨[⟨[s], body⟩], ?_, by simp, .singleton _⟩
          rw [hruns.rules_eq]
          rfl
      | cons run runs =>
          have hnes := (List.forall_mem_cons.1 hruns.ne_nil).2
          by_cases hbody : body = run.body
          · -- The rule prolongs the first run.
            subst hbody
            refine ⟨⟨s :: run.selectors, run.body⟩ :: runs, ?_, ?_, ?_⟩
            · rw [hruns.rules_eq]
              rfl
            · exact List.forall_mem_cons.2 ⟨List.cons_ne_nil s _, hnes⟩
            · exact List.isChain_cons.2 (List.isChain_cons.1 hruns.ne_next)
          · -- The rule is a run of its own.
            refine ⟨⟨[s], body⟩ :: run :: runs, ?_, ?_, ?_⟩
            · rw [hruns.rules_eq]
              rfl
            · exact List.forall_mem_cons.2 ⟨List.cons_ne_nil s [], hruns.ne_nil⟩
            · exact List.isChain_cons_cons.2 ⟨hbody, hruns.ne_next⟩

/-- The body of a run, `run.body`, is the body of one of the rules. -/
theorem MaximalRuns.exists_rule_mem {runs : List Run} {rules : Body} (h : MaximalRuns runs rules)
    {run : Run} (hrun : run ∈ runs) : ∃ s, .rule s run.body ∈ rules := by
  obtain ⟨s, hs⟩ := List.exists_mem_of_ne_nil _ (h.ne_nil run hrun)
  refine ⟨s, ?_⟩
  rw [h.rules_eq]
  exact List.mem_flatMap.2 ⟨run, hrun, List.mem_map_of_mem hs⟩

/-- The rules behind those of the first run fall apart into the other `runs`. -/
theorem MaximalRuns.tail {run : Run} {runs : List Run} {rules : Body}
    (h : MaximalRuns (run :: runs) rules) : MaximalRuns runs (runs.flatMap Run.rules) :=
  ⟨rfl, (List.forall_mem_cons.1 h.ne_nil).2, (List.isChain_cons.1 h.ne_next).2⟩

/-- The first rule has the body of the first run. -/
theorem MaximalRuns.head?_ruleBodies {runs : List Run} {rules : Body} (h : MaximalRuns runs rules) :
    (Body.ruleBodies rules).head? = runs.head?.map Run.body := by
  rw [h.rules_eq]
  cases runs with
  | nil => rfl
  | cons run runs =>
      obtain ⟨s, others, hselectors⟩ := List.exists_cons_of_ne_nil (h.ne_nil run List.mem_cons_self)
      rw [List.flatMap_cons, Run.rules, hselectors]
      rfl

/-- The first rule behind a `run` has another body than `run.body`. -/
theorem MaximalRuns.ne_of_mem_head? {run : Run} {runs : List Run} {rules : Body}
    (h : MaximalRuns (run :: runs) rules) :
    ∀ c ∈ (Body.ruleBodies (runs.flatMap Run.rules)).head?, run.body ≠ c := by
  rw [h.tail.head?_ruleBodies]
  intro c hc
  obtain ⟨next, hnext, rfl⟩ := Option.map_eq_some_iff.1 hc
  exact (List.isChain_cons.1 h.ne_next).1 next hnext

/-! ## Taking a run from the front -/

namespace Body

/-- From the front of a list `takeEqual shared` takes the rules of a run, if a rule with another
body comes next. -/
theorem takeEqual_rules_append (shared : Body) (selectors : List Text) {rest : Body}
    (h : ∀ c ∈ (ruleBodies rest).head?, shared ≠ c) :
    takeEqual shared ((selectors.map fun s => .rule s shared) ++ rest) = (selectors, rest) := by
  induction selectors with
  | nil => exact takeEqual_eq_self_iff.2 h
  | cons s selectors ih => rw [List.map_cons, List.cons_append, takeEqual_rule_self, ih]

/-- The rules that `takeEqual run.body` takes from the front are those of the first run. -/
theorem takeEqual_of_maximalRuns {run : Run} {runs : List Run} {rules : Body}
    (h : MaximalRuns (run :: runs) rules) :
    takeEqual run.body rules = (run.selectors, runs.flatMap Run.rules) := by
  rw [h.rules_eq, List.flatMap_cons, Run.rules]
  exact takeEqual_rules_append run.body run.selectors h.ne_of_mem_head?

end Body

/-- Rules fall apart into maximal runs in one way only: `runs = others`. -/
theorem MaximalRuns.unique {runs others : List Run} {rules : Body} (h : MaximalRuns runs rules)
    (hothers : MaximalRuns others rules) : runs = others := by
  induction runs generalizing others rules with
  | nil =>
      have hfirst := h.head?_ruleBodies.symm.trans hothers.head?_ruleBodies
      cases others with
      | nil => rfl
      | cons other others => simp at hfirst
  | cons run runs ih =>
      have hfirst := h.head?_ruleBodies.symm.trans hothers.head?_ruleBodies
      cases others with
      | nil => simp at hfirst
      | cons other others =>
          have hbody : run.body = other.body := by simpa using hfirst
          -- The first runs have the body of the first rule, so the same rules are taken for both.
          have htake := Body.takeEqual_of_maximalRuns h
          rw [hbody, Body.takeEqual_of_maximalRuns hothers, Prod.mk.injEq] at htake
          obtain ⟨hselectors, hrest⟩ := htake
          have hruns : runs = others := ih h.tail (hrest ▸ hothers.tail)
          rw [hruns, List.cons.injEq, Run.mk.injEq]
          exact ⟨⟨hselectors.symm, hbody⟩, rfl⟩

/-! ## Merging runs -/

/-- Of each run of rules with a settled body merging makes one rule:
`merge rules = runs.map Run.merged`. -/
theorem Body.merge_of_maximalRuns {runs : List Run} {rules : Body} (h : MaximalRuns runs rules)
    (hsettled : ∀ run ∈ runs, merge run.body = run.body) : merge rules = runs.map Run.merged := by
  induction runs generalizing rules with
  | nil => rw [h.rules_eq, List.flatMap_nil, merge_nil, List.map_nil]
  | cons run runs ih =>
      obtain ⟨hbody, hbodies⟩ := List.forall_mem_cons.1 hsettled
      have hrest : merge (runs.flatMap Run.rules) = runs.map Run.merged := ih h.tail hbodies
      obtain ⟨s, selectors, hselectors⟩ :=
        List.exists_cons_of_ne_nil (h.ne_nil run List.mem_cons_self)
      rw [h.rules_eq, List.flatMap_cons, Run.rules, hselectors, List.map_cons, List.cons_append,
        merge_rule, hbody, takeEqual_rules_append run.body selectors h.ne_of_mem_head?, hrest,
        List.map_cons, Run.merged, hselectors]

/-! ## Writing runs out -/

/-- The rule `run.merged` is written out as the rules of the run, if each selector `s` is its only
piece. -/
theorem Run.split_merged {run : Run} (hne : run.selectors ≠ [])
    (h : ∀ s ∈ run.selectors, pieces s = [s]) : run.merged.split = run.rules := by
  rw [Run.merged, Node.split]
  by_cases hcomma : ',' ∈ ofPieces run.selectors
  · rw [if_pos hcomma, pieces_ofPieces, List.flatMap_congr h, List.flatMap_singleton', Run.rules]
  · -- Two selectors would have a comma between them.
    rw [if_neg hcomma]
    obtain ⟨s, others, hselectors⟩ := List.exists_cons_of_ne_nil hne
    cases others with
    | nil => simp [Run.rules, hselectors, ofPieces]
    | cons t others => simp [hselectors, ofPieces] at hcomma

end SassNesting
