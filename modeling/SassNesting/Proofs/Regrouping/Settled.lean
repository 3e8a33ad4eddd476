import Mathlib.Data.List.Chain
import SassNesting.Conversion
import SassNesting.Proofs.Regrouping.Merging

/-! # When merging leaves nothing to merge

A list is settled if no two rules in it that follow each other have equal bodies, at any depth. The
settled lists are those that merging leaves as they are. Merging need not settle a list: it compares
the merged body of a rule with the body of the next one as it stands, so two bodies that only become
equal when they are merged are not seen to be equal. This is the one thing that can go wrong
(`settled_merge_iff`). -/

namespace SassNesting

/-! ## Bodies of neighbouring rules -/

/-- The body of a rule. -/
def Node.body? : Node → Option Body
  | .rule _ body => some body
  | _ => none

namespace Body

/-- The bodies of the rules in a list, in order. -/
def ruleBodies (body : Body) : List Body := body.filterMap Node.body?

@[simp] theorem ruleBodies_nil : ruleBodies [] = [] := rfl

@[simp] theorem ruleBodies_rule (s : Text) (body rest : Body) :
    ruleBodies (.rule s body :: rest) = body :: ruleBodies rest := rfl

/-- A node that is not a rule has no body to add to `ruleBodies`. -/
theorem ruleBodies_plain {node : Node} (h : node.isRule = false) (rest : Body) :
    ruleBodies (node :: rest) = ruleBodies rest :=
  Node.plain_cases (fun _ => rfl) (fun _ _ => rfl) h

/-- The `ruleBodies` of a list are the bodies of its rules. -/
theorem mem_ruleBodies {body inner : Body} :
    inner ∈ ruleBodies body ↔ ∃ s, .rule s inner ∈ body := by
  rw [ruleBodies, List.mem_filterMap]
  constructor
  · rintro ⟨node, hnode, hinner⟩
    cases node with
    | verbatim text => simp [Node.body?] at hinner
    | declaration name value => simp [Node.body?] at hinner
    | rule s b =>
        cases hinner
        exact ⟨s, hnode⟩
  · rintro ⟨s, hrule⟩
    exact ⟨.rule s inner, hrule, rfl⟩

/-- In every list, at every depth, the bodies of any two rules that follow each other with no other
rule between them are related by `R`. -/
def Neighbours (R : Body → Body → Prop) : Body → Prop :=
  Everywhere fun b => (ruleBodies b).IsChain R

section Neighbours

variable {R : Body → Body → Prop}

/-- Where there are no rules there are no neighbours. -/
theorem neighbours_nil : Neighbours R [] := by
  rw [Neighbours, everywhere_iff]
  refine ⟨List.IsChain.nil, ?_⟩
  intro s inner h
  exact absurd h List.not_mem_nil

/-- A node that is not a rule does not part the rules before it from those after it. -/
theorem neighbours_plain {node : Node} (h : node.isRule = false) (rest : Body) :
    Neighbours R (node :: rest) ↔ Neighbours R rest := by
  have hmem : ∀ s inner, .rule s inner ∈ node :: rest ↔ .rule s inner ∈ rest := by
    intro s inner
    rw [List.mem_cons, or_iff_right]
    rintro rfl
    simp at h
  rw [Neighbours, everywhere_iff, everywhere_iff, ruleBodies_plain h]
  simp only [hmem]

/-- A rule is related by `R` to the first rule after it. -/
theorem neighbours_rule (s : Text) (body rest : Body) :
    Neighbours R (.rule s body :: rest) ↔
      Neighbours R body ∧ (∀ c ∈ (ruleBodies rest).head?, R body c) ∧ Neighbours R rest := by
  constructor
  · intro h
    obtain ⟨hchain, hinner⟩ := everywhere_iff.1 h
    rw [ruleBodies_rule, List.isChain_cons] at hchain
    obtain ⟨hhead, hrest⟩ := hchain
    refine ⟨hinner s body List.mem_cons_self, hhead, everywhere_iff.2 ⟨hrest, ?_⟩⟩
    intro t inner hrule
    exact hinner t inner (List.mem_cons_of_mem _ hrule)
  · rintro ⟨hbody, hhead, hrest⟩
    obtain ⟨hchain, hinner⟩ := everywhere_iff.1 hrest
    rw [Neighbours, everywhere_iff]
    constructor
    · rw [ruleBodies_rule, List.isChain_cons]
      exact ⟨hhead, hchain⟩
    · intro t inner hrule
      rcases List.mem_cons.1 hrule with heq | hrule
      · cases heq
        exact hbody
      · exact hinner t inner hrule

/-- In the body `inner` of each rule neighbours are related as well. -/
theorem Neighbours.of_mem_ruleBodies {body inner : Body} (h : Neighbours R body)
    (hinner : inner ∈ ruleBodies body) : Neighbours R inner := by
  obtain ⟨s, hrule⟩ := mem_ruleBodies.1 hinner
  exact (everywhere_iff.1 h).2 s inner hrule

end Neighbours

/-- Any two rules that follow each other have different bodies, at every depth. -/
def Settled : Body → Prop := Neighbours (· ≠ ·)

/-! ## Settled lists are left as they are -/

/-- No rule is taken by `takeEqual shared` iff the first rule has another body than `shared`. -/
theorem takeEqual_eq_self_iff {shared rest : Body} :
    takeEqual shared rest = ([], rest) ↔ ∀ c ∈ (ruleBodies rest).head?, shared ≠ c := by
  induction rest using takeEqual_induction with
  | nil => simp
  | plain node rest hplain ih =>
      rw [takeEqual_plain hplain, ruleBodies_plain hplain, ← ih, Prod.mk.injEq, List.cons.injEq,
        Prod.ext_iff]
      simp
  | equal s rest ih =>
      rw [takeEqual_rule_self, ruleBodies_rule]
      simp
  | other s body rest hne =>
      rw [takeEqual_rule_of_ne hne, ruleBodies_rule]
      simpa using hne.symm

/-- Merging a list makes it no longer: `(merge body).length ≤ body.length`. -/
theorem length_merge_le (body : Body) : (merge body).length ≤ body.length := by
  simpa using (sublist_map_isRule_merge body).length_le

/-- A list that starts with a rule is left as it is by `merge` iff its `body` and the `rest` are,
and the first rule of the rest has another body. -/
theorem merge_rule_eq_self_iff (s : Text) (body rest : Body) :
    merge (.rule s body :: rest) = .rule s body :: rest ↔
      merge body = body ∧ (∀ c ∈ (ruleBodies rest).head?, body ≠ c) ∧ merge rest = rest := by
  rw [merge_rule, List.cons.injEq, Node.rule.injEq, ← takeEqual_eq_self_iff]
  constructor
  · rintro ⟨⟨-, hbody⟩, hrest⟩
    rw [hbody] at hrest
    -- A rule that is taken would be missing in the rest.
    have hlength := length_takeEqual body rest
    have hle := length_merge_le (takeEqual body rest).2
    rw [hrest] at hle
    have hnone : (takeEqual body rest).1 = [] := List.length_eq_zero_iff.1 (by omega)
    have hleft : (takeEqual body rest).2 = rest :=
      (sublist_takeEqual body rest).eq_of_length_le (by omega)
    rw [hleft] at hrest
    exact ⟨hbody, Prod.ext hnone hleft, hrest⟩
  · rintro ⟨hbody, htaken, hrest⟩
    rw [hbody, htaken]
    simp [Selector.ofPieces, hrest]

/-- The settled lists are those that merging leaves as they are: `merge body = body`. -/
theorem settled_iff_merge_eq_self {body : Body} : Settled body ↔ merge body = body := by
  induction body using plain_induction with
  | nil => exact iff_of_true neighbours_nil merge_nil
  | plain node rest hplain ih =>
      have hsettled : Settled (node :: rest) ↔ Settled rest := neighbours_plain hplain rest
      rw [hsettled, ih, merge_plain hplain, List.cons.injEq, and_iff_right rfl]
  | rule s body rest ihbody ih =>
      have hsettled : Settled (.rule s body :: rest) ↔
          Settled body ∧ (∀ c ∈ (ruleBodies rest).head?, body ≠ c) ∧ Settled rest :=
        neighbours_rule s body rest
      rw [hsettled, ihbody, ih, merge_rule_eq_self_iff]

/-! ## Lists that merging settles -/

/-- Of any two rules that follow each other and whose bodies are equal once they are merged, the
second one has a body that `merge` leaves as it is, at every depth. -/
def MergesFully : Body → Prop := Neighbours fun b c => merge b = merge c → merge c = c

/-- In a settled list there is nothing that merging changes, so it is `MergesFully`. -/
theorem Settled.mergesFully {body : Body} (h : Settled body) : MergesFully body := by
  induction body using plain_induction with
  | nil => exact neighbours_nil
  | plain node rest hplain ih =>
      have hrest : Settled rest := (neighbours_plain hplain rest).1 h
      exact (neighbours_plain hplain rest).2 (ih hrest)
  | rule s body rest ihbody ih =>
      obtain ⟨hbody, -, hrest⟩ := (neighbours_rule s body rest).1 h
      refine (neighbours_rule s body rest).2 ⟨ihbody hbody, ?_, ih hrest⟩
      intro c hc _
      have hsettled : Settled c := hrest.of_mem_ruleBodies (List.mem_of_mem_head? hc)
      exact settled_iff_merge_eq_self.1 hsettled

/-- The first rule of `merge body` has the merged body of the first rule of the list. -/
theorem forall_head?_ruleBodies_merge {P : Body → Prop} {body : Body} :
    (∀ c ∈ (ruleBodies (merge body)).head?, P c) ↔
      ∀ c ∈ (ruleBodies body).head?, P (merge c) := by
  induction body using plain_induction with
  | nil => simp
  | plain node rest hplain ih =>
      rw [merge_plain hplain, ruleBodies_plain hplain, ruleBodies_plain hplain, ih]
  | rule s body rest _ _ =>
      rw [merge_rule, ruleBodies_rule, ruleBodies_rule]
      simp

/-- Behind a rule with a settled body `shared`, a list merges fully iff what is left of it does
after the rules with that body are taken, and the first rule left has another body once it is
merged. -/
theorem mergesFully_takeEqual_iff {shared : Body} (h : Settled shared) (rest : Body) :
    (MergesFully (takeEqual shared rest).2 ∧
        ∀ c ∈ (ruleBodies (takeEqual shared rest).2).head?, shared ≠ merge c) ↔
      MergesFully rest ∧ ∀ c ∈ (ruleBodies rest).head?, shared = merge c → merge c = c := by
  have hshared := settled_iff_merge_eq_self.1 h
  induction rest using takeEqual_induction with
  | nil => simp [ruleBodies_nil]
  | plain node rest hplain ih =>
      rw [takeEqual_plain hplain, MergesFully, neighbours_plain hplain, neighbours_plain hplain,
        ruleBodies_plain hplain, ruleBodies_plain hplain]
      exact ih
  | equal s rest ih =>
      -- The rule that is taken has a settled body, so it asks for nothing that `shared` does not.
      rw [takeEqual_rule_self]
      refine ih.trans ?_
      rw [MergesFully, neighbours_rule, ruleBodies_rule, hshared]
      constructor
      · rintro ⟨hrest, hhead⟩
        refine ⟨⟨h.mergesFully, hhead, hrest⟩, ?_⟩
        intro c hc _
        cases hc
        exact hshared
      · rintro ⟨⟨-, hhead, hrest⟩, -⟩
        exact ⟨hrest, hhead⟩
  | other s body rest hne =>
      -- No rule is taken, so only the first rule is in question, whose body is not `shared`.
      rw [takeEqual_rule_of_ne hne, ruleBodies_rule]
      refine and_congr_right fun _ => ?_
      simp only [List.head?_cons, Option.mem_def, Option.some.injEq, forall_eq']
      constructor
      · intro hbody heq
        exact absurd heq hbody
      · intro hbody heq
        have hself : merge body = body := hbody heq
        exact hne (hself.symm.trans heq.symm)

/-- Merging settles exactly the lists that merge fully: `Settled (merge body)` is
`MergesFully body`. -/
theorem settled_merge_iff (body : Body) : Settled (merge body) ↔ MergesFully body := by
  induction body using merge_induction with
  | nil =>
      rw [merge_nil]
      exact iff_of_true neighbours_nil neighbours_nil
  | plain node rest hplain ih =>
      rw [merge_plain hplain]
      exact (neighbours_plain hplain _).trans (ih.trans (neighbours_plain hplain rest).symm)
  | rule s body rest ihbody ih =>
      rw [merge_rule, Settled, neighbours_rule, ← Settled, MergesFully, neighbours_rule,
        ← MergesFully, ih, ← ihbody, forall_head?_ruleBodies_merge]
      -- Both sides need the merged body to be settled, and then compare it with what follows.
      refine and_congr_right fun hbody => ?_
      rw [and_comm, mergesFully_takeEqual_iff hbody rest, and_comm]

/-- **When merging settles a list.** Merging leaves no two rules with equal bodies after each other
iff `MergesFully body`, and just then it changes nothing when it is run again. -/
theorem merge_settles_iff (body : Body) :
    (Settled (merge body) ↔ MergesFully body) ∧
      (Settled (merge body) ↔ merge (merge body) = merge body) :=
  ⟨settled_merge_iff body, settled_iff_merge_eq_self⟩

/-- Two groups with the same two rules are not merged, since the rules of the first one are merged
before the groups are compared, and those of the second one are not. -/
theorem unsettled_buildSheet :
    ∃ sheet,
      buildSheet {} "a x\x7bp:q\x7d a y\x7bp:q\x7d b x\x7bp:q\x7d b y\x7bp:q\x7d".toList =
        .ok sheet ∧
      ¬ Settled sheet ∧ merge sheet ≠ sheet := by
  let inner : Body := [.rule "x, y".toList [.declaration "p".toList "q".toList]]
  refine ⟨[.rule "a".toList inner, .rule "b".toList inner], by decide +kernel, ?_⟩
  rw [settled_iff_merge_eq_self]
  decide +kernel

end Body

end SassNesting
