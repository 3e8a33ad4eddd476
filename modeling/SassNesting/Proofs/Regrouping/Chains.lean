import SassNesting.Proofs.Node.Arrangement
import SassNesting.Proofs.Node.Leaves
import SassNesting.Regrouping.Chains

/-! # What collapsing chains keeps

The tokens of two selectors joined with a blank are the tokens of the first and then those of the
second, so a joined rule has the leaves of the chain it stands for. After the pass no rule has a
rule as its only node (`ne_singleton_of_mem_collapse`). -/

namespace SassNesting

open Selector

/-- A rule without rules in its body is not joined with anything:
`Node.joined s inner = .rule s inner`. -/
theorem Node.joined_of_plain (s : Text) {inner : Body} (h : ∀ node ∈ inner, node.isRule = false) :
    Node.joined s inner = .rule s inner := by
  refine Node.joined_of_ne_singleton s ?_
  rintro u body rfl
  simp at h

/-- The rule `Node.joined s inner` has the leaves of `.rule s inner`, in order. -/
theorem Node.leaves_joined (s : Text) (inner : Body) (context : TokenPath) :
    (Node.joined s inner).leaves wholePath context =
      (Node.rule s inner).leaves wholePath context := by
  obtain ⟨t, joined, hjoined⟩ := Node.exists_joined_eq s inner
  rw [hjoined]
  rcases Node.joined_cases hjoined with ⟨rfl, rfl, -⟩ | ⟨u, rfl, rfl⟩
  · rfl
  · have hwords : Text.words (s ++ ' ' :: u) = Text.words s ++ Text.words u :=
      Text.words_append_blank (by decide) s u
    simp only [Node.leaves, Body.leaves_cons, Body.leaves_nil, List.append_nil, wholePath, hwords,
      List.flatMap_singleton, List.append_assoc]

/-- A node that is not a rule is left as it is: `node.collapse = node`. -/
theorem Node.collapse_plain {node : Node} (h : node.isRule = false) : node.collapse = node :=
  Node.plain_cases (fun _ => rfl) (fun _ _ => rfl) h

namespace Body

/-- In two bodies behind each other chains are collapsed as in each of them. -/
theorem collapse_append (b c : Body) : collapse (b ++ c) = collapse b ++ collapse c := by
  induction b with
  | nil => rfl
  | cons node b ih => rw [List.cons_append, collapse_cons, ih, collapse_cons, List.cons_append]

/-- A body without rules is left as it is: `collapse body = body`. -/
theorem collapse_of_plain {body : Body} (h : ∀ node ∈ body, node.isRule = false) :
    collapse body = body := by
  induction body with
  | nil => rfl
  | cons node rest ih =>
      rw [List.forall_mem_cons] at h
      rw [collapse_cons, Node.collapse_plain h.1, ih h.2]

/-! ## Rules of a collapsed body -/

/-- The rules of `collapse body` are its rules, each joined by `Node.joined s (collapse inner)`. -/
theorem mem_collapse_rule {body joined : Body} {t : Text} :
    .rule t joined ∈ collapse body ↔
      ∃ s inner, .rule s inner ∈ body ∧ Node.joined s (collapse inner) = .rule t joined := by
  induction body with
  | nil => simp
  | cons node rest ih =>
      rw [collapse_cons, List.mem_cons, ih]
      simp only [List.mem_cons, or_and_right, exists_or]
      -- What is left to show is about the first node alone.
      refine or_congr_left ?_
      cases node with
      | verbatim text => simp [Node.collapse]
      | declaration name value => simp [Node.collapse]
      | rule s inner =>
          rw [Node.collapse_rule]
          constructor
          · exact fun h => ⟨s, inner, rfl, h.symm⟩
          · rintro ⟨s', inner', heq, h⟩
            cases heq
            exact h.symm

/-- If `P` everywhere in a list gives `Q` of the collapsed list, it gives `Q` everywhere in a
collapsed body. -/
theorem everywhere_collapse {P Q : Body → Prop} (hcollapse : ∀ b, Everywhere P b → Q (collapse b))
    {body : Body} (h : Everywhere P body) : Everywhere Q (collapse body) := by
  induction body using rule_induction with
  | step body ih =>
      rw [everywhere_iff]
      refine ⟨hcollapse body h, fun t joined hrule => ?_⟩
      obtain ⟨s, inner, hmem, hjoined⟩ := mem_collapse_rule.1 hrule
      have hinner : Everywhere Q (collapse inner) :=
        ih s inner hmem ((everywhere_iff.1 h).2 s inner hmem)
      rcases Node.joined_cases hjoined with ⟨-, rfl, -⟩ | ⟨u, hu, -⟩
      · exact hinner
      · -- The body of the joined rule is the body of a rule in the collapsed body.
        rw [hu] at hinner
        exact (everywhere_iff.1 hinner).2 u joined List.mem_cons_self

/-- If `P` is kept by `s ++ ' ' :: t`, it holds of every selector of a collapsed body when it holds
of every selector of the body: each of them is one of those, or several of them joined with blanks.
-/
theorem everySelector_collapse_of_append_blank {P : Text → Prop}
    (hjoin : ∀ s t, P s → P t → P (s ++ ' ' :: t)) {body : Body} (h : EverySelector P body) :
    EverySelector P (collapse body) := by
  refine everywhere_collapse ?_ h
  intro b hb t joined hrule
  induction b using rule_induction generalizing t joined with
  | step b ih =>
      obtain ⟨s, inner, hmem, hjoined⟩ := mem_collapse_rule.1 hrule
      obtain ⟨hs, hinner⟩ := everySelector_iff.1 hb s inner hmem
      rcases Node.joined_cases hjoined with ⟨rfl, -, -⟩ | ⟨u, hu, rfl⟩
      · exact hs
      · have hrule' : .rule u joined ∈ collapse inner := by
          rw [hu]
          exact List.mem_cons_self
        exact hjoin s u hs (ih s inner hmem hinner u joined hrule')

/-- Every selector of `collapse body` has a token, if every selector of the body has. -/
theorem hasToken_collapse {body : Body} (h : EverySelector HasToken body) :
    EverySelector HasToken (collapse body) :=
  everySelector_collapse_of_append_blank (fun _ t hs _ => hs.append_blank t) h

/-- Every selector of `collapse body` has one piece, if every selector of the body has. -/
theorem everySelector_collapse {body : Body} (h : EverySelector IsSingle body) :
    EverySelector IsSingle (collapse body) :=
  everySelector_collapse_of_append_blank (fun _ _ hs ht => hs.append_blank ht) h

/-- No rule of `collapse body` has a rule as its only node. -/
theorem ne_singleton_of_mem_collapse {body joined : Body} {t : Text}
    (h : .rule t joined ∈ collapse body) (u : Text) (inner : Body) : joined ≠ [.rule u inner] := by
  induction body using rule_induction generalizing t joined with
  | step body ih =>
      obtain ⟨s, below, hmem, hjoined⟩ := mem_collapse_rule.1 h
      rcases Node.joined_cases hjoined with ⟨-, rfl, hne⟩ | ⟨v, hv, -⟩
      · exact hne u inner
      · -- The body comes from a rule further in, which has been joined already.
        have hrule' : .rule v joined ∈ collapse below := by
          rw [hv]
          exact List.mem_cons_self
        exact ih s below hmem hrule'

/-! ## Leaves and arrangement of a collapsed body -/

/-- Collapsing chains keeps the `leaves`, in order. -/
theorem leaves_collapse (body : Body) (context : TokenPath) :
    leaves wholePath context (collapse body) = leaves wholePath context body := by
  -- Chains are collapsed from the innermost rule outwards: by the induction the body of a rule
  -- keeps its leaves under each of the contexts that the rule makes, and then the rule is joined.
  induction body using plain_induction generalizing context with
  | nil => rfl
  | plain node rest hplain ih =>
      rw [collapse_cons, leaves_cons, ih, leaves_cons, Node.collapse_plain hplain]
  | rule s inner rest ihinner ih =>
      have hjoined := Node.leaves_joined s (collapse inner) context
      rw [collapse_cons, leaves_cons, ih, leaves_cons, Node.collapse_rule, hjoined]
      simp only [Node.leaves, ihinner]

/-- Collapsing chains keeps the leaves of each `path`. -/
theorem leavesAt_collapse (body : Body) (context path : TokenPath) :
    leavesAt wholePath context path (collapse body) = leavesAt wholePath context path body := by
  unfold leavesAt
  rw [leaves_collapse]

/-- Collapsing chains leaves a rule in the place of each rule: `Node.isRule` is kept. -/
theorem map_isRule_collapse (body : Body) :
    (collapse body).map Node.isRule = body.map Node.isRule := by
  induction body using plain_induction with
  | nil => rfl
  | plain node rest hplain ih =>
      rw [collapse_cons, List.map_cons, List.map_cons, ih, Node.collapse_plain hplain]
  | rule s inner rest _ ih =>
      obtain ⟨t, joined, hjoined⟩ := Node.exists_joined_eq s (collapse inner)
      rw [collapse_cons, List.map_cons, List.map_cons, ih, Node.collapse_rule, hjoined,
        Node.isRule_rule, Node.isRule_rule]

/-- A joined selector opens with the first token of the outer rule:
`openings (collapse body) = openings body`. -/
theorem openings_collapse {body : Body} (h : EverySelector IsSingle body) :
    openings (collapse body) = openings body := by
  induction body using plain_induction with
  | nil => rfl
  | plain node rest hplain ih =>
      rw [collapse_cons, openings_cons, ih (everySelector_cons.1 h).2, openings_cons,
        Node.collapse_plain hplain]
  | rule s inner rest _ ih =>
      obtain ⟨hs, hinner⟩ := everySelector_iff.1 h s inner List.mem_cons_self
      obtain ⟨t, joined, hjoined⟩ := Node.exists_joined_eq s (collapse inner)
      rw [collapse_cons, openings_cons, ih (everySelector_cons.1 h).2, openings_cons,
        Node.collapse_rule, hjoined, Node.openings, Node.openings]
      rcases Node.joined_cases hjoined with ⟨rfl, -, -⟩ | ⟨u, hu, rfl⟩
      · rfl
      · have hrule' : .rule u joined ∈ collapse inner := by
          rw [hu]
          exact List.mem_cons_self
        have hcollapse := everySelector_collapse hinner
        have hu' : IsSingle u := (everySelector_iff.1 hcollapse u joined hrule').1
        rw [openings_of_isSingle (hs.append_blank hu'), openings_of_isSingle hs,
          (head_and_tail_append_blank hs.has_token u).1]

end Body

end SassNesting
