import SassNesting.Proofs.Node.Arrangement
import SassNesting.Proofs.Node.Leaves
import SassNesting.Regrouping.Merging

/-! # What merging keeps

Rules with a common body are taken from the front of a list across nodes that are not rules. Such a
node has its leaf at the path of the context and a rule has none there, so the rules may change
places with it (`leavesAt_takeEqual`). A merged rule has the leaves of the rules it stands for, its
selector opens with their tokens, and where a single rule is left there was a single rule before, or
its selector is a comma list. -/

namespace SassNesting

open Selector

namespace Body

/-! ## Taking rules with a given body -/

section TakeEqual

variable {shared : Body}

@[simp] theorem takeEqual_nil : takeEqual shared [] = ([], []) := rfl

/-- A rule with the body `shared` is taken. -/
theorem takeEqual_rule_self (s : Text) (rest : Body) :
    takeEqual shared (.rule s shared :: rest) =
      (s :: (takeEqual shared rest).1, (takeEqual shared rest).2) := by
  rw [takeEqual, if_pos rfl]

/-- A rule with another body than `shared` ends the run. -/
theorem takeEqual_rule_of_ne {s : Text} {body rest : Body} (h : body ≠ shared) :
    takeEqual shared (.rule s body :: rest) = ([], .rule s body :: rest) := by
  rw [takeEqual, if_neg h]

/-- A node that is not a rule is left in its place. -/
theorem takeEqual_plain {node : Node} (h : node.isRule = false) (rest : Body) :
    takeEqual shared (node :: rest) =
      ((takeEqual shared rest).1, node :: (takeEqual shared rest).2) :=
  Node.plain_cases (fun _ => rfl) (fun _ _ => rfl) h

/-- Induction on a list from which `takeEqual shared` takes rules. -/
@[elab_as_elim]
theorem takeEqual_induction {motive : Body → Prop} (nil : motive [])
    (plain : ∀ node rest, node.isRule = false → motive rest → motive (node :: rest))
    (equal : ∀ s rest, motive rest → motive (.rule s shared :: rest))
    (other : ∀ s body rest, body ≠ shared → motive (.rule s body :: rest)) (body : Body) :
    motive body := by
  induction body using plain_induction with
  | nil => exact nil
  | plain node rest hplain ih => exact plain node rest hplain ih
  | rule s body rest _ ih =>
      by_cases h : body = shared
      · subst h
        exact equal s rest ih
      · exact other s body rest h

/-- What `takeEqual` leaves is the list with some nodes taken away. -/
theorem sublist_takeEqual (shared body : Body) : (takeEqual shared body).2.Sublist body := by
  induction body using takeEqual_induction with
  | nil => exact List.Sublist.slnil
  | plain node rest hplain ih =>
      rw [takeEqual_plain hplain]
      exact ih.cons_cons node
  | equal s rest ih =>
      rw [takeEqual_rule_self]
      exact ih.cons _
  | other s body rest hne => rw [takeEqual_rule_of_ne hne]

/-- Each node is either taken or left by `takeEqual`. -/
theorem length_takeEqual (shared body : Body) :
    (takeEqual shared body).1.length + (takeEqual shared body).2.length = body.length := by
  induction body using takeEqual_induction with
  | nil => rfl
  | plain node rest hplain ih =>
      rw [takeEqual_plain hplain, List.length_cons, List.length_cons, ← ih, Nat.add_assoc]
  | equal s rest ih =>
      rw [takeEqual_rule_self, List.length_cons, List.length_cons, ← ih, Nat.add_right_comm]
  | other s body rest hne => rw [takeEqual_rule_of_ne hne, List.length_nil, Nat.zero_add]

/-- A selector `s` that is taken is that of `.rule s shared` in the list. -/
theorem mem_of_mem_takeEqual {s : Text} {body : Body} (h : s ∈ (takeEqual shared body).1) :
    .rule s shared ∈ body := by
  induction body using takeEqual_induction with
  | nil => exact absurd h List.not_mem_nil
  | plain node rest hplain ih =>
      rw [takeEqual_plain hplain] at h
      exact List.mem_cons_of_mem node (ih h)
  | equal t rest ih =>
      rw [takeEqual_rule_self] at h
      rcases List.mem_cons.1 h with rfl | h
      · exact List.mem_cons_self
      · exact List.mem_cons_of_mem _ (ih h)
  | other t body rest hne =>
      rw [takeEqual_rule_of_ne hne] at h
      exact absurd h List.not_mem_nil

/-- The selectors that are taken open as their rules did, and what is left opens as before: together
they are `openings body`. -/
theorem openings_takeEqual (body : Body) :
    (takeEqual shared body).1.flatMap Selector.openings ++ openings (takeEqual shared body).2 =
      openings body := by
  induction body using takeEqual_induction with
  | nil => rfl
  | plain node rest hplain ih =>
      rw [takeEqual_plain hplain, openings_cons, openings_cons, Node.openings_of_not_rule hplain,
        List.nil_append, List.nil_append, ih]
  | equal s rest ih =>
      rw [takeEqual_rule_self, List.flatMap_cons, List.append_assoc, ih, openings_cons,
        Node.openings]
  | other s body rest hne => rw [takeEqual_rule_of_ne hne, List.flatMap_nil, List.nil_append]

/-- A comma list `ofPieces (s :: selectors)` has the leaves of a rule for `s`, and then those of a
rule for the others. -/
theorem leavesAt_rule_ofPieces_cons (context path : TokenPath) (s : Text) (selectors : List Text)
    (body : Body) :
    leavesAt paths context path [.rule (ofPieces (s :: selectors)) body] =
      leavesAt paths context path [.rule s body] ++
        leavesAt paths context path [.rule (ofPieces selectors) body] := by
  rw [leavesAt_rule, leavesAt_rule, leavesAt_rule, paths_ofPieces, paths_ofPieces,
    List.flatMap_cons, List.flatMap_append]

/-- The leaves of a list are those of the rules that `takeEqual` takes, and then those of what is
left. -/
theorem leavesAt_takeEqual (context path : TokenPath) (body : Body) :
    leavesAt paths context path [.rule (ofPieces (takeEqual shared body).1) shared] ++
        leavesAt paths context path (takeEqual shared body).2 =
      leavesAt paths context path body := by
  have hnil : leavesAt paths context path [.rule (ofPieces []) shared] = [] := by
    rw [leavesAt_rule, paths_ofPieces]
    rfl
  induction body using takeEqual_induction with
  | nil => rw [takeEqual_nil, hnil, List.nil_append]
  | plain node rest hplain ih =>
      rw [takeEqual_plain hplain, leavesAt_cons node (takeEqual shared rest).2,
        leavesAt_cons node rest, ← ih]
      -- The rules that are taken pass the node, so one of the two must have no leaf at the path.
      by_cases hpath : context = path
      · rw [← hpath, leavesAt_rule_self (fun _ => ne_nil_of_mem_paths), List.nil_append,
          List.nil_append]
      · rw [leavesAt_plain hplain, if_neg hpath, List.nil_append, List.nil_append]
  | equal s rest ih =>
      rw [takeEqual_rule_self, leavesAt_rule_ofPieces_cons, List.append_assoc, ih, ← leavesAt_cons]
  | other s body rest hne => rw [takeEqual_rule_of_ne hne, hnil, List.nil_append]

end TakeEqual

/-! ## Merging step by step -/

/-- Merging starts at the first rule: it takes the rules after it whose body is `merge body`. -/
theorem merge_rule (s : Text) (body rest : Body) :
    merge (.rule s body :: rest) =
      .rule (ofPieces (s :: (takeEqual (merge body) rest).1)) (merge body) ::
        merge (takeEqual (merge body) rest).2 := by
  rw [merge]

/-- A node that is not a rule stays where it is. -/
theorem merge_plain {node : Node} (h : node.isRule = false) (rest : Body) :
    merge (node :: rest) = node :: merge rest := by
  refine Node.plain_cases (fun text => ?_) (fun name value => ?_) h
  · rw [merge]
    simp
  · rw [merge]
    simp

/-- Nodes `b` in front that are not rules stay where they are. -/
theorem merge_append_of_plain {b : Body} (h : ∀ node ∈ b, node.isRule = false) (rest : Body) :
    merge (b ++ rest) = b ++ merge rest := by
  induction b with
  | nil => rfl
  | cons node b ih =>
      rw [List.forall_mem_cons] at h
      rw [List.cons_append, merge_plain h.1, ih h.2, List.cons_append]

/-- Induction on a list whose rules are merged: what is merged after a rule is what `takeEqual`
leaves behind it. -/
@[elab_as_elim]
theorem merge_induction {motive : Body → Prop} (nil : motive [])
    (plain : ∀ node rest, node.isRule = false → motive rest → motive (node :: rest))
    (rule : ∀ s body rest, motive body → motive (takeEqual (merge body) rest).2 →
      motive (.rule s body :: rest)) (body : Body) : motive body := by
  induction body using merge.induct with
  | case1 => exact nil
  | case2 s body rest merged taken ihbody ih => exact rule s body rest ihbody ih
  | case3 node rest hne ih =>
      refine plain node rest ?_ ih
      rw [Bool.eq_false_iff]
      intro hrule
      obtain ⟨s, body, rfl⟩ := Node.exists_eq_rule hrule
      exact hne s body rfl

/-- The selectors in `merge body` are comma lists of selectors of the list, and the bodies are
merged ones. -/
theorem exists_of_mem_merge {body inner : Body} {t : Text} (h : .rule t inner ∈ merge body) :
    ∃ s selectors b, .rule s b ∈ body ∧ inner = merge b ∧ t = ofPieces (s :: selectors) ∧
      ∀ u ∈ selectors, .rule u (merge b) ∈ body := by
  induction body using merge_induction with
  | nil => simp at h
  | plain node rest hplain ih =>
      rw [merge_plain hplain] at h
      rcases List.mem_cons.1 h with rfl | h
      · simp at hplain
      · obtain ⟨s, selectors, b, hrule, hinner, ht, hmem⟩ := ih h
        exact ⟨s, selectors, b, List.mem_cons_of_mem node hrule, hinner, ht,
          fun u hu => List.mem_cons_of_mem node (hmem u hu)⟩
  | rule s b rest _ ih =>
      rw [merge_rule] at h
      rcases List.mem_cons.1 h with heq | h
      · cases heq
        refine ⟨s, _, b, List.mem_cons_self, rfl, rfl, ?_⟩
        intro u hu
        exact List.mem_cons_of_mem _ (mem_of_mem_takeEqual hu)
      · have hrest := (sublist_takeEqual (merge b) rest).subset
        obtain ⟨s', selectors, b', hrule, hinner, ht, hmem⟩ := ih h
        exact ⟨s', selectors, b', List.mem_cons_of_mem _ (hrest hrule), hinner, ht,
          fun u hu => List.mem_cons_of_mem _ (hrest (hmem u hu))⟩

/-- If `P` everywhere in a list gives `Q` of the merged list, it gives `Q` everywhere in a merged
body. -/
theorem everywhere_merge {P Q : Body → Prop} (hmerge : ∀ b, Everywhere P b → Q (merge b))
    {body : Body} (h : Everywhere P body) : Everywhere Q (merge body) := by
  induction body using rule_induction with
  | step body ih =>
      rw [everywhere_iff]
      refine ⟨hmerge body h, fun t inner hrule => ?_⟩
      obtain ⟨s, -, b, hmem, rfl, -, -⟩ := exists_of_mem_merge hrule
      have hbody : Everywhere P b := (everywhere_iff.1 h).2 s b hmem
      exact ih s b hmem hbody

/-- If `P` is kept by `s ++ ',' :: ' ' :: t`, it holds of every selector of a merged list when it
holds of every selector of the list. -/
theorem everySelector_merge_of_append_comma {P : Text → Prop}
    (hjoin : ∀ s t, P s → P t → P (s ++ ',' :: ' ' :: t)) {body : Body} (h : EverySelector P body) :
    EverySelector P (merge body) := by
  refine everywhere_merge ?_ h
  intro b hb t inner hrule
  obtain ⟨s, selectors, c, hs, -, rfl, hmem⟩ := exists_of_mem_merge hrule
  have hselectors := (everywhere_iff.1 hb).1
  apply ofPieces_of_append_comma hjoin (hselectors s c hs)
  intro u hu
  exact hselectors u (merge c) (hmem u hu)

/-- No selector of `merge body` has an empty piece, if none of the list has one. -/
theorem everySelector_merge {body : Body} (h : EverySelector IsFilled body) :
    EverySelector IsFilled (merge body) :=
  everySelector_merge_of_append_comma (fun _ _ hs ht => hs.append_comma ht) h

/-! ## Leaves and arrangement of a merged list -/

/-- Merging keeps the leaves of each `path`, in order. -/
theorem leavesAt_merge (context path : TokenPath) (body : Body) :
    leavesAt paths context path (merge body) = leavesAt paths context path body := by
  -- The body of a rule is merged under each of the contexts that the rule makes.
  induction body using merge_induction generalizing context with
  | nil => rw [merge_nil]
  | plain node rest hplain ih => rw [merge_plain hplain, leavesAt_cons, ih, ← leavesAt_cons]
  | rule s body rest ihbody ih =>
      have hbody : leavesAt paths context path [.rule s (merge body)] =
          leavesAt paths context path [.rule s body] := by
        rw [leavesAt_rule, leavesAt_rule]
        apply List.flatMap_congr
        intro p _
        exact ihbody (context ++ p)
      rw [merge_rule, leavesAt_cons, ih, leavesAt_rule_ofPieces_cons, List.append_assoc,
        leavesAt_takeEqual, hbody, ← leavesAt_cons]

/-- Merging takes rules away from a list and changes nothing into a rule or back. -/
theorem sublist_map_isRule_merge (body : Body) :
    ((merge body).map Node.isRule).Sublist (body.map Node.isRule) := by
  induction body using merge_induction with
  | nil => rw [merge_nil]
  | plain node rest hplain ih =>
      rw [merge_plain hplain, List.map_cons, List.map_cons]
      exact ih.cons_cons _
  | rule s body rest _ ih =>
      have hleft := (sublist_takeEqual (merge body) rest).map Node.isRule
      rw [merge_rule, List.map_cons, List.map_cons, Node.isRule_rule, Node.isRule_rule]
      exact (ih.trans hleft).cons_cons true

/-- The selectors of a merged list open as those of the list:
`openings (merge body) = openings body`. -/
theorem openings_merge (body : Body) : openings (merge body) = openings body := by
  induction body using merge_induction with
  | nil => rw [merge_nil]
  | plain node rest hplain ih => rw [merge_plain hplain, openings_cons, ih, openings_cons]
  | rule s body rest _ ih =>
      rw [merge_rule, openings_cons, ih, Node.openings, openings_ofPieces, List.flatMap_cons,
        List.append_assoc, openings_takeEqual, openings_cons, Node.openings]

/-- Nothing is left of a list only if nothing was in it: `merge body = []` gives `body = []`. -/
theorem eq_nil_of_merge_eq_nil {body : Body} (h : merge body = []) : body = [] := by
  induction body using merge_induction with
  | nil => rfl
  | plain node rest hplain _ =>
      rw [merge_plain hplain] at h
      exact absurd h (List.cons_ne_nil _ _)
  | rule s body rest _ _ =>
      rw [merge_rule] at h
      exact absurd h (List.cons_ne_nil _ _)

/-- Where a single rule `.rule t inner` is left after merging, `t` is a comma list, or the list was
a single rule before. -/
theorem eq_singleton_or_comma_of_merge {body inner : Body} {t : Text}
    (h : merge body = [.rule t inner]) : (∃ s b, body = [.rule s b]) ∨ ',' ∈ t := by
  induction body using merge_induction with
  | nil => simp at h
  | plain node rest hplain _ =>
      rw [merge_plain hplain, List.cons.injEq] at h
      rw [h.1] at hplain
      simp at hplain
  | rule s b rest _ _ =>
      rw [merge_rule, List.cons.injEq, Node.rule.injEq] at h
      obtain ⟨⟨rfl, -⟩, hleft⟩ := h
      -- Nothing is left behind the rule, so every node there has been taken.
      have hlength := length_takeEqual (merge b) rest
      rw [eq_nil_of_merge_eq_nil hleft] at hlength
      cases htaken : (takeEqual (merge b) rest).1 with
      | nil =>
          rw [htaken] at hlength
          have hrest : rest = [] := List.length_eq_zero_iff.1 hlength.symm
          exact Or.inl ⟨s, b, by rw [hrest]⟩
      | cons u selectors =>
          right
          simp [ofPieces]

end Body

end SassNesting
