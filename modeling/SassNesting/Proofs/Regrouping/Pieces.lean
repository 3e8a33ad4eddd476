import SassNesting.Proofs.Node.Arrangement
import SassNesting.Proofs.Node.Leaves
import SassNesting.Proofs.Node.Lists
import SassNesting.Regrouping.Pieces

/-! # What writing out comma lists keeps

A comma list and the rules for its pieces have the same leaves, in the same order, since the paths
of a comma list are those of its pieces. After the pass every rule at the top has a selector of one
piece, and the other nodes stand where they stood. -/

namespace SassNesting

open Selector

/-- Rules for `pieces` with a common body have its leaves, along the tokens of one piece after the
other. -/
theorem Body.leaves_map_rule {pieces : List Text} (h : ∀ piece ∈ pieces, IsSingle piece)
    (context : TokenPath) (body : Body) :
    leaves paths context (pieces.map fun piece => .rule piece body) =
      (pieces.map Text.words).flatMap fun path => leaves paths (context ++ path) body := by
  induction pieces with
  | nil => rfl
  | cons piece pieces ih =>
      rw [List.forall_mem_cons] at h
      rw [List.map_cons, leaves_cons, ih h.2, Node.leaves, paths_of_isSingle h.1, wholePath,
        List.flatMap_singleton, List.map_cons, List.flatMap_cons]

/-- A rule that is written out by `Node.split` has the leaves it had. -/
theorem Node.leaves_split (context : TokenPath) (node : Node) :
    Body.leaves paths context node.split = node.leaves paths context := by
  cases node with
  | verbatim text => rfl
  | declaration name value => rfl
  | rule selector body =>
      rw [Node.split]
      by_cases hcomma : ',' ∈ selector
      · rw [if_pos hcomma]
        exact Body.leaves_map_rule (fun piece => isSingle_of_mem_pieces) context body
      · rw [if_neg hcomma, Body.leaves_cons, Body.leaves_nil, List.append_nil]

/-- A node that is not a rule is left as it is: `node.split = [node]`. -/
theorem Node.split_plain {node : Node} (h : node.isRule = false) : node.split = [node] :=
  Node.plain_cases (fun _ => rfl) (fun _ _ => rfl) h

/-- Rules are written out as rules, and other nodes as themselves: `Node.isRule` is kept. -/
theorem Node.isRule_of_mem_split {node piece : Node} (h : piece ∈ node.split) :
    piece.isRule = node.isRule := by
  cases node with
  | verbatim text => rw [List.mem_singleton.1 h]
  | declaration name value => rw [List.mem_singleton.1 h]
  | rule selector body =>
      rw [Node.split] at h
      by_cases hcomma : ',' ∈ selector
      · rw [if_pos hcomma] at h
        obtain ⟨s, -, rfl⟩ := List.mem_map.1 h
        rfl
      · rw [if_neg hcomma] at h
        rw [List.mem_singleton.1 h]

namespace Body

/-- Writing out comma lists keeps the `leaves`, in order. -/
theorem leaves_split (context : TokenPath) (body : Body) :
    leaves paths context (split body) = leaves paths context body := by
  induction body with
  | nil => rfl
  | cons node rest ih => rw [split_cons, leaves_append, Node.leaves_split, ih, leaves_cons]

/-- Writing out comma lists keeps the leaves of each `path`. -/
theorem leavesAt_split (context path : TokenPath) (body : Body) :
    leavesAt paths context path (split body) = leavesAt paths context path body := by
  rw [leavesAt, leaves_split, leavesAt]

/-- Each rule in `split body` comes from a rule with the same body, and has its selector or one of
its pieces. -/
theorem exists_mem_of_mem_split {body inner : Body} {piece : Text}
    (h : .rule piece inner ∈ split body) :
    ∃ selector, .rule selector inner ∈ body ∧
      (piece = selector ∧ ',' ∉ selector ∨ piece ∈ pieces selector) := by
  obtain ⟨node, hnode, hpiece⟩ := List.mem_flatMap.1 h
  cases node with
  | verbatim text => simp [Node.split] at hpiece
  | declaration name value => simp [Node.split] at hpiece
  | rule selector body =>
      rw [Node.split] at hpiece
      by_cases hcomma : ',' ∈ selector
      · rw [if_pos hcomma] at hpiece
        obtain ⟨p, hp, heq⟩ := List.mem_map.1 hpiece
        cases heq
        exact ⟨selector, hnode, Or.inr hp⟩
      · rw [if_neg hcomma] at hpiece
        cases List.mem_singleton.1 hpiece
        exact ⟨piece, hnode, Or.inl ⟨rfl, hcomma⟩⟩

/-- Writing out comma lists keeps the nodes that are not rules: `plain (split body) = plain body`.
-/
theorem plain_split (body : Body) : plain (split body) = plain body := by
  induction body using plain_induction with
  | nil => rfl
  | plain node rest hplain ih =>
      rw [split_cons, Node.split_plain hplain, plain_append, ih, ← plain_append,
        List.singleton_append]
  | rule selector inner rest _ ih =>
      have hnone : plain (Node.rule selector inner).split = [] := by
        rw [plain, List.filter_eq_nil_iff]
        intro piece hpiece
        simp [Node.isRule_of_mem_split hpiece]
      have hrule : plain [Node.rule selector inner] = [] := rfl
      rw [split_cons, plain_append, hnone, ih, ← hrule, ← plain_append, List.singleton_append]

/-- Rules that stand last do so in `split body`. -/
theorem rulesLast_split {body : Body} (h : RulesLast body) : RulesLast (split body) := by
  rw [h.eq_append, split_append]
  apply rulesLast_append
  · intro piece hpiece
    obtain ⟨node, hnode, hmem⟩ := List.mem_flatMap.1 hpiece
    rw [Node.isRule_of_mem_split hmem]
    exact isRule_of_mem_plain hnode
  · intro piece hpiece
    obtain ⟨node, hnode, hmem⟩ := List.mem_flatMap.1 hpiece
    rw [Node.isRule_of_mem_split hmem]
    exact (List.mem_filter.1 hnode).2

/-- In `split body` every selector has one piece, if those at the top have tokens and those below
have one piece each. -/
theorem everySelector_split {body : Body}
    (h : ∀ s inner, .rule s inner ∈ body → Text.words s ≠ [] ∧ EverySelector IsSingle inner) :
    EverySelector IsSingle (split body) := by
  rw [everySelector_iff]
  intro piece inner hpiece
  obtain ⟨selector, hrule, hselector⟩ := exists_mem_of_mem_split hpiece
  refine ⟨?_, (h selector inner hrule).2⟩
  rcases hselector with ⟨rfl, hcomma⟩ | hmem
  · exact ⟨hcomma, (h piece inner hrule).1⟩
  · exact isSingle_of_mem_pieces hmem

end Body

end SassNesting
