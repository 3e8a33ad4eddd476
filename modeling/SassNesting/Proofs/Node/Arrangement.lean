import Mathlib.Data.List.Nodup
import SassNesting.Proofs.Node.Lists
import SassNesting.Proofs.Selector.Pieces
import SassNesting.Regrouping.Nesting

/-! # How the nodes of a list are arranged

In a list that is well grouped the rules stand behind the other nodes, the pieces of their
selectors open with pairwise different tokens, and no rule could be joined with a single rule in its
body. Where the tokens differ in every list, a path of tokens is chosen by at most one rule and one
choice of pieces (`nodup_selections`). -/

namespace SassNesting

open Selector

/-! ## Rules behind the other nodes -/

namespace Body

/-- The nodes of `plain body` are not rules. -/
theorem isRule_of_mem_plain {body : Body} {node : Node} (h : node ∈ plain body) :
    node.isRule = false := by
  simpa using (List.mem_filter.1 h).2

theorem plain_append (b c : Body) : plain (b ++ c) = plain b ++ plain c :=
  List.filter_append b c

/-- Behind a rule of `body` there are only rules. -/
def RulesLast (body : Body) : Prop :=
  body.Pairwise fun node later => node.isRule = true → later.isRule = true

/-- Rules `c` behind nodes `b` that are not rules are last. -/
theorem rulesLast_append {b c : Body} (hb : ∀ node ∈ b, node.isRule = false)
    (hc : ∀ node ∈ c, node.isRule = true) : RulesLast (b ++ c) := by
  rw [RulesLast, List.pairwise_append]
  refine ⟨?_, ?_, fun _ _ later hlater _ => hc later hlater⟩
  · rw [List.pairwise_iff_forall_sublist]
    intro node later hsub hrule
    have hnode := hb node (hsub.subset List.mem_cons_self)
    rw [hrule] at hnode
    exact absurd hnode (by decide)
  · rw [List.pairwise_iff_forall_sublist]
    intro node later hsub _
    exact hc later (hsub.subset (by simp))

/-- Whether the rules are last depends only on `Node.isRule`, and taking nodes away keeps it. -/
theorem RulesLast.of_sublist {body c : Body} (h : RulesLast body)
    (hsub : (c.map Node.isRule).Sublist (body.map Node.isRule)) : RulesLast c := by
  have hkinds : (body.map Node.isRule).Pairwise fun kind later => kind = true → later = true :=
    List.pairwise_map.2 h
  exact List.pairwise_map.1 (hkinds.sublist hsub)

/-- A list whose rules are last is `plain body`, and then the rules. -/
theorem RulesLast.eq_append {body : Body} (h : RulesLast body) :
    body = plain body ++ body.filter Node.isRule := by
  induction body with
  | nil => rfl
  | cons node rest ih =>
      obtain ⟨hnode, hrest⟩ := List.pairwise_cons.1 h
      by_cases hrule : node.isRule = true
      · -- A list that starts with a rule has nothing but rules.
        have hall : ∀ later ∈ node :: rest, later.isRule = true :=
          List.forall_mem_cons.2 ⟨hrule, fun later hlater => hnode later hlater hrule⟩
        have hplain : plain (node :: rest) = [] :=
          List.filter_eq_nil_iff.2 fun later hlater => by simp [hall later hlater]
        rw [hplain, List.nil_append, List.filter_eq_self.2 hall]
      · have hplain : plain (node :: rest) = node :: plain rest :=
          List.filter_cons_of_pos (by simpa using hrule)
        rw [hplain, List.filter_cons_of_neg hrule, List.cons_append, ← ih hrest]

end Body

/-! ## The tokens that selectors open with -/

/-- The first token of each piece of a selector `s`. -/
def Selector.openings (s : Text) : List Text := (pieces s).map head

/-- The first token of each piece of the selector of a rule. -/
def Node.openings : Node → List Text
  | .rule selector _ => Selector.openings selector
  | _ => []

/-- The first token of each piece of a selector in a list, in order. -/
def Body.openings (body : Body) : List Text := body.flatMap Node.openings

/-- A node that is not a rule opens with no token: `node.openings = []`. -/
theorem Node.openings_of_not_rule {node : Node} (h : node.isRule = false) : node.openings = [] :=
  Node.plain_cases (fun _ => rfl) (fun _ _ => rfl) h

@[simp] theorem Body.openings_nil : Body.openings [] = [] := rfl

@[simp] theorem Body.openings_cons (node : Node) (rest : Body) :
    Body.openings (node :: rest) = node.openings ++ Body.openings rest := rfl

/-- A selector of one piece opens with its own first token: `openings s = [head s]`. -/
theorem Selector.openings_of_isSingle {s : Text} (h : IsSingle s) :
    Selector.openings s = [head s] := by
  have hwords : Text.words (Text.trim s) = head s :: Text.words (tail s) := by
    rw [Text.words_trim, (words_eq_head_cons h.has_token).1]
  rw [Selector.openings, pieces_of_not_mem h.no_comma h.has_token, List.map_singleton,
    (head_and_tail_of_words hwords).1]

/-- A comma list `ofPieces selectors` opens as the `selectors` do. -/
theorem Selector.openings_ofPieces (selectors : List Text) :
    Selector.openings (ofPieces selectors) = selectors.flatMap Selector.openings := by
  rw [Selector.openings, pieces_ofPieces, List.map_flatMap]
  rfl

/-! ## Well-grouped lists -/

namespace Body

/-- A list of nodes in which nothing is left to group. -/
structure WellGrouped (body : Body) : Prop where
  /-- The rules stand behind the other nodes. -/
  rules_last : RulesLast body
  /-- The selector of each rule has a piece. -/
  has_piece : ∀ s inner, .rule s inner ∈ body → pieces s ≠ []
  /-- There is a token between any two commas of a selector, before them and behind them. -/
  filled : ∀ s inner, .rule s inner ∈ body → IsFilled s
  /-- The pieces of all the selectors open with pairwise different tokens. -/
  distinct : (openings body).Nodup
  /-- A rule that is alone in the body of a rule has a comma in its selector. -/
  no_chain : ∀ s t inner, .rule s [.rule t inner] ∈ body → ',' ∈ t

end Body

/-! ## Paths chosen by rules -/

mutual

/-- The paths of tokens that a rule and the rules inside it stand for under a `context`, once for
each choice of pieces. -/
def Node.selections (context : TokenPath) : Node → List TokenPath
  | .verbatim _ => []
  | .declaration _ _ => []
  | .rule selector body =>
    (paths selector).flatMap fun path =>
      (context ++ path) :: Body.selections (context ++ path) body

/-- The paths of tokens that the rules of a list stand for under a `context`. -/
def Body.selections (context : TokenPath) : List Node → List TokenPath
  | [] => []
  | node :: rest => Node.selections context node ++ Body.selections context rest

end

/-- A node that is not a rule stands for no path: `node.selections context = []`. -/
theorem Node.selections_plain {node : Node} (h : node.isRule = false) (context : TokenPath) :
    node.selections context = [] :=
  Node.plain_cases (fun _ => rfl) (fun _ _ => rfl) h

namespace Body

/-- The paths of a list are those of its nodes, by `Node.selections`. -/
theorem selections_eq_flatMap (context : TokenPath) (body : Body) :
    selections context body = body.flatMap (Node.selections context) := by
  induction body with
  | nil => rfl
  | cons node rest ih => rw [selections, ih, List.flatMap_cons]

/-- The path of a rule in a list prolongs the context: `context <+: path`. -/
theorem prefix_of_mem_selections {context path : TokenPath} {body : Body}
    (h : path ∈ selections context body) : context <+: path := by
  induction body using plain_induction generalizing context with
  | nil => exact absurd h List.not_mem_nil
  | plain node rest hplain ih =>
      rw [selections, Node.selections_plain hplain] at h
      exact ih h
  | rule selector body rest ihbody ih =>
      rcases List.mem_append.1 h with h | h
      · obtain ⟨p, -, hp⟩ := List.mem_flatMap.1 h
        have hstart : context <+: context ++ p := List.prefix_append context p
        rcases List.mem_cons.1 hp with rfl | hp
        · exact hstart
        · exact hstart.trans (ihbody hp)
      · exact ih h

end Body

/-- The paths of a `piece` of a rule, and of the rules in its body, go on after the context with the
first token of the piece. -/
theorem Body.prefix_of_mem_choice {context path : TokenPath} {piece : Text} {body : Body}
    (hpiece : IsSingle piece)
    (h : path ∈ (context ++ Text.words piece) :: selections (context ++ Text.words piece) body) :
    context ++ [head piece] <+: path := by
  have hstart : context ++ [head piece] <+: context ++ Text.words piece := by
    rw [(words_eq_head_cons hpiece.has_token).1, List.prefix_append_right_inj]
    exact List.prefix_append [head piece] _
  rcases List.mem_cons.1 h with rfl | h
  · exact hstart
  · have hbelow : context ++ Text.words piece <+: path := prefix_of_mem_selections h
    exact hstart.trans hbelow

/-- The paths of a rule go on after the context with one of `node.openings`. -/
theorem Node.exists_opening_of_mem_selections {context path : TokenPath} {node : Node}
    (h : path ∈ node.selections context) :
    ∃ token ∈ node.openings, context ++ [token] <+: path := by
  rcases node.plain_or_rule with hplain | ⟨s, body, rfl⟩
  · rw [Node.selections_plain hplain] at h
    exact absurd h List.not_mem_nil
  · obtain ⟨p, hp, hpath⟩ := List.mem_flatMap.1 h
    obtain ⟨piece, hpiece, rfl⟩ := List.mem_map.1 hp
    have hprefix := Body.prefix_of_mem_choice (isSingle_of_mem_pieces hpiece) hpath
    exact ⟨head piece, List.mem_map_of_mem hpiece, hprefix⟩

/-- A path goes on after a context with one token at most: `token = other`. -/
theorem opening_unique {context path : TokenPath} {token other : Text}
    (h : context ++ [token] <+: path) (hother : context ++ [other] <+: path) : token = other := by
  have hprefix : context ++ [token] <+: context ++ [other] :=
    List.prefix_of_prefix_length_le h hother (by simp)
  have heq : context ++ [token] = context ++ [other] := hprefix.eq_of_length (by simp)
  simpa using heq

/-- The paths of a rule are pairwise different, if those of its body are and its pieces open with
different tokens. -/
theorem Node.nodup_selections_rule {s : Text} {inner : Body} (hs : (Selector.openings s).Nodup)
    (hinner : ∀ context, (Body.selections context inner).Nodup) (context : TokenPath) :
    ((Node.rule s inner).selections context).Nodup := by
  rw [Node.selections, List.nodup_flatMap]
  constructor
  · -- For one piece: the path of the piece is shorter than all paths of the rules in the body.
    intro p hp
    rw [List.nodup_cons]
    refine ⟨?_, hinner (context ++ p)⟩
    intro hmem
    rw [Body.selections_eq_flatMap] at hmem
    obtain ⟨node, -, hnode⟩ := List.mem_flatMap.1 hmem
    obtain ⟨token, -, hprefix⟩ := Node.exists_opening_of_mem_selections hnode
    have hlength := hprefix.length_le
    rw [List.length_append, List.length_singleton] at hlength
    omega
  · -- For two pieces: a common path would go on after the context with the first token of each.
    rw [paths, List.pairwise_map]
    have hheads : (pieces s).Pairwise fun piece other => head piece ≠ head other :=
      List.pairwise_map.1 hs
    refine hheads.imp_of_mem ?_
    intro piece other hpiece hother hne path hpath hpath'
    have hprefix := Body.prefix_of_mem_choice (isSingle_of_mem_pieces hpiece) hpath
    have hprefix' := Body.prefix_of_mem_choice (isSingle_of_mem_pieces hother) hpath'
    exact hne (opening_unique hprefix hprefix')

/-- Where the selectors of every list open with different tokens, no path is chosen twice: the
`selections` are pairwise different. -/
theorem Body.nodup_selections {body : Body} (h : Everywhere (fun b => (openings b).Nodup) body)
    (context : TokenPath) : (selections context body).Nodup := by
  induction body using rule_induction generalizing context with
  | step body ih =>
      obtain ⟨hopenings, hinner⟩ := everywhere_iff.1 h
      obtain ⟨hnodes, hdisjoint⟩ := List.nodup_flatMap.1 hopenings
      rw [selections_eq_flatMap, List.nodup_flatMap]
      constructor
      · intro node hnode
        rcases node.plain_or_rule with hplain | ⟨s, inner, rfl⟩
        · rw [Node.selections_plain hplain]
          exact List.nodup_nil
        · have hbody := ih s inner hnode (hinner s inner hnode)
          exact Node.nodup_selections_rule (hnodes _ hnode) hbody context
      · refine hdisjoint.imp ?_
        intro node other hne path hnode hother
        obtain ⟨token, htoken, hprefix⟩ := Node.exists_opening_of_mem_selections hnode
        obtain ⟨token', htoken', hprefix'⟩ := Node.exists_opening_of_mem_selections hother
        rw [opening_unique hprefix' hprefix] at htoken'
        exact hne htoken htoken'

end SassNesting
