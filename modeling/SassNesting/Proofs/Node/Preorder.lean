import SassNesting.Proofs.Node.Lists
import SassNesting.Proofs.Text.Lines

/-! # Nodes in the order in which they are written

A stylesheet that is written line by line has its nodes in preorder: a node, then what is inside it,
then the nodes after it. The preorder with the depth of each node says everything about a tree, and
a sequence of lines says so too, if each of them shows the depth of its node and, together with what
is inside the node, the node itself (`IsReadable.preorder_inj`). -/

namespace SassNesting

/-! ## Nodes and what is inside them -/

/-- The nodes inside a rule; inside any other node there are none. -/
def Node.inner : Node → Body
  | .rule _ body => body
  | _ => []

@[simp] theorem Node.inner_verbatim (text : Text) : (Node.verbatim text).inner = [] := rfl

@[simp] theorem Node.inner_declaration (name value : Text) :
    (Node.declaration name value).inner = [] := rfl

@[simp] theorem Node.inner_rule (selector : Text) (body : Body) :
    (Node.rule selector body).inner = body := rfl

mutual

/-- A node `depth` levels down and the nodes inside it, in the order in which they are written, each
with its depth. -/
def Node.preorder (depth : Nat) : Node → List (Nat × Node)
  | .verbatim text => [(depth, .verbatim text)]
  | .declaration name value => [(depth, .declaration name value)]
  | .rule selector body => (depth, .rule selector body) :: Body.preorder (depth + 1) body

/-- The nodes of a body `depth` levels down and those inside them, in the order in which they are
written, each with its depth. -/
def Body.preorder (depth : Nat) : List Node → List (Nat × Node)
  | [] => []
  | node :: rest => Node.preorder depth node ++ Body.preorder depth rest

end

namespace Body

/-- Induction on a body in preorder: `motive` holds of a body if it holds of what is inside its
first node and of the nodes after it. -/
@[elab_as_elim]
theorem inner_induction {motive : Body → Prop} (nil : motive [])
    (cons : ∀ node rest, motive node.inner → motive rest → motive (node :: rest)) (body : Body) :
    motive body := by
  induction body using Body.induction with
  | nil => exact nil
  | verbatim text rest ih => exact cons _ rest nil ih
  | declaration name value rest ih => exact cons _ rest nil ih
  | rule s body rest ihbody ih => exact cons _ rest ihbody ih

@[simp] theorem preorder_nil (depth : Nat) : preorder depth [] = [] := rfl

/-- In preorder the first node comes first, then `node.inner`, one level down, and then the nodes
after it. -/
theorem preorder_cons (depth : Nat) (node : Node) (rest : Body) :
    preorder depth (node :: rest) =
      (depth, node) :: (preorder (depth + 1) node.inner ++ preorder depth rest) := by
  cases node with
  | verbatim text => rfl
  | declaration name value => rfl
  | rule s body => rfl

/-- Each node is in the preorder once: `(preorder depth body).length = count body`. -/
theorem length_preorder (depth : Nat) (body : Body) :
    (preorder depth body).length = count body := by
  induction body using inner_induction generalizing depth with
  | nil => rfl
  | cons node rest ihinner ih =>
      rw [preorder_cons, List.length_cons, List.length_append, ihinner, ih, count_cons]
      cases node with
      | verbatim text => simp [Nat.add_comm]
      | declaration name value => simp [Nat.add_comm]
      | rule s body => simp [Nat.add_comm, Nat.add_left_comm]

/-- A node in preorder is in the body, at `depth`, or further down in one of `innerLists body`. -/
theorem mem_of_mem_preorder {row : Nat × Node} {depth : Nat} {body : Body}
    (h : row ∈ preorder depth body) :
    (row.1 = depth ∧ row.2 ∈ body) ∨ (depth < row.1 ∧ ∃ b ∈ innerLists body, row.2 ∈ b) := by
  induction body using inner_induction generalizing depth with
  | nil => exact absurd h List.not_mem_nil
  | cons node rest ihinner ih =>
      rw [preorder_cons, List.mem_cons, List.mem_append] at h
      rcases h with rfl | h | h
      · exact Or.inl ⟨rfl, List.mem_cons_self⟩
      · -- What is inside the first node is at least one level down, in one of its lists.
        obtain ⟨b, hb, hmem, hdepth⟩ : ∃ b ∈ lists node.inner, row.2 ∈ b ∧ depth < row.1 := by
          rcases ihinner h with ⟨hdepth, hmem⟩ | ⟨hdepth, b, hb, hmem⟩
          · exact ⟨node.inner, List.mem_cons_self, hmem, by omega⟩
          · exact ⟨b, List.mem_cons_of_mem _ hb, hmem, by omega⟩
        refine Or.inr ⟨hdepth, b, ?_, hmem⟩
        cases node with
        | rule s inner => exact mem_innerLists.2 ⟨s, inner, List.mem_cons_self, hb⟩
        | verbatim text | declaration name value =>
            rw [List.mem_singleton.1 hb] at hmem
            exact absurd hmem List.not_mem_nil
      · rcases ih h with ⟨hdepth, hmem⟩ | ⟨hdepth, b, hb, hmem⟩
        · exact Or.inl ⟨hdepth, List.mem_cons_of_mem node hmem⟩
        · exact Or.inr ⟨hdepth, b, List.mem_append_right _ hb, hmem⟩

/-- Lines that are written for the first node, then for `node.inner`, then for the nodes after it,
are those of the nodes in preorder: `lines depth body = (preorder depth body).map line`. -/
theorem eq_map_preorder {α : Type} {line : Nat × Node → α} {lines : Nat → Body → List α}
    (hnil : ∀ depth, lines depth [] = [])
    (hcons : ∀ depth node rest, lines depth (node :: rest) =
      line (depth, node) :: (lines (depth + 1) node.inner ++ lines depth rest))
    (depth : Nat) (body : Body) : lines depth body = (preorder depth body).map line := by
  induction body using inner_induction generalizing depth with
  | nil => exact hnil depth
  | cons node rest ihinner ih =>
      rw [hcons, ihinner, ih, preorder_cons, List.map_cons, List.map_append]

/-- A node in preorder is in one of the `lists`. -/
theorem exists_mem_lists_of_mem_preorder {row : Nat × Node} {depth : Nat} {body : Body}
    (h : row ∈ preorder depth body) : ∃ b ∈ lists body, row.2 ∈ b := by
  rcases mem_of_mem_preorder h with ⟨-, hmem⟩ | ⟨-, b, hb, hmem⟩
  · exact ⟨body, List.mem_cons_self, hmem⟩
  · exact ⟨b, List.mem_cons_of_mem body hb, hmem⟩

/-- Behind the nodes of a level and what is inside them, the preorder goes on no deeper: with a
depth below `depth + 1`. -/
theorem depth_of_head?_preorder_append {row : Nat × Node} {depth : Nat} {body : Body}
    {more : List (Nat × Node)} (hmore : ∀ row ∈ more.head?, row.1 < depth)
    (h : row ∈ (preorder depth body ++ more).head?) : row.1 < depth + 1 := by
  cases body with
  | nil => exact Nat.lt_succ_of_lt (hmore row h)
  | cons node rest =>
      rw [preorder_cons, List.cons_append, List.head?_cons, Option.mem_some_iff] at h
      rw [← h]
      exact Nat.lt_succ_self depth

end Body

/-! ## Reading a tree back from its lines -/

/-- The lines of nodes with `P` can be read: each shows the depth of its node, and, together with
what is inside the node, the node. -/
structure IsReadable {α : Type} (P : Nat × Node → Prop) (line : Nat × Node → α) : Prop where
  /-- Nodes with equal lines are at the same depth. -/
  depth_eq : ∀ row other, P row → P other → line row = line other → row.1 = other.1
  /-- Nodes with equal lines and the same inside them are equal. -/
  node_eq : ∀ row other, P row → P other → line row = line other →
    row.2.inner = other.2.inner → row.2 = other.2

/-- Lines can be read if they show the depth of their node by spaces, `width` for each level, and
behind them a `label` that, together with the depth of the node and what is inside it, tells the
node. -/
theorem IsReadable.of_indented {P : Nat × Node → Prop} {line : Nat × Node → Text}
    (label : Node → Text) {width : Nat} (hwidth : 0 < width)
    (hline : ∀ row, P row → line row = List.replicate (row.1 * width) ' ' ++ label row.2)
    (hlabel : ∀ row, P row → (label row.2).head? ≠ some ' ')
    (hnode : ∀ row other, P row → P other → row.1 = other.1 → label row.2 = label other.2 →
      row.2.inner = other.2.inner → row.2 = other.2) : IsReadable P line := by
  have hparts : ∀ row other, P row → P other → line row = line other →
      row.1 = other.1 ∧ label row.2 = label other.2 := by
    intro row other hrow hother h
    rw [hline row hrow, hline other hother] at h
    obtain ⟨hspaces, hrest⟩ := Text.replicate_append_inj (hlabel row hrow) (hlabel other hother) h
    exact ⟨Nat.eq_of_mul_eq_mul_right hwidth hspaces, hrest⟩
  constructor
  · intro row other hrow hother h
    exact (hparts row other hrow hother h).1
  · intro row other hrow hother h
    obtain ⟨hdepth, hrest⟩ := hparts row other hrow hother h
    exact hnode row other hrow hother hdepth hrest

namespace IsReadable

variable {α : Type} {P : Nat × Node → Prop} {line : Nat × Node → α} (hline : IsReadable P line)

include hline

/-- The lines of what follows a level, `more`, do not start with that of a node of the level. -/
theorem map_ne_cons {row : Nat × Node} {more : List (Nat × Node)} {lines : List α} (hrow : P row)
    (hmore : ∀ other ∈ more, P other) (hdepth : ∀ other ∈ more.head?, other.1 < row.1) :
    more.map line ≠ line row :: lines := by
  intro h
  cases more with
  | nil => cases h
  | cons other more =>
      have hother : P other := hmore other List.mem_cons_self
      have hlt : other.1 < row.1 := hdepth other rfl
      have heq := hline.depth_eq other row hother hrow (List.cons.inj h).1
      omega

/-- The lines of a level and of what follows it, no deeper, tell where the level ends and what is in
it: `b = c`, with the same lines behind. -/
theorem preorder_append_inj {depth : Nat} {b c : Body} {more others : List (Nat × Node)}
    (hb : ∀ row ∈ Body.preorder depth b ++ more, P row)
    (hc : ∀ row ∈ Body.preorder depth c ++ others, P row)
    (hmore : ∀ row ∈ more.head?, row.1 < depth) (hothers : ∀ row ∈ others.head?, row.1 < depth)
    (h : (Body.preorder depth b ++ more).map line = (Body.preorder depth c ++ others).map line) :
    b = c ∧ more.map line = others.map line := by
  -- The induction is on the first body, for all that may follow it: behind what is inside its first
  -- node the other nodes of the level follow.
  induction b using Body.inner_induction generalizing depth c more others with
  | nil =>
      cases c with
      | nil => exact ⟨rfl, h⟩
      | cons node rest =>
          rw [Body.preorder_cons, List.cons_append, List.forall_mem_cons] at hc
          rw [Body.preorder_cons, List.cons_append, List.map_cons] at h
          exact absurd h (hline.map_ne_cons hc.1 hb hmore)
  | cons node rest ihinner ih =>
      rw [Body.preorder_cons, List.cons_append, List.append_assoc, List.forall_mem_cons] at hb
      rw [Body.preorder_cons, List.cons_append, List.append_assoc, List.map_cons] at h
      cases c with
      | nil => exact absurd h.symm (hline.map_ne_cons hb.1 hc hothers)
      | cons other others' =>
          rw [Body.preorder_cons, List.cons_append, List.append_assoc, List.forall_mem_cons] at hc
          rw [Body.preorder_cons, List.cons_append, List.append_assoc, List.map_cons] at h
          obtain ⟨hfirst, hbehind⟩ := List.cons.inj h
          obtain ⟨hinner, hrest⟩ := ihinner hb.2 hc.2
            (fun _ => Body.depth_of_head?_preorder_append hmore)
            (fun _ => Body.depth_of_head?_preorder_append hothers) hbehind
          obtain ⟨rfl, hafter⟩ := ih (fun row hrow => hb.2 row (List.mem_append_right _ hrow))
            (fun row hrow => hc.2 row (List.mem_append_right _ hrow)) hmore hothers hrest
          have hnode : node = other := hline.node_eq _ _ hb.1 hc.1 hfirst hinner
          exact ⟨by rw [hnode], hafter⟩

/-- A tree is determined by the lines of its nodes in preorder, if they can be read: `b = c`. -/
theorem preorder_inj {depth : Nat} {b c : Body} (hb : ∀ row ∈ Body.preorder depth b, P row)
    (hc : ∀ row ∈ Body.preorder depth c, P row)
    (h : (Body.preorder depth b).map line = (Body.preorder depth c).map line) : b = c := by
  rw [← List.append_nil (Body.preorder depth b)] at hb h
  rw [← List.append_nil (Body.preorder depth c)] at hc h
  exact (hline.preorder_append_inj hb hc (by simp) (by simp) h).1

end IsReadable

end SassNesting
