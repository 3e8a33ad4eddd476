import SassNesting.Text.Basic

/-! # Nodes of a stylesheet

A stylesheet is a list of nodes, and so is the body of a rule: a node is a line kept as it is
written, a declaration, or a rule with a body of its own. Two rules declare the same when their
bodies are equal, so equality of nodes is structural and decidable. -/

namespace SassNesting

/-- A node of a stylesheet. -/
inductive Node where
  /-- A line kept as it is written, such as a directive. -/
  | verbatim (text : Text)
  /-- A property and the value declared for it. -/
  | declaration (name value : Text)
  /-- A selector and what holds for the elements it selects. -/
  | rule (selector : Text) (body : List Node)

/-- The nodes of a stylesheet, or those inside a rule, in order. -/
abbrev Body := List Node

/-! ## Induction -/

/-- Induction on a body: a node goes before a body for which the property holds, and if the node is
a rule, the property holds for the body of the rule as well. -/
@[elab_as_elim]
theorem Body.induction {motive : Body → Prop} (nil : motive [])
    (verbatim : ∀ text rest, motive rest → motive (.verbatim text :: rest))
    (declaration : ∀ name value rest, motive rest → motive (.declaration name value :: rest))
    (rule : ∀ selector body rest, motive body → motive rest →
      motive (.rule selector body :: rest)) :
    ∀ nodes, motive nodes
  | [] => nil
  | .verbatim text :: rest =>
    verbatim text rest (induction nil verbatim declaration rule rest)
  | .declaration name value :: rest =>
    declaration name value rest (induction nil verbatim declaration rule rest)
  | .rule selector body :: rest =>
    rule selector body rest (induction nil verbatim declaration rule body)
      (induction nil verbatim declaration rule rest)

/-! ## Equality -/

mutual

/-- Decides whether two nodes are equal. -/
def Node.decEq : (a b : Node) → Decidable (a = b)
  | .verbatim s, .verbatim t =>
    if h : s = t then .isTrue (by rw [h]) else .isFalse (by simp [h])
  | .declaration m v, .declaration n w =>
    if h : m = n ∧ v = w then .isTrue (by rw [h.1, h.2]) else .isFalse (by simpa using h)
  | .rule s b, .rule t c =>
    if h : s = t then
      match Body.decEq b c with
      | .isTrue hb => .isTrue (by rw [h, hb])
      | .isFalse hb => .isFalse (by simp [hb])
    else .isFalse (by simp [h])
  | .verbatim _, .declaration _ _ => .isFalse nofun
  | .verbatim _, .rule _ _ => .isFalse nofun
  | .declaration _ _, .verbatim _ => .isFalse nofun
  | .declaration _ _, .rule _ _ => .isFalse nofun
  | .rule _ _, .verbatim _ => .isFalse nofun
  | .rule _ _, .declaration _ _ => .isFalse nofun

/-- Decides whether two bodies are equal. -/
def Body.decEq : (b c : List Node) → Decidable (b = c)
  | [], [] => .isTrue rfl
  | [], _ :: _ => .isFalse nofun
  | _ :: _, [] => .isFalse nofun
  | a :: b, d :: c =>
    match Node.decEq a d with
    | .isTrue ha =>
      match Body.decEq b c with
      | .isTrue hb => .isTrue (by rw [ha, hb])
      | .isFalse hb => .isFalse (by simp [hb])
    | .isFalse ha => .isFalse (by simp [ha])

end

instance : DecidableEq Node := Node.decEq

/-! ## Rules and their number -/

namespace Node

/-- Whether the node is a rule. -/
def isRule : Node → Bool
  | rule _ _ => true
  | _ => false

/-- The selector of a rule. -/
def selector? : Node → Option Text
  | rule selector _ => some selector
  | _ => none

@[simp] theorem isRule_verbatim (text : Text) : (verbatim text).isRule = false := rfl

@[simp] theorem isRule_declaration (name value : Text) :
    (declaration name value).isRule = false := rfl

@[simp] theorem isRule_rule (selector : Text) (body : Body) :
    (rule selector body).isRule = true := rfl

end Node

mutual

/-- The number of nodes in a tree, the node itself included. -/
def Node.count : Node → Nat
  | .verbatim _ => 1
  | .declaration _ _ => 1
  | .rule _ body => 1 + Body.count body

/-- The number of nodes in a body, those inside its rules included. -/
def Body.count : List Node → Nat
  | [] => 0
  | node :: rest => Node.count node + Body.count rest

end

namespace Body

@[simp] theorem count_nil : count [] = 0 := rfl

@[simp] theorem count_cons (node : Node) (rest : Body) :
    count (node :: rest) = node.count + count rest := rfl

end Body

namespace Node

@[simp] theorem count_verbatim (text : Text) : (verbatim text).count = 1 := rfl

@[simp] theorem count_declaration (name value : Text) : (declaration name value).count = 1 := rfl

@[simp] theorem count_rule (selector : Text) (body : Body) :
    (rule selector body).count = 1 + Body.count body := rfl

/-- A tree has at least one node. -/
theorem count_pos (node : Node) : 0 < node.count := by
  cases node with
  | verbatim => exact Nat.one_pos
  | declaration => exact Nat.one_pos
  | rule selector body =>
    rw [count_rule]
    exact Nat.add_pos_left Nat.one_pos _

end Node

end SassNesting
