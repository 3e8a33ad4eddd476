import SassNesting.Node.Basic
import SassNesting.Selector

/-! # Comma lists, one rule per piece

A rule whose selector is a comma list says the same as one rule per piece of the list, each with the
same body. `Body.split` writes the rules of a list out in this way, so that a later pass can group
each piece by itself. Bodies of rules are left as they are. -/

namespace SassNesting

/-- The rules that a comma list stands for, one per piece; any other node is left as it is. -/
def Node.split : Node → Body
  | .rule selector body =>
    if ',' ∈ selector then (Selector.pieces selector).map fun piece => .rule piece body
    else [.rule selector body]
  | node => [node]

/-- Writes every rule whose selector is a comma list as one rule per piece. -/
def Body.split (body : Body) : Body := body.flatMap Node.split

namespace Body

@[simp] theorem split_nil : split [] = [] := rfl

@[simp] theorem split_cons (node : Node) (rest : Body) :
    split (node :: rest) = node.split ++ split rest := rfl

@[simp] theorem split_append (b c : Body) : split (b ++ c) = split b ++ split c := by
  simp [split]

end Body

end SassNesting
