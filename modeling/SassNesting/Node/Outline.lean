import SassNesting.Node.Basic
import SassNesting.Text.Quoted

/-! # Outlines

The outline of a tree names the kind of every node on a line of its own, with the texts of the node
in quotes, and shows by two spaces per level what lies inside what. -/

namespace SassNesting

/-- What an outline puts in front of a node `depth` levels down. -/
def outlineIndent (depth : Nat) : Text := List.replicate (2 * depth) ' '

mutual

/-- The lines that outline a node `depth` levels down, and what is inside it. -/
def Node.outlineLines (depth : Nat) : Node → List Text
  | .verbatim text => [outlineIndent depth ++ "value ".toList ++ text.quote]
  | .declaration name value =>
    [outlineIndent depth ++ "attr ".toList ++ name.quote ++ " = ".toList ++ value.quote]
  | .rule selector body =>
    (outlineIndent depth ++ "rule ".toList ++ selector.quote) :: Body.outlineLines (depth + 1) body

/-- The lines that outline the nodes of a body `depth` levels down. -/
def Body.outlineLines (depth : Nat) : List Node → List Text
  | [] => []
  | node :: rest => Node.outlineLines depth node ++ Body.outlineLines depth rest

end

@[simp] theorem Body.outlineLines_nil (depth : Nat) : Body.outlineLines depth [] = [] := rfl

@[simp] theorem Body.outlineLines_cons (depth : Nat) (node : Node) (rest : Body) :
    Body.outlineLines depth (node :: rest) =
      node.outlineLines depth ++ Body.outlineLines depth rest := rfl

@[simp] theorem Node.outlineLines_rule (depth : Nat) (selector : Text) (body : Body) :
    (Node.rule selector body).outlineLines depth =
      (outlineIndent depth ++ "rule ".toList ++ selector.quote) ::
        Body.outlineLines (depth + 1) body := rfl

/-- The outline of a single node. -/
def Node.outline (node : Node) : Text := Text.unlines (node.outlineLines 0)

/-- The outline of a whole stylesheet, under a line for its root. -/
def Body.outline (body : Body) : Text := Text.unlines ("root".toList :: Body.outlineLines 1 body)

end SassNesting
