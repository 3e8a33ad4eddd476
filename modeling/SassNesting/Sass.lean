import SassNesting.Node.Basic
import SassNesting.Options

/-! # Indented Sass

In the indented form of Sass every node stands on a line of its own, and the indentation of the line
tells which rule it is in. A selector stands as it is, a declaration is a colon, its name, a space
and its value, and a line kept as it is written starts at the margin wherever it is. -/

namespace SassNesting

/-- The spaces in front of a node `depth` levels down. -/
def Options.indent (o : Options) (depth : Nat) : Text :=
  List.replicate (depth * min o.indentWidth maxIndentWidth) ' '

mutual

/-- The lines of a node `depth` levels down, and of what is inside it. -/
def Node.sassLines (o : Options) (depth : Nat) : Node → List Text
  | .verbatim text => [text]
  | .declaration name value => [o.indent depth ++ ':' :: name ++ ' ' :: value]
  | .rule selector body => (o.indent depth ++ selector) :: Body.sassLines o (depth + 1) body

/-- The lines of the nodes of a body `depth` levels down. -/
def Body.sassLines (o : Options) (depth : Nat) : List Node → List Text
  | [] => []
  | node :: rest => Node.sassLines o depth node ++ Body.sassLines o depth rest

end

@[simp] theorem Node.sassLines_verbatim (o : Options) (depth : Nat) (text : Text) :
    (Node.verbatim text).sassLines o depth = [text] := rfl

@[simp] theorem Node.sassLines_declaration (o : Options) (depth : Nat) (name value : Text) :
    (Node.declaration name value).sassLines o depth =
      [o.indent depth ++ ':' :: name ++ ' ' :: value] := rfl

@[simp] theorem Node.sassLines_rule (o : Options) (depth : Nat) (selector : Text) (body : Body) :
    (Node.rule selector body).sassLines o depth =
      (o.indent depth ++ selector) :: Body.sassLines o (depth + 1) body := rfl

@[simp] theorem Body.sassLines_nil (o : Options) (depth : Nat) :
    Body.sassLines o depth [] = [] := rfl

@[simp] theorem Body.sassLines_cons (o : Options) (depth : Nat) (node : Node) (rest : Body) :
    Body.sassLines o depth (node :: rest) = node.sassLines o depth ++ Body.sassLines o depth rest :=
  rfl

/-- The lines of a node at the top, and the empty line after it if the options ask for one. -/
def Node.sassParagraph (o : Options) (node : Node) : List Text :=
  node.sassLines o 0 ++ if o.spaced then [[]] else []

/-- The stylesheet as indented Sass. -/
def Body.sass (o : Options) (body : Body) : Text :=
  Text.unlines (body.flatMap (Node.sassParagraph o))

end SassNesting
