import SassNesting.Node.Basic
import SassNesting.Text.Position

/-! # Documents

A document is what a flat stylesheet says, item by item: directives first, then blocks, each of them
a selector with its declarations. Reading a document always yields the items read so far and the way
the reading ended, so what was ignored and what was wrong are values beside the items. -/

namespace SassNesting

/-! ## Items -/

/-- A directive: a name after an at sign, and a value. -/
structure Directive where
  /-- The name, without the at sign. -/
  name : Text
  /-- The value; for an import, the bare path it names. -/
  value : Text
deriving DecidableEq

/-- A directive is kept as a line of its own. -/
def Directive.node (d : Directive) : Node :=
  .verbatim ('@' :: d.name ++ ' ' :: d.value ++ [';'])

/-- A property and the value declared for it. -/
structure Declaration where
  /-- The property. -/
  name : Text
  /-- Its value, without comments and without blanks at its end. -/
  value : Text
deriving DecidableEq

/-- A declaration as a node. -/
def Declaration.node (d : Declaration) : Node := .declaration d.name d.value

/-- A selector and the declarations in the braces after it. -/
structure Block where
  /-- The tokens before the brace, one blank between two of them. -/
  selector : Text
  /-- The declarations, in order. -/
  declarations : List Declaration
deriving DecidableEq

/-- A block as a rule. -/
def Block.node (b : Block) : Node := .rule b.selector (b.declarations.map Declaration.node)

/-! ## Faults -/

/-- What a reader needs at a place where a text has something else. -/
inductive Expectation where
  /-- The name of a directive, after an at sign. -/
  | directiveName
  /-- The semicolon that ends a directive. -/
  | directiveEnd
  /-- A brace after a selector that nests no deeper than the limit. -/
  | shorterSelector
  /-- The colon after the name of a declaration. -/
  | colon
  /-- The semicolon after a declaration, or the brace that ends its block. -/
  | declarationEnd
  /-- The brace that ends a block. -/
  | blockEnd
deriving DecidableEq

/-- The tokens a piece of a selector may have: each of them becomes one level of nesting. -/
def maxSelectorDepth : Nat := 256

/-- The wording of what is expected. -/
def Expectation.text : Expectation → Text
  | directiveName => "directive name".toList
  | directiveEnd => "\";\"".toList
  | shorterSelector =>
    ['"', '{', '"'] ++ " within ".toList ++ Text.ofNat maxSelectorDepth ++ " selector tokens".toList
  | colon => "\":\"".toList
  | declarationEnd => ['"', ';', '"'] ++ " or ".toList ++ ['"', '}', '"']
  | blockEnd => ['"', '}', '"']

/-- A fault: what is expected, and the text that stands where it should begin. -/
structure Fault where
  /-- What the reader needs. -/
  expected : Expectation
  /-- The text from the place of the fault on. -/
  rest : Text
deriving DecidableEq

/-! ## Readings -/

/-- The way a reading ends. -/
inductive Ending where
  /-- Every character belongs to an item or to a gap. -/
  | complete
  /-- The text ends after the tokens of a selector, with no block for them. -/
  | openSelector (tokens : List Text)
  /-- The rest of the text does not start with a selector. -/
  | trailing (rest : Text)
  /-- The rest of the text is at fault. -/
  | fault (fault : Fault)
deriving DecidableEq

/-- The items of a document and the way its reading ends. -/
structure Reading where
  /-- The directives, in order. -/
  directives : List Directive
  /-- The blocks after them, in order. -/
  blocks : List Block
  /-- What ended the reading. -/
  ending : Ending
deriving DecidableEq

/-- The stylesheet that the items of a reading make up. -/
def Reading.body (r : Reading) : Body :=
  r.directives.map Directive.node ++ r.blocks.map Block.node

end SassNesting
