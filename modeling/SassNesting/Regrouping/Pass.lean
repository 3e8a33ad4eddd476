import SassNesting.Regrouping.Chains
import SassNesting.Regrouping.Merging
import SassNesting.Regrouping.Nesting
import SassNesting.Regrouping.Pieces

/-! # The passes of regrouping

Regrouping a flat stylesheet takes four passes in a fixed order: comma lists are split, rules are
nested, chains are collapsed, and rules with equal bodies are merged. -/

namespace SassNesting

/-- A pass over a stylesheet. -/
inductive Pass where
  /-- Comma lists become one rule per piece. -/
  | split
  /-- Rules are nested by their first token. -/
  | nest
  /-- Chains of rules become one rule. -/
  | collapse
  /-- Runs of rules with equal bodies become one rule. -/
  | merge
deriving DecidableEq

namespace Pass

/-- What a pass does to a stylesheet. -/
def run : Pass → Body → Body
  | split => Body.split
  | nest => Body.nest
  | collapse => Body.collapse
  | merge => Body.merge

/-- The name of a pass in reports. -/
def label : Pass → Text
  | split => "expand-commas".toList
  | nest => "nest-rules".toList
  | collapse => "flatten-rules".toList
  | merge => "fold-commas".toList

end Pass

namespace Body

/-- The stylesheet after each of the four passes, in the order in which they run. -/
def stages (raw : Body) : List (Pass × Body) :=
  let pieces := split raw
  let nested := nest pieces
  let collapsed := collapse nested
  [(.split, pieces), (.nest, nested), (.collapse, collapsed), (.merge, merge collapsed)]

/-- The stylesheet after all four passes. -/
def regroup (raw : Body) : Body := merge (collapse (nest (split raw)))

end Body

end SassNesting
