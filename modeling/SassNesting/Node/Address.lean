import SassNesting.Node.Basic

/-! # Addresses

An address leads from the nodes of a stylesheet to the body of one of its rules: it lists the
positions of the rules on the way down. The empty address is the stylesheet itself. -/

namespace SassNesting

namespace Body

/-- Changes the body at an address, if the address leads to one. -/
def modifyAt? (change : Body → Body) : List Nat → Body → Option Body
  | [], body => some (change body)
  | i :: address, body =>
    match body[i]? with
    | some (.rule selector inner) =>
      (modifyAt? change address inner).map fun inner => body.set i (.rule selector inner)
    | _ => none

end Body

end SassNesting
