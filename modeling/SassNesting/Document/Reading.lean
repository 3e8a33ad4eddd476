import SassNesting.Document.Block
import SassNesting.Document.Directive

/-! # Reading documents

A document is a gap, directives, and blocks. `Reading.ofText` reads as much of a text as it can and
never fails; `parse` yields the stylesheet unless the reading ended at a fault, and then the place
of the fault, in bytes from the start of the text. -/

namespace SassNesting

/-- Reads a document: its directives first, then its blocks. -/
def Reading.ofText (t : Text) : Reading :=
  match Directive.readAll (Gap.skip t) with
  | (directives, .error fault) => ⟨directives, [], .fault fault⟩
  | (directives, .ok rest) =>
    let (blocks, ending) := Block.readAll rest
    ⟨directives, blocks, ending⟩

/-- What a document lacks, and the place where it lacks it. -/
structure SyntaxError where
  /-- What is expected. -/
  expected : Expectation
  /-- The number of bytes before the place where it is expected. -/
  pos : Nat
deriving DecidableEq

/-- Outcomes can be compared, so what comes of a given document can be computed in a proof. -/
instance decidableEqOutcome {ε α : Type} [DecidableEq ε] [DecidableEq α] : DecidableEq (Except ε α)
  | .ok a, .ok b => decidable_of_iff (a = b) (by simp)
  | .error e, .error f => decidable_of_iff (e = f) (by simp)
  | .ok _, .error _ => .isFalse nofun
  | .error _, .ok _ => .isFalse nofun

/-- A fault in a text as an error at a place. -/
def Fault.toError (t : Text) (f : Fault) : SyntaxError := ⟨f.expected, Text.offset t f.rest⟩

/-- The stylesheet a document makes up as it stands, or the first error in it. -/
def parse (t : Text) : Except SyntaxError Body :=
  let reading := Reading.ofText t
  match reading.ending with
  | .fault fault => .error (fault.toError t)
  | _ => .ok reading.body

end SassNesting
