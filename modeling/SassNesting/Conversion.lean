import SassNesting.Diagnostic
import SassNesting.Log
import SassNesting.Sass

/-! # Converting a stylesheet

A stylesheet is read, regrouped and written as indented Sass. It is refused as a whole if there is a
syntax error anywhere in it. -/

namespace SassNesting

/-- The regrouped stylesheet of a text, or what is wrong with the text. -/
def buildSheet (o : Options) (t : Text) : Except Diagnostic Body :=
  match parse t with
  | .ok raw => .ok (Body.regroup raw)
  | .error e => .error (e.diagnose o.sourceName t)

/-- The indented Sass for a text, or what is wrong with the text. -/
def convert (o : Options) (t : Text) : Except Diagnostic Text :=
  match buildSheet o t with
  | .ok sheet => .ok (Body.sass o sheet)
  | .error d => .error d

/-- The events of converting a text, in order; after a syntax error there are no more. -/
def conversionEvents (o : Options) (t : Text) : List Event :=
  let reading := Reading.ofText t
  reading.events t ++
    match parse t with
    | .ok raw => Body.regroupEvents o.sourceName raw
    | .error _ => []

end SassNesting
