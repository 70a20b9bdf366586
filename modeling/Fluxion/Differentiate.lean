import Fluxion.Derivative.Text
import Fluxion.Shape.Classify
import Fluxion.Term.Reader
import Fluxion.WrittenSum

/-!
# Differentiating functions

* `Term.differentiate`: one term; the sign and the place stay.
* `Term.differentiateAll`: terms, up to the first one with a fault.
* `differentiate`: a function, from text to text.
-/

namespace Fluxion

/-- The term with the text of its derivative. -/
def Term.differentiate (t : Term) : Except Fault Term :=
  t.classify.map fun shape => t.withText shape.derivative.text

/-- The derivatives of the terms in their order, or the first fault. -/
def Term.differentiateAll (ts : List Term) : Except Fault (List Term) := ts.mapM Term.differentiate

/-- The derivative of a function. -/
def differentiate (source : String) : Except Fault String := do
  let terms ← Term.parse source
  let derivatives ← Term.differentiateAll terms
  return WrittenSum.ofTerms derivatives

end Fluxion
