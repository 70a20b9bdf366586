import Fluxion.Derivative
import Fluxion.Number.Positional

/-!
# The text of a derivative

* `Binary64.leadingText`: a coefficient in front of what it multiplies.
* `Derivative.text`: a derivative.
-/

namespace Fluxion

/-- A coefficient in front of what it multiplies, but for ones. -/
def Binary64.leadingText (c : Binary64) : String :=
  if c = one then "" else if c = negOne then "-" else c.text

namespace Derivative

/-- A power of `x`. Only the exponent `1` is not written. -/
def powerText (exponent : Int32) : String :=
  if exponent = 1 then "x" else "x^" ++ String.ofList (Numeral.ofInt exponent.toInt)

/-- The text of a derivative. -/
def text : Derivative → String
  | zero => "0"
  | constant value => value.text
  | monomial coefficient exponent => coefficient.leadingText ++ powerText exponent
  | exponential => "e^x"
  | trigonometric .cos coefficient => coefficient.leadingText ++ "cos(x)"
  | trigonometric .negSin coefficient => "-" ++ coefficient.leadingText ++ "sin(x)"
  | trigonometric .secSquared coefficient => coefficient.leadingText ++ "sec(x)^2"

end Derivative

end Fluxion
