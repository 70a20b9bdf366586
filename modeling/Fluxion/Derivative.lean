import Fluxion.Shape

/-!
# Derivatives

* `Derivative`: the derivative of a term, without the term's sign.
* `Shape.derivative`: the rule for each shape. The power rule rounds its product once, so
  coefficients that are too large become infinite.
-/

namespace Fluxion

/-- The derivative of a trigonometric function. -/
inductive TrigDerivative where
  | cos
  | negSin
  | secSquared
deriving DecidableEq

/-- The derivative of a function. -/
def TrigFunction.derivative : TrigFunction → TrigDerivative
  | sin => .cos
  | cos => .negSin
  | tan => .secSquared

/-- The derivative of a term without its sign. -/
inductive Derivative where
  /-- The term vanishes. -/
  | zero
  /-- A number. -/
  | constant (value : Binary64)
  /-- A multiple of a power of `x`. -/
  | monomial (coefficient : Binary64) (exponent : Int32)
  /-- The power `e^x`. -/
  | exponential
  /-- A multiple of the derivative of a trigonometric function. -/
  | trigonometric (function : TrigDerivative) (coefficient : Binary64)
deriving DecidableEq

/-- The derivative of a shape. Multiples of zero vanish. -/
def Shape.derivative : Shape → Derivative
  | trigonometric function coefficient =>
    if coefficient.isZero then .zero else .trigonometric function.derivative coefficient
  | exponential => .exponential
  | monomial coefficient exponent =>
    if exponent = 1 then
      if coefficient.isZero then .zero else .constant coefficient
    else
      let product := coefficient.mul (.ofInt exponent.toInt)
      if product.isZero then .zero else .monomial product (exponent - 1)
  | constant _ => .zero

end Fluxion
