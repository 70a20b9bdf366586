import Fluxion.Derivative

/-!
# Evaluation

The values of shapes and derivatives at a point, in floating-point arithmetic.

* `Evaluation.power`: powers with whole exponents, by repeated squaring.
* `Shape.eval`, `Derivative.eval`: the values.
-/

namespace Fluxion

namespace Evaluation

/-- `result · base ^ exponent`, taking the binary digits of the exponent from the lowest on. -/
def powerLoop (result base : Float) (exponent : Nat) : Float :=
  let result := if exponent % 2 = 1 then result * base else result
  if exponent / 2 = 0 then result else powerLoop result (base * base) (exponent / 2)
termination_by exponent

/-- The power of a point. -/
def power (x : Float) (exponent : Int) : Float :=
  let positive := powerLoop 1 x exponent.natAbs
  if exponent < 0 then 1 / positive else positive

end Evaluation

/-- The number in the arithmetic of the machine. -/
def Binary64.toFloat (v : Binary64) : Float := Float.ofBits v.toBits

/-- The value of a function at a point, in radians. -/
def TrigFunction.eval (x : Float) : TrigFunction → Float
  | sin => x.sin
  | cos => x.cos
  | tan => x.tan

/-- The value of the derivative of a function at a point, in radians. -/
def TrigDerivative.eval (x : Float) : TrigDerivative → Float
  | cos => x.cos
  | negSin => -x.sin
  | secSquared => Evaluation.power x.cos (-2)

/-- The value of a shape at a point. -/
def Shape.eval (x : Float) : Shape → Float
  | trigonometric function coefficient => coefficient.toFloat * function.eval x
  | exponential => x.exp
  | monomial coefficient exponent => coefficient.toFloat * Evaluation.power x exponent.toInt
  | constant value => value.toFloat

/-- The value of a derivative at a point. -/
def Derivative.eval (x : Float) : Derivative → Float
  | zero => 0
  | constant value => value.toFloat
  | monomial coefficient exponent => coefficient.toFloat * Evaluation.power x exponent.toInt
  | exponential => x.exp
  | trigonometric function coefficient => coefficient.toFloat * function.eval x

end Fluxion
