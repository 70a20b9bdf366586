import Fluxion.Number.Binary64

/-!
# Shapes

The terms that can be differentiated.

* `TrigFunction`: the supported trigonometric functions.
* `Shape`: a term as mathematics, without its sign.
-/

namespace Fluxion

/-- A supported trigonometric function. -/
inductive TrigFunction where
  | sin
  | cos
  | tan
deriving DecidableEq

namespace TrigFunction

/-- Every function, in the order in which their names are tried. -/
def all : List TrigFunction := [sin, cos, tan]

/-- The name by which the function is called. -/
def name : TrigFunction → String
  | sin => "sin"
  | cos => "cos"
  | tan => "tan"

/-- The function of a name. -/
def ofName? (name : String) : Option TrigFunction := all.find? (·.name = name)

theorem mem_all (f : TrigFunction) : f ∈ all := by cases f <;> decide

theorem ofName?_name (f : TrigFunction) : ofName? f.name = some f := by cases f <;> decide

end TrigFunction

/-- A term without its sign. -/
inductive Shape where
  /-- A multiple of a function of `x`. -/
  | trigonometric (function : TrigFunction) (coefficient : Binary64)
  /-- The power `e^x`. -/
  | exponential
  /-- A multiple of a power of `x`. -/
  | monomial (coefficient : Binary64) (exponent : Int32)
  /-- A number. -/
  | constant (value : Binary64)
deriving DecidableEq

end Fluxion
