import Fluxion.Lexeme
import Fluxion.Shape

/-!
# Suggestions

A misspelt function name is recognised by being one edit away from a right one.

* `withinOneEdit`: whether one insertion, deletion or substitution, or none, leads from one word to
  the other.
* `Shape.suggestions`: the functions that the unknown names of a term may stand for.
-/

namespace Fluxion

/-- Whether at most one edit of a character leads from one word to the other. -/
def withinOneEdit : List Char → List Char → Bool
  | [], ds => ds.length ≤ 1
  | cs, [] => cs.length ≤ 1
  | c :: cs, d :: ds =>
    if c = d then withinOneEdit cs ds else cs = ds || cs = d :: ds || c :: cs = ds

namespace Shape

/-- The names that a supported term may contain. -/
def knownNames : List String := ["x", "e", "sin", "cos", "tan"]

/-- Whether a lexeme is a name that no supported term contains. -/
def isUnknownName (l : Lexeme) : Bool := l.kind = .name && !knownNames.any (l.isName ·)

/-- The functions whose names are within one edit of the lexeme. -/
def near (l : Lexeme) : List TrigFunction :=
  TrigFunction.all.filter fun f => withinOneEdit f.name.toList l.chars

/-- The names of functions near to the unknown names, in the order in which they are first met. -/
def suggestions (ls : List Lexeme) : List String :=
  (((ls.filter isUnknownName).flatMap near).map TrigFunction.name).eraseDups

end Shape

end Fluxion
