import Fluxion.Fault

/-!
# The header

Every function begins with the same text, to the letter.

* `header`: that text.
* `requireHeader`: whether a text begins with it, or else the fault.
-/

namespace Fluxion

/-- The text in front of every function. -/
def header : String := "f(x) ="

/-- The bytes that the header takes. -/
def headerLength : Nat := utf8Length header.toList

/-- Whether a text begins with the header. -/
def hasHeader (source : String) : Bool := header.toList.isPrefixOf source.toList

/-- The fault of a text without the header. -/
def Fault.missingHeader (source : String) : Fault :=
  ⟨.missingHeader, [⟨0, min (utf8Length source.toList) headerLength⟩]⟩

/-- Nothing, if the text begins with the header, and the fault otherwise. -/
def requireHeader (source : String) : Except Fault Unit :=
  if hasHeader source then .ok () else .error (.missingHeader source)

end Fluxion
