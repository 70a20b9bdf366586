import Fluxion.Text.Span

/-!
# Faults

What can be wrong with a text, and where. The words for each cause are in
`Fluxion.Fault.Wording`.

* `Fault.Cause`: what is wrong.
* `Fault`: a cause and the places it concerns.
-/

namespace Fluxion

/-- What is wrong with a text. -/
inductive Fault.Cause where
  /-- The text does not begin with the header. -/
  | missingHeader
  /-- A sign was expected and other text found. -/
  | unknownSign (symbol : String)
  /-- The term has none of the supported shapes; the functions that it may have meant are named. -/
  | unsupportedTerm (text : String) (suggestions : List String)
  /-- The term calls a trigonometric function and is not a multiple of that call. -/
  | invalidTrigTerm (text : String)
  /-- The character is outside the alphabet. -/
  | disallowedCharacter (character : Char)
deriving DecidableEq

/-- A cause and the places of the text that it concerns. -/
structure Fault where
  cause : Fault.Cause
  spans : List Span
deriving DecidableEq

end Fluxion
