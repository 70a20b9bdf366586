import Fluxion.Header
import Fluxion.Text.Blank

/-!
# The alphabet

A function that a user enters may contain few characters besides blank ones.

* `alphabet`: those characters.
* `asciiMinus`: the minus sign `−` is another way to write `-`.
* `validate`: the text with its minus signs in ASCII, or the first fault.
-/

namespace Fluxion

/-- The characters that a function may contain besides blank ones. -/
def alphabet : String := "f()xe0123456789+-=^−.sincota"

/-- Whether a function may contain a character. -/
def isAllowed (c : Char) : Bool := isBlank c || alphabet.toList.contains c

/-- The character with `-` in place of the minus sign `−`. -/
def asciiMinus (c : Char) : Char := if c = '−' then '-' else c

/-- The fault of the first character that is not allowed, if there is one. -/
def disallowed? (offset : Nat) : List Char → Option Fault
  | [] => none
  | c :: cs =>
    if isAllowed c then disallowed? (offset + c.utf8Size) cs
    else some ⟨.disallowedCharacter c, [⟨offset, offset + c.utf8Size⟩]⟩

/-- The text with its minus signs in ASCII, if it has the header and nothing but allowed characters.
-/
def validate (source : String) : Except Fault String := do
  requireHeader source
  match disallowed? 0 source.toList with
  | some fault => throw fault
  | none => return String.ofList (source.toList.map asciiMinus)

end Fluxion
