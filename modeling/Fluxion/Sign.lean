import Fluxion.Fault
import Fluxion.Lexeme

/-!
# Signs

* `Sign.symbol`: how a sign is written.
* `Sign.ofChar`, `Sign.ofString`: reading a sign.
* `LexemeKind.sign?`: the sign that a lexeme is.
-/

namespace Fluxion

/-- The sign in front of a term. -/
inductive Sign where
  | positive
  | negative
deriving DecidableEq

namespace Sign

/-- The character of a sign. -/
def symbol : Sign → Char
  | positive => '+'
  | negative => '-'

/-- The other sign. -/
def flip : Sign → Sign
  | positive => negative
  | negative => positive

/-- The sign as text. -/
def text (s : Sign) : String := String.ofList [s.symbol]

/-- The sign that a character is. -/
def ofChar (c : Char) : Except Fault.Cause Sign :=
  if c = '+' then .ok positive
  else if c = '-' then .ok negative
  else .error (.unknownSign (String.ofList [c]))

/-- The sign that a text is: a sign's character and nothing else. -/
def ofString (s : String) : Except Fault.Cause Sign :=
  match s.toList with
  | [c] => ofChar c
  | _ => .error (.unknownSign s)

theorem ofChar_symbol (s : Sign) : ofChar s.symbol = .ok s := by cases s <;> rfl

end Sign

/-- The sign that lexemes of a kind are, if any. -/
def LexemeKind.sign? : LexemeKind → Option Sign
  | .plus => some .positive
  | .minus => some .negative
  | _ => none

end Fluxion
