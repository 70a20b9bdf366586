import Fluxion.Lexeme
import Fluxion.Text.Span

/-!
# Tokens

A token is a lexeme together with its place in the text.

* `Token.place`: lexemes laid out one after the other from an offset on.
* `tokenize`: the tokens of a text.
-/

namespace Fluxion

/-- A lexeme and the bytes of the text that it takes. -/
structure Token extends Lexeme where
  span : Span
deriving DecidableEq

namespace Token

/-- The lexemes laid out one after the other, the first one at byte `offset`. -/
def place (offset : Nat) : List Lexeme → List Token
  | [] => []
  | l :: ls =>
    let stop := offset + utf8Length l.chars
    ⟨l, ⟨offset, stop⟩⟩ :: place stop ls

@[simp] theorem place_cons (offset : Nat) (l : Lexeme) (ls : List Lexeme) :
    place offset (l :: ls) =
      ⟨l, ⟨offset, offset + utf8Length l.chars⟩⟩ :: place (offset + utf8Length l.chars) ls := rfl

/-- The token `distance` bytes further right. -/
def shift (distance : Nat) (t : Token) : Token := { t with span := t.span.shift distance }

end Token

/-- The tokens of a text, from left to right. -/
def tokenize (source : String) : List Token := Token.place 0 (Lexeme.scan source.toList)

end Fluxion
