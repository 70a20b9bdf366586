import Fluxion.Sign
import Fluxion.Token

/-!
# Terms

A term is what stands between two signs, with the sign in front of it and the place it has in the
text.

* `Term.text`, `Term.render`: a term without and with its sign.
* `Term.ofTokens`: the term that a run of tokens forms.
-/

namespace Fluxion

/-- A signed term and the bytes of the text that it was read from. -/
structure Term where
  sign : Sign
  text : String
  span : Span
deriving DecidableEq

namespace Term

/-- The term with another text in place of its own. -/
def withText (t : Term) (text : String) : Term := { t with text }

/-- The sign and the text. -/
def render (t : Term) : String := t.sign.text ++ t.text

/-- The tokens without the whitespace at both ends. -/
def trimTokens (ts : List Token) : List Token :=
  ((ts.dropWhile (·.isWhitespace)).reverse.dropWhile (·.isWhitespace)).reverse

/-- The characters of tokens, one after the other. -/
def tokenChars (ts : List Token) : List Char := ts.flatMap (·.chars)

/-- The term that tokens form but for whitespace around them. Without any it stands at `place`. -/
def ofTokens (sign : Sign) (place : Span) (ts : List Token) : Term :=
  let body := trimTokens ts
  match body.head?, body.getLast? with
  | some first, some last =>
    ⟨sign, String.ofList (tokenChars body), ⟨first.span.start, last.span.stop⟩⟩
  | _, _ => ⟨sign, "", place⟩

end Term

end Fluxion
