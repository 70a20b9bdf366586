import Fluxion.Term

/-!
# Written sums

* `WrittenSum.body`: signed terms with signs between them.
* `WrittenSum.ofTerms`: the terms as a derivative, without those that vanish.
-/

namespace Fluxion.WrittenSum

/-- The text in front of every derivative. -/
def header : String := "f'(x) ="

/-- Whether a term has to be written. A term that vanishes has the text `0`. -/
def remains (t : Term) : Bool := t.text ≠ "0"

/-- The first term: its sign is only written if it is negative. -/
def first (t : Term) : String :=
  match t.sign with
  | .positive => " " ++ t.text
  | .negative => " -" ++ t.text

/-- A term after another one, with spaces around its sign. -/
def further (t : Term) : String := " " ++ t.sign.text ++ " " ++ t.text

/-- The terms with their signs between them, or `0`. -/
def body : List Term → String
  | [] => " 0"
  | t :: ts => first t ++ String.join (ts.map further)

/-- The terms as a derivative, without those that vanish. -/
def ofTerms (ts : List Term) : String := header ++ body (ts.filter remains)

end Fluxion.WrittenSum
