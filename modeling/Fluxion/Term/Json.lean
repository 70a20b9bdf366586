import Fluxion.Json.Reader
import Fluxion.Number.Numeral
import Fluxion.Term

/-!
# Terms as JSON

A term is kept as an object with the fields `sign`, `text` and `span`.

* `Term.toJson`: a term as a value.
* `Term.ofJson?`: the term that a value is. An array of the three values in this order is read as
  well, and fields of other names are passed over.
* `Term.write`, `Term.read?`: the same with the texts of values.
-/

namespace Fluxion

namespace Json

/-- The value of the field of a name, if there is exactly one. -/
def field? (name : String) (fields : List (List Nat × Json)) : Option Json :=
  match fields.filter (·.1 = codes name) with
  | [(_, value)] => some value
  | _ => none

/-- The text that a value is. -/
def string? : Json → Option String
  | string codes => text? codes
  | _ => none

/-- The natural number of 64 bits that a value is. -/
def natural? : Json → Option Nat
  | number literal =>
    (Numeral.readNat? literal).bind fun n => if n < UInt64.size then some n else none
  | _ => none

/-- A natural number as a value. -/
def ofNat (n : Nat) : Json := number (Numeral.ofNat n)

/-- A text as a value. -/
def ofString (text : String) : Json := string (codes text)

end Json

/-! ## Signs -/

/-- The name of a sign in a value. -/
def Sign.name : Sign → String
  | positive => "Positive"
  | negative => "Negative"

/-- The sign of a name. -/
def Sign.ofName? (name : String) : Option Sign :=
  if name = positive.name then some positive
  else if name = negative.name then some negative
  else none

/-- The sign that a value names, as a text or as the only field of an object. -/
def Sign.ofJson? : Json → Option Sign
  | .string name | .object [(name, .null)] => (Json.text? name).bind ofName?
  | _ => none

/-! ## Spans -/

/-- A span as a value. -/
def Span.toJson (s : Span) : Json :=
  .object [(Json.codes "start", .ofNat s.start), (Json.codes "end", .ofNat s.stop)]

/-- The span that a value is: an object of its bounds, or an array. -/
def Span.ofJson? : Json → Option Span
  | .object fields =>
    if fields.length = 2 then do
      let start ← (← Json.field? "start" fields).natural?
      let stop ← (← Json.field? "end" fields).natural?
      return ⟨start, stop⟩
    else none
  | .array [start, stop] => do
    let start ← start.natural?
    let stop ← stop.natural?
    return ⟨start, stop⟩
  | _ => none

/-! ## Terms -/

namespace Term

/-- A term as a value. -/
def toJson (t : Term) : Json :=
  .object
    [(Json.codes "sign", .ofString t.sign.name), (Json.codes "text", .ofString t.text),
      (Json.codes "span", t.span.toJson)]

/-- The term of a sign, a text and a span, each as a value. -/
def ofParts? (sign text span : Json) : Option Term := do
  let sign ← Sign.ofJson? sign
  let text ← text.string?
  let span ← Span.ofJson? span
  return ⟨sign, text, span⟩

/-- The term that a value is: an object with its three fields, or an array. -/
def ofJson? : Json → Option Term
  | .object fields =>
    if ∀ field ∈ fields, (Json.text? field.1).isSome then do
      ofParts? (← Json.field? "sign" fields) (← Json.field? "text" fields)
        (← Json.field? "span" fields)
    else none
  | .array [sign, text, span] => ofParts? sign text span
  | _ => none

/-- The text of a term's value. -/
def write (t : Term) : String := t.toJson.write

/-- The term whose value a text is. -/
def read? (text : String) : Option Term := (Json.read? text).bind ofJson?

end Term

end Fluxion
