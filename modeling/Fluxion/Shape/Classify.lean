import Fluxion.Number.Numeral
import Fluxion.Shape.Suggestion
import Fluxion.Term

/-!
# The shape of a term

A term is classified by its lexemes, whitespace apart.

* `TrigCall.find?`: the first call of a trigonometric function in a term.
* `Shape.ofCall?`, `Shape.exponential?`, `Shape.monomial?`, `Shape.constant?`: the four shapes.
* `Term.classify`: the shape of a term, or the fault of a term that has none.
-/

namespace Fluxion

/-! ## Calls -/

/-- A name before `(x)` that ends with the name of a function, and what stands before and after
the call. -/
structure TrigCall where
  before : List Lexeme
  callee : Lexeme
  function : TrigFunction
  after : List Lexeme

namespace TrigCall

/-- What follows `(x)` at the beginning of the lexemes. -/
def afterArgument? : List Lexeme → Option (List Lexeme)
  | paren :: x :: close :: after =>
    if paren.kind = .openParen ∧ x.isName "x" ∧ close.kind = .closeParen then some after else none
  | _ => none

/-- The function whose name stands at the end of a lexeme. -/
def function? (callee : Lexeme) : Option TrigFunction :=
  if callee.kind = .name then
    TrigFunction.all.find? fun f => f.name.toList.isSuffixOf callee.chars
  else none

/-- The first call among the lexemes. -/
def find? : List Lexeme → Option TrigCall
  | [] => none
  | l :: ls =>
    match afterArgument? ls, function? l with
    | some after, some function => some ⟨[], l, function, after⟩
    | _, _ => (find? ls).map fun call => { call with before := l :: call.before }

end TrigCall

/-! ## The four shapes -/

namespace Shape

/-- The coefficient written by the lexemes in front of `x` or of a call. -/
def coefficient? : List Lexeme → Option Binary64
  | [] => some .one
  | [l] => if l.kind = .number then Numeral.read? l.chars else none
  | _ => none

/-- The exponent that a lexeme writes with digits alone. It fits into 31 bits. -/
def exponent? (l : Lexeme) : Option Int32 :=
  if l.kind = .number then
    (Numeral.readNat? l.chars).bind fun n => if n < 2 ^ 31 then some (.ofNat n) else none
  else none

/-- The power written by the lexemes after `x`. -/
def power? : List Lexeme → Option Int32
  | [] => some 1
  | [caret, number] => if caret.kind = .caret then exponent? number else none
  | [caret, minus, number] =>
    if caret.kind = .caret ∧ minus.kind = .minus then (exponent? number).map (-·) else none
  | _ => none

/-- The shape of a term that is a call, but for a coefficient. -/
def ofCall? (call : TrigCall) : Option Shape :=
  if call.callee.chars = call.function.name.toList ∧ call.after = [] then
    (coefficient? call.before).map (.trigonometric call.function)
  else none

/-- The shape of `e^x`. -/
def exponential? : List Lexeme → Option Shape
  | [e, caret, x] =>
    if e.isName "e" ∧ caret.kind = .caret ∧ x.isName "x" then some .exponential else none
  | _ => none

/-- The shape of a multiple of a power of `x`. -/
def monomial? (ls : List Lexeme) : Option Shape :=
  match ls.dropWhile (!·.isName "x") with
  | [] => none
  | _ :: after => do
    let coefficient ← coefficient? (ls.takeWhile (!·.isName "x"))
    let exponent ← power? after
    return .monomial coefficient exponent

/-- The shape of a number. -/
def constant? : List Lexeme → Option Shape
  | [l] => if l.kind = .number then (Numeral.read? l.chars).map .constant else none
  | _ => none

end Shape

/-! ## Terms -/

/-- The shape of a term, which has to be a multiple of a call if it contains one. -/
def Term.classify (t : Term) : Except Fault Shape :=
  let ls := Lexeme.significant t.text.toList
  match TrigCall.find? ls with
  | some call =>
    match Shape.ofCall? call with
    | some shape => .ok shape
    | none => .error ⟨.invalidTrigTerm t.text, [t.span]⟩
  | none =>
    match Shape.exponential? ls <|> Shape.monomial? ls <|> Shape.constant? ls with
    | some shape => .ok shape
    | none => .error ⟨.unsupportedTerm t.text (Shape.suggestions ls), [t.span]⟩

end Fluxion
