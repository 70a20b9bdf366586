import Fluxion.Header
import Fluxion.Text.Prose

/-!
# The words of a fault

* `Fault.Cause.message`: what is wrong, in one line.
* `Fault.Cause.label`: what the marked place is.
* `Fault.Cause.help`: what would be right.
-/

namespace Fluxion.Fault.Cause

/-- What is wrong, in one line. -/
def message : Cause → String
  | missingHeader => "the input must start with `" ++ header ++ "`"
  | unknownSign symbol => "no sign with the symbol `" ++ symbol ++ "` exists"
  | unsupportedTerm text _ =>
    if text = "" then "missing term" else "cannot differentiate `" ++ text ++ "`"
  | invalidTrigTerm text => "`" ++ text ++ "` is not a valid trigonometric term"
  | disallowedCharacter character =>
    "disallowed character found: `" ++ String.ofList [character] ++ "`"

/-- What the marked place is. -/
def label : Cause → String
  | missingHeader => "I expected to see the function name here"
  | unknownSign _ => "this sign"
  | unsupportedTerm text _ =>
    if text = "" then "I expected to see a term after this sign" else "this term"
  | invalidTrigTerm _ => "this term"
  | disallowedCharacter _ => "this character"

/-- The names in quotation marks with commas between them. -/
def quotedNames (names : List String) : Prose :=
  [Phrase.words ", "].intercalate
    (names.map fun name => [.words "`", .expression name, .words "`"])

/-- What would be right. -/
def help : Cause → Prose
  | missingHeader => [.words "write your function as ", .expression "f(x) = <FUNCTION>"]
  | unknownSign _ => [.words "terms must be separated with `+` or `-`"]
  | unsupportedTerm _ [] =>
    [.words "supported terms are constants, ", .expression "cx^n", .words ", ", .expression "e^x",
      .words ", and ", .expression "sin(x) / cos(x) / tan(x)"]
  | unsupportedTerm _ [name] =>
    [.words "did you mean the `", .expression name, .words "` function?"]
  | unsupportedTerm _ names =>
    .words "did you mean one of these functions? " :: quotedNames names
  | invalidTrigTerm _ =>
    [.words "a trigonometric term is an optional coefficient followed by the function, like ",
      .expression "2cos(x)",
      .words "; the chain, product, and quotient rules are not supported"]
  | disallowedCharacter _ =>
    [.words "the only allowed characters are ",
      .expression "f ( ) x e 0-9 + - = ^ − . sin cos tan"]

end Fluxion.Fault.Cause
