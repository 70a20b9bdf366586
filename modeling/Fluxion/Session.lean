import Fluxion.Answer
import Fluxion.Batch
import Fluxion.Text.Erasure

/-!
# Sessions

A session asks for a function until one can be differentiated, shows the derivative, asks whether
to go on, and so forth.

* `Session.Question`: what the session waits for.
* `Session.Event`: what it shows, as text in `Event.output`.
* `Session.reply`: what follows a line that was entered.
* `Session.run`: a session over the lines that are entered, until they end or an answer ends it.
-/

namespace Fluxion

/-- What is entered at a keyboard in answer to a question. -/
inductive Reading where
  | line (text : String)
  /-- Bytes that are no text. -/
  | malformed
  /-- A line in which a backspace has cut a character in two. -/
  | cut

namespace Reading

/-- What is entered as a piece of text, without its line end. -/
def ofPiece (piece : List Char) : Reading :=
  match erase? (chomp piece) with
  | some cs => .line (String.ofList cs)
  | none => .cut

/-- What is entered as bytes, line by line. -/
def ofBytes (bytes : List UInt8) : List Reading :=
  (pieces 10 bytes).map fun piece =>
    match String.fromUTF8? piece.toByteArray with
    | some text => ofPiece text.toList
    | none => .malformed

end Reading

namespace Session

/-- What a session waits for. -/
inductive Question where
  /-- A function to differentiate. -/
  | function
  /-- Whether to go on. -/
  | again
deriving DecidableEq

/-- What a session shows. -/
inductive Event where
  | ask (question : Question)
  | echo (line : String)
  | result (derivative : String)
  | refused (report : Report)

/-- How a session ends. -/
inductive Ending where
  /-- Nothing more is entered. -/
  | endOfInput
  /-- Something other than text is entered. -/
  | malformed
  /-- The answer was not to go on. -/
  | declined
deriving DecidableEq

/-! ## What is shown -/

/-- The text of a question. -/
def Question.text : Question → String
  | function => "➡ Please enter your function below:\n\n> "
  | again => "\n➡ Do you want to run again? (yes/no): "

/-- What an event writes. -/
def Event.output : Event → Output
  | ask question => ⟨question.text, ""⟩
  | echo line => ⟨"\n▞ You entered:\n  " ++ line ++ "\n", ""⟩
  | result derivative => ⟨"\n➡ Result:\n  " ++ derivative ++ "\n", ""⟩
  | refused report => ⟨"▕! Please try again.\n\n", report.text⟩

/-- The lines that introduce a session. -/
def introductionLines : List String :=
  ["░░░░░░░░░░░░░░░░░░░░░░░░░░░░░░░", "",
    "INTRODUCTION:",
    "  Welcome to DerivaGenius, a program that differentiates simple calculus functions.", "",
    "DISCLAIMER:",
    "  This is an experimental program. No warranties are made or implied.", "",
    "INSTRUCTIONS:",
    "  1. The only allowed input characters are f, (, ), x, e, sin, cos, tan, 0-9, +, -, =, ^, −, and .",
    "  2. Your input must be in the format \"f(x) = <FUNCTION>\" to be valid. For example: \"f(x) = 4x^3 - 2x^2 + 5x - 7\" would be valid input, but \"4x^3 - 2x^2 + 5x - 7\" would not be.",
    "  3. Terms in your function must be separated with + or -.",
    "  4. DerivaGenius cannot differentiate functions that require the chain rule, product rule, quotient rule, or other advanced calculus techniques to differentiate.",
    "  5. DerivaGenius can only support the following term structures:",
    "    a. sin(x), cos(x), tan(x) (e.g. 2cos(x))",
    "    b. <COEFFICIENT>x^<POWER> (e.g. 2x^3)",
    "    c. e^x",
    "    d. <CONSTANT> (e.g. 21)", "",
    "░░░░░░░░░░░░░░░░░░░░░░░░░░░░░░░", ""]

/-- The introduction. -/
def introduction : String := String.join (introductionLines.map (· ++ "\n"))

/-! ## What happens -/

/-- Whether a line says yes, in letters of any case. -/
def saysYes (line : String) : Bool := (trimBlank line.toList).map Char.toLower = "yes".toList

/-- What a session shows after a line, and its next question, unless it has ended. -/
def reply (question : Question) (line : String) : Option (List Event × Option Question) :=
  match question with
  | .again => some ([], if saysYes line then some .function else none)
  | .function =>
    if Batch.isBlankLine line.toList then some ([], some .function)
    else
      (respond line).map fun answer =>
        match answer with
        | .derivative text => ([.echo line, .result text], some .again)
        | .refusal report => ([.echo line, .refused report], some .function)

/-- A session from a question on: all that is shown, and how it ends, unless it cannot go on. -/
def runFrom (question : Question) : List Reading → Option (List Event × Ending)
  | [] => some ([.ask question], .endOfInput)
  | .malformed :: _ => some ([.ask question], .malformed)
  | .cut :: _ => none
  | .line line :: readings =>
    match reply question line with
    | none => none
    | some (events, none) => some (.ask question :: events, .declined)
    | some (events, some next) =>
      (runFrom next readings).map fun (later, ending) =>
        (.ask question :: events ++ later, ending)

/-- A session over what is entered. -/
def run (readings : List Reading) : Option (List Event × Ending) := runFrom .function readings

/-- What events write, one after the other. -/
def output (events : List Event) : Output := .concat (events.map Event.output)

end Session

end Fluxion
