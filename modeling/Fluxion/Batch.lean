import Fluxion.Answer
import Fluxion.Output
import Fluxion.Text.Lines

/-!
# Batches

A batch is a text with a function in every line. Blank lines are passed over.

* `Batch.functions`: the lines that are answered.
* `Batch.run`: the answers to a text.
-/

namespace Fluxion.Batch

/-- A line with the derivative, or the report. -/
def output : Answer → Output
  | .derivative text => ⟨text ++ "\n", ""⟩
  | .refusal report => ⟨"", report.text⟩

/-- Whether a line has nothing but blank characters. -/
def isBlankLine (line : List Char) : Bool := line.all isBlank

/-- The lines of a text that are not blank. -/
def functions (text : String) : List String :=
  ((lines text.toList).filter (!isBlankLine ·)).map String.ofList

/-- The answers to the lines of a text, one after the other. -/
def run (text : String) : Option Output :=
  ((functions text).mapM respond).map fun answers => .concat (answers.map output)

end Fluxion.Batch
