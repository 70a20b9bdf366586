import Fluxion.Alphabet
import Fluxion.Differentiate
import Fluxion.Report

/-!
# Answers

* `Answer`: what a user is told about a function.
* `respond`: the answer to a line. There is none if a report would have nothing to be drawn over.
-/

namespace Fluxion

/-- The derivative of a function, or the report of its fault. -/
inductive Answer where
  | derivative (text : String)
  | refusal (report : Report)

/-- The answer to a line. -/
def respond (line : String) : Option Answer :=
  match validate line with
  | .error fault => (fault.report? line).map .refusal
  | .ok text =>
    match differentiate text with
    | .ok derivative => some (.derivative derivative)
    | .error fault => (fault.report? text).map .refusal

end Fluxion
