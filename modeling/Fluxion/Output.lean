/-!
# Output

* `Output`: what a run writes to its two streams.
* `Output.concat`: outputs one after another.
-/

namespace Fluxion

/-- What a run writes to the stream of results and to the stream of reports. -/
structure Output where
  results : String
  reports : String
deriving DecidableEq

/-- The outputs one after another. -/
def Output.concat (outputs : List Output) : Output :=
  ⟨String.join (outputs.map results), String.join (outputs.map reports)⟩

end Fluxion
