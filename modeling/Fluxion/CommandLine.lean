import Fluxion.Batch

/-!
# The command line

Without arguments, a text is read from a pipe; the first argument names a file to read instead.

* `CommandLine.ReadFailure`: why a text cannot be read.
* `CommandLine.run`: what a run writes, and its exit code.
-/

namespace Fluxion.CommandLine

/-- Why a text cannot be read. -/
inductive ReadFailure where
  | notFound
  | isDirectory
  | notText
  /-- Any other reason, in the words of the system. -/
  | other (message : String)
deriving DecidableEq

/-- The reason in words. -/
def ReadFailure.message : ReadFailure → String
  | notFound => "No such file or directory (os error 2)"
  | isDirectory => "Is a directory (os error 21)"
  | notText => "stream did not contain valid UTF-8"
  | other message => message

/-- Where a text is read from. -/
inductive Source where
  | pipe
  | file (name : String)

/-- The line about a failure. -/
def Source.complaint (source : Source) (failure : ReadFailure) : String :=
  match source with
  | pipe => failure.message ++ "\n"
  | file name => name ++ ": " ++ failure.message ++ "\n"

/-- The text that bytes encode. -/
def decode (bytes : ByteArray) : Except ReadFailure String :=
  match String.fromUTF8? bytes with
  | some text => .ok text
  | none => .error .notText

/-- What a run writes and its exit code, given what was read. -/
def run (source : Source) (read : Except ReadFailure ByteArray) : Option (Output × UInt32) :=
  match read.bind decode with
  | .ok text => (Batch.run text).map (·, 0)
  | .error failure => some (⟨"", source.complaint failure⟩, 1)

end Fluxion.CommandLine
