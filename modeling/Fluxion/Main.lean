import Fluxion.CommandLine
import Fluxion.Session

/-!
# The program

With an argument, the functions in that file are differentiated, and with a pipe those that come
through it. At a terminal, a session is held.
-/

namespace Fluxion

/-- Why the system did not read a file. -/
def CommandLine.ReadFailure.ofError : IO.Error → ReadFailure
  | .noFileOrDirectory .. => .notFound
  | .inappropriateType .. => .isDirectory
  | error => .other (toString error)

/-- Writes an output to the two streams. -/
def Output.write (output : Output) : IO Unit := do
  IO.print output.results
  IO.eprint output.reports
  (← IO.getStdout).flush

/-- Reads a text and answers its lines. -/
def runBatch (source : CommandLine.Source) (read : IO ByteArray) : IO UInt32 := do
  let content ← read.toBaseIO
  match CommandLine.run source (content.mapError CommandLine.ReadFailure.ofError) with
  | some (output, code) =>
    output.write
    return code
  | none => throw (IO.userError "a report has no text to be drawn over")

/-- Holds a session from a question on. -/
partial def converse (question : Session.Question) : IO Unit := do
  (Session.Event.ask question).output.write
  let line ← (← IO.getStdin).getLine
  if line.isEmpty then return ()
  match Reading.ofPiece line.toList with
  | .line line =>
    match Session.reply question line with
    | some (events, next) =>
      (Session.output events).write
      match next with
      | some question => converse question
      | none => return ()
    | none => throw (IO.userError "a report has no text to be drawn over")
  | .malformed => throw (IO.userError "the line is no text")
  | .cut => throw (IO.userError "a backspace has cut a character in two")

/-- Runs the program with its arguments, the first of which names a file. -/
def runProgram (args : List String) : IO UInt32 := do
  let stdin ← IO.getStdin
  match args with
  | name :: _ => runBatch (.file name) (IO.FS.readBinFile name)
  | [] =>
    if ← stdin.isTty then
      IO.print Session.introduction
      try converse .function catch error => IO.eprintln (toString error)
      IO.println "Program ended."
      return 0
    else runBatch .pipe stdin.readBinToEnd

end Fluxion

def main (args : List String) : IO UInt32 := Fluxion.runProgram args
