import AnnotationQuery.CommandLine.Run

/-!
# The command line program

Connects `CommandLine.run` to the file system, the environment and the standard
streams.
-/

namespace AnnotationQuery.CommandLine

/-- What stands at a path of the file system. A path through a file leads nowhere; the error for
that names the path, and the one for a directory does not. -/
def readPath (path : String) : IO FileState := do
  try
    let bytes ← IO.FS.readBinFile path
    match String.fromUTF8? bytes with
    | some content => return .text content
    | none => return .unreadable
  catch
    | .noFileOrDirectory .. => return .missing
    | .inappropriateType (some _) .. => return .missing
    | _ => return .unreadable

/-- The process that this program runs in. -/
def processHost : Host IO where
  file := readPath
  lookup name := IO.getEnv name

end AnnotationQuery.CommandLine

open AnnotationQuery

/-- Runs the program and prints what it says. -/
def main (arguments : List String) : IO UInt32 := do
  let outcome ← CommandLine.run CommandLine.processHost arguments
  IO.print outcome.output
  for report in outcome.reports do
    IO.eprintln report.text
  if outcome = .misused then
    IO.eprint CommandLine.helpText
  if let some summary := outcome.summary? then
    IO.eprintln summary
  return outcome.exitCode.toUInt32
