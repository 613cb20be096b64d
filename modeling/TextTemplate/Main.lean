import TextTemplate.Command.Report
/-!
# The program

Reads the command line, and the standard input if the command needs it, and writes the report.
-/
namespace TextTemplate

/-- The line of an event in the log. -/
def RenderEvent.line (event : RenderEvent) : String :=
  event.severity.name ++ " " ++ event.message ++
    match event with
    | .substituted expression value => ": " ++ expression ++ " is " ++ value
    | .kept expression error => ": " ++ expression ++ ": " ++ error.message

/-- Everything that is left on a stream. -/
partial def readAll (stream : IO.FS.Stream) (read : String) : IO String := do
  let line ← stream.getLine
  if line.isEmpty then return read else readAll stream (read ++ line)

/-- Runs a command line. -/
def runArguments (arguments : List String) : IO UInt32 := do
  let report ←
    match Request.ofArguments arguments with
    | .ok (.run verbose command) => do
      let stdin ← if command.readsStdin then readAll (← IO.getStdin) "" else pure ""
      for event in command.log stdin do
        if verbose || event.severity == .warn then IO.eprintln event.line
      pure (command.report stdin)
    | _ => pure (reportOf arguments "")
  (← IO.getStdout).putStr report.stdout
  (← IO.getStderr).putStr report.stderr
  return report.exitCode

end TextTemplate

/-- The entry point of the program. -/
def main (arguments : List String) : IO UInt32 := TextTemplate.runArguments arguments
