import TextTemplate.Command.Arguments
import TextTemplate.Command.Run
/-!
# What the program writes

* `Report`: the exit code and the output of a run of the program.
* `Request.report`: the report of a request, given the standard input.
* `reportOf`: the report of a whole command line.
-/
namespace TextTemplate

/-- The exit code and the output of a run of the program. -/
structure Report where
  exitCode : UInt32
  stdout : String
  stderr : String
deriving DecidableEq, Repr

namespace Report

/-- A line on the standard output. -/
def success (line : String) : Report := ⟨0, line ++ "\n", ""⟩

/-- The message of an error on the standard error output. -/
def failure (exitCode : UInt32) (message : String) : Report := ⟨exitCode, "", message ++ "\n"⟩

end Report

/-- The name and version of the program. -/
def versionLine : String := "stencil 0.1.0"

namespace Command

/-- Whether a command reads its data context from the standard input. -/
def readsStdin : Command → Bool
  | .render _ input _ => input.isNone
  | .eval _ input _ syntaxOnly => input.isNone && !syntaxOnly

/-- The report of a command. -/
def report (stdin : String) : Command → Report
  | .render template input strict =>
    match renderTemplate template (some (input.getD stdin)) strict with
    | .ok output => .success output
    | .error e => .failure 1 e.message
  | .eval expression input pretty syntaxOnly =>
    match checkExpression expression (some (input.getD stdin)) syntaxOnly with
    | .ok .wellFormed => .success "Syntax is valid"
    | .ok (.value v) => .success (if pretty then v.indented else v.compact)
    | .error e => .failure 1 e.message

/-- The events of a command, in order. -/
def log (stdin : String) : Command → List RenderEvent
  | .render template input false =>
    match readContext (some (input.getD stdin)) with
    | .ok context => renderLog template context
    | .error _ => []
  | _ => []

end Command

/-- The report of a request. -/
def Request.report (stdin : String) : Request → Report
  | .version => .success versionLine
  | .run _ command => command.report stdin

/-- The report of a whole command line. -/
def reportOf (arguments : List String) (stdin : String) : Report :=
  match Request.ofArguments arguments with
  | .ok request => request.report stdin
  | .error e => .failure 2 e.message

end TextTemplate
