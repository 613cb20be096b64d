import TextTemplate.Template.Render
import TextTemplate.Value.Reader
/-!
# Commands

Two commands work on a data context that is given as JSON text; without such a text the context is
an empty object.

* `checkExpression`: the value of an expression, or only the verdict on its grammar.
* `renderTemplate`: the text of a template, leniently or strictly.
* `CommandError`: why a command has no result.
-/
namespace TextTemplate

/-- Why a command has no result. -/
inductive CommandError where
  /-- An expression has no value. -/
  | expression (error : ExprError)
  /-- A marker has no value. -/
  | template (error : TemplateError)
  /-- The data context is not given as JSON. -/
  | invalidJson
deriving DecidableEq

namespace CommandError

/-- The message of an error. -/
def message : CommandError → String
  | .expression e => e.message
  | .template e => e.message
  | .invalidJson => "Invalid JSON: the data context is no JSON value"

/-- The messages of the errors behind an error, the outermost first. -/
def causes : CommandError → List String
  | .expression e => e.message :: e.causes
  | .template e => e.message :: e.causes
  | .invalidJson => []

end CommandError

/-- The data context that a JSON text gives; no text gives an empty object. -/
def readContext : Option String → Except CommandError Value
  | none => .ok .emptyObject
  | some text =>
    match Value.ofJson? text with
    | some v => .ok v
    | none => .error .invalidJson

/-- A text without the blanks at its ends. -/
def trimText (text : String) : String := String.ofList (trim text.toList)

/-- The verdict on an expression. -/
inductive Verdict where
  /-- The text is an expression. -/
  | wellFormed
  /-- The expression has a value. -/
  | value (v : Value)

/-- Checks an expression, whose grammar comes first: the data context is only read for a text that
is an expression, and not at all if `syntaxOnly` is set. -/
def checkExpression (text : String) (input : Option String) (syntaxOnly : Bool) :
    Except CommandError Verdict :=
  match Expr.parse (trimText text) with
  | .error e => .error (.expression (.parse e))
  | .ok expr =>
    if syntaxOnly then .ok .wellFormed
    else
      match readContext input with
      | .error e => .error e
      | .ok context =>
        match expr.eval context with
        | .error e => .error (.expression (.eval e))
        | .ok v => .ok (.value v)

/-- Renders a template; if `strict` is set, every marker needs a value. -/
def renderTemplate (template : String) (input : Option String) (strict : Bool) :
    Except CommandError String :=
  match readContext input with
  | .error e => .error e
  | .ok context =>
    if strict then
      match renderStrict template context with
      | .ok output => .ok output
      | .error e => .error (.template e)
    else .ok (render template context)

end TextTemplate
