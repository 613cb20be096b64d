import TextTemplate.Expr.Eval
import TextTemplate.Expr.Parser
/-!
# Evaluating the text of an expression

* `ExprError`: why a text has no value: it is no expression, or the expression has no value.
* `evaluate`: the value of a text in a data context.
-/
namespace TextTemplate

/-- Why the text of an expression has no value. -/
inductive ExprError where
  /-- The text is no expression. -/
  | parse (error : ParseError)
  /-- The expression has no value in the data context. -/
  | eval (error : EvalError)
deriving DecidableEq

namespace ExprError

/-- The message of an error, which names the stage that failed. -/
def message : ExprError → String
  | .parse (.lex e) => "Lex error: " ++ e.message
  | .parse e => "Parse error: " ++ e.message
  | .eval e => "Evaluation error: " ++ e.message

/-- The messages of the errors behind an error, the outermost first. -/
def causes : ExprError → List String
  | .parse e => e.message :: e.causes
  | .eval e => [e.message]

end ExprError

/-- The value of the text of an expression in a data context. -/
def evaluate (text : String) (context : Value) : Except ExprError Value :=
  match Expr.parse text with
  | .error e => .error (.parse e)
  | .ok expr =>
    match expr.eval context with
    | .error e => .error (.eval e)
    | .ok v => .ok v

end TextTemplate
