import TextTemplate.Expr.Basic
import TextTemplate.Expr.Operation
/-!
# Evaluating expressions

* `Expr.eval`: the value of an expression in a data context. Operands and arguments are evaluated
  from left to right, and the first error is the result.
-/
namespace TextTemplate
namespace Expr

mutual

/-- The value of an expression in a data context. -/
def eval (context : Value) : Expr → Except EvalError Value
  | .number n => .ok (.number n)
  | .var name =>
    match context.get? name with
    | some v => .ok v
    | none => .error (.undefinedVariable name)
  | .binary op left right =>
    match eval context left with
    | .error e => .error e
    | .ok a =>
      match eval context right with
      | .error e => .error e
      | .ok b => op.apply a b
  | .signed sign operand =>
    match eval context operand with
    | .error e => .error e
    | .ok v => sign.apply v
  | .call name args =>
    match evalAll context args with
    | .error e => .error e
    | .ok vs => callBuiltin name vs
  | .index collection position =>
    match eval context collection with
    | .error e => .error e
    | .ok c =>
      match eval context position with
      | .error e => .error e
      | .ok p => c.item p
  | .property object name =>
    match eval context object with
    | .error e => .error e
    | .ok v => v.property name

/-- The values of expressions, from left to right. -/
def evalAll (context : Value) : List Expr → Except EvalError (List Value)
  | [] => .ok []
  | e :: more =>
    match eval context e with
    | .error e => .error e
    | .ok v =>
      match evalAll context more with
      | .error e => .error e
      | .ok vs => .ok (v :: vs)

end

end Expr
end TextTemplate
