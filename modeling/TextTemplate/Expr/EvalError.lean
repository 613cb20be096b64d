import TextTemplate.Binary64.Text
import TextTemplate.Expr.Operator
import TextTemplate.Value.Basic
/-!
# Evaluation errors

* `Role`: the places that only a number can fill.
* `EvalError`: why an expression has no value.
* `EvalError.message`: the text of an error.
-/
namespace TextTemplate

/-- A place that only a number can fill. -/
inductive Role where
  | leftOperand (op : BinaryOp)
  | rightOperand (op : BinaryOp)
  | signedOperand (sign : Sign)
  /-- An argument of a function; positions count from one. -/
  | argument (position : Nat) (function : String)
deriving DecidableEq

/-- How a message names a place. -/
def Role.display : Role → String
  | .leftOperand op => "Left operand of '" ++ op.symbol.toString ++ "'"
  | .rightOperand op => "Right operand of '" ++ op.symbol.toString ++ "'"
  | .signedOperand sign => "Unary '" ++ sign.symbol.toString ++ "'"
  | .argument position function => "Argument " ++ toString position ++ " of " ++ function ++ "()"

/-- Why an expression has no value in a data context. -/
inductive EvalError where
  /-- The data context has no entry with this name. -/
  | undefinedVariable (name : String)
  /-- No built-in function has this name. -/
  | unknownFunction (name : String)
  /-- A position is asked of a value that is no array. -/
  | notIndexable (found : Value.Kind)
  /-- The position, given by its summary, is not a whole number. -/
  | invalidIndex (position : String)
  /-- An array of this length has no item at this position. -/
  | indexOutOfBounds (position : Binary64) (length : Nat)
  /-- The receiver, given by its summary, has no property of this name. -/
  | missingProperty (name receiver : String)
  /-- A function was called without any argument. -/
  | missingArgument (function : String)
  /-- A value of another kind stands where only a number can. -/
  | notANumber (role : Role) (found : Value.Kind)
  /-- A text that reads as no number stands behind a plus sign. -/
  | notNumeric (text : String)
deriving DecidableEq

/-- The message of an evaluation error. -/
def EvalError.message : EvalError → String
  | .undefinedVariable name => "Undefined variable: " ++ name
  | .unknownFunction name => "Unknown function: " ++ name
  | .notIndexable found =>
    "Cannot index into " ++ found.name ++ "; only arrays support indexing"
  | .invalidIndex position => "Array index must be an integer, got " ++ position
  | .indexOutOfBounds position length =>
    "Array index " ++ position.plainText ++ " out of bounds (length: " ++ toString length ++ ")"
  | .missingProperty name receiver => "Property '" ++ name ++ "' not found on " ++ receiver
  | .missingArgument function => function ++ "() expects at least 1 argument"
  | .notANumber role found =>
    "Type error: " ++ role.display ++ " requires a number, got " ++ found.name
  | .notNumeric text => "Type error: Cannot convert \"" ++ text ++ "\" to a number"

end TextTemplate
