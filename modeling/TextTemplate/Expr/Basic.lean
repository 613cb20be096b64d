import TextTemplate.Binary64.Basic
import TextTemplate.Expr.Operator
/-!
# Expressions

* `Expr`: the trees that expressions are parsed into and that are evaluated.
-/
namespace TextTemplate

/-- An expression. -/
inductive Expr where
  /-- A number. -/
  | number (n : Binary64)
  /-- The entry of the data context with this name. -/
  | var (name : String)
  /-- Two operands and an operator between them. -/
  | binary (op : BinaryOp) (left right : Expr)
  /-- An operand behind a sign. -/
  | signed (sign : Sign) (operand : Expr)
  /-- A call of a built-in function. -/
  | call (name : String) (args : List Expr)
  /-- An item of an array, by its position. -/
  | index (collection position : Expr)
  /-- A property of a value, by its name. -/
  | property (object : Expr) (name : String)
deriving Inhabited

end TextTemplate
