import TextTemplate.Expr.Basic
import TextTemplate.Proofs.Token.Cut
/-!
# Printing expressions

- `Expr.Proper`: the trees that a text can stand for: names are names, numbers are numbers that a
  numeral can have, and only a name with its properties and positions has further ones.
- `Expr.chars`, `Expr.text`: an expression without spaces, with parentheses only where a tree would
  be another one without them, and with numbers as their exact decimal expansions.
- `Expr.nodes`: the number of nodes of a tree.
-/

namespace TextTemplate

/-- A finite number that is not negative, and not negative zero either. -/
def Binary64.IsPlain (n : Binary64) : Prop := ∃ m, n = .finite false m

/-- A plain number, or the infinity that stands for one that is too large. -/
def Binary64.IsNumeralValue (n : Binary64) : Prop := n.IsPlain ∨ n = .infinite false

/-- A number as its exact decimal expansion. -/
def Binary64.expansion : Binary64 → List Char
  | .finite s m => withSign s m.expansion
  | x => x.textChars

/-- How tightly the operators of a level bind. -/
def BinaryOp.Level.precedence : BinaryOp.Level → Nat
  | .sum => 1
  | .product => 2
  | .power => 3

namespace Expr

/-- A name, a property or a position: what a property or a position can be taken of. -/
def IsChain : Expr → Prop
  | .var _ => True
  | .index .. => True
  | .property .. => True
  | _ => False

mutual

/-- All names of a tree are names, all its numbers are among those given, and properties and
positions are taken of chains only. -/
def Proper (isNumber : Binary64 → Prop) : Expr → Prop
  | .number n => isNumber n
  | .var name => IsName name
  | .binary _ left right => Proper isNumber left ∧ Proper isNumber right
  | .signed _ operand => Proper isNumber operand
  | .call name args => IsName name ∧ AllProper isNumber args
  | .index collection position =>
    collection.IsChain ∧ Proper isNumber collection ∧ Proper isNumber position
  | .property object name => object.IsChain ∧ Proper isNumber object ∧ IsName name

/-- All trees of a list are of this shape. -/
def AllProper (isNumber : Binary64 → Prop) : List Expr → Prop
  | [] => True
  | e :: more => Proper isNumber e ∧ AllProper isNumber more

end

mutual

/-- The number of nodes of a tree. -/
def nodes : Expr → Nat
  | .number _ => 1
  | .var _ => 1
  | .binary _ left right => 1 + nodes left + nodes right
  | .signed _ operand => 1 + nodes operand
  | .call _ args => 1 + allNodes args
  | .index collection position => 1 + nodes collection + nodes position
  | .property object _ => 1 + nodes object

/-- The number of nodes of the trees of a list. -/
def allNodes : List Expr → Nat
  | [] => 0
  | e :: more => nodes e + allNodes more

end

/-! ## Parentheses -/

/-- Whether an operand on the left of an operator needs parentheses: its own operator has a lower
precedence. -/
def needsLeft (op : BinaryOp) : Expr → Bool
  | .binary inner _ _ => decide (inner.level.precedence < op.level.precedence)
  | _ => false

/-- Whether an operand on the right of an operator needs parentheses: its own operator has a lower
precedence or the same. -/
def needsRight (op : BinaryOp) : Expr → Bool
  | .binary inner _ _ => decide (inner.level.precedence ≤ op.level.precedence)
  | _ => false

/-- Whether an operand behind a sign needs parentheses: it has an operator. -/
def needsSigned : Expr → Bool
  | .binary .. => true
  | _ => false

/-- A text in parentheses if it needs them. -/
def enclose (needed : Bool) (cs : List Char) : List Char :=
  if needed then '(' :: (cs ++ [')']) else cs

/-! ## The text of an expression -/

mutual

/-- The characters of an expression. -/
def chars : Expr → List Char
  | .number n => n.expansion
  | .var name => name.toList
  | .binary op left right =>
    enclose (left.needsLeft op) (chars left)
      ++ op.symbol :: enclose (right.needsRight op) (chars right)
  | .signed sign operand => sign.symbol :: enclose operand.needsSigned (chars operand)
  | .call name args => name.toList ++ '(' :: (argumentChars args ++ [')'])
  | .index collection position => chars collection ++ '[' :: (chars position ++ [']'])
  | .property object name => chars object ++ '.' :: name.toList

/-- The characters of arguments, with commas between them. -/
def argumentChars : List Expr → List Char
  | [] => []
  | [e] => chars e
  | e :: more => chars e ++ ',' :: argumentChars more

end

/-- The text of an expression. -/
def text (e : Expr) : String := String.ofList e.chars

end Expr
end TextTemplate
