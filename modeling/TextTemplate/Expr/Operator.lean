/-!
# Operators

* `BinaryOp`: the six binary operators.
* `BinaryOp.Level`: the three levels of precedence; within a level operators associate to the left.
* `Sign`: the two signs that stand before an operand.
-/
namespace TextTemplate

/-- A binary operator. -/
inductive BinaryOp where
  | add
  | subtract
  | multiply
  | divide
  | remainder
  | power
deriving DecidableEq, Repr

namespace BinaryOp

/-- The character that writes an operator. -/
def symbol : BinaryOp → Char
  | .add => '+'
  | .subtract => '-'
  | .multiply => '*'
  | .divide => '/'
  | .remainder => '%'
  | .power => '^'

/-- The operator that a character writes. -/
def ofChar? : Char → Option BinaryOp
  | '+' => some .add
  | '-' => some .subtract
  | '*' => some .multiply
  | '/' => some .divide
  | '%' => some .remainder
  | '^' => some .power
  | _ => none

/-- An operator is read off its own symbol only. -/
theorem ofChar?_eq_some_iff {c : Char} {op : BinaryOp} : ofChar? c = some op ↔ c = op.symbol := by
  constructor
  · intro h
    unfold ofChar? at h
    split at h <;> cases h <;> rfl
  · rintro rfl
    cases op <;> rfl

/-- The levels of precedence, from the loosest to the tightest. -/
inductive Level where
  | sum
  | product
  | power
deriving DecidableEq, Repr

/-- The level of precedence of an operator. -/
def level : BinaryOp → Level
  | .add => .sum
  | .subtract => .sum
  | .multiply => .product
  | .divide => .product
  | .remainder => .product
  | .power => .power

end BinaryOp

/-- A sign before an operand. -/
inductive Sign where
  | plus
  | minus
deriving DecidableEq, Repr

namespace Sign

/-- The character that writes a sign. -/
def symbol : Sign → Char
  | .plus => '+'
  | .minus => '-'

/-- The sign that a character writes. -/
def ofChar? : Char → Option Sign
  | '+' => some .plus
  | '-' => some .minus
  | _ => none

/-- The sign that is written like a binary operator. -/
def ofOperator? (op : BinaryOp) : Option Sign := ofChar? op.symbol

end Sign
end TextTemplate
