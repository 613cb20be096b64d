import TextTemplate.Binary64.Bits
import TextTemplate.Expr.EvalError
import TextTemplate.Text.Blank
import TextTemplate.Decimal.Numeral
import TextTemplate.Value.Printer
/-!
# Operations on values

What operators, signs, positions, properties and built-in functions do with values.

* `BinaryOp.apply`: arithmetic on two numbers; a plus sign next to a text joins two texts.
* `Sign.apply`: a plus sign reads a text as a number, a minus sign negates.
* `Value.item`: the item of an array at a position.
* `Value.property`: the entry of an object, or the length of an array or text.
* `callBuiltin`: a built-in function on its arguments.
-/
namespace TextTemplate

/-- The double of a number that fills a place. -/
def Role.number (role : Role) : Value → Except EvalError Binary64
  | .number n => .ok n
  | v => .error (.notANumber role v.kind)

/-! ## Operators -/

/-- The result of an operator on two numbers. -/
def BinaryOp.compute : BinaryOp → Binary64 → Binary64 → Binary64
  | .add => .add
  | .subtract => .sub
  | .multiply => .mul
  | .divide => .div
  | .remainder => .rem
  | .power => .pow

/-- The result of an operator on two values. A plus sign joins the texts of its operands as soon as
one of them is a text; in all other cases both have to be numbers. -/
def BinaryOp.apply (op : BinaryOp) (left right : Value) : Except EvalError Value :=
  if op = .add ∧ (left.kind = .string ∨ right.kind = .string) then
    .ok (.string (left.display ++ right.display))
  else
    match Role.number (.leftOperand op) left with
    | .error e => .error e
    | .ok a =>
      match Role.number (.rightOperand op) right with
      | .error e => .error e
      | .ok b => .ok (.number (op.compute a b))

/-- The number that a text reads as, without the blanks around it; a blank text reads as zero. -/
def numberOfText (text : String) : Except EvalError Binary64 :=
  match trim text.toList with
  | [] => .ok .zero
  | cs =>
    match Binary64.read? cs with
    | some n => .ok n
    | none => .error (.notNumeric text)

/-- The result of a sign before a value. -/
def Sign.apply : Sign → Value → Except EvalError Value
  | .plus, .number n => .ok (.number n)
  | .plus, .string s =>
    match numberOfText s with
    | .ok n => .ok (.number n)
    | .error e => .error e
  | .minus, .number n => .ok (.number n.neg)
  | sign, v => .error (.notANumber (.signedOperand sign) v.kind)

/-! ## Access -/

namespace Value

/-- The item of an array at a position, which has to be a whole number below the length. The
length is compared as a double. -/
def item (collection position : Value) : Except EvalError Value :=
  match collection with
  | .array items =>
    match position with
    | .number n =>
      if n.isInteger then
        if n.lt .zero || (Binary64.ofNat items.length).le n then
          .error (.indexOutOfBounds n items.length)
        else
          match items[n.toNat]? with
          | some v => .ok v
          | none => .error (.indexOutOfBounds n items.length)
      else .error (.invalidIndex position.summary)
    | _ => .error (.invalidIndex position.summary)
  | _ => .error (.notIndexable collection.kind)

/-- The name of the property that arrays and texts have. -/
def lengthProperty : String := "length"

/-- The property of a value, if it has one of that name. -/
def property? (name : String) : Value → Option Value
  | .object entries => entries.lookup name
  | .array items =>
    if name = lengthProperty then some (.number (.ofNat items.length)) else none
  | .string s => if name = lengthProperty then some (.number (.ofNat s.length)) else none
  | _ => none

/-- The property of a value: an entry of an object, the number of items of an array, or the number
of characters of a text. -/
def property (name : String) (v : Value) : Except EvalError Value :=
  match v.property? name with
  | some found => .ok found
  | none => .error (.missingProperty name v.summary)

end Value

/-! ## Built-in functions -/

/-- The built-in functions. -/
inductive Builtin where
  | min
  | max
  | abs
  | round
  | floor
  | ceil
deriving DecidableEq, Repr

namespace Builtin

/-- The name of a function in lower case. -/
def name : Builtin → String
  | .min => "min"
  | .max => "max"
  | .abs => "abs"
  | .round => "round"
  | .floor => "floor"
  | .ceil => "ceil"

/-- All functions. -/
def all : List Builtin := [.min, .max, .abs, .round, .floor, .ceil]

/-- The function of a name, in any letter case. -/
def ofName? (name : String) : Option Builtin := all.find? fun f => spells f.name name.toList

/-- The result of a function. The functions of one argument disregard all others. -/
def compute (first : Binary64) (rest : List Binary64) : Builtin → Binary64
  | .min => .minimum first rest
  | .max => .maximum first rest
  | .abs => first.abs
  | .round => first.roundHalfUp
  | .floor => first.floor
  | .ceil => first.ceil

end Builtin

/-- The doubles of arguments, the first of which has the given position. -/
def numberArguments (function : String) (position : Nat) :
    List Value → Except EvalError (List Binary64)
  | [] => .ok []
  | arg :: more =>
    match Role.number (.argument position function) arg with
    | .error e => .error e
    | .ok n =>
      match numberArguments function (position + 1) more with
      | .error e => .error e
      | .ok ns => .ok (n :: ns)

/-- The result of calling a function by its name. All arguments have to be numbers, also those
that the function disregards. -/
def callBuiltin (name : String) (args : List Value) : Except EvalError Value :=
  match Builtin.ofName? name with
  | none => .error (.unknownFunction name)
  | some f =>
    match numberArguments name 1 args with
    | .error e => .error e
    | .ok [] => .error (.missingArgument name)
    | .ok (first :: rest) => .ok (.number (f.compute first rest))

end TextTemplate
