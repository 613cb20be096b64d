import TextTemplate.Expr.Basic
import TextTemplate.Expr.Cursor
/-!
# Parsing expressions

From the loosest to the tightest binding:

```text
sum     := product (("+" | "-") product)*
product := power (("*" | "/" | "%") power)*
power   := signed ("^" signed)*
signed  := ("+" | "-") signed | atom
atom    := NUMBER
         | "(" sum ")"
         | NAME "(" (sum ("," sum)*)? ")"
         | NAME ("." NAME | "[" sum "]")*
```

All binary operators associate to the left, a sign binds tighter than a power, and a call ends its
chain of properties and positions.

Every sign, group, call, property, position and binary operator takes the parser one level down,
and no place may lie deeper than `depthLimit` levels. The levels that a construct takes are given
back when it is complete. After an error they are not: a parser that is used again goes on with the
token, the place in the text and the depth that the error left.

* `parseLevel` and the functions beside it: the rules of the grammar.
* `Parser.expression`, `Parser.parse`: the two ways of using a parser.
* `Expr.parse`: the expression that a whole text stands for.
-/
namespace TextTemplate

/-! ## The grammar -/

/-- Orders the rules of the grammar that pass on to each other at the same place. -/
def BinaryOp.Level.rank : BinaryOp.Level → Nat
  | .sum => 7
  | .product => 5
  | .power => 3

@[simp] theorem BinaryOp.Level.rank_sum : rank .sum = 7 := rfl

@[simp] theorem BinaryOp.Level.rank_product : rank .product = 5 := rfl

@[simp] theorem BinaryOp.Level.rank_power : rank .power = 3 := rfl

theorem BinaryOp.Level.rank_le (l : BinaryOp.Level) : l.rank ≤ 7 := by
  cases l <;> decide

mutual

/-- Operands with binary operators of one level between them. -/
def parseLevel (l : BinaryOp.Level) (depth : Nat) (c : Cursor) : Step Expr c.size :=
  (parseOperand l depth c).andThen fun left rest h =>
    (parseChain l depth left rest).within h
termination_by 11 * c.size + l.rank + 1

/-- An operand of a level. -/
def parseOperand (l : BinaryOp.Level) (depth : Nat) (c : Cursor) : Step Expr c.size :=
  match l with
  | .sum => parseLevel .product depth c
  | .product => parseLevel .power depth c
  | .power => parseSigned depth c
termination_by 11 * c.size + l.rank

/-- The operators and operands of a level that follow `left`. -/
def parseChain (l : BinaryOp.Level) (depth : Nat) (left : Expr) (c : Cursor) :
    Step Expr (c.size + 1) :=
  match htoken : c.token with
  | .operator op =>
    if op.level = l then
      (c.enter depth c.token (by simp [htoken])).andThen fun _ c₁ h₁ =>
        (parseOperand l (depth + 1) c₁).andThen fun right c₂ h₂ =>
          (parseChain l (depth + 1) (.binary op left right) c₂).within (by omega)
    else .done left c (Nat.lt_succ_self _)
  | _ => .done left c (Nat.lt_succ_self _)
termination_by 11 * c.size + 0
decreasing_by
  · have := l.rank_le
    omega
  · omega

/-- Signs, and what they stand before. -/
def parseSigned (depth : Nat) (c : Cursor) : Step Expr c.size :=
  match htoken : c.token with
  | .operator op =>
    match Sign.ofOperator? op with
    | some sign =>
      (c.enter depth c.token (by simp [htoken])).andThen fun _ c₁ h₁ =>
        ((parseSigned (depth + 1) c₁).map (.signed sign)).within (Nat.le_of_lt h₁)
    | none => parseAtom depth c
  | _ => parseAtom depth c
termination_by 11 * c.size + 2

/-- A number, a group, a call, or a name with its properties and positions. -/
def parseAtom (depth : Nat) (c : Cursor) : Step Expr c.size :=
  match htoken : c.token with
  | .number n => (c.advance depth .endOfInput (by simp [htoken])).map fun _ => .number n
  | .leftParen =>
    (c.enter depth .endOfInput (by simp [htoken])).andThen fun _ c₁ h₁ =>
      (parseLevel .sum (depth + 1) c₁).andThen fun e c₂ h₂ =>
        ((c₂.take (depth + 1) .rightParen (by decide)).map fun _ => e).within (by omega)
  | .identifier name =>
    (c.advance depth .endOfInput (by simp [htoken])).andThen fun _ c₁ h₁ =>
      if hcall : c₁.token = .leftParen then
        (c₁.enter depth c₁.token (by simp [hcall])).andThen fun _ c₂ h₂ =>
          ((parseArguments (depth + 1) c₂).map (.call name)).within (by omega)
      else (parseSuffixes depth (.var name) c₁).within h₁
  | found => .failed (.unexpectedToken .operand found) ⟨⟨.endOfInput, c.lexer⟩, depth⟩
termination_by 11 * c.size + 1

/-- The arguments of a call up to the closing parenthesis. -/
def parseArguments (depth : Nat) (c : Cursor) : Step (List Expr) c.size :=
  if hclose : c.token = .rightParen then
    (c.advance depth c.token (by simp [hclose])).map fun _ => []
  else parseMoreArguments depth c
termination_by 11 * c.size + 10

/-- At least one argument, and the following ones. -/
def parseMoreArguments (depth : Nat) (c : Cursor) : Step (List Expr) c.size :=
  (parseLevel .sum depth c).andThen fun arg c₁ h₁ =>
    if hcomma : c₁.token = .comma then
      (c₁.advance depth c₁.token (by simp [hcomma])).andThen fun _ c₂ h₂ =>
        ((parseMoreArguments depth c₂).map (arg :: ·)).within (by omega)
    else ((c₁.take depth .rightParen (by decide)).map fun _ => [arg]).within (Nat.le_of_lt h₁)
termination_by 11 * c.size + 9

/-- The properties and positions that follow `base`. -/
def parseSuffixes (depth : Nat) (base : Expr) (c : Cursor) : Step Expr (c.size + 1) :=
  match htoken : c.token with
  | .leftBracket =>
    (c.enter depth c.token (by simp [htoken])).andThen fun _ c₁ h₁ =>
      (parseLevel .sum (depth + 1) c₁).andThen fun position c₂ h₂ =>
        (c₂.take (depth + 1) .rightBracket (by decide)).andThen fun _ c₃ h₃ =>
          (parseSuffixes (depth + 1) (.index base position) c₃).within (by omega)
  | .dot =>
    (c.enter depth c.token (by simp [htoken])).andThen fun _ c₁ h₁ =>
      match hname : c₁.token with
      | .identifier name =>
        (c₁.advance (depth + 1) .endOfInput (by simp [hname])).andThen fun _ c₂ h₂ =>
          (parseSuffixes (depth + 1) (.property base name) c₂).within (by omega)
      | found =>
        .failed (.unexpectedToken .propertyName found) ⟨⟨.endOfInput, c₁.lexer⟩, depth + 1⟩
  | _ => .done base c (Nat.lt_succ_self _)
termination_by 11 * c.size + 0

end

/-! ## The parser -/

namespace Parser

/-- The parser at the start of a text, with the first token under the cursor. -/
def ofText (text : String) : Except ParseError Parser :=
  match (Lexer.ofText text).next with
  | (.ok token, lexer) => .ok ⟨⟨token, lexer⟩, 0⟩
  | (.error e, _) => .error (.lex e)

/-- Reads one expression; more may follow it. -/
def expression (p : Parser) : Except ParseError Expr × Parser :=
  match parseLevel .sum p.depth p.cursor with
  | .done e rest _ => (.ok e, ⟨rest, p.depth⟩)
  | .failed error stop => (.error error, stop)

/-- Reads one expression up to the end of the input. -/
def parse (p : Parser) : Except ParseError Expr × Parser :=
  match p.expression with
  | (.ok e, rest) =>
    if rest.cursor.token = .endOfInput then (.ok e, rest)
    else (.error (.trailingInput rest.cursor.token), rest)
  | failure => failure

end Parser

/-- The expression that a whole text stands for. -/
def Expr.parse (text : String) : Except ParseError Expr :=
  match Parser.ofText text with
  | .ok p => p.parse.1
  | .error e => .error e

end TextTemplate
