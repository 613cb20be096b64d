import TextTemplate.Binary64.Text
import TextTemplate.Decimal.Numeral
import TextTemplate.Expr.Operator
/-!
# Tokens

The text of an expression is cut into lexemes, and a lexeme stands for a token. A lexeme is as long
as it can be: a numeral takes all digits and points that follow its first digit, a name all ASCII
letters, digits and underscores that follow its first character. Every other lexeme is a single
character.

* `Token`: the tokens, the end of the input among them.
* `Token.display`: how a message shows a token.
* `lexemeTail`: the characters behind the first one that belong to the same lexeme.
* `Token.ofLexeme?`: the token of a lexeme.
-/
namespace TextTemplate

/-- A token of an expression. -/
inductive Token where
  | number (n : Binary64)
  | identifier (name : String)
  | operator (op : BinaryOp)
  | leftParen
  | rightParen
  | leftBracket
  | rightBracket
  | comma
  | dot
  | endOfInput
deriving DecidableEq

namespace Token

/-- How a message shows a token. -/
def display : Token → String
  | .number n => "number " ++ n.plainText
  | .identifier name => "identifier '" ++ name ++ "'"
  | .operator op => "operator '" ++ op.symbol.toString ++ "'"
  | .leftParen => "'('"
  | .rightParen => "')'"
  | .leftBracket => "'['"
  | .rightBracket => "']'"
  | .comma => "','"
  | .dot => "'.'"
  | .endOfInput => "end of input"

/-- The bracket, comma or point that a character writes. -/
def ofPunctuation? : Char → Option Token
  | '(' => some .leftParen
  | ')' => some .rightParen
  | '[' => some .leftBracket
  | ']' => some .rightBracket
  | ',' => some .comma
  | '.' => some .dot
  | _ => none

end Token

/-! ## Lexemes -/

/-- Whether a name may start with a character; names are ASCII. -/
def isNameStart (c : Char) : Bool := c.isAlpha || c == '_'

/-- Whether a name may go on with a character. -/
def isNameChar (c : Char) : Bool := c.isAlphanum || c == '_'

/-- Whether a numeral may go on with a character. -/
def isNumeralChar (c : Char) : Bool := c.isDigit || c == '.'

/-- The characters behind `c` that belong to the same lexeme. -/
def lexemeTail (c : Char) (cs : List Char) : List Char :=
  if c.isDigit then cs.takeWhile isNumeralChar
  else if isNameStart c then cs.takeWhile isNameChar
  else []

/-- The value of a numeral: digits, of which those behind the first point are a fraction. What
follows a second point belongs to the lexeme but not to the value. -/
def numeralValue (cs : List Char) : Binary64 :=
  let (whole, afterWhole) := splitDigits cs
  let fraction := (splitFraction afterWhole).1.getD []
  (Decimal.ofNumeral whole fraction 0).toBinary64 false

/-- The token that the lexeme `c :: tail` stands for. -/
def Token.ofLexeme? (c : Char) (tail : List Char) : Option Token :=
  if c.isDigit then some (.number (numeralValue (c :: tail)))
  else if isNameStart c then some (.identifier (String.ofList (c :: tail)))
  else
    match BinaryOp.ofChar? c with
    | some op => some (.operator op)
    | none => Token.ofPunctuation? c

theorem Token.ofLexeme?_ne_endOfInput (c : Char) (tail : List Char) :
    Token.ofLexeme? c tail ≠ some .endOfInput := by
  unfold Token.ofLexeme?
  split
  · simp
  split
  · simp
  split
  · simp
  · unfold Token.ofPunctuation?
    split <;> simp

end TextTemplate
