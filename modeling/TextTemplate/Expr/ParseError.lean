import TextTemplate.Token.Lexer
/-!
# Parser errors

* `Expectation`: what a parser needed at a place.
* `depthLimit`: how deep an expression may be nested.
* `ParseError`: why a text is no expression, with `ParseError.message`.
-/
namespace TextTemplate

/-- What a parser needed at a place where it found something else. -/
inductive Expectation where
  /-- The start of an operand. -/
  | operand
  /-- The name of a property. -/
  | propertyName
  /-- One particular token. -/
  | token (t : Token)
deriving DecidableEq

/-- How a message names what was needed. -/
def Expectation.display : Expectation → String
  | .operand => "number, identifier or '('"
  | .propertyName => "property name after '.'"
  | .token t => t.display

/-- How many levels deep an expression may be nested. -/
def depthLimit : Nat := 256

/-- Why a text is no expression. -/
inductive ParseError where
  /-- The text cannot be cut into tokens. -/
  | lex (error : LexError)
  /-- A token other than the needed one. -/
  | unexpectedToken (expected : Expectation) (found : Token)
  /-- A token behind a complete expression. -/
  | trailingInput (found : Token)
  /-- More than `depthLimit` levels of nesting. -/
  | tooDeep
deriving DecidableEq

/-- The message of a parser error. -/
def ParseError.message : ParseError → String
  | .lex e => e.message
  | .unexpectedToken expected found => "Expected " ++ expected.display ++ ", got " ++ found.display
  | .trailingInput found => "Unexpected " ++ found.display ++ " after complete expression"
  | .tooDeep => "Expression nested deeper than " ++ toString depthLimit ++ " levels"

/-- The messages of the errors behind a parser error, the outermost first. -/
def ParseError.causes : ParseError → List String
  | .lex e => [e.message]
  | _ => []

end TextTemplate
