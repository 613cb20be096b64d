import TextTemplate.Text.Unprintable
import TextTemplate.Text.Combining
/-!
# Character literals

A message shows a single character in single quotes, in a way that can be read on any screen.

* `charLiteral`: the character in quotes; one that cannot be seen on its own is shown by its code
  point.
-/
namespace TextTemplate

/-- A code point in hexadecimal digits, as `\u{..}`. -/
def codePointEscape (c : Char) : List Char :=
  '\\' :: 'u' :: '\x7b' :: Nat.toDigits 16 c.toNat ++ ['\x7d']

/-- What stands between the quotes of a character literal. -/
def charLiteralBody (c : Char) : List Char :=
  if c = '\x00' then ['\\', '0']
  else if c = '\t' then ['\\', 't']
  else if c = '\n' then ['\\', 'n']
  else if c = '\r' then ['\\', 'r']
  else if c = '\'' then ['\\', '\'']
  else if c = '\\' then ['\\', '\\']
  else if isCombining c || isUnprintable c then codePointEscape c
  else [c]

/-- A character in single quotes. -/
def charLiteral (c : Char) : String := String.ofList ('\'' :: charLiteralBody c ++ ['\''])

end TextTemplate
