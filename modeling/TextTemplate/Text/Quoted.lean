/-!
# Quoted text

A text in JSON output stands in double quotes. The quote, the backslash and the control
characters, the ones above `U+007F` among them, are escaped; all other characters stand for
themselves.

* `isControl`: the general category `Cc`.
* `escape`: how one character is written between quotes.
* `quote`: a whole text with its quotes.
-/
namespace TextTemplate

/-- Whether a character is a control character. -/
def isControl (c : Char) : Bool :=
  decide (c.toNat < 0x20) || decide (0x7f ≤ c.toNat) && decide (c.toNat ≤ 0x9f)

/-- Four hexadecimal digits; enough for every control character. -/
def hexQuad (n : Nat) : List Char :=
  [Nat.digitChar (n / 4096 % 16), Nat.digitChar (n / 256 % 16), Nat.digitChar (n / 16 % 16),
    Nat.digitChar (n % 16)]

/-- A character as it stands between quotes. -/
def escape (c : Char) : List Char :=
  if c = '"' then ['\\', '"']
  else if c = '\\' then ['\\', '\\']
  else if c = '\n' then ['\\', 'n']
  else if c = '\r' then ['\\', 'r']
  else if c = '\t' then ['\\', 't']
  else if isControl c then '\\' :: 'u' :: hexQuad c.toNat
  else [c]

/-- A text in quotes. -/
def quote (cs : List Char) : List Char := '"' :: cs.flatMap escape ++ ['"']

end TextTemplate
