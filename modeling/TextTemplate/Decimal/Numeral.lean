import TextTemplate.Decimal.Basic
import TextTemplate.Text.LetterCase
/-!
# Reading numerals

Numerals appear in JSON text and in text that is converted to a number. Their parts are the same,
and are read here; each place has its own rule for how the parts combine.

* `splitDigits`: a run of decimal digits and the rest.
* `splitFraction`: the digits behind a point, if there is a point, and the rest.
* `splitExponent`: the exponent, if there is one, and the rest.
* `Binary64.read?`: the numeral of a free text, with the names of infinity and not-a-number.
-/
namespace TextTemplate

/-- The run of decimal digits at the head of a text, and the rest. -/
def splitDigits (cs : List Char) : List Char × List Char :=
  (cs.takeWhile Char.isDigit, cs.dropWhile Char.isDigit)

/-- A minus sign at the head of a text, and the rest. -/
def splitMinus : List Char → Bool × List Char
  | '-' :: cs => (true, cs)
  | cs => (false, cs)

/-- A sign of either kind at the head of a text, and the rest. -/
def splitSign : List Char → Bool × List Char
  | '+' :: cs => (false, cs)
  | cs => splitMinus cs

/-- The digits behind a point at the head of a text, and the rest; no point, no digits. -/
def splitFraction : List Char → Option (List Char) × List Char
  | '.' :: cs => (some (splitDigits cs).1, (splitDigits cs).2)
  | cs => (none, cs)

/-- The exponent at the head of a text, and the rest. A text that does not start with an exponent
mark has the exponent zero; a mark without digits behind it is refused. -/
def splitExponent : List Char → Option (Int × List Char)
  | [] => some (0, [])
  | c :: cs =>
    if c = 'e' ∨ c = 'E' then
      let (negative, more) := splitSign cs
      match splitDigits more with
      | ([], _) => none
      | (digits, rest) => some (signed negative (Nat.ofDigitChars 10 digits 0), rest)
    else some (0, c :: cs)

/-- Reads a numeral without a sign: digits with at most one point among them, at least one digit,
and perhaps an exponent. -/
def readUnsigned? (cs : List Char) : Option Decimal :=
  let (whole, afterWhole) := splitDigits cs
  let (fraction?, afterFraction) := splitFraction afterWhole
  let fraction := fraction?.getD []
  if whole.isEmpty && fraction.isEmpty then none
  else
    match splitExponent afterFraction with
    | some (exponent, []) => some (.ofNumeral whole fraction exponent)
    | _ => none

/-- Reads a whole text as a number: a numeral, or a name of infinity or not-a-number in any letter
case, with a sign or without. -/
def Binary64.read? (cs : List Char) : Option Binary64 :=
  let (negative, body) := splitSign cs
  if spells "nan" body then some .nan
  else if spells "inf" body || spells "infinity" body then some (.infinite negative)
  else (readUnsigned? body).map (Decimal.toBinary64 negative)

end TextTemplate
