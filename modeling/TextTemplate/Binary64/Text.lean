import TextTemplate.Decimal.Shortest
import TextTemplate.Decimal.Layout
/-!
# The text of a number

A number is written with its shortest decimal. Two formats are in use.

* `Binary64.text`: the text that is substituted into templates and printed as JSON. Both zeros are
  `0`, and very large and very small numbers have an exponent.
* `Binary64.plainText`: the text inside messages about tokens and positions. It never has an
  exponent, and negative zero keeps its sign.
-/
namespace TextTemplate
namespace Binary64

/-- A minus sign before the text of a negative number. -/
def withSign (negative : Bool) (digits : List Char) : List Char :=
  if negative then '-' :: digits else digits

/-- From this magnitude on, `10 ^ 21`, numbers are written with an exponent. -/
def exponentFrom : Binary64 := Decimal.toBinary64 false ⟨1, 21⟩

/-- Below this magnitude, the double nearest to `10 ^ -6`, numbers are written with an exponent. -/
def exponentBelow : Binary64 := Decimal.toBinary64 false ⟨1, -6⟩

/-- Whether a number is written without an exponent. -/
def isPositional (x : Binary64) : Bool := exponentBelow.le x.abs && x.abs.lt exponentFrom

/-- The characters of `text`. -/
def textChars : Binary64 → List Char
  | .nan => "NaN".toList
  | .infinite s => withSign s "Infinity".toList
  | .finite s m =>
    if m.units = 0 then ['0']
    else if isPositional (.finite s m) then withSign s m.shortest.positional
    else withSign s m.shortest.scientific

/-- The text of a number in output. -/
def text (x : Binary64) : String := String.ofList x.textChars

/-- The text of a number in messages, without an exponent at any size. -/
def plainText : Binary64 → String
  | .nan => "NaN"
  | .infinite s => String.ofList (withSign s "inf".toList)
  | .finite s m =>
    if m.units = 0 then String.ofList (withSign s ['0'])
    else String.ofList (withSign s m.shortest.positional)

end Binary64
end TextTemplate
