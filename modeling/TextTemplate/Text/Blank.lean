/-!
# Blank characters

* `isBlank`: the Unicode property `White_Space`.
* `trim`: a text without the blank characters at its two ends.
-/
namespace TextTemplate

/-- First and last code point of every run of blank characters. -/
def Blank.ranges : List (Nat × Nat) :=
  [(0x9, 0xd), (0x20, 0x20), (0x85, 0x85), (0xa0, 0xa0), (0x1680, 0x1680), (0x2000, 0x200a),
   (0x2028, 0x2029), (0x202f, 0x202f), (0x205f, 0x205f), (0x3000, 0x3000)]

/-- Whether a character is blank. -/
def isBlank (c : Char) : Bool :=
  Blank.ranges.any fun (first, last) => first ≤ c.toNat && c.toNat ≤ last

/-- A text without the blank characters at its end. -/
def trimEnd (cs : List Char) : List Char := (cs.reverse.dropWhile isBlank).reverse

/-- A text without the blank characters at its start and at its end. -/
def trim (cs : List Char) : List Char := trimEnd (cs.dropWhile isBlank)

end TextTemplate
