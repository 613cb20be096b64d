/-!
# Letter case

* `spells`: whether a text is a given word in any mixture of upper and lower case ASCII letters.
-/
namespace TextTemplate

/-- Whether a text is `word`, which is in lower case, in any letter case. -/
def spells (word : String) (cs : List Char) : Bool := cs.map Char.toLower == word.toList

end TextTemplate
