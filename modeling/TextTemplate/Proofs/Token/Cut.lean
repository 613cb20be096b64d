import TextTemplate.Proofs.Decimal.Expansion
import TextTemplate.Proofs.Token.Spelling
/-!
# Cutting a text into lexemes

Lexemes need nothing between them as long as none of them goes on with the first character of the
next one.

- `Cut cs ts rest`: the lexer takes the tokens off the head of a text without meeting a space, and
  leaves a rest.
- `Cut.single`, `Cut.name`, `Cut.number`: one lexeme, by the way in which it ends.
- `tokenize_of_cut`: a text that is cut up to its end has these tokens.
-/

namespace TextTemplate

/-- The lexer cuts a text into lexemes with these tokens and a rest. Each lexeme is as long as it
can be. -/
inductive Cut : List Char → List Token → List Char → Prop where
  | nil (rest : List Char) : Cut rest [] rest
  | cons {first : Char} {tail more rest : List Char} {token : Token} {ts : List Token}
      (htail : lexemeTail first (tail ++ more) = tail)
      (htoken : Token.ofLexeme? first tail = some token) (hmore : Cut more ts rest) :
      Cut (first :: (tail ++ more)) (token :: ts) rest

namespace Cut

variable {cs more rest : List Char} {ts us : List Token} {token : Token}

/-- What is left by the first lexemes is cut into the other ones. -/
theorem append (h : Cut cs ts more) (h' : Cut more us rest) : Cut cs (ts ++ us) rest := by
  induction h with
  | nil => exact h'
  | cons htail htoken _ ih => exact .cons htail htoken (ih h')

/-- A lexeme of one character, whatever follows it. -/
theorem single {c : Char} (hdigit : c.isDigit = false) (hname : isNameStart c = false)
    (htoken : Token.ofLexeme? c [] = some token) : Cut (c :: rest) [token] rest := by
  show Cut (c :: ([] ++ rest)) [token] rest
  refine .cons ?_ htoken (.nil rest)
  rw [lexemeTail, hdigit, hname]
  rfl

/-- An operator is one character. -/
theorem operator (op : BinaryOp) : Cut (op.symbol :: rest) [.operator op] rest := by
  cases op <;> exact single (by decide) (by decide) rfl

/-- Brackets, commas and points are one character each, too. -/
theorem leftParen : Cut ('(' :: rest) [.leftParen] rest := single (by decide) (by decide) rfl

theorem rightParen : Cut (')' :: rest) [.rightParen] rest := single (by decide) (by decide) rfl

theorem leftBracket : Cut ('[' :: rest) [.leftBracket] rest := single (by decide) (by decide) rfl

theorem rightBracket : Cut (']' :: rest) [.rightBracket] rest := single (by decide) (by decide) rfl

theorem comma : Cut (',' :: rest) [.comma] rest := single (by decide) (by decide) rfl

theorem dot : Cut ('.' :: rest) [.dot] rest := single (by decide) (by decide) rfl

end Cut

/-! ## Names -/

/-- A name: an ASCII letter or underscore, and letters, digits and underscores behind it. -/
def IsName (name : String) : Prop :=
  ∃ first tail, name.toList = first :: tail ∧ isNameStart first ∧ ∀ c ∈ tail, isNameChar c

/-- A name is cut off where no character of a name follows. -/
theorem Cut.name {name : String} {rest : List Char} (h : IsName name)
    (hrest : Stops isNameChar rest) : Cut (name.toList ++ rest) [.identifier name] rest := by
  obtain ⟨first, tail, hname, hfirst, htail⟩ := h
  have htext : String.ofList (first :: tail) = name := by rw [← hname, String.ofList_toList]
  rw [hname]
  refine .cons ?_ ?_ (.nil rest)
  · rw [lexemeTail, isDigit_of_isNameStart hfirst, if_neg Bool.false_ne_true, if_pos hfirst,
      takeWhile_append htail hrest]
  · rw [Token.ofLexeme?, isDigit_of_isNameStart hfirst, if_neg Bool.false_ne_true, if_pos hfirst,
      htext]

/-! ## Numerals -/

/-- A numeral starts with a digit and goes on with digits and points. -/
theorem Magnitude.expansion_eq_cons (m : Magnitude) :
    ∃ first tail, m.expansion = first :: tail ∧ first.isDigit = true ∧
      ∀ c ∈ tail, isNumeralChar c = true := by
  obtain ⟨first, more, hwhole⟩ := List.exists_cons_of_ne_nil
    (Nat.toDigits_ne_nil (n := m.units / unitsPerOne) (b := 10))
  have hdigits : ∀ c ∈ first :: more, c.isDigit = true := by
    intro c hc
    rw [← hwhole] at hc
    exact isDigit_of_mem_toDigits hc
  refine ⟨first, more ++ if m.fraction = [] then [] else '.' :: m.fraction, ?_,
    hdigits first List.mem_cons_self, ?_⟩
  · rw [expansion, hwhole, List.cons_append]
  · intro c hc
    rw [isNumeralChar, Bool.or_eq_true, beq_iff_eq]
    rcases List.mem_append.1 hc with hmore | hfraction
    · exact .inl (hdigits c (List.mem_cons_of_mem _ hmore))
    · split at hfraction
      · cases hfraction
      · rcases List.mem_cons.1 hfraction with hpoint | hdigit
        · exact .inr hpoint
        · exact .inl (isDigit_of_mem_fraction hdigit)

/-- So is a numeral, which may have any number of points in it. -/
theorem Cut.number {first : Char} {tail rest : List Char} (hfirst : first.isDigit = true)
    (htail : ∀ c ∈ tail, isNumeralChar c = true) (hrest : Stops isNumeralChar rest) :
    Cut (first :: (tail ++ rest)) [.number (numeralValue (first :: tail))] rest := by
  refine .cons ?_ ?_ (.nil rest)
  · rw [lexemeTail, if_pos hfirst, takeWhile_append htail hrest]
  · rw [Token.ofLexeme?, if_pos hfirst]

/-- The decimal expansion of a double is a numeral, and is read as this double. -/
theorem Cut.numeral (m : Magnitude) {rest : List Char} (hrest : Stops isNumeralChar rest) :
    Cut (m.expansion ++ rest) [.number (.finite false m)] rest := by
  obtain ⟨first, tail, htext, hfirst, htail⟩ := m.expansion_eq_cons
  have hcut := Cut.number hfirst htail hrest
  rw [← htext, Magnitude.numeralValue_expansion] at hcut
  rw [htext]
  exact hcut

/-! ## Whole texts -/

/-- A lexer gives the tokens of a text that is cut up to its end. -/
theorem tokens_of_cut {cs rest : List Char} {ts : List Token} {l : Lexer} (h : Cut cs ts rest)
    (hend : rest = []) (hl : l.rest = cs) : l.tokens = .ok (ts ++ [.endOfInput]) := by
  induction h generalizing l with
  | nil => exact tokens_of_spaces (by simp [hl, hend])
  | cons htail htoken _ ih =>
    obtain ⟨behind, hbehind, htokens⟩ := tokens_of_lexeme (List.forall_mem_nil _) htail htoken hl
    rw [htokens, ih hend hbehind]
    rfl

/-- A text that is cut up to its end has these tokens. -/
theorem tokenize_of_cut {cs : List Char} {ts : List Token} (h : Cut cs ts []) :
    tokenize (String.ofList cs) = .ok (ts ++ [.endOfInput]) :=
  tokens_of_cut h rfl String.toList_ofList

end TextTemplate
