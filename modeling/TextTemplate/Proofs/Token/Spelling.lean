import Mathlib
import TextTemplate.Proofs.Decimal.Digits
import TextTemplate.Token.Lexer
/-!
# Writing tokens

- `lexemeClass`: the characters that a lexeme goes on with, by its first character.
- `Lexer.next_eq`, `tokens_of_lexeme`: the lexer in front of spaces and a lexeme.
- `Lexeme`: characters that stand for one token when nothing that could belong to them follows.
- `spaced`: a text of lexemes, with a space before each.
- `tokenize_spaced`: the lexer cuts them apart again.
-/

namespace TextTemplate

/-- A name does not start with a digit. -/
theorem isDigit_of_isNameStart {c : Char} (h : isNameStart c) : c.isDigit = false := by
  rw [Bool.eq_false_iff]
  intro hdigit
  simp only [Char.isDigit, Bool.and_eq_true, decide_eq_true_eq, ge_iff_le,
    UInt32.le_iff_toNat_le] at hdigit
  simp only [isNameStart, Char.isAlpha, Char.isUpper, Char.isLower, Bool.or_eq_true,
    Bool.and_eq_true, decide_eq_true_eq, beq_iff_eq, ge_iff_le, UInt32.le_iff_toNat_le] at h
  rcases h with (hupper | hlower) | rfl
  · simp at hdigit hupper
    omega
  · simp at hdigit hlower
    omega
  · exact absurd hdigit (by decide)

/-- The characters that a lexeme with this first character goes on with. -/
def lexemeClass (first : Char) : Char → Bool :=
  if first.isDigit then isNumeralChar else if isNameStart first then isNameChar else fun _ => false

/-- The tail of a lexeme is a run of its class. -/
theorem lexemeTail_eq (first : Char) (cs : List Char) :
    lexemeTail first cs = cs.takeWhile (lexemeClass first) := by
  unfold lexemeTail lexemeClass
  split
  · rfl
  split
  · rfl
  · exact (List.takeWhile_eq_nil_iff.2 (by simp)).symm

/-- A space belongs to no lexeme. -/
theorem lexemeClass_space (first : Char) : lexemeClass first ' ' = false := by
  unfold lexemeClass
  split
  · decide
  split <;> decide

/-- No lexeme starts with a space. -/
theorem Token.ne_space_of_ofLexeme? {first : Char} {tail : List Char} {token : Token}
    (h : Token.ofLexeme? first tail = some token) : first ≠ ' ' := by
  rintro rfl
  cases h

namespace Lexer

variable {l : Lexer} {spaces rest tail more : List Char} {first : Char} {token : Token}

/-- A lexer in front of spaces and other text skips the spaces. -/
theorem skipSpaces_eq (hspaces : ∀ c ∈ spaces, (c == ' ') = true) (hrest : Stops (· == ' ') rest)
    (h : l.rest = spaces ++ rest) : l.skipSpaces = ⟨l.offset + spaces.length, rest⟩ := by
  rw [skipSpaces, drop, h, takeWhile_append hspaces hrest, List.drop_left]

/-- A lexer gives the token of a lexeme behind spaces, and then stands behind it. -/
theorem next_eq (hspaces : ∀ c ∈ spaces, (c == ' ') = true)
    (htail : lexemeTail first (tail ++ more) = tail)
    (htoken : Token.ofLexeme? first tail = some token)
    (h : l.rest = spaces ++ first :: (tail ++ more)) :
    l.next = (.ok token, ⟨l.offset + spaces.length + (tail.length + 1), more⟩) := by
  have hstops : Stops (· == ' ') (first :: (tail ++ more)) :=
    Stops.cons (by simpa using Token.ne_space_of_ofLexeme? htoken)
  have hskip := skipSpaces_eq hspaces hstops h
  have hlexeme : Token.ofLexeme? first (lexemeTail first (tail ++ more)) = some token := by
    rw [htail, htoken]
  rw [next_of_token (by rw [hskip]) hlexeme, htail, hskip, drop, List.drop_succ_cons,
    List.drop_left]

end Lexer

/-- Characters that stand for one token. -/
structure Lexeme where
  first : Char
  tail : List Char
  token : Token
  /-- The lexer does not stop before the last of the characters. -/
  tail_eq : lexemeTail first tail = tail
  token_eq : Token.ofLexeme? first tail = some token

namespace Lexeme

/-- A name. -/
def name (first : Char) (tail : List Char) (hfirst : isNameStart first)
    (htail : ∀ c ∈ tail, isNameChar c) : Lexeme where
  first := first
  tail := tail
  token := .identifier (String.ofList (first :: tail))
  tail_eq := by
    rw [lexemeTail, isDigit_of_isNameStart hfirst, if_neg Bool.false_ne_true, if_pos hfirst]
    exact List.takeWhile_eq_self_iff.2 htail
  token_eq := by
    rw [Token.ofLexeme?, isDigit_of_isNameStart hfirst, if_neg Bool.false_ne_true, if_pos hfirst]

/-- An operator. -/
def operator (op : BinaryOp) : Lexeme where
  first := op.symbol
  tail := []
  token := .operator op
  tail_eq := by cases op <;> rfl
  token_eq := by cases op <;> rfl

/-- An opening bracket. -/
def leftBracket : Lexeme := ⟨'[', [], .leftBracket, rfl, rfl⟩

/-- A closing bracket. -/
def rightBracket : Lexeme := ⟨']', [], .rightBracket, rfl, rfl⟩

/-- A point. -/
def dot : Lexeme := ⟨'.', [], .dot, rfl, rfl⟩

/-- The characters of lexemes, with a space before each. -/
def spread (xs : List Lexeme) : List Char := xs.flatMap fun x => ' ' :: x.first :: x.tail

/-- The space that follows a lexeme ends it. -/
theorem lexemeTail_append_spread (x : Lexeme) (xs : List Lexeme) :
    lexemeTail x.first (x.tail ++ spread xs) = x.tail := by
  have htail := x.tail_eq
  rw [lexemeTail_eq] at htail ⊢
  refine takeWhile_append (List.takeWhile_eq_self_iff.1 htail) ?_
  cases xs with
  | nil => exact .nil
  | cons y ys => exact .cons (lexemeClass_space x.first)

end Lexeme

/-- A token that the lexer gives is the last one, or comes before the tokens behind it. -/
theorem tokens_of_next {l : Lexer} {token : Token} (h : l.next.1 = .ok token) :
    l.tokens = if token = .endOfInput then .ok [.endOfInput]
      else l.next.2.tokens.map (token :: ·) := by
  rw [Lexer.tokens]
  split
  · next e herror => cases h.symm.trans herror
  · next token' htoken =>
    cases h.symm.trans htoken
    split
    · rfl
    · split
      · next e htokens => rw [htokens, Except.map]
      · next more htokens => rw [htokens, Except.map]

/-- Only the end of the input stands behind spaces that nothing follows. -/
theorem tokens_of_spaces {l : Lexer} (h : ∀ c ∈ l.rest, (c == ' ') = true) :
    l.tokens = .ok [.endOfInput] := by
  have hskip := Lexer.skipSpaces_eq h Stops.nil (List.append_nil l.rest).symm
  have hnext : l.next.1 = .ok .endOfInput := by rw [Lexer.next_of_nil (by rw [hskip])]
  rw [tokens_of_next hnext, if_pos rfl]

/-- The token of a lexeme behind spaces comes before the tokens of what is behind it. -/
theorem tokens_of_lexeme {l : Lexer} {spaces tail more : List Char} {first : Char} {token : Token}
    (hspaces : ∀ c ∈ spaces, (c == ' ') = true) (htail : lexemeTail first (tail ++ more) = tail)
    (htoken : Token.ofLexeme? first tail = some token)
    (h : l.rest = spaces ++ first :: (tail ++ more)) :
    ∃ behind : Lexer, behind.rest = more ∧ l.tokens = behind.tokens.map (token :: ·) := by
  have hnext := Lexer.next_eq hspaces htail htoken h
  have hfirst : l.next.1 = .ok token := by rw [hnext]
  have hne : token ≠ .endOfInput := by
    rintro rfl
    exact Token.ofLexeme?_ne_endOfInput first tail htoken
  refine ⟨l.next.2, by rw [hnext], ?_⟩
  rw [tokens_of_next hfirst, if_neg hne]

/-- The lexer gives the tokens of lexemes. -/
theorem tokens_spread {l : Lexer} {xs : List Lexeme} (h : l.rest = Lexeme.spread xs) :
    l.tokens = .ok (xs.map Lexeme.token ++ [.endOfInput]) := by
  induction xs generalizing l with
  | nil => exact tokens_of_spaces (by simp [h, Lexeme.spread])
  | cons x xs ih =>
    have hrest : l.rest = [' '] ++ x.first :: (x.tail ++ Lexeme.spread xs) := by
      rw [h, Lexeme.spread, List.flatMap_cons]
      rfl
    obtain ⟨behind, hbehind, htokens⟩ :=
      tokens_of_lexeme (by simp) (x.lexemeTail_append_spread xs) x.token_eq hrest
    rw [htokens, ih hbehind]
    rfl

/-- A text of lexemes, with a space before each. -/
def spaced (xs : List Lexeme) : String := String.ofList (Lexeme.spread xs)

/-- A text of lexemes is cut apart into them. -/
theorem tokenize_spaced (xs : List Lexeme) :
    tokenize (spaced xs) = .ok (xs.map Lexeme.token ++ [.endOfInput]) :=
  tokens_spread String.toList_ofList

end TextTemplate
