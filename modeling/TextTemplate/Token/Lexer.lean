import TextTemplate.Text.Literal
import TextTemplate.Token.Basic
/-!
# The lexer

A lexer stands somewhere in the text of an expression and gives one token at a time. Between two
lexemes only the plain space is skipped. At the end of the text and before a character that starts
no lexeme a lexer stays where it is, and gives the same answer for ever.

* `Lexer.next`: the next token, and the lexer behind it.
* `Lexer.next_progress`: a token other than the end of the input leaves less text.
* `tokenize`: all tokens of a text.
-/
namespace TextTemplate

/-- Why a text cannot be cut into tokens. -/
inductive LexError where
  /-- No lexeme starts with this character, which stands at this offset. -/
  | unexpectedChar (char : Char) (offset : Nat)
deriving DecidableEq

/-- The message of a lexer error; offsets count characters from zero. -/
def LexError.message : LexError → String
  | .unexpectedChar c offset =>
    "Unexpected character " ++ charLiteral c ++ " at position " ++ toString offset

/-- A place in the text of an expression: how many characters are behind it, and the rest. -/
structure Lexer where
  offset : Nat
  rest : List Char
deriving DecidableEq

namespace Lexer

/-- The lexer at the start of a text. -/
def ofText (text : String) : Lexer := ⟨0, text.toList⟩

/-- Moves over `n` characters. -/
def drop (n : Nat) (l : Lexer) : Lexer := ⟨l.offset + n, l.rest.drop n⟩

/-- Moves over the spaces that follow. -/
def skipSpaces (l : Lexer) : Lexer := l.drop (l.rest.takeWhile (· == ' ')).length

/-- The next token, and the lexer behind it. -/
def next (l : Lexer) : Except LexError Token × Lexer :=
  let l := l.skipSpaces
  match l.rest with
  | [] => (.ok .endOfInput, l)
  | c :: cs =>
    let tail := lexemeTail c cs
    match Token.ofLexeme? c tail with
    | some token => (.ok token, l.drop (tail.length + 1))
    | none => (.error (.unexpectedChar c l.offset), l)

theorem length_rest_drop_le (n : Nat) (l : Lexer) : (l.drop n).rest.length ≤ l.rest.length := by
  simp [drop]

theorem length_rest_skipSpaces_le (l : Lexer) : l.skipSpaces.rest.length ≤ l.rest.length :=
  length_rest_drop_le ..

/-! ## One step -/

theorem next_of_nil {l : Lexer} (h : l.skipSpaces.rest = []) :
    l.next = (.ok .endOfInput, l.skipSpaces) := by
  simp only [next, h]

theorem next_of_token {l : Lexer} {c : Char} {cs : List Char} {token : Token}
    (h : l.skipSpaces.rest = c :: cs) (ht : Token.ofLexeme? c (lexemeTail c cs) = some token) :
    l.next = (.ok token, l.skipSpaces.drop ((lexemeTail c cs).length + 1)) := by
  simp only [next, h, ht]

theorem next_of_unexpected {l : Lexer} {c : Char} {cs : List Char}
    (h : l.skipSpaces.rest = c :: cs) (ht : Token.ofLexeme? c (lexemeTail c cs) = none) :
    l.next = (.error (.unexpectedChar c l.skipSpaces.offset), l.skipSpaces) := by
  simp only [next, h, ht]

/-- A lexer never goes back. -/
theorem length_rest_next_le (l : Lexer) : l.next.2.rest.length ≤ l.rest.length := by
  have hspaces := length_rest_skipSpaces_le l
  cases hrest : l.skipSpaces.rest with
  | nil => rw [next_of_nil hrest]; exact hspaces
  | cons c cs =>
    cases htoken : Token.ofLexeme? c (lexemeTail c cs) with
    | none => rw [next_of_unexpected hrest htoken]; exact hspaces
    | some token =>
      rw [next_of_token hrest htoken]
      exact Nat.le_trans (length_rest_drop_le ..) hspaces

/-- A token other than the end of the input takes at least one character. -/
theorem next_progress {l : Lexer} {token : Token} (h : l.next.1 = .ok token)
    (hne : token ≠ .endOfInput) : l.next.2.rest.length < l.rest.length := by
  have hspaces := length_rest_skipSpaces_le l
  cases hrest : l.skipSpaces.rest with
  | nil =>
    rw [next_of_nil hrest] at h
    exact absurd (Except.ok.inj h).symm hne
  | cons c cs =>
    rw [hrest, List.length_cons] at hspaces
    cases htoken : Token.ofLexeme? c (lexemeTail c cs) with
    | none => rw [next_of_unexpected hrest htoken] at h; cases h
    | some token =>
      rw [next_of_token hrest htoken]
      simp only [drop, hrest, List.drop_succ_cons, List.length_drop]
      omega

/-! ## All tokens -/

/-- The tokens from here on up to the end of the input, which is the last of them. -/
def tokens (l : Lexer) : Except LexError (List Token) :=
  match _hnext : l.next.1 with
  | .error e => .error e
  | .ok token =>
    if _hend : token = .endOfInput then .ok [.endOfInput]
    else
      match l.next.2.tokens with
      | .error e => .error e
      | .ok more => .ok (token :: more)
termination_by l.rest.length
decreasing_by exact next_progress _hnext _hend

end Lexer

/-- All tokens of a text, the end of the input last. -/
def tokenize (text : String) : Except LexError (List Token) := (Lexer.ofText text).tokens

end TextTemplate
