import TextTemplate.Expr.ParseError
/-!
# Steps of a parser

A parser reads one token ahead and asks the lexer for the next only when it has used that one. A
step either succeeds and leaves less input, or fails and leaves a parser behind, which can be used
again: nothing is put back after an error.

* `Cursor`: the token under the cursor and the lexer behind it.
* `Cursor.size`: the input that is left.
* `Step`: the outcome of a step.
* `Cursor.advance`, `Cursor.enter`, `Cursor.take`: the steps over a single token.
-/
namespace TextTemplate

/-- The token under the cursor, and the lexer behind it. -/
structure Cursor where
  token : Token
  lexer : Lexer
deriving DecidableEq

/-- A parser between two calls: where it stands, and how deep it is. -/
structure Parser where
  cursor : Cursor
  depth : Nat
deriving DecidableEq

/-- How much input is left: the characters behind the token under the cursor count twice, and that
token once, unless it is the end of the input. -/
def Cursor.size (c : Cursor) : Nat :=
  2 * c.lexer.rest.length + (if c.token = .endOfInput then 0 else 1)

/-- The outcome of a parsing step. A step that succeeds leaves less than `bound` input, one that
fails leaves a parser behind. -/
inductive Step (α : Type) (bound : Nat) where
  | done (value : α) (rest : Cursor) (smaller : rest.size < bound)
  | failed (error : ParseError) (stop : Parser)

namespace Step

variable {α β : Type} {m n : Nat}

/-- Goes on from where a step has ended. -/
def andThen (step : Step α n) (next : α → (rest : Cursor) → rest.size < n → Step β m) : Step β m :=
  match step with
  | .done value rest smaller => next value rest smaller
  | .failed error stop => .failed error stop

/-- Changes the value of a step. -/
def map (f : α → β) (step : Step α n) : Step β n :=
  step.andThen fun value rest smaller => .done (f value) rest smaller

/-- A step that leaves less than `m` input leaves less than any larger bound. -/
def within (step : Step α m) (h : m ≤ n) : Step α n :=
  step.andThen fun value rest smaller => .done value rest (Nat.lt_of_lt_of_le smaller h)

end Step

namespace Cursor

theorem size_next_lt {c : Cursor} {token : Token} (h : c.lexer.next.1 = .ok token)
    (hne : c.token ≠ .endOfInput) : size ⟨token, c.lexer.next.2⟩ < c.size := by
  have hle := c.lexer.length_rest_next_le
  unfold size
  rw [if_neg hne]
  dsimp only
  split
  · omega
  · next htoken =>
    have := Lexer.next_progress h htoken
    omega

/-- Moves over the token under the cursor. If the lexer fails, `left` stands under the cursor. -/
def advance (depth : Nat) (left : Token) (c : Cursor) (hne : c.token ≠ .endOfInput) :
    Step Unit c.size :=
  match h : c.lexer.next.1 with
  | .ok token => .done () ⟨token, c.lexer.next.2⟩ (size_next_lt h hne)
  | .error e => .failed (.lex e) ⟨⟨left, c.lexer.next.2⟩, depth⟩

/-- Moves over the token under the cursor and goes one level down, to `depth + 1`. -/
def enter (depth : Nat) (left : Token) (c : Cursor) (hne : c.token ≠ .endOfInput) :
    Step Unit c.size :=
  (c.advance depth left hne).andThen fun _ rest smaller =>
    if depthLimit ≤ depth then .failed .tooDeep ⟨rest, depth + 1⟩ else .done () rest smaller

/-- Moves over one particular token. -/
def take (depth : Nat) (t : Token) (ht : t ≠ .endOfInput) (c : Cursor) : Step Unit c.size :=
  if h : c.token = t then c.advance depth t (h ▸ ht)
  else .failed (.unexpectedToken (.token t) c.token) ⟨c, depth⟩

end Cursor

end TextTemplate
