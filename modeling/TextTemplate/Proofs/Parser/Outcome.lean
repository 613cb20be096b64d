import TextTemplate.Expr.Parser
/-!
# Outcomes of the parser's rules

A `Step` carries the proof that it leaves less input, which the recursion of the rules needs and
nothing else. This module forgets that proof and restates every rule as a plain equation.

- `Outcome`: where a step ended, and with what.
- `Step.outcome`: the outcome of a step; `outcome_andThen`, `outcome_map` and `outcome_within` say
  what it is for composed steps.
- `Rule`: the rules of the grammar that stand for an expression, and `Rule.parse`, the outcome of
  parsing by one of them.
- `parse_level`, `parse_signed`, `parse_atom`, `chain_eq`, `arguments_eq`, `moreArguments_eq`,
  `suffixes_eq`: the rules as equations between outcomes.
-/

namespace TextTemplate

/-- Where a step of the parser ended, and with what. -/
inductive Outcome (α : Type) where
  /-- The step has succeeded and left a cursor. -/
  | done (value : α) (rest : Cursor)
  /-- The step has failed and left a parser. -/
  | failed (error : ParseError) (stop : Parser)

namespace Outcome

variable {α β : Type}

/-- Goes on from where a step has ended. -/
def andThen (o : Outcome α) (next : α → Cursor → Outcome β) : Outcome β :=
  match o with
  | .done value rest => next value rest
  | .failed error stop => .failed error stop

/-- Changes the value of an outcome. -/
def map (f : α → β) (o : Outcome α) : Outcome β :=
  o.andThen fun value rest => .done (f value) rest

@[simp] theorem andThen_done (value : α) (rest : Cursor) (next : α → Cursor → Outcome β) :
    (Outcome.done value rest).andThen next = next value rest := rfl

@[simp] theorem andThen_failed (error : ParseError) (stop : Parser)
    (next : α → Cursor → Outcome β) :
    (Outcome.failed error stop).andThen next = .failed error stop := rfl

@[simp] theorem map_done (f : α → β) (value : α) (rest : Cursor) :
    (Outcome.done value rest).map f = .done (f value) rest := rfl

/-- A composition succeeds iff both of its parts do. -/
theorem andThen_eq_done {o : Outcome α} {next : α → Cursor → Outcome β} {b : β} {rest : Cursor} :
    o.andThen next = .done b rest ↔ ∃ a c, o = .done a c ∧ next a c = .done b rest := by
  cases o with
  | done a c =>
    constructor
    · intro h
      exact ⟨a, c, rfl, h⟩
    · rintro ⟨a', c', heq, h⟩
      cases heq
      exact h
  | failed error stop => simp

theorem map_eq_done {o : Outcome α} {f : α → β} {b : β} {rest : Cursor} :
    o.map f = .done b rest ↔ ∃ a, o = .done a rest ∧ f a = b := by
  simp only [map, andThen_eq_done, done.injEq]
  constructor
  · rintro ⟨a, c, rfl, hf, rfl⟩
    exact ⟨a, rfl, hf⟩
  · rintro ⟨a, rfl, hf⟩
    exact ⟨a, rest, rfl, hf, rfl⟩

end Outcome

/-! ## Outcomes of steps -/

namespace Step

variable {α β : Type} {m n : Nat}

/-- The outcome of a step. -/
def outcome : Step α n → Outcome α
  | .done value rest _ => .done value rest
  | .failed error stop => .failed error stop

/-- The proof that a step hands on has no influence on its outcome. -/
theorem outcome_andThen (step : Step α n)
    (next : α → (rest : Cursor) → rest.size < n → Step β m) (plain : α → Cursor → Outcome β)
    (h : ∀ value rest smaller, (next value rest smaller).outcome = plain value rest) :
    (step.andThen next).outcome = step.outcome.andThen plain := by
  cases step with
  | done value rest smaller => exact h value rest smaller
  | failed error stop => rfl

@[simp] theorem outcome_map (f : α → β) (step : Step α n) :
    (step.map f).outcome = step.outcome.map f := by
  cases step <;> rfl

@[simp] theorem outcome_within (step : Step α m) (h : m ≤ n) :
    (step.within h).outcome = step.outcome := by
  cases step <;> rfl

/-- A step that succeeds leaves less than its bound. -/
theorem size_lt_of_outcome {step : Step α n} {a : α} {rest : Cursor}
    (h : step.outcome = .done a rest) : rest.size < n := by
  cases step with
  | done value rest smaller =>
    cases h
    exact smaller
  | failed error stop => cases h

end Step

/-! ## Steps over a single token -/

namespace Cursor

/-- Moves over the token under the cursor; see `advance`. -/
def move (depth : Nat) (left : Token) (c : Cursor) : Outcome Unit :=
  match c.lexer.next.1 with
  | .ok token => .done () ⟨token, c.lexer.next.2⟩
  | .error e => .failed (.lex e) ⟨⟨left, c.lexer.next.2⟩, depth⟩

/-- Goes one level down, to `depth + 1`. -/
def descend (depth : Nat) (c : Cursor) : Outcome Unit :=
  if depthLimit ≤ depth then .failed .tooDeep ⟨c, depth + 1⟩ else .done () c

/-- Moves over the token under the cursor and goes one level down; see `enter`. -/
def moveDown (depth : Nat) (left : Token) (c : Cursor) : Outcome Unit :=
  (c.move depth left).andThen fun _ rest => rest.descend depth

/-- Fails with the token under the cursor as the unexpected one. -/
def reject {α : Type} (depth : Nat) (expected : Expectation) (left : Token) (c : Cursor) :
    Outcome α :=
  .failed (.unexpectedToken expected c.token) ⟨⟨left, c.lexer⟩, depth⟩

/-- Moves over one particular token; see `take`. -/
def moveOver (depth : Nat) (t : Token) (c : Cursor) : Outcome Unit :=
  if c.token = t then c.move depth t else c.reject depth (.token t) c.token

theorem outcome_advance (depth : Nat) (left : Token) (c : Cursor) (hne : c.token ≠ .endOfInput) :
    (c.advance depth left hne).outcome = c.move depth left := by
  unfold advance move
  split
  · next token h => simp [Step.outcome, h]
  · next e h => simp [Step.outcome, h]

theorem outcome_enter (depth : Nat) (left : Token) (c : Cursor) (hne : c.token ≠ .endOfInput) :
    (c.enter depth left hne).outcome = c.moveDown depth left := by
  rw [enter, moveDown, ← outcome_advance depth left c hne]
  refine Step.outcome_andThen _ _ _ ?_
  intro _ rest _
  unfold descend
  split <;> rfl

theorem outcome_take (depth : Nat) (t : Token) (ht : t ≠ .endOfInput) (c : Cursor) :
    (c.take depth t ht).outcome = c.moveOver depth t := by
  unfold take moveOver
  split
  · exact outcome_advance ..
  · rfl

end Cursor

/-! ## The rules -/

/-- The rules of the grammar that stand for an expression. -/
inductive Rule where
  /-- Operands with binary operators of one level between them. -/
  | level (l : BinaryOp.Level)
  /-- Signs, and what they stand before. -/
  | signed
  /-- A number, a group, a call, or a name with its properties and positions. -/
  | atom

/-- The rule for the operands of a level. -/
def BinaryOp.Level.operand : BinaryOp.Level → Rule
  | .sum => .level .product
  | .product => .level .power
  | .power => .signed

namespace Rule

/-- The outcome of parsing by a rule. -/
def parse (depth : Nat) (c : Cursor) : Rule → Outcome Expr
  | .level l => (parseLevel l depth c).outcome
  | .signed => (parseSigned depth c).outcome
  | .atom => (parseAtom depth c).outcome

/-- The outcome of the operators and operands that follow `left`. -/
def chain (l : BinaryOp.Level) (depth : Nat) (left : Expr) (c : Cursor) : Outcome Expr :=
  (parseChain l depth left c).outcome

/-- The outcome of the arguments of a call up to the closing parenthesis. -/
def arguments (depth : Nat) (c : Cursor) : Outcome (List Expr) := (parseArguments depth c).outcome

/-- The outcome of at least one argument and the following ones. -/
def moreArguments (depth : Nat) (c : Cursor) : Outcome (List Expr) :=
  (parseMoreArguments depth c).outcome

/-- The outcome of the properties and positions that follow `base`. -/
def suffixes (depth : Nat) (base : Expr) (c : Cursor) : Outcome Expr :=
  (parseSuffixes depth base c).outcome

/-- Orders the rules that pass on to each other at the same place. -/
def rank : Rule → Nat
  | .level l => l.rank
  | .signed => 2
  | .atom => 1

theorem rank_le (r : Rule) : r.rank ≤ 7 := by
  cases r with
  | level l => exact l.rank_le
  | signed => decide
  | atom => decide

theorem rank_operand_lt (l : BinaryOp.Level) : l.operand.rank < (level l).rank := by
  cases l <;> decide

/-- A rule that succeeds leaves less input. -/
theorem size_lt {r : Rule} {depth : Nat} {c rest : Cursor} {e : Expr}
    (h : r.parse depth c = .done e rest) : rest.size < c.size := by
  cases r with
  | level l => exact Step.size_lt_of_outcome h
  | signed => exact Step.size_lt_of_outcome h
  | atom => exact Step.size_lt_of_outcome h

variable {l : BinaryOp.Level} {depth : Nat} {left base : Expr} {c : Cursor}

theorem outcome_parseOperand : (parseOperand l depth c).outcome = l.operand.parse depth c := by
  rw [parseOperand.eq_def]
  cases l <;> rfl

theorem parse_level :
    (level l).parse depth c
      = (l.operand.parse depth c).andThen fun left rest => chain l depth left rest := by
  rw [parse, parseLevel, ← outcome_parseOperand]
  exact Step.outcome_andThen _ _ _ fun left rest h => Step.outcome_within ..

theorem chain_eq :
    chain l depth left c
      = match c.token with
        | .operator op =>
          if op.level = l then
            (c.moveDown depth c.token).andThen fun _ c₁ =>
              (l.operand.parse (depth + 1) c₁).andThen fun right c₂ =>
                chain l (depth + 1) (.binary op left right) c₂
          else .done left c
        | _ => .done left c := by
  rw [chain, parseChain]
  split
  · next op htoken =>
    simp only [htoken]
    split
    -- `h₁` and `h₂` only serve the recursion, and the outcome does not depend on them
    · rw [← Cursor.outcome_enter _ _ _ (by simp [htoken])]
      refine Step.outcome_andThen _ _ _ ?_
      intro _ c₁ h₁
      rw [← outcome_parseOperand]
      refine Step.outcome_andThen _ _ _ ?_
      intro right c₂ h₂
      exact Step.outcome_within ..
    · rfl
  -- every other token ends the chain on both sides
  · next hother =>
    split
    · next op htoken => exact absurd htoken (hother op)
    · rfl

theorem parse_signed :
    signed.parse depth c
      = match c.token with
        | .operator op =>
          match Sign.ofOperator? op with
          | some sign =>
            (c.moveDown depth c.token).andThen fun _ c₁ =>
              (signed.parse (depth + 1) c₁).map (.signed sign)
          | none => atom.parse depth c
        | _ => atom.parse depth c := by
  rw [parse, parseSigned]
  split
  · next op htoken =>
    simp only [htoken]
    cases Sign.ofOperator? op with
    | some sign =>
      dsimp only
      rw [← Cursor.outcome_enter _ _ _ (by simp [htoken])]
      refine Step.outcome_andThen _ _ _ ?_
      intro _ c₁ h₁
      rw [Step.outcome_within, Step.outcome_map]
      rfl
    | none => rfl
  · next hother =>
    split
    · next op htoken => exact absurd htoken (hother op)
    · rfl

theorem parse_atom :
    atom.parse depth c
      = match c.token with
        | .number n => (c.move depth .endOfInput).map fun _ => .number n
        | .leftParen =>
          (c.moveDown depth .endOfInput).andThen fun _ c₁ =>
            ((level .sum).parse (depth + 1) c₁).andThen fun e c₂ =>
              (c₂.moveOver (depth + 1) .rightParen).map fun _ => e
        | .identifier name =>
          (c.move depth .endOfInput).andThen fun _ c₁ =>
            if c₁.token = .leftParen then
              (c₁.moveDown depth c₁.token).andThen fun _ c₂ =>
                (arguments (depth + 1) c₂).map (.call name)
            else suffixes depth (.var name) c₁
        | _ => c.reject depth .operand .endOfInput := by
  rw [parse, parseAtom]
  split
  · next n htoken =>
    simp only [htoken, Step.outcome_map, Cursor.outcome_advance]
  · next htoken =>
    simp only [htoken]
    rw [← Cursor.outcome_enter _ _ _ (by simp [htoken])]
    refine Step.outcome_andThen _ _ _ ?_
    intro _ c₁ h₁
    refine Step.outcome_andThen _ _ _ ?_
    intro e c₂ h₂
    rw [Step.outcome_within, Step.outcome_map, Cursor.outcome_take]
  · next name htoken =>
    simp only [htoken]
    rw [← Cursor.outcome_advance _ _ _ (by simp [htoken])]
    refine Step.outcome_andThen _ _ _ ?_
    intro _ c₁ h₁
    split
    · next hcall =>
      rw [← Cursor.outcome_enter _ _ _ (by simp [hcall])]
      refine Step.outcome_andThen _ _ _ ?_
      intro _ c₂ h₂
      rw [Step.outcome_within, Step.outcome_map]
      rfl
    · exact Step.outcome_within ..
  · next hnumber hparen hname =>
    split
    · next n htoken => exact absurd htoken (hnumber n)
    · next htoken => exact absurd htoken hparen
    · next name htoken => exact absurd htoken (hname name)
    · rfl

theorem arguments_eq :
    arguments depth c
      = if c.token = .rightParen then (c.move depth c.token).map fun _ => []
        else moreArguments depth c := by
  rw [arguments, parseArguments]
  split
  · rw [Step.outcome_map, Cursor.outcome_advance]
  · rfl

theorem moreArguments_eq :
    moreArguments depth c
      = ((level .sum).parse depth c).andThen fun arg c₁ =>
          if c₁.token = .comma then
            (c₁.move depth c₁.token).andThen fun _ c₂ =>
              (moreArguments depth c₂).map (arg :: ·)
          else (c₁.moveOver depth .rightParen).map fun _ => [arg] := by
  rw [moreArguments, parseMoreArguments]
  refine Step.outcome_andThen _ _ _ ?_
  intro arg c₁ h₁
  split
  · next hcomma =>
    rw [← Cursor.outcome_advance _ _ _ (by simp [hcomma])]
    refine Step.outcome_andThen _ _ _ ?_
    intro _ c₂ h₂
    rw [Step.outcome_within, Step.outcome_map]
    rfl
  · rw [Step.outcome_within, Step.outcome_map, Cursor.outcome_take]

theorem suffixes_eq :
    suffixes depth base c
      = match c.token with
        | .leftBracket =>
          (c.moveDown depth c.token).andThen fun _ c₁ =>
            ((level .sum).parse (depth + 1) c₁).andThen fun position c₂ =>
              (c₂.moveOver (depth + 1) .rightBracket).andThen fun _ c₃ =>
                suffixes (depth + 1) (.index base position) c₃
        | .dot =>
          (c.moveDown depth c.token).andThen fun _ c₁ =>
            match c₁.token with
            | .identifier name =>
              (c₁.move (depth + 1) .endOfInput).andThen fun _ c₂ =>
                suffixes (depth + 1) (.property base name) c₂
            | _ => c₁.reject (depth + 1) .propertyName .endOfInput
        | _ => .done base c := by
  rw [suffixes, parseSuffixes]
  split
  · next htoken =>
    simp only [htoken]
    rw [← Cursor.outcome_enter _ _ _ (by simp [htoken])]
    refine Step.outcome_andThen _ _ _ ?_
    intro _ c₁ h₁
    refine Step.outcome_andThen _ _ _ ?_
    intro position c₂ h₂
    rw [← Cursor.outcome_take _ _ (by decide)]
    refine Step.outcome_andThen _ _ _ ?_
    intro _ c₃ h₃
    exact Step.outcome_within ..
  · next htoken =>
    simp only [htoken]
    rw [← Cursor.outcome_enter _ _ _ (by simp [htoken])]
    refine Step.outcome_andThen _ _ _ ?_
    intro _ c₁ h₁
    split
    · next name hname =>
      simp only [hname]
      rw [← Cursor.outcome_advance _ _ _ (by simp [hname])]
      refine Step.outcome_andThen _ _ _ ?_
      intro _ c₂ h₂
      exact Step.outcome_within ..
    · next hother =>
      split
      · next name hname => exact absurd hname (hother name)
      · rfl
  · next hbracket hdot =>
    split
    · next htoken => exact absurd htoken hbracket
    · next htoken => exact absurd htoken hdot
    · rfl

end Rule
end TextTemplate
