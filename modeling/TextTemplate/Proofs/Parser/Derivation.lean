import TextTemplate.Proofs.Parser.Outcome
/-!
# Derivations

The grammar of `TextTemplate.Expr.Parser` as data: a derivation records which rule was used at each
place, groups included, and the definitions below read it off.

- `Derivation`: the derivations of the rules that stand for an expression, with `Links`, `Arguments`
  and `Suffixes` for the repeated parts.
- `Derivation.tokens`: the tokens that are derived.
- `Derivation.tree`: the expression that is derived. Groups leave no trace, and the operands of a
  level associate to the left.
- `Derivation.need`: how many levels below the start of a derivation its deepest place lies.
- `Rule.Absorbs`: the tokens that may not follow what a rule derives, because they would belong to
  it.
-/

namespace TextTemplate

/-- The binary operator that is written like a sign. -/
def Sign.operator : Sign → BinaryOp
  | .plus => .add
  | .minus => .subtract

namespace Sign

theorem ofOperator?_operator (s : Sign) : ofOperator? s.operator = some s := by
  cases s <;> rfl

theorem eq_operator_of_ofOperator? {op : BinaryOp} {s : Sign} (h : ofOperator? op = some s) :
    op = s.operator := by
  cases op <;> cases h <;> rfl

theorem operator_injective {s s' : Sign} (h : s.operator = s'.operator) : s = s' := by
  have hsome : some s = some s' := by rw [← ofOperator?_operator, h, ofOperator?_operator]
  exact Option.some.inj hsome

end Sign

mutual

/-- The derivations of a rule. -/
inductive Derivation : Rule → Type where
  /-- An operand of a level, and the operators and operands behind it. -/
  | level {l : BinaryOp.Level} (first : Derivation l.operand) (more : Links l) :
      Derivation (.level l)
  /-- A sign before an operand. -/
  | sign (s : Sign) (operand : Derivation .signed) : Derivation .signed
  /-- An operand without a sign. -/
  | unsigned (operand : Derivation .atom) : Derivation .signed
  /-- A number. -/
  | number (n : Binary64) : Derivation .atom
  /-- An expression in parentheses. -/
  | group (inside : Derivation (.level .sum)) : Derivation .atom
  /-- A call without arguments. -/
  | bareCall (name : String) : Derivation .atom
  /-- A call with arguments. -/
  | call (name : String) (args : Arguments) : Derivation .atom
  /-- A name with properties and positions. -/
  | access (name : String) (suffixes : Suffixes) : Derivation .atom

/-- The operators of one level, each with the operand behind it. -/
inductive Links : BinaryOp.Level → Type where
  | nil {l : BinaryOp.Level} : Links l
  | cons {l : BinaryOp.Level} (op : BinaryOp) (hop : op.level = l) (right : Derivation l.operand)
      (more : Links l) : Links l

/-- At least one argument; commas stand between them. -/
inductive Arguments : Type where
  | last (arg : Derivation (.level .sum)) : Arguments
  | more (arg : Derivation (.level .sum)) (args : Arguments) : Arguments

/-- Properties and positions. -/
inductive Suffixes : Type where
  | nil : Suffixes
  | property (name : String) (more : Suffixes) : Suffixes
  | index (position : Derivation (.level .sum)) (more : Suffixes) : Suffixes

end

/-! ## The tokens of a derivation -/

mutual

/-- The tokens that a derivation derives. -/
def Derivation.tokens : {r : Rule} → Derivation r → List Token
  | _, .level first more => first.tokens ++ more.tokens
  | _, .sign s operand => .operator s.operator :: operand.tokens
  | _, .unsigned operand => operand.tokens
  | _, .number n => [.number n]
  | _, .group inside => .leftParen :: (inside.tokens ++ [.rightParen])
  | _, .bareCall name => [.identifier name, .leftParen, .rightParen]
  | _, .call name args => .identifier name :: .leftParen :: (args.tokens ++ [.rightParen])
  | _, .access name suffixes => .identifier name :: suffixes.tokens

/-- The tokens of operators and operands. -/
def Links.tokens : {l : BinaryOp.Level} → Links l → List Token
  | _, .nil => []
  | _, .cons op _ right more => .operator op :: (right.tokens ++ more.tokens)

/-- The tokens of arguments. -/
def Arguments.tokens : Arguments → List Token
  | .last arg => arg.tokens
  | .more arg args => arg.tokens ++ .comma :: args.tokens

/-- The tokens of properties and positions. -/
def Suffixes.tokens : Suffixes → List Token
  | .nil => []
  | .property name more => .dot :: .identifier name :: more.tokens
  | .index position more => .leftBracket :: (position.tokens ++ .rightBracket :: more.tokens)

end

attribute [simp] Derivation.tokens Links.tokens Arguments.tokens Suffixes.tokens

/-! ## The expression of a derivation -/

mutual

/-- The expression that a derivation derives. -/
def Derivation.tree : {r : Rule} → Derivation r → Expr
  | _, .level first more => more.tree first.tree
  | _, .sign s operand => .signed s operand.tree
  | _, .unsigned operand => operand.tree
  | _, .number n => .number n
  | _, .group inside => inside.tree
  | _, .bareCall name => .call name []
  | _, .call name args => .call name args.trees
  | _, .access name suffixes => suffixes.tree (.var name)

/-- The expression of an operand with operators and operands behind it. -/
def Links.tree : {l : BinaryOp.Level} → Links l → Expr → Expr
  | _, .nil, left => left
  | _, .cons op _ right more, left => more.tree (.binary op left right.tree)

/-- The expressions of arguments. -/
def Arguments.trees : Arguments → List Expr
  | .last arg => [arg.tree]
  | .more arg args => arg.tree :: args.trees

/-- The expression of a base with properties and positions behind it. -/
def Suffixes.tree : Suffixes → Expr → Expr
  | .nil, base => base
  | .property name more, base => more.tree (.property base name)
  | .index position more, base => more.tree (.index base position.tree)

end

attribute [simp] Derivation.tree Links.tree Arguments.trees Suffixes.tree

/-! ## The depth of a derivation -/

mutual

/-- How many levels below the start of a derivation its deepest place lies. -/
def Derivation.need : {r : Rule} → Derivation r → Nat
  | _, .level first more => max first.need more.need
  | _, .sign _ operand => 1 + operand.need
  | _, .unsigned operand => operand.need
  | _, .number _ => 0
  | _, .group inside => 1 + inside.need
  | _, .bareCall _ => 1
  | _, .call _ args => 1 + args.need
  | _, .access _ suffixes => suffixes.need

/-- The first operator of a level lies one level below the start, each further one below the one
before it, and an operand below its operator. -/
def Links.need : {l : BinaryOp.Level} → Links l → Nat
  | _, .nil => 0
  | _, .cons _ _ right more => 1 + max right.need more.need

/-- All arguments start at the same level. -/
def Arguments.need : Arguments → Nat
  | .last arg => arg.need
  | .more arg args => max arg.need args.need

/-- The first suffix lies one level below the start, each further one below the one before it, and
a position below its suffix. -/
def Suffixes.need : Suffixes → Nat
  | .nil => 0
  | .property _ more => 1 + more.need
  | .index position more => 1 + max position.need more.need

end

attribute [simp] Derivation.need Links.need Arguments.need Suffixes.need

/-! ## What may follow a derivation -/

/-- Whether a token behind what a rule derives would belong to it: an operator of its own or a
tighter level, and behind a name everything that makes it a call or a chain. -/
def Rule.Absorbs : Rule → Token → Prop
  | _, .leftParen => True
  | _, .leftBracket => True
  | _, .dot => True
  | .level l, .operator op => op.level.rank ≤ l.rank
  | _, _ => False

namespace Rule

variable {l : BinaryOp.Level} {r : Rule} {t : Token} {op : BinaryOp}

theorem not_absorbs_endOfInput : ¬ r.Absorbs .endOfInput := by
  cases r <;> exact id

theorem not_absorbs_rightParen : ¬ r.Absorbs .rightParen := by
  cases r <;> exact id

theorem not_absorbs_rightBracket : ¬ r.Absorbs .rightBracket := by
  cases r <;> exact id

theorem not_absorbs_comma : ¬ r.Absorbs .comma := by
  cases r <;> exact id

theorem level_absorbs (hop : op.level = l) : (level l).Absorbs (.operator op) := by
  subst hop
  exact Nat.le_refl op.level.rank

/-- What belongs to an operand belongs to the whole level. -/
theorem absorbs_of_operand (h : l.operand.Absorbs t) : (level l).Absorbs t := by
  cases t with
  | operator op => cases l <;> cases op <;> simp_all [BinaryOp.Level.operand, Absorbs, BinaryOp.level]
  | leftParen | leftBracket | dot => trivial
  | number | identifier | rightParen | rightBracket | comma | endOfInput => cases l <;> exact h

/-- An operator of a level ends the operand before it. -/
theorem not_operand_absorbs (hop : op.level = l) : ¬ l.operand.Absorbs (.operator op) := by
  subst hop
  cases op <;> simp [BinaryOp.Level.operand, Absorbs, BinaryOp.level]

/-- What belongs to an atom belongs to whatever the atom is a part of. -/
theorem absorbs_of_atom (h : atom.Absorbs t) : r.Absorbs t := by
  cases t with
  | operator op => exact h.elim
  | leftParen | leftBracket | dot => cases r <;> trivial
  | number | identifier | rightParen | rightBracket | comma | endOfInput => exact h.elim

end Rule

/-- The first operator behind an operand, or else what stands behind the whole level, ends the
operand. -/
theorem Links.not_operand_absorbs {l : BinaryOp.Level} {us : List Token} {t : Token}
    (links : Links l) (h : ¬ (Rule.level l).Absorbs (us.headD t)) :
    ¬ l.operand.Absorbs ((links.tokens ++ us).headD t) := by
  cases links with
  | nil => exact fun hop => h (Rule.absorbs_of_operand hop)
  | cons op hop right more => exact Rule.not_operand_absorbs hop

/-- A name with suffixes is not followed by the parenthesis of a call. -/
theorem Suffixes.head_ne_leftParen {us : List Token} {t : Token} (suffixes : Suffixes)
    (h : ¬ Rule.atom.Absorbs (us.headD t)) : (suffixes.tokens ++ us).headD t ≠ .leftParen := by
  cases suffixes with
  | nil =>
    intro hhead
    apply h
    rw [show us.headD t = .leftParen from hhead]
    trivial
  | property name more => simp
  | index position more => simp

/-- A derivation starts with a token, and not with a closing parenthesis. -/
theorem Derivation.tokens_eq_cons : ∀ {r : Rule} (d : Derivation r),
    ∃ t ts, d.tokens = t :: ts ∧ t ≠ .rightParen
  | _, .level first more => by
    obtain ⟨t, ts, htokens, ht⟩ := first.tokens_eq_cons
    exact ⟨t, ts ++ more.tokens, by simp [htokens], ht⟩
  | _, .sign s operand => ⟨_, _, rfl, by simp⟩
  | _, .unsigned operand => operand.tokens_eq_cons
  | _, .number n => ⟨_, _, rfl, by simp⟩
  | _, .group inside => ⟨_, _, rfl, by simp⟩
  | _, .bareCall name => ⟨_, _, rfl, by simp⟩
  | _, .call name args => ⟨_, _, rfl, by simp⟩
  | _, .access name suffixes => ⟨_, _, rfl, by simp⟩

/-- Arguments start with a token, and not with a closing parenthesis. -/
theorem Arguments.tokens_eq_cons (args : Arguments) :
    ∃ t ts, args.tokens = t :: ts ∧ t ≠ .rightParen := by
  cases args with
  | last arg => exact arg.tokens_eq_cons
  | more arg args =>
    obtain ⟨t, ts, htokens, ht⟩ := arg.tokens_eq_cons
    exact ⟨t, ts ++ .comma :: args.tokens, by simp [htokens], ht⟩

end TextTemplate
