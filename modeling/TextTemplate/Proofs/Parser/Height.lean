import Mathlib.Tactic.Ring
import TextTemplate.Proofs.Parser.Derivation
/-!
# How high trees grow

The parser counts the operators before an operand and the suffixes before a position, but a tree
grows with those behind them: a chain that is complete is an operand of what follows it. The levels
that it has taken are free again by then, so that the depth of a derivation does not bound the
height of its tree, but only the square of the depth does.

- `Expr.height`: the number of edges on the longest path to a leaf.
- `Derivation.levels`: the height of the tree of a derivation.
- `Derivation.levels_le`: how high the tree of a derivation of a given depth can be.
-/

namespace TextTemplate

/-! ## Height -/

namespace Expr

mutual

/-- The number of edges on the longest path from an expression to a leaf. -/
def height : Expr → Nat
  | .number _ => 0
  | .var _ => 0
  | .binary _ left right => max left.height right.height + 1
  | .signed _ operand => operand.height + 1
  | .call _ args => argumentsHeight args
  | .index collection position => max collection.height position.height + 1
  | .property object _ => object.height + 1

/-- The same from a call to a leaf; without arguments the call is a leaf. -/
def argumentsHeight : List Expr → Nat
  | [] => 0
  | arg :: more => max (arg.height + 1) (argumentsHeight more)

end

attribute [simp] height argumentsHeight

end Expr

/-- How many operators there are. -/
def Links.length : {l : BinaryOp.Level} → Links l → Nat
  | _, .nil => 0
  | _, .cons _ _ _ more => more.length + 1

/-- How many properties and positions there are. -/
def Suffixes.length : Suffixes → Nat
  | .nil => 0
  | .property _ more => more.length + 1
  | .index _ more => more.length + 1

attribute [simp] Links.length Suffixes.length

mutual

/-- The height of the tree of a derivation. -/
def Derivation.levels : {r : Rule} → Derivation r → Nat
  | _, .level first more => max (first.levels + more.length) more.levels
  | _, .sign _ operand => operand.levels + 1
  | _, .unsigned operand => operand.levels
  | _, .number _ => 0
  | _, .group inside => inside.levels
  | _, .bareCall _ => 0
  | _, .call _ args => args.levels
  | _, .access _ suffixes => max suffixes.length suffixes.levels

/-- Every operand lies below its operator and all the operators behind that. -/
def Links.levels : {l : BinaryOp.Level} → Links l → Nat
  | _, .nil => 0
  | _, .cons _ _ right more => max (right.levels + 1 + more.length) more.levels

/-- Every argument lies below the call. -/
def Arguments.levels : Arguments → Nat
  | .last arg => arg.levels + 1
  | .more arg args => max (arg.levels + 1) args.levels

/-- Every position lies below its suffix and all the suffixes behind that. -/
def Suffixes.levels : Suffixes → Nat
  | .nil => 0
  | .property _ more => more.levels
  | .index position more => max (position.levels + 1 + more.length) more.levels

end

attribute [simp] Derivation.levels Links.levels Arguments.levels Suffixes.levels

mutual

/-- The levels of a derivation are those of its tree. -/
theorem Derivation.height_tree : ∀ {r : Rule} (d : Derivation r), d.tree.height = d.levels
  | _, .level first more => by simp [more.height_tree, first.height_tree]
  | _, .sign s operand => by simp [operand.height_tree]
  | _, .unsigned operand => by simp [operand.height_tree]
  | _, .number n => by simp
  | _, .group inside => by simp [inside.height_tree]
  | _, .bareCall name => by simp
  | _, .call name args => by simp [args.argumentsHeight_trees]
  | _, .access name suffixes => by simp [suffixes.height_tree]
termination_by structural _ d => d

/-- The operand before a chain is lifted by all of it. -/
theorem Links.height_tree : ∀ {l : BinaryOp.Level} (links : Links l) (left : Expr),
    (links.tree left).height = max (left.height + links.length) links.levels
  | _, .nil, left => by simp
  | _, .cons op hop right more, left => by
    rw [Links.tree, more.height_tree, Expr.height, right.height_tree, Links.length, Links.levels]
    omega
termination_by structural _ links => links

theorem Arguments.argumentsHeight_trees : ∀ args : Arguments,
    Expr.argumentsHeight args.trees = args.levels
  | .last arg => by simp [arg.height_tree]
  | .more arg args => by simp [arg.height_tree, args.argumentsHeight_trees]
termination_by structural args => args

/-- The base of suffixes is lifted by all of them. -/
theorem Suffixes.height_tree : ∀ (suffixes : Suffixes) (base : Expr),
    (suffixes.tree base).height = max (base.height + suffixes.length) suffixes.levels
  | .nil, base => by simp
  | .property name more, base => by
    rw [Suffixes.tree, more.height_tree, Expr.height, Suffixes.length, Suffixes.levels]
    omega
  | .index position more, base => by
    rw [Suffixes.tree, more.height_tree, Expr.height, position.height_tree, Suffixes.length,
      Suffixes.levels]
    omega
termination_by structural suffixes => suffixes

end

/-! ## The highest trees -/

/-- The height of the highest atoms of depth `n`. One that is a level deeper puts a position around
an atom, in which three chains of `n` operators fit, and `n` more suffixes around the position. -/
def atomHeight : Nat → Nat
  | 0 => 0
  | n + 1 => atomHeight n + 4 * n + 1

theorem atomHeight_eq (n : Nat) : atomHeight n + n = 2 * n * n := by
  induction n with
  | zero => rfl
  | succ n ih =>
    have hsquare : 2 * (n + 1) * (n + 1) = 2 * n * n + 4 * n + 2 := by ring
    rw [atomHeight, hsquare]
    omega

theorem le_atomHeight (n : Nat) : n ≤ atomHeight n := by
  induction n with
  | zero => exact Nat.le_refl 0
  | succ n ih =>
    rw [atomHeight]
    omega

/-- How many chains of operators a rule can put around an atom. -/
def Rule.chains : Rule → Nat
  | .level .sum => 3
  | .level .product => 2
  | .level .power => 1
  | .signed => 0
  | .atom => 0

theorem Rule.chains_operand (l : BinaryOp.Level) : (level l).chains = l.operand.chains + 1 := by
  cases l <;> rfl

theorem Rule.chains_le (r : Rule) : r.chains ≤ 3 := by
  cases r with
  | level l => cases l <;> decide
  | signed => decide
  | atom => decide

/-- The height of the highest trees of depth `n`: an atom, and chains of `n` operators around it. -/
def Rule.heightLimit (r : Rule) (n : Nat) : Nat := atomHeight n + r.chains * n

namespace Rule

variable {r : Rule} {l : BinaryOp.Level} {n : Nat}

theorem heightLimit_level : (level l).heightLimit n = l.operand.heightLimit n + n := by
  rw [heightLimit, heightLimit, chains_operand, Nat.succ_mul, Nat.add_assoc]

/-- One level further down, any rule stays low enough to be a part of an atom. -/
theorem heightLimit_lt (r : Rule) (n : Nat) : r.heightLimit n + n < atomHeight (n + 1) := by
  have hchains : r.chains * n ≤ 3 * n := Nat.mul_le_mul_right n r.chains_le
  rw [heightLimit, atomHeight]
  omega

theorem heightLimit_sum : (level .sum).heightLimit n = 2 * n * (n + 1) := by
  have hatom := atomHeight_eq n
  have hproduct : 2 * n * (n + 1) = 2 * n * n + 2 * n := by ring
  rw [heightLimit, hproduct, chains]
  omega

theorem atomHeight_le : atomHeight n ≤ r.heightLimit n := Nat.le_add_right ..

theorem heightLimit_le_succ : r.heightLimit n ≤ r.heightLimit (n + 1) := by
  have hlt := heightLimit_lt r n
  have hle := atomHeight_le (r := r) (n := n + 1)
  omega

end Rule

/-- A chain of operators is at least as deep as it is long. -/
theorem Links.length_le_need : ∀ {l : BinaryOp.Level} (links : Links l), links.length ≤ links.need
  | _, .nil => Nat.le_refl 0
  | _, .cons op hop right more => by
    have hmore := more.length_le_need
    simp only [Links.length, Links.need]
    omega

/-- Suffixes are at least as deep as they are many. -/
theorem Suffixes.length_le_need : ∀ suffixes : Suffixes, suffixes.length ≤ suffixes.need
  | .nil => Nat.le_refl 0
  | .property name more => by
    have hmore := more.length_le_need
    simp only [Suffixes.length, Suffixes.need]
    omega
  | .index position more => by
    have hmore := more.length_le_need
    simp only [Suffixes.length, Suffixes.need]
    omega

mutual

/-- No tree of depth `n` is higher than the highest one. -/
theorem Derivation.levels_le : ∀ {r : Rule} (d : Derivation r) {n : Nat},
    d.need ≤ n → d.levels ≤ r.heightLimit n
  | _, .level first more, n, h => by
    simp only [Derivation.need] at h
    have hfirst := first.levels_le (n := n) (by omega)
    have hlength := more.length_le_need
    have hmore := more.levels_le (n := n) (by omega)
    rw [Derivation.levels, Rule.heightLimit_level]
    omega
  | _, .sign s operand, 0, h => by
    simp only [Derivation.need] at h
    omega
  | _, .sign s operand, n + 1, h => by
    simp only [Derivation.need] at h
    -- the sign takes one level, and the limit grows by more than that
    have hoperand := operand.levels_le (n := n) (by omega)
    have hlt := Rule.heightLimit_lt .signed n
    have hle := Rule.atomHeight_le (r := .signed) (n := n + 1)
    rw [Derivation.levels]
    omega
  | _, .unsigned operand, n, h => operand.levels_le h
  | _, .number k, n, h => Nat.zero_le _
  | _, .group inside, 0, h => by
    simp only [Derivation.need] at h
    omega
  | _, .group inside, n + 1, h => by
    simp only [Derivation.need] at h
    have hinside := inside.levels_le (n := n) (by omega)
    have hlt := Rule.heightLimit_lt (.level .sum) n
    have hle := Rule.atomHeight_le (r := .atom) (n := n + 1)
    rw [Derivation.levels]
    omega
  | _, .bareCall name, n, h => Nat.zero_le _
  | _, .call name args, 0, h => by
    simp only [Derivation.need] at h
    omega
  | _, .call name args, n + 1, h => by
    simp only [Derivation.need] at h
    have hargs := args.levels_le (n := n) (by omega)
    have hle := Rule.atomHeight_le (r := .atom) (n := n + 1)
    rw [Derivation.levels]
    omega
  | _, .access name suffixes, n, h => by
    simp only [Derivation.need] at h
    have hlength := suffixes.length_le_need
    have hle := le_atomHeight n
    have hsuffixes := suffixes.levels_le h
    have hatom := Rule.atomHeight_le (r := .atom) (n := n)
    rw [Derivation.levels]
    omega
termination_by structural _ d => d

theorem Links.levels_le : ∀ {l : BinaryOp.Level} (links : Links l) {n : Nat},
    links.need ≤ n → links.levels ≤ l.operand.heightLimit n + n
  | _, .nil, n, h => Nat.zero_le _
  | _, .cons op hop right more, 0, h => by
    simp only [Links.need] at h
    omega
  | l, .cons op hop right more, n + 1, h => by
    simp only [Links.need] at h
    have hright := right.levels_le (n := n) (by omega)
    -- the operators behind this operand are at most `n`, since the first of them lies deeper
    have hlength := more.length_le_need
    have hmore := more.levels_le (n := n) (by omega)
    have hmono := Rule.heightLimit_le_succ (r := l.operand) (n := n)
    rw [Links.levels]
    omega
termination_by structural _ links => links

theorem Arguments.levels_le : ∀ (args : Arguments) {n : Nat},
    args.need ≤ n → args.levels ≤ atomHeight (n + 1)
  | .last arg, n, h => by
    have harg := arg.levels_le h
    have hlt := Rule.heightLimit_lt (.level .sum) n
    rw [Arguments.levels]
    omega
  | .more arg args, n, h => by
    simp only [Arguments.need] at h
    have harg := arg.levels_le (n := n) (by omega)
    have hlt := Rule.heightLimit_lt (.level .sum) n
    have hargs := args.levels_le (n := n) (by omega)
    rw [Arguments.levels]
    omega
termination_by structural args => args

theorem Suffixes.levels_le : ∀ (suffixes : Suffixes) {n : Nat},
    suffixes.need ≤ n → suffixes.levels ≤ atomHeight n
  | .nil, n, h => Nat.zero_le _
  | .property name more, n, h => by
    simp only [Suffixes.need] at h
    exact more.levels_le (by omega)
  | .index position more, 0, h => by
    simp only [Suffixes.need] at h
    omega
  | .index position more, n + 1, h => by
    simp only [Suffixes.need] at h
    have hposition := position.levels_le (n := n) (by omega)
    have hlength := more.length_le_need
    have hlt := Rule.heightLimit_lt (.level .sum) n
    have hmore := more.levels_le (n := n + 1) (by omega)
    rw [Suffixes.levels]
    omega
termination_by structural suffixes => suffixes

end

end TextTemplate
