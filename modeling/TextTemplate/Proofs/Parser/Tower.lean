import TextTemplate.Proofs.Parser.Height
import TextTemplate.Proofs.Parser.Language
import TextTemplate.Proofs.Token.Spelling
/-!
# The highest trees are parsed

- `tower`, `spire`: derivations whose trees are as high as their depth allows.
- `exists_text`: they can be written down.
- `height_exact`: how high the expressions of texts are, and how high they can be.
- `lowChain`: a text that is not deep, whose tree is higher than `depthLimit`.
-/

namespace TextTemplate

/-! ## Towers -/

/-- An operator of a level. -/
def BinaryOp.Level.sample : BinaryOp.Level → BinaryOp
  | .sum => .add
  | .product => .multiply
  | .power => .power

theorem BinaryOp.Level.level_sample (l : BinaryOp.Level) : l.sample.level = l := by
  cases l <;> rfl

/-- An atom, as a derivation of any rule. -/
def Derivation.ofAtom (d : Derivation .atom) : (r : Rule) → Derivation r
  | .atom => d
  | .signed => .unsigned d
  | .level .power => .level (.unsigned d) .nil
  | .level .product => .level (.level (.unsigned d) .nil) .nil
  | .level .sum => .level (.level (.level (.unsigned d) .nil) .nil) .nil

section OfAtom

variable (d : Derivation .atom) (r : Rule)

@[simp] theorem Derivation.tokens_ofAtom : (d.ofAtom r).tokens = d.tokens := by
  rcases r with (_ | _ | _) | _ | _ <;> simp [ofAtom]

@[simp] theorem Derivation.need_ofAtom : (d.ofAtom r).need = d.need := by
  rcases r with (_ | _ | _) | _ | _ <;> simp [ofAtom]

@[simp] theorem Derivation.levels_ofAtom : (d.ofAtom r).levels = d.levels := by
  rcases r with (_ | _ | _) | _ | _ <;> simp [ofAtom]

end OfAtom

/-- A name without properties and positions. -/
def nameAtom : Derivation .atom := .access "a" .nil

/-- A chain of `n` operators of a level, with a name behind each. -/
def repeated (l : BinaryOp.Level) : Nat → Links l
  | 0 => .nil
  | n + 1 => .cons l.sample l.level_sample (nameAtom.ofAtom l.operand) (repeated l n)

section Repeated

variable (l : BinaryOp.Level) (n : Nat)

@[simp] theorem length_repeated : (repeated l n).length = n := by
  induction n with
  | zero => rfl
  | succ n ih => rw [repeated, Links.length, ih]

@[simp] theorem need_repeated : (repeated l n).need = n := by
  induction n with
  | zero => rfl
  | succ n ih =>
    have hname : nameAtom.need = 0 := rfl
    rw [repeated, Links.need, ih, Derivation.need_ofAtom, hname]
    omega

@[simp] theorem levels_repeated : (repeated l n).levels = n := by
  induction n with
  | zero => rfl
  | succ n ih =>
    have hname : nameAtom.levels = 0 := rfl
    rw [repeated, Links.levels, ih, Derivation.levels_ofAtom, length_repeated, hname]
    omega

end Repeated

/-- `n` properties. -/
def properties : Nat → Suffixes
  | 0 => .nil
  | n + 1 => .property "a" (properties n)

section Properties

variable (n : Nat)

@[simp] theorem length_properties : (properties n).length = n := by
  induction n with
  | zero => rfl
  | succ n ih => rw [properties, Suffixes.length, ih]

@[simp] theorem need_properties : (properties n).need = n := by
  induction n with
  | zero => rfl
  | succ n ih => rw [properties, Suffixes.need, ih, Nat.add_comm]

@[simp] theorem levels_properties : (properties n).levels = 0 := by
  induction n with
  | zero => rfl
  | succ n ih => rw [properties, Suffixes.levels, ih]

end Properties

/-- An atom with a chain of `n` operators of every level around it. -/
def Derivation.surround (d : Derivation .atom) (n : Nat) : Derivation (.level .sum) :=
  .level (.level (.level (.unsigned d) (repeated .power n)) (repeated .product n))
    (repeated .sum n)

/-- The position in `a[…]` starts one level down, but everything behind it is put around it. -/
def tower : Nat → Derivation .atom
  | 0 => nameAtom
  | n + 1 => .access "a" (.index ((tower n).surround n) (properties n))

/-- The chains around the whole are as long as the tower is deep. -/
def spire (n : Nat) : Derivation (.level .sum) := (tower n).surround n

/-- A tower takes one level of depth for each position in a position. -/
theorem need_tower (n : Nat) : (tower n).need = n := by
  induction n with
  | zero => rfl
  | succ n ih =>
    simp only [tower, Derivation.surround, Derivation.need, Suffixes.need, ih, need_repeated,
      need_properties]
    omega

/-- But it is as high as an atom of that depth can be. -/
theorem levels_tower (n : Nat) : (tower n).levels = atomHeight n := by
  induction n with
  | zero => rfl
  | succ n ih =>
    simp only [tower, Derivation.surround, Derivation.levels, Suffixes.levels, Suffixes.length, ih,
      length_repeated, levels_repeated, length_properties, levels_properties, atomHeight]
    omega

/-- The chains around the whole do not make it deeper. -/
theorem need_spire (n : Nat) : (spire n).need = n := by
  simp [spire, Derivation.surround, need_tower]

/-- With them it is as high as any tree of that depth can be. -/
theorem levels_spire (n : Nat) : (spire n).levels = 2 * n * (n + 1) := by
  rw [← Rule.heightLimit_sum, Rule.heightLimit, Rule.chains]
  simp only [spire, Derivation.surround, Derivation.levels, levels_tower, length_repeated,
    levels_repeated]
  omega

/-! ## Their texts -/

/-- Every token has a lexeme. -/
def Written (ts : List Token) : Prop := ∃ xs : List Lexeme, xs.map Lexeme.token = ts

namespace Written

variable {t : Token} {ts us : List Token}

theorem nil : Written [] := ⟨[], rfl⟩

theorem cons (x : Lexeme) (h : Written ts) : Written (x.token :: ts) := by
  obtain ⟨xs, rfl⟩ := h
  exact ⟨x :: xs, rfl⟩

theorem append (h : Written ts) (h' : Written us) : Written (ts ++ us) := by
  obtain ⟨xs, rfl⟩ := h
  obtain ⟨ys, rfl⟩ := h'
  exact ⟨xs ++ ys, List.map_append⟩

/-- Tokens that have lexemes are the tokens of a text. -/
theorem exists_text (h : Written ts) : ∃ text, tokenize text = .ok (ts ++ [.endOfInput]) := by
  obtain ⟨xs, rfl⟩ := h
  exact ⟨spaced xs, tokenize_spaced xs⟩

end Written

/-- The name in the towers. -/
def nameLexeme : Lexeme := .name 'a' [] (by decide) (by simp)

theorem tokens_nameAtom : nameAtom.tokens = [nameLexeme.token] := rfl

/-- A chain is written with an operator and a name in turn. -/
theorem tokens_repeated (l : BinaryOp.Level) (n : Nat) :
    (repeated l n).tokens
      = (List.replicate n [Lexeme.operator l.sample, nameLexeme]).flatten.map Lexeme.token := by
  induction n with
  | zero => rfl
  | succ n ih =>
    rw [repeated, Links.tokens, Derivation.tokens_ofAtom, tokens_nameAtom, ih]
    rfl

theorem written_repeated (l : BinaryOp.Level) (n : Nat) : Written (repeated l n).tokens :=
  ⟨_, (tokens_repeated l n).symm⟩

theorem written_properties (n : Nat) : Written (properties n).tokens := by
  induction n with
  | zero => exact .nil
  | succ n ih => exact .cons .dot (.cons nameLexeme ih)

theorem written_surround {d : Derivation .atom} (h : Written d.tokens) (n : Nat) :
    Written (d.surround n).tokens :=
  ((h.append (written_repeated .power n)).append (written_repeated .product n)).append
    (written_repeated .sum n)

theorem written_tower (n : Nat) : Written (tower n).tokens := by
  induction n with
  | zero => exact .cons nameLexeme .nil
  | succ n ih =>
    exact .cons nameLexeme (.cons .leftBracket
      ((written_surround ih n).append (.cons .rightBracket (written_properties n))))

/-- Every depth that is allowed has a text whose tree is as high as the depth allows. -/
theorem exists_parse_spire {n : Nat} (h : n ≤ depthLimit) :
    ∃ text e, Expr.parse text = .ok e ∧ e.height = 2 * n * (n + 1) := by
  obtain ⟨text, htokens⟩ := (written_surround (written_tower n) n).exists_text
  have hparse : Expr.parse text = .ok (spire n).tree :=
    Expr.parse_eq_ok_iff.2 ⟨spire n, htokens, rfl, (need_spire n).le.trans h⟩
  exact ⟨text, _, hparse, (spire n).height_tree.trans (levels_spire n)⟩

/-! ## The height of what is parsed -/

/-- The height of a parsed tree is given by the levels of its derivation, so that it respects
`depthLimit` iff they do. The depth of the derivation only bounds it by a square, and among the
texts of that depth there is one whose tree is as high as that. -/
theorem height_exact (text : String) (e : Expr) (h : Expr.parse text = .ok e) :
    ∃ d : Derivation (.level .sum), tokenize text = .ok (d.tokens ++ [.endOfInput]) ∧
      d.tree = e ∧ d.need ≤ depthLimit ∧
      e.height = d.levels ∧ (e.height ≤ depthLimit ↔ d.levels ≤ depthLimit) ∧
      e.height ≤ 2 * d.need * (d.need + 1) ∧
      ∃ text' e', Expr.parse text' = .ok e' ∧ e'.height = 2 * d.need * (d.need + 1) := by
  obtain ⟨d, htokens, rfl, hneed⟩ := Expr.parse_eq_ok_iff.1 h
  have hheight := d.height_tree
  refine ⟨d, htokens, rfl, hneed, hheight, ?_, ?_, exists_parse_spire hneed⟩
  · rw [hheight]
  · rw [hheight, ← Rule.heightLimit_sum]
    exact d.levels_le (Nat.le_refl d.need)

/-- One operator of every level, and nothing deeper than one level. -/
theorem height_exact_one_of_each :
    ∃ d : Derivation (.level .sum), tokenize "a^b*c+d" = .ok (d.tokens ++ [.endOfInput]) ∧
      d.levels = 3 := by
  have hparse : Expr.parse "a^b*c+d" = .ok (.binary .add
      (.binary .multiply (.binary .power (.var "a") (.var "b")) (.var "c")) (.var "d")) := by cbv
  obtain ⟨d, htokens, -, -, hlevels, -⟩ := height_exact _ _ hparse
  exact ⟨d, htokens, hlevels.symm⟩

/-- A chain of products as long as the limit allows, and one sum behind it. -/
def lowChain : List Lexeme :=
  nameLexeme :: ((List.replicate depthLimit [.operator .multiply, nameLexeme]).flatten ++
    [.operator .add, nameLexeme])

/-- The derivation of the chain. -/
def lowChainDerivation : Derivation (.level .sum) :=
  .level (.level (nameAtom.ofAtom BinaryOp.Level.product.operand) (repeated .product depthLimit))
    (repeated .sum 1)

/-- The sum starts at the first level again, but the products are below it. -/
theorem lowChain_too_high :
    ∃ e, Expr.parse (spaced lowChain) = .ok e ∧ e.height = depthLimit + 1 := by
  -- the tokens are those of a derivation whose depth is exactly the limit
  have htokens : lowChain.map Lexeme.token = lowChainDerivation.tokens := by
    have hproduct : (nameAtom.ofAtom BinaryOp.Level.product.operand).tokens = [nameLexeme.token] :=
      Derivation.tokens_ofAtom ..
    simp [lowChainDerivation, lowChain, hproduct, tokens_repeated, BinaryOp.Level.sample]
  refine ⟨_, Expr.parse_eq_ok_iff.2 ⟨lowChainDerivation, ?_, rfl, ?_⟩, ?_⟩
  · rw [tokenize_spaced, htokens]
  · simp [lowChainDerivation, nameAtom, depthLimit]
  · rw [Derivation.height_tree]
    simp [lowChainDerivation, nameAtom, depthLimit]

end TextTemplate
