import TextTemplate.Proofs.Parser.Derivation
import TextTemplate.Proofs.Parser.Reading
/-!
# What is parsed is derived

A parser that succeeds has read the tokens of a derivation, which fits below the level at which it
has started and has the expression that is returned.

- `Rule.exists_derivation`, `Rule.exists_links`, `Rule.exists_arguments`, `Rule.exists_suffixes`: the
  mutual induction over the input that is left.
-/

namespace TextTemplate

namespace Rule

mutual

/-- An expression that is parsed by a rule has a derivation. -/
theorem exists_derivation {r : Rule} {depth : Nat} {c rest : Cursor} {e : Expr}
    (h : r.parse depth c = .done e rest) :
    ∃ d : Derivation r, d.tree = e ∧ d.need ≤ depthLimit - depth ∧ Reads c d.tokens rest := by
  match r with
  | .level l =>
    rw [parse_level] at h
    obtain ⟨left, c₁, hfirst, hmore⟩ := Outcome.andThen_eq_done.1 h
    -- the operand is parsed at the same place, but by a rule of lower rank
    have hrank := rank_operand_lt l
    obtain ⟨first, rfl, hneed, hread⟩ := exists_derivation hfirst
    have hsize := hread.size_le
    obtain ⟨more, rfl, hneed', hread'⟩ := exists_links hmore
    refine ⟨.level first more, rfl, ?_, hread.append hread'⟩
    simp only [Derivation.need]
    omega
  | .signed =>
    rw [parse_signed] at h
    split at h
    · next op htoken =>
      split at h
      · next sign hsign =>
        obtain ⟨_, c₁, hmove, hmap⟩ := Outcome.andThen_eq_done.1 h
        obtain ⟨hread, hroom⟩ := Reads.of_moveDown hmove htoken (by simp)
        have hsize := hread.size_lt
        obtain ⟨_, hoperand, rfl⟩ := Outcome.map_eq_done.1 hmap
        obtain ⟨operand, rfl, hneed, hread'⟩ := exists_derivation hoperand
        refine ⟨.sign sign operand, rfl, ?_, ?_⟩
        · simp only [Derivation.need]
          omega
        · rw [Sign.eq_operator_of_ofOperator? hsign] at hread
          exact hread.append hread'
      · obtain ⟨operand, htree, hneed, hread⟩ := exists_derivation h
        exact ⟨.unsigned operand, htree, hneed, hread⟩
    · obtain ⟨operand, htree, hneed, hread⟩ := exists_derivation h
      exact ⟨.unsigned operand, htree, hneed, hread⟩
  | .atom =>
    rw [parse_atom] at h
    split at h
    · next n htoken =>
      obtain ⟨_, hmove, rfl⟩ := Outcome.map_eq_done.1 h
      have hread := Reads.of_move hmove htoken (by simp)
      exact ⟨.number n, rfl, Nat.zero_le _, hread⟩
    · next htoken =>
      obtain ⟨_, c₁, hmove, h⟩ := Outcome.andThen_eq_done.1 h
      obtain ⟨hopen, hroom⟩ := Reads.of_moveDown hmove htoken (by simp)
      have hsize := hopen.size_lt
      obtain ⟨inner, c₂, hinside, hmap⟩ := Outcome.andThen_eq_done.1 h
      obtain ⟨_, hover, rfl⟩ := Outcome.map_eq_done.1 hmap
      obtain ⟨inside, rfl, hneed, hread⟩ := exists_derivation hinside
      have hclose := Reads.of_moveOver hover (by simp)
      refine ⟨.group inside, rfl, ?_, ?_⟩
      · simp only [Derivation.need]
        omega
      · exact hopen.append (hread.append hclose)
    · next name htoken =>
      obtain ⟨_, c₁, hmove, h⟩ := Outcome.andThen_eq_done.1 h
      have hname := Reads.of_move hmove htoken (by simp)
      have hsize := hname.size_lt
      -- a parenthesis behind the name makes it a call, and anything else starts its suffixes
      split at h
      · next hparen =>
        obtain ⟨_, c₂, hdown, hmap⟩ := Outcome.andThen_eq_done.1 h
        obtain ⟨hopen, hroom⟩ := Reads.of_moveDown hdown hparen (by simp)
        have hsize' := hopen.size_lt
        obtain ⟨args, hargs, rfl⟩ := Outcome.map_eq_done.1 hmap
        rw [arguments_eq] at hargs
        split at hargs
        · next hclose =>
          obtain ⟨_, hmove', rfl⟩ := Outcome.map_eq_done.1 hargs
          have hread := Reads.of_move hmove' hclose (by simp)
          have hneed : 1 ≤ depthLimit - depth := Nat.le_sub_of_add_le' hroom
          exact ⟨.bareCall name, rfl, hneed, hname.append (hopen.append hread)⟩
        · obtain ⟨args, rfl, hneed, hread⟩ := exists_arguments hargs
          refine ⟨.call name args, rfl, ?_, hname.append (hopen.append hread)⟩
          simp only [Derivation.need]
          omega
      · obtain ⟨suffixes, rfl, hneed, hread⟩ := exists_suffixes h
        exact ⟨.access name suffixes, rfl, hneed, hname.append hread⟩
    · cases h
termination_by 11 * c.size + r.rank
decreasing_by
  all_goals
    have hsum : (level .sum).rank = 7 := rfl
    have hsigned : signed.rank = 2 := rfl
    have hatom : atom.rank = 1 := rfl
    omega

/-- Operators and operands that are parsed have a derivation. -/
theorem exists_links {l : BinaryOp.Level} {depth : Nat} {left e : Expr} {c rest : Cursor}
    (h : chain l depth left c = .done e rest) :
    ∃ links : Links l, links.tree left = e ∧ links.need ≤ depthLimit - depth ∧
      Reads c links.tokens rest := by
  rw [chain_eq] at h
  split at h
  · next op htoken =>
    split at h
    · next hop =>
      obtain ⟨_, c₁, hmove, h⟩ := Outcome.andThen_eq_done.1 h
      obtain ⟨hread, hroom⟩ := Reads.of_moveDown hmove htoken (by simp)
      have hsize := hread.size_lt
      obtain ⟨_, c₂, hright, hmore⟩ := Outcome.andThen_eq_done.1 h
      have hrank := l.operand.rank_le
      obtain ⟨right, rfl, hneed, hread'⟩ := exists_derivation hright
      have hsize' := hread'.size_le
      obtain ⟨more, rfl, hneed', hread''⟩ := exists_links hmore
      refine ⟨.cons op hop right more, rfl, ?_, hread.append (hread'.append hread'')⟩
      simp only [Links.need]
      omega
    · cases h
      exact ⟨.nil, rfl, Nat.zero_le _, .here _⟩
  · cases h
    exact ⟨.nil, rfl, Nat.zero_le _, .here _⟩
termination_by 11 * c.size
decreasing_by all_goals omega

/-- Arguments that are parsed have a derivation, and a parenthesis closes them. -/
theorem exists_arguments {depth : Nat} {es : List Expr} {c rest : Cursor}
    (h : moreArguments depth c = .done es rest) :
    ∃ args : Arguments, args.trees = es ∧ args.need ≤ depthLimit - depth ∧
      Reads c (args.tokens ++ [.rightParen]) rest := by
  rw [moreArguments_eq] at h
  obtain ⟨_, c₁, harg, h⟩ := Outcome.andThen_eq_done.1 h
  obtain ⟨arg, rfl, hneed, hread⟩ := exists_derivation harg
  have hsize := hread.size_le
  split at h
  · next hcomma =>
    obtain ⟨_, c₂, hmove, hmap⟩ := Outcome.andThen_eq_done.1 h
    have hread' := Reads.of_move hmove hcomma (by simp)
    have hsize' := hread'.size_lt
    obtain ⟨_, hargs, rfl⟩ := Outcome.map_eq_done.1 hmap
    obtain ⟨args, rfl, hneed', hread''⟩ := exists_arguments hargs
    refine ⟨.more arg args, rfl, ?_, ?_⟩
    · simp only [Arguments.need]
      omega
    · rw [Arguments.tokens, List.append_assoc]
      exact hread.append (hread'.append hread'')
  · obtain ⟨_, hover, rfl⟩ := Outcome.map_eq_done.1 h
    exact ⟨.last arg, rfl, hneed, hread.append (Reads.of_moveOver hover (by simp))⟩
termination_by 11 * c.size + 9
decreasing_by
  all_goals
    have hsum : (level .sum).rank = 7 := rfl
    omega

/-- Suffixes that are parsed have a derivation. -/
theorem exists_suffixes {depth : Nat} {base e : Expr} {c rest : Cursor}
    (h : suffixes depth base c = .done e rest) :
    ∃ suffixes : Suffixes, suffixes.tree base = e ∧ suffixes.need ≤ depthLimit - depth ∧
      Reads c suffixes.tokens rest := by
  rw [suffixes_eq] at h
  split at h
  · next htoken =>
    obtain ⟨_, c₁, hmove, h⟩ := Outcome.andThen_eq_done.1 h
    obtain ⟨hopen, hroom⟩ := Reads.of_moveDown hmove htoken (by simp)
    have hsize := hopen.size_lt
    obtain ⟨_, c₂, hposition, h⟩ := Outcome.andThen_eq_done.1 h
    obtain ⟨position, rfl, hneed, hread⟩ := exists_derivation hposition
    have hsize' := hread.size_le
    obtain ⟨_, c₃, hover, hmore⟩ := Outcome.andThen_eq_done.1 h
    have hclose := Reads.of_moveOver hover (by simp)
    have hsize'' := hclose.size_lt
    obtain ⟨more, rfl, hneed', hread'⟩ := exists_suffixes hmore
    refine ⟨.index position more, rfl, ?_, ?_⟩
    · simp only [Suffixes.need]
      omega
    · exact hopen.append (hread.append (hclose.append hread'))
  · next htoken =>
    obtain ⟨_, c₁, hmove, h⟩ := Outcome.andThen_eq_done.1 h
    obtain ⟨hdot, hroom⟩ := Reads.of_moveDown hmove htoken (by simp)
    have hsize := hdot.size_lt
    split at h
    · next name hname =>
      obtain ⟨_, c₂, hmove', hmore⟩ := Outcome.andThen_eq_done.1 h
      have hread := Reads.of_move hmove' hname (by simp)
      have hsize' := hread.size_lt
      obtain ⟨more, rfl, hneed, hread'⟩ := exists_suffixes hmore
      refine ⟨.property name more, rfl, ?_, hdot.append (hread.append hread')⟩
      simp only [Suffixes.need]
      omega
    · cases h
  · cases h
    exact ⟨.nil, rfl, Nat.zero_le _, .here _⟩
termination_by 11 * c.size
decreasing_by
  all_goals
    have hsum : (level .sum).rank = 7 := rfl
    omega

end

end Rule
end TextTemplate
