import TextTemplate.Proofs.Parser.Derivation
/-!
# The grammar is unambiguous

Two derivations by one rule that stand at the head of the same tokens are the same, if what follows
each of them does not belong to the rule. What follows is what keeps the induction going: behind an
operand of a level stands an operator of that level or the end of the whole level.

- `Derivation.unique_prefix`, `Links.unique_prefix`, `Arguments.unique_prefix`,
  `Suffixes.unique_prefix`: the mutual induction.
- `Derivation.eq_of_tokens_eq`: tokens have at most one derivation by a rule.
-/

namespace TextTemplate

mutual

/-- Derivations at the head of the same tokens are the same. -/
theorem Derivation.unique_prefix : ∀ {r : Rule} (d d' : Derivation r) {us us' : List Token},
    d.tokens ++ us = d'.tokens ++ us' → ¬ r.Absorbs (us.headD .endOfInput) →
    ¬ r.Absorbs (us'.headD .endOfInput) → d = d' ∧ us = us'
  | _, .level first more, d', us, us', h, hus, hus' => by
    cases d' with
    | level first' more' =>
      simp only [Derivation.tokens, List.append_assoc] at h
      -- both operands end before an operator of the level, or where the whole level ends
      obtain ⟨rfl, hrest⟩ := first.unique_prefix first' h (more.not_operand_absorbs hus)
        (more'.not_operand_absorbs hus')
      obtain ⟨rfl, rfl⟩ := more.unique_prefix more' hrest hus hus'
      exact ⟨rfl, rfl⟩
  | _, .sign s operand, d', us, us', h, hus, hus' => by
    cases d' with
    | sign s' operand' =>
      simp only [Derivation.tokens, List.cons_append, List.cons.injEq, Token.operator.injEq] at h
      obtain rfl := Sign.operator_injective h.1
      obtain ⟨rfl, rfl⟩ := operand.unique_prefix operand' h.2 hus hus'
      exact ⟨rfl, rfl⟩
    | unsigned operand' => cases operand' <;> simp at h
  | _, .unsigned operand, d', us, us', h, hus, hus' => by
    cases d' with
    | sign s' operand' => cases operand <;> simp at h
    | unsigned operand' =>
      obtain ⟨rfl, rfl⟩ := operand.unique_prefix operand' h
        (fun habsorb => hus (Rule.absorbs_of_atom habsorb))
        (fun habsorb => hus' (Rule.absorbs_of_atom habsorb))
      exact ⟨rfl, rfl⟩
  | _, .number n, d', us, us', h, hus, hus' => by
    cases d' with
    | number n' =>
      simp only [Derivation.tokens, List.cons_append, List.nil_append, List.cons.injEq,
        Token.number.injEq] at h
      obtain ⟨rfl, rfl⟩ := h
      exact ⟨rfl, rfl⟩
    | _ => simp at h
  | _, .group inside, d', us, us', h, hus, hus' => by
    cases d' with
    | group inside' =>
      simp only [Derivation.tokens, List.cons_append, List.append_assoc, List.nil_append,
        List.cons.injEq, true_and] at h
      obtain ⟨rfl, hrest⟩ := inside.unique_prefix inside' h Rule.not_absorbs_rightParen
        Rule.not_absorbs_rightParen
      exact ⟨rfl, List.tail_eq_of_cons_eq hrest⟩
    | _ => simp at h
  | _, .bareCall name, d', us, us', h, hus, hus' => by
    cases d' with
    | bareCall name' =>
      simp only [Derivation.tokens, List.cons_append, List.nil_append, List.cons.injEq,
        Token.identifier.injEq, true_and] at h
      obtain ⟨rfl, rfl⟩ := h
      exact ⟨rfl, rfl⟩
    | call name' args' =>
      -- the first argument does not start with a closing parenthesis
      obtain ⟨t, ts, htokens, ht⟩ := args'.tokens_eq_cons
      simp only [Derivation.tokens, htokens, List.cons_append, List.cons.injEq, true_and] at h
      exact absurd h.2.1.symm ht
    | access name' suffixes' =>
      -- a name that is not called is not followed by a parenthesis
      simp only [Derivation.tokens, List.cons_append, List.cons.injEq] at h
      exact absurd (by rw [← h.2]; rfl) (suffixes'.head_ne_leftParen hus')
    | _ => simp at h
  | _, .call name args, d', us, us', h, hus, hus' => by
    cases d' with
    | bareCall name' =>
      obtain ⟨t, ts, htokens, ht⟩ := args.tokens_eq_cons
      simp only [Derivation.tokens, htokens, List.cons_append, List.cons.injEq, true_and] at h
      exact absurd h.2.1 ht
    | call name' args' =>
      simp only [Derivation.tokens, List.cons_append, List.append_assoc, List.nil_append,
        List.cons.injEq, Token.identifier.injEq, true_and] at h
      obtain ⟨rfl, hrest⟩ := h
      obtain ⟨rfl, rfl⟩ := args.unique_prefix args' hrest
      exact ⟨rfl, rfl⟩
    | access name' suffixes' =>
      simp only [Derivation.tokens, List.cons_append, List.cons.injEq] at h
      exact absurd (by rw [← h.2]; rfl) (suffixes'.head_ne_leftParen hus')
    | _ => simp at h
  | _, .access name suffixes, d', us, us', h, hus, hus' => by
    cases d' with
    | bareCall name' =>
      simp only [Derivation.tokens, List.cons_append, List.cons.injEq] at h
      exact absurd (by rw [h.2]; rfl) (suffixes.head_ne_leftParen hus)
    | call name' args' =>
      simp only [Derivation.tokens, List.cons_append, List.cons.injEq] at h
      exact absurd (by rw [h.2]; rfl) (suffixes.head_ne_leftParen hus)
    | access name' suffixes' =>
      simp only [Derivation.tokens, List.cons_append, List.cons.injEq, Token.identifier.injEq] at h
      obtain ⟨rfl, hrest⟩ := h
      obtain ⟨rfl, rfl⟩ := suffixes.unique_prefix suffixes' hrest hus hus'
      exact ⟨rfl, rfl⟩
    | _ => simp at h
termination_by structural _ d => d

/-- Operators and operands at the head of the same tokens are the same. -/
theorem Links.unique_prefix : ∀ {l : BinaryOp.Level} (links links' : Links l) {us us' : List Token},
    links.tokens ++ us = links'.tokens ++ us' → ¬ (Rule.level l).Absorbs (us.headD .endOfInput) →
    ¬ (Rule.level l).Absorbs (us'.headD .endOfInput) → links = links' ∧ us = us'
  | _, .nil, links', us, us', h, hus, hus' => by
    cases links' with
    | nil => exact ⟨rfl, h⟩
    | cons op' hop' right' more' =>
      -- the operator would belong to the chain that is said to end before it
      rw [show us = _ from h] at hus
      exact absurd (Rule.level_absorbs hop') hus
  | _, .cons op hop right more, links', us, us', h, hus, hus' => by
    cases links' with
    | nil =>
      rw [show us' = _ from h.symm] at hus'
      exact absurd (Rule.level_absorbs hop) hus'
    | cons op' hop' right' more' =>
      simp only [Links.tokens, List.cons_append, List.append_assoc, List.cons.injEq,
        Token.operator.injEq] at h
      obtain ⟨rfl, hright⟩ := h
      obtain ⟨rfl, hmore⟩ := right.unique_prefix right' hright (more.not_operand_absorbs hus)
        (more'.not_operand_absorbs hus')
      obtain ⟨rfl, rfl⟩ := more.unique_prefix more' hmore hus hus'
      exact ⟨rfl, rfl⟩
termination_by structural _ links => links

/-- Arguments at the head of the same tokens, each with a closing parenthesis behind them, are the
same. -/
theorem Arguments.unique_prefix : ∀ (args args' : Arguments) {us us' : List Token},
    args.tokens ++ .rightParen :: us = args'.tokens ++ .rightParen :: us' → args = args' ∧ us = us'
  | .last arg, args', us, us', h => by
    cases args' with
    | last arg' =>
      obtain ⟨rfl, hrest⟩ := arg.unique_prefix arg' h Rule.not_absorbs_rightParen
        Rule.not_absorbs_rightParen
      exact ⟨rfl, List.tail_eq_of_cons_eq hrest⟩
    | more arg' args' =>
      simp only [Arguments.tokens, List.append_assoc, List.cons_append] at h
      -- the argument is the same, but a parenthesis follows it here and a comma there
      obtain ⟨rfl, hrest⟩ := arg.unique_prefix arg' h Rule.not_absorbs_rightParen
        Rule.not_absorbs_comma
      simp at hrest
  | .more arg args, args', us, us', h => by
    cases args' with
    | last arg' =>
      simp only [Arguments.tokens, List.append_assoc, List.cons_append] at h
      obtain ⟨rfl, hrest⟩ := arg.unique_prefix arg' h Rule.not_absorbs_comma
        Rule.not_absorbs_rightParen
      simp at hrest
    | more arg' args' =>
      simp only [Arguments.tokens, List.append_assoc, List.cons_append] at h
      obtain ⟨rfl, hrest⟩ := arg.unique_prefix arg' h Rule.not_absorbs_comma Rule.not_absorbs_comma
      obtain ⟨rfl, rfl⟩ := args.unique_prefix args' (List.tail_eq_of_cons_eq hrest)
      exact ⟨rfl, rfl⟩
termination_by structural args => args

/-- Suffixes at the head of the same tokens are the same. -/
theorem Suffixes.unique_prefix : ∀ (suffixes suffixes' : Suffixes) {us us' : List Token},
    suffixes.tokens ++ us = suffixes'.tokens ++ us' → ¬ Rule.atom.Absorbs (us.headD .endOfInput) →
    ¬ Rule.atom.Absorbs (us'.headD .endOfInput) → suffixes = suffixes' ∧ us = us'
  | .nil, suffixes', us, us', h, hus, hus' => by
    cases suffixes' with
    | nil => exact ⟨rfl, h⟩
    | property name' more' | index position' more' =>
      rw [show us = _ from h] at hus
      exact absurd trivial hus
  | .property name more, suffixes', us, us', h, hus, hus' => by
    cases suffixes' with
    | nil =>
      rw [show us' = _ from h.symm] at hus'
      exact absurd trivial hus'
    | property name' more' =>
      simp only [Suffixes.tokens, List.cons_append, List.cons.injEq, Token.identifier.injEq,
        true_and] at h
      obtain ⟨rfl, hrest⟩ := h
      obtain ⟨rfl, rfl⟩ := more.unique_prefix more' hrest hus hus'
      exact ⟨rfl, rfl⟩
    | index position' more' => simp at h
  | .index position more, suffixes', us, us', h, hus, hus' => by
    cases suffixes' with
    | nil =>
      rw [show us' = _ from h.symm] at hus'
      exact absurd trivial hus'
    | property name' more' => simp at h
    | index position' more' =>
      simp only [Suffixes.tokens, List.cons_append, List.append_assoc, List.cons.injEq,
        true_and] at h
      obtain ⟨rfl, hrest⟩ := position.unique_prefix position' h Rule.not_absorbs_rightBracket
        Rule.not_absorbs_rightBracket
      obtain ⟨rfl, rfl⟩ := more.unique_prefix more' (List.tail_eq_of_cons_eq hrest) hus hus'
      exact ⟨rfl, rfl⟩
termination_by structural suffixes => suffixes

end

/-- Tokens have at most one derivation by a rule. -/
theorem Derivation.eq_of_tokens_eq {r : Rule} {d d' : Derivation r} (h : d.tokens = d'.tokens) :
    d = d' := by
  have hprefix : d.tokens ++ [] = d'.tokens ++ [] := by rw [h]
  exact (d.unique_prefix d' hprefix Rule.not_absorbs_endOfInput Rule.not_absorbs_endOfInput).1

end TextTemplate
