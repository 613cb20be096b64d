import Mathlib
import TextTemplate.Proofs.Parser.Complete
import TextTemplate.Proofs.Parser.Lockstep
import TextTemplate.Proofs.Parser.Sound
import TextTemplate.Proofs.Parser.Unambiguous
/-!
# The texts that are expressions

A text is an expression iff its tokens have a derivation that is not too deep.

- `Outcome.whole`: what becomes of an outcome when nothing may follow it.
- `Expr.parse_eq_ok_iff`: the expressions of a text are those of its derivations.
- `Expr.parse_eq_tooDeep`: a derivation that is too deep is refused for that.
- `Expr.parse_ne_lex`: the lexer does not fail on a text that can be cut into tokens.
- `parse_exact`: all that can happen to a text that can be cut into tokens.
-/

namespace TextTemplate

/-- What becomes of an outcome when nothing may follow it. -/
def Outcome.whole {α : Type} : Outcome α → Except ParseError α
  | .done a rest =>
    if rest.token = .endOfInput then .ok a else .error (.trailingInput rest.token)
  | .failed error _ => .error error

/-- A whole outcome that succeeds has succeeded at the end of the input. -/
theorem Outcome.whole_eq_ok {α : Type} {o : Outcome α} {a : α} (h : o.whole = .ok a) :
    ∃ rest, o = .done a rest ∧ rest.token = .endOfInput := by
  cases o with
  | done b rest =>
    rw [whole] at h
    split at h
    · next hend =>
      cases h
      exact ⟨rest, rfl, hend⟩
    · cases h
  | failed error stop => cases h

/-- Alike outcomes become the same, and not an error of the lexer. -/
theorem Outcome.Alike.whole {α : Type} {o o' : Outcome α} (h : o.Alike o') :
    o.whole = o'.whole ∧ ∀ x, o.whole ≠ .error (.lex x) := by
  cases h with
  | done a hc =>
    rw [Outcome.whole, Outcome.whole, hc.token_eq]
    refine ⟨rfl, ?_⟩
    intro x
    split <;> simp
  | failed e hne stop stop' => exact ⟨rfl, fun x heq => hne x (Except.error.inj heq)⟩

namespace Expr

variable {text : String} {c : Cursor} {e : Expr} {all : List Token}

/-- The expression of a text is what the loosest rule makes of all of it. -/
theorem parse_eq (hp : Parser.ofText text = .ok ⟨c, 0⟩) :
    parse text = ((Rule.level .sum).parse 0 c).whole := by
  rw [parse, hp, Rule.parse]
  dsimp only
  rw [Parser.parse, Parser.expression]
  cases parseLevel .sum 0 c with
  | done e rest smaller =>
    dsimp only
    rw [Step.outcome, Outcome.whole]
    split <;> rfl
  | failed error stop => rfl

/-- A text without a first token is no expression. -/
theorem ofText_of_parse (h : parse text = .ok e) : ∃ c, Parser.ofText text = .ok ⟨c, 0⟩ := by
  unfold parse at h
  split at h
  · next p hp =>
    obtain ⟨token, -, rfl⟩ := ofText_eq_ok_iff.1 hp
    exact ⟨_, hp⟩
  · cases h

/-- Whether the derivation of a text is too deep decides what becomes of the text. -/
theorem decided_of_tokenize {d : Derivation (.level .sum)}
    (h : tokenize text = .ok (d.tokens ++ [.endOfInput])) :
    ∃ c stop, Parser.ofText text = .ok ⟨c, 0⟩ ∧ stop.token = .endOfInput ∧
      ((Rule.level .sum).parse 0 c).Decided (d.need ≤ depthLimit) d.tree stop := by
  obtain ⟨c, ts, hp, ⟨stop, hread, hstop⟩, htokens⟩ := tokenize_eq_ok_iff.1 h
  rw [← List.append_cancel_right htokens] at hread
  -- the end of the input belongs to no rule
  have hends : ¬ (Rule.level .sum).Absorbs stop.token := hstop ▸ Rule.not_absorbs_endOfInput
  have hdecided := d.decided (Nat.zero_le depthLimit) hread hends
  rw [Nat.zero_add] at hdecided
  exact ⟨c, stop, hp, hstop, hdecided⟩

/-- The expressions of a text are those of its derivations that are not too deep. -/
theorem parse_eq_ok_iff :
    parse text = .ok e ↔ ∃ d : Derivation (.level .sum),
      tokenize text = .ok (d.tokens ++ [.endOfInput]) ∧ d.tree = e ∧ d.need ≤ depthLimit := by
  constructor
  · intro h
    obtain ⟨c, hp⟩ := ofText_of_parse h
    rw [parse_eq hp] at h
    obtain ⟨rest, hrule, hend⟩ := Outcome.whole_eq_ok h
    obtain ⟨d, hd, hneed, hread⟩ := Rule.exists_derivation hrule
    rw [Nat.sub_zero] at hneed
    exact ⟨d, tokenize_eq_ok_iff.2 ⟨c, d.tokens, hp, ⟨rest, hread, hend⟩, rfl⟩, hd, hneed⟩
  · rintro ⟨d, htokens, rfl, hneed⟩
    obtain ⟨c, stop, hp, hstop, hdecided⟩ := decided_of_tokenize htokens
    rw [parse_eq hp, hdecided.done hneed, Outcome.whole, if_pos hstop]

/-- A derivation that is too deep is refused for that. -/
theorem parse_eq_tooDeep {d : Derivation (.level .sum)}
    (htokens : tokenize text = .ok (d.tokens ++ [.endOfInput])) (hneed : depthLimit < d.need) :
    parse text = .error .tooDeep := by
  obtain ⟨c, stop, hp, -, hdecided⟩ := decided_of_tokenize htokens
  obtain ⟨stop', hfailed⟩ := hdecided.tooDeep (Nat.not_le.2 hneed)
  rw [parse_eq hp, hfailed, Outcome.whole]

/-- The lexer does not fail on a text that can be cut into tokens. -/
theorem parse_ne_lex (htokens : tokenize text = .ok all) (x : LexError) :
    parse text ≠ .error (.lex x) := by
  obtain ⟨c, ts, hp, hspell, -⟩ := tokenize_eq_ok_iff.1 htokens
  have halike : Outcome.Alike ((Rule.level .sum).parse 0 c) ((Rule.level .sum).parse 0 c) :=
    lockstep_alike.rule ⟨ts, hspell, hspell⟩
  rw [parse_eq hp]
  exact halike.whole.2 x

end Expr

/-- All that can happen to a text that can be cut into tokens. It is an expression iff its tokens,
without the end of the input, have a derivation that is not too deep, and they have at most one
derivation. If that is too deep, the error says so; if there is none, the error may only say so for
a place before the one that is wrong. -/
theorem parse_exact (text : String) (all : List Token) (htokens : tokenize text = .ok all) :
    ∃ ts, all = ts ++ [.endOfInput] ∧
      (∀ e, Expr.parse text = .ok e ↔
        ∃ d : Derivation (.level .sum), d.tokens = ts ∧ d.tree = e ∧ d.need ≤ depthLimit) ∧
      (∀ d d' : Derivation (.level .sum), d.tokens = ts → d'.tokens = ts → d = d') ∧
      (∀ d : Derivation (.level .sum), d.tokens = ts → depthLimit < d.need →
        Expr.parse text = .error .tooDeep) ∧
      ((∀ d : Derivation (.level .sum), d.tokens ≠ ts) →
        Expr.parse text = .error .tooDeep ∨
        (∃ expected found, Expr.parse text = .error (.unexpectedToken expected found)) ∨
        ∃ found, Expr.parse text = .error (.trailingInput found)) := by
  obtain ⟨c, ts, -, -, rfl⟩ := tokenize_eq_ok_iff.1 htokens
  have hderives : ∀ d : Derivation (.level .sum),
      tokenize text = .ok (d.tokens ++ [.endOfInput]) ↔ d.tokens = ts := by
    intro d
    rw [htokens, Except.ok.injEq, List.append_cancel_right_eq]
    exact eq_comm
  have hok : ∀ e, Expr.parse text = .ok e ↔
      ∃ d : Derivation (.level .sum), d.tokens = ts ∧ d.tree = e ∧ d.need ≤ depthLimit := by
    intro e
    simp only [Expr.parse_eq_ok_iff, hderives]
  refine ⟨ts, rfl, hok, ?_, ?_, ?_⟩
  · intro d d' hd hd'
    exact Derivation.eq_of_tokens_eq (hd.trans hd'.symm)
  · intro d hd hneed
    exact Expr.parse_eq_tooDeep ((hderives d).2 hd) hneed
  · intro hnone
    -- without a derivation the text is no expression, and of all errors only the lexer's is excluded
    cases hparse : Expr.parse text with
    | ok e =>
      obtain ⟨d, hd, -⟩ := (hok e).1 hparse
      exact absurd hd (hnone d)
    | error error =>
      cases error with
      | lex x => exact absurd hparse (Expr.parse_ne_lex htokens x)
      | unexpectedToken expected found => exact .inr (.inl ⟨expected, found, rfl⟩)
      | trailingInput found => exact .inr (.inr ⟨found, rfl⟩)
      | tooDeep => exact .inl rfl

/-- The derivation of a power whose base has a sign. -/
def signedBaseDerivation (base exponent : String) : Derivation (.level .sum) :=
  .level (.level (.level (.sign .minus (.unsigned (.access base .nil)))
    (.cons .power rfl (.unsigned (.access exponent .nil)) .nil)) .nil) .nil

/-- A sign binds tighter than a power. -/
theorem parse_exact_signed_base :
    tokenize "-a^b" = .ok [.operator .subtract, .identifier "a", .operator .power,
      .identifier "b", .endOfInput] ∧
    Expr.parse "-a^b" = .ok (.binary .power (.signed .minus (.var "a")) (.var "b")) := by
  have htokens : tokenize "-a^b" = .ok [.operator .subtract, .identifier "a", .operator .power,
      .identifier "b", .endOfInput] := by cbv
  obtain ⟨ts, hts, hok, -⟩ := parse_exact "-a^b" _ htokens
  have hderived : (signedBaseDerivation "a" "b").tokens ++ [.endOfInput] = ts ++ [.endOfInput] := by
    rw [← hts]
    rfl
  exact ⟨htokens, (hok _).2
    ⟨signedBaseDerivation "a" "b", List.append_cancel_right hderived, rfl, by decide⟩⟩

end TextTemplate
