import TextTemplate.Proofs.Parser.Language
import TextTemplate.Proofs.Token.Broken
/-!
# Cutting a text on demand

A parser asks for a token only when it moves over the one before. That it does not cut its whole
text first can only be seen on a text that breaks off: there an earlier error wins, and it is the
one that the text in front of the break has.

- `Cursor.Breaks x c c'`, `Outcome.Breaks x o o'`: a parser for a text that breaks off with `x`, and
  one for the text in front of the break.
- `lockstep_breaks`: all rules keep this relation.
- `parse_on_demand`: parsing compared with cutting the text into tokens first.
-/

namespace TextTemplate

/-- The same token lies under both cursors, and it is not the last one in front of the break. -/
structure Cursor.Breaks (x : LexError) (c c' : Cursor) : Prop where
  token_eq : c.token = c'.token
  ne_endOfInput : c.token ≠ .endOfInput
  lexer : TextTemplate.Breaks x c.lexer c'.lexer

/-- The first lexer is at the break, or both give the same token, and it is not the last one. -/
theorem Breaks.next {x : LexError} {l l' : Lexer} (h : Breaks x l l') :
    l.next.1 = .error x ∨ ∃ token, l.next.1 = .ok token ∧ l'.next.1 = .ok token ∧
      Cursor.Breaks x ⟨token, l.next.2⟩ ⟨token, l'.next.2⟩ := by
  cases h with
  | here herror hend => exact .inl herror
  | step hne hnext hnext' more => exact .inr ⟨_, hnext, hnext', rfl, hne, more⟩

/-- Up to the break both cursors move over the same tokens. -/
theorem Cursor.Breaks.of_reads {x : LexError} {c c' stop : Cursor} {ts : List Token}
    (h : c.Breaks x c') (hread : Reads c ts stop) :
    ∃ stop', Reads c' ts stop' ∧ stop.Breaks x stop' := by
  induction hread generalizing c' with
  | here => exact ⟨c', .here c', h⟩
  | cons htoken hne hnext _ ih =>
    obtain herror | ⟨token, hsome, hnext', hmore⟩ := h.lexer.next
    · rw [hnext] at herror
      cases herror
    · cases hnext.symm.trans hsome
      obtain ⟨stop', hread', hstop⟩ := ih hmore
      exact ⟨stop', .cons (h.token_eq ▸ htoken) hne hnext' hread', hstop⟩

/-- Two parsers have succeeded with the same value in front of the break, or have failed with the
same error in front of it, or the first one has met the break. -/
inductive Outcome.Breaks {α : Type} (x : LexError) : Outcome α → Outcome α → Prop where
  | done (a : α) {c c' : Cursor} (h : c.Breaks x c') : Breaks x (.done a c) (.done a c')
  | failed (e : ParseError) (hne : ∀ y, e ≠ .lex y) (stop stop' : Parser) :
    Breaks x (.failed e stop) (.failed e stop')
  | lex (stop : Parser) (o' : Outcome α) : Breaks x (.failed (.lex x) stop) o'

namespace Outcome.Breaks

variable {α : Type} {x : LexError} {c c' : Cursor}

/-- Wrong tokens in front of the break are the same for both parsers. -/
theorem reject {depth : Nat} {expected : Expectation} {left : Token} (h : c.Breaks x c') :
    Outcome.Breaks (α := α) x (c.reject depth expected left) (c'.reject depth expected left) := by
  unfold Cursor.reject
  rw [h.token_eq]
  exact .failed _ (by simp) _ _

/-- What becomes of such outcomes when nothing may follow them: the first parser fails, either at
the break or with the error of the second one. -/
theorem whole {o o' : Outcome α} (h : o.Breaks x o') :
    o.whole = .error (.lex x) ∨
      ∃ e, (∀ y, e ≠ .lex y) ∧ o.whole = .error e ∧ o'.whole = .error e := by
  cases h with
  | @done a c c' hc =>
    refine .inr ⟨.trailingInput c.token, by simp, ?_, ?_⟩
    · exact if_neg hc.ne_endOfInput
    · rw [Outcome.whole, ← hc.token_eq, if_neg hc.ne_endOfInput]
  | failed e hne stop stop' => exact .inr ⟨e, hne, rfl, rfl⟩
  | lex stop o' => exact .inl rfl

end Outcome.Breaks

/-- Up to the break both parsers take the same steps. -/
theorem lockstep_breaks (x : LexError) :
    Lockstep (Cursor.Breaks x) fun _ _ _ o o' => Outcome.Breaks x o o' where
  token_eq h := h.token_eq
  done a h := .done a h
  move := by
    intro depth left c c' h _
    unfold Cursor.move
    obtain herror | ⟨token, hnext, hnext', hmore⟩ := h.lexer.next
    · rw [herror]
      exact .lex _ _
    · rw [hnext, hnext']
      exact .done () hmore
  descend := by
    intro depth c c' h
    unfold Cursor.descend
    split
    · exact .failed _ (by simp) _ _
    · exact .done () h
  reject h := .reject h
  mismatch h := .reject h
  andThen := by
    intro α β depth c c' o o' next ho hnext
    cases ho with
    | done a h => exact hnext a _ _ rfl h
    | failed e hne stop stop' => exact .failed e hne stop stop'
    | lex stop o' => exact .lex stop _
  above h := h

/-- A parser cannot start on a text whose first token is missing. -/
theorem ofText_of_error {text : String} {x : LexError}
    (h : (Lexer.ofText text).next.1 = .error x) : Parser.ofText text = .error (.lex x) := by
  rw [Parser.ofText]
  split
  · next token lexer hnext => rw [hnext] at h; cases h
  · next y lexer hnext =>
    rw [hnext] at h
    cases h
    rfl

/-- A text that breaks off is no expression. It has the error of the break, or the error that the
text in front of the break has. -/
theorem Expr.parse_of_breaks {text text' : String} {x : LexError}
    (h : Breaks x (Lexer.ofText text) (Lexer.ofText text')) :
    parse text = .error (.lex x) ∨
      ∃ e, (∀ y, e ≠ .lex y) ∧ parse text = .error e ∧ parse text' = .error e := by
  obtain herror | ⟨token, hnext, hnext', hmore⟩ := h.next
  · left
    rw [parse, ofText_of_error herror]
  · rw [parse_eq (ofText_eq_ok_iff.2 ⟨token, hnext, rfl⟩),
      parse_eq (ofText_eq_ok_iff.2 ⟨token, hnext', rfl⟩)]
    exact ((lockstep_breaks x).rule hmore).whole

/-- Texts with the same tokens have the same expression or the same error. -/
theorem Expr.parse_eq_of_tokenize {text text' : String} {ts : List Token}
    (h : tokenize text = .ok ts) (h' : tokenize text' = .ok ts) : parse text = parse text' := by
  obtain ⟨c, us, hp, hspell, hts⟩ := tokenize_eq_ok_iff.1 h
  obtain ⟨c', us', hp', hspell', hts'⟩ := tokenize_eq_ok_iff.1 h'
  have hus : us = us' := List.append_cancel_right (hts.symm.trans hts')
  subst hus
  rw [parse_eq hp, parse_eq hp']
  exact (lockstep_alike.rule ⟨us, hspell, hspell'⟩).whole.1

/-- Cutting a text on demand agrees with cutting it first. If a text can be cut into tokens, the
lexer does not fail while it is parsed, and its tokens determine its expression or its error. If it
cannot, it is no expression: it has the error of the lexer, or another one, which the text in front
of the offending character has as well. -/
theorem parse_on_demand (text : String) :
    (∀ ts, tokenize text = .ok ts →
      (∀ x, Expr.parse text ≠ .error (.lex x)) ∧
      ∀ text', tokenize text' = .ok ts → Expr.parse text = Expr.parse text') ∧
    ∀ x, tokenize text = .error x →
      ∃ c offset, x = .unexpectedChar c offset ∧ text.toList[offset]? = some c ∧
        (Expr.parse text = .error (.lex x) ∨
          ∃ e, (∀ y, e ≠ .lex y) ∧ Expr.parse text = .error e ∧
            Expr.parse (String.ofList (text.toList.take offset)) = .error e) := by
  constructor
  · intro ts hts
    refine ⟨Expr.parse_ne_lex hts, ?_⟩
    intro text' hts'
    exact Expr.parse_eq_of_tokenize hts hts'
  · intro x hx
    obtain ⟨c, offset, hchar, hget, hbreaks⟩ := exists_breaks_of_tokenize hx
    exact ⟨c, offset, hchar, hget, Expr.parse_of_breaks hbreaks⟩

/-- A parser that has failed does not meet the break behind. -/
example : tokenize ") #" = .error (.unexpectedChar '#' 2) ∧
    Expr.parse ") #" = .error (.unexpectedToken .operand .rightParen) := by
  constructor <;> cbv

end TextTemplate
