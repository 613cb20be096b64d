import TextTemplate.Proofs.Token.Broken
/-!
# Lexers that are asked again and again

A lexer can be asked for a token any number of times. Every token takes it further into the text,
so that it comes to the end of the text, or to a character that starts no lexeme, after at most as
many calls as there are characters. From then on it stays where it is, and all answers are the same.

- `IsFinal`: the answers after which a lexer gives no others.
- `Lexer.StandsIn`: the place of a lexer in a text; `Lexer.StandsIn.next`: a call keeps to the text.
- `Lexer.offset_lt_next`, `Lexer.next_next_of_isFinal`: a call takes a lexer further, or changes
  nothing for the next one.
- `Lexer.after`, `Lexer.answer`: the lexer after some calls, and the answer to one of them.
- `Lexer.exists_first_final`: there is a first final answer.
- `Collected`: what is collected from answers; `Lexer.collected_answers`: that is what the tokens of
  a text are.
- `Lexer.answers_exact`: all that holds of the calls of one lexer.
-/

namespace TextTemplate

/-- The answers after which a lexer gives no others: the end of the input, or an error. -/
inductive IsFinal : Except LexError Token → Prop where
  | endOfInput : IsFinal (.ok .endOfInput)
  | error (x : LexError) : IsFinal (.error x)

theorem not_isFinal_of_token {t : Token} (hne : t ≠ .endOfInput) : ¬ IsFinal (.ok t) := by
  rintro ⟨⟩
  exact hne rfl

/-- An answer that is not final is a token in front of the end of the input. -/
theorem exists_token_of_not_isFinal {answer : Except LexError Token} (h : ¬ IsFinal answer) :
    ∃ t, t ≠ .endOfInput ∧ answer = .ok t := by
  cases answer with
  | error x => exact absurd (.error x) h
  | ok t =>
    refine ⟨t, ?_, rfl⟩
    rintro rfl
    exact h .endOfInput

namespace Lexer

variable {l : Lexer} {text : List Char} {n m : Nat}

/-! ## One call -/

/-- A lexer stands in a text: what it has in front of it is what is left of the text behind its
offset. -/
structure StandsIn (text : List Char) (l : Lexer) : Prop where
  offset_le : l.offset ≤ text.length
  rest_eq : l.rest = text.drop l.offset

namespace StandsIn

theorem ofText (text : String) : (Lexer.ofText text).StandsIn text.toList := ⟨Nat.zero_le _, rfl⟩

/-- Moving over characters that are there keeps to the text. -/
theorem drop (h : l.StandsIn text) (hn : n ≤ l.rest.length) : (l.drop n).StandsIn text where
  offset_le := by
    have hlength : l.rest.length = text.length - l.offset := by rw [h.rest_eq, List.length_drop]
    have hoffset := h.offset_le
    show l.offset + n ≤ text.length
    omega
  rest_eq := by
    show l.rest.drop n = text.drop (l.offset + n)
    rw [h.rest_eq, List.drop_drop]

theorem skipSpaces (h : l.StandsIn text) : l.skipSpaces.StandsIn text :=
  h.drop (List.takeWhile_sublist _).length_le

/-- A call leaves the lexer in the text. -/
theorem next (h : l.StandsIn text) : l.next.2.StandsIn text := by
  obtain ⟨-, hnext⟩ | ⟨c, cs, token, hrest, -, hnext⟩ | ⟨c, cs, -, -, hnext⟩ := l.next_cases
  · rw [hnext]
    exact h.skipSpaces
  · rw [hnext]
    refine h.skipSpaces.drop ?_
    rw [hrest, lexemeTail_eq, List.length_cons]
    exact Nat.succ_le_succ (List.takeWhile_sublist _).length_le
  · rw [hnext]
    exact h.skipSpaces

end StandsIn

/-- A call with a final answer moves over spaces only. -/
theorem next_of_isFinal (h : IsFinal l.next.1) : l.next.2 = l.skipSpaces := by
  generalize hanswer : l.next.1 = answer at h
  cases h with
  | endOfInput =>
    obtain ⟨-, hstay⟩ := skipSpaces_of_endOfInput hanswer
    exact hstay
  | error x =>
    obtain ⟨_, _, -, -, -, hstay⟩ := exists_unexpected hanswer
    exact hstay

/-- After a final answer the next call gives the same answer and leaves the same lexer. -/
theorem next_next_of_isFinal (h : IsFinal l.next.1) : l.next.2.next = l.next := by
  rw [next_of_isFinal h, next_skipSpaces]

/-- A token takes the lexer further. -/
theorem offset_lt_next (h : ¬ IsFinal l.next.1) : l.offset < l.next.2.offset := by
  obtain ⟨t, hne, hnext⟩ := exists_token_of_not_isFinal h
  obtain ⟨spaces, first, tail, -, -, -, -, hoffset⟩ := exists_lexeme hnext hne
  omega

theorem offset_le_next (l : Lexer) : l.offset ≤ l.next.2.offset := by
  by_cases h : IsFinal l.next.1
  · rw [next_of_isFinal h]
    exact Nat.le_add_right ..
  · exact Nat.le_of_lt (offset_lt_next h)

/-! ## Any number of calls -/

/-- The lexer after `n` calls. -/
def after (l : Lexer) (n : Nat) : Lexer := (fun l => l.next.2)^[n] l

/-- The answer to the call that `n` others go before. -/
def answer (l : Lexer) (n : Nat) : Except LexError Token := (l.after n).next.1

/-- The answers to the first `n` calls. -/
def answers (l : Lexer) (n : Nat) : List (Except LexError Token) := (List.range n).map l.answer

theorem after_succ (l : Lexer) (n : Nat) : l.after (n + 1) = (l.after n).next.2 :=
  Function.iterate_succ_apply' ..

theorem answer_succ (l : Lexer) (n : Nat) : l.answer (n + 1) = l.next.2.answer n := rfl

theorem answers_succ (l : Lexer) (n : Nat) :
    l.answers (n + 1) = l.next.1 :: l.next.2.answers n := by
  rw [answers, List.range_succ_eq_map, List.map_cons, List.map_map]
  rfl

/-- No call takes a lexer out of the text. -/
theorem StandsIn.after (h : l.StandsIn text) (n : Nat) : (l.after n).StandsIn text := by
  induction n with
  | zero => exact h
  | succ n ih =>
    rw [after_succ]
    exact ih.next

theorem monotone_offset_after (l : Lexer) : Monotone fun n => (l.after n).offset :=
  monotone_nat_of_le_succ fun n => by
    rw [after_succ]
    exact offset_le_next _

/-- After as many tokens a lexer is at least that far in the text. -/
theorem le_offset_after (h : ∀ k < n, ¬ IsFinal (l.answer k)) : n ≤ (l.after n).offset := by
  induction n with
  | zero => exact Nat.zero_le _
  | succ n ih =>
    have hbefore := ih fun k hk => h k (Nat.lt_succ_of_lt hk)
    have hlast := offset_lt_next (h n (Nat.lt_succ_self n))
    rw [after_succ]
    omega

/-- A call after a final answer is the call with this answer once more. -/
theorem next_after_of_isFinal (h : IsFinal (l.answer n)) (hle : n ≤ m) :
    (l.after m).next = (l.after n).next := by
  induction m, hle using Nat.le_induction with
  | base => rfl
  | succ m _ ih =>
    have hfinal : IsFinal (l.after m).next.1 := by
      rw [ih]
      exact h
    rw [after_succ, next_next_of_isFinal hfinal, ih]

/-- Within as many calls as there are characters a lexer gives a first final answer. -/
theorem exists_first_final (h : l.StandsIn text) :
    ∃ n ≤ text.length, (∀ k < n, ¬ IsFinal (l.answer k)) ∧ IsFinal (l.answer n) := by
  classical
  have hsome : ∃ n ≤ text.length, IsFinal (l.answer n) := by
    by_contra hnone
    -- otherwise there would be more tokens than characters
    have hbefore : ∀ k < text.length + 1, ¬ IsFinal (l.answer k) := fun k hk hfinal =>
      hnone ⟨k, Nat.le_of_lt_succ hk, hfinal⟩
    have hfar := le_offset_after hbefore
    have hnear := (h.after (text.length + 1)).offset_le
    omega
  obtain ⟨n, hle, hn⟩ := hsome
  have hexists : ∃ n, IsFinal (l.answer n) := ⟨n, hn⟩
  exact ⟨Nat.find hexists, (Nat.find_le hn).trans hle, fun k => Nat.find_min hexists,
    Nat.find_spec hexists⟩

end Lexer

/-! ## The tokens of a text -/

/-- What is collected from answers: their tokens, or the error behind them. -/
inductive Collected : List (Except LexError Token) → Except LexError (List Token) → Prop where
  | tokens (ts : List Token) : Collected (ts.map .ok) (.ok ts)
  | error (ts : List Token) (x : LexError) : Collected (ts.map .ok ++ [.error x]) (.error x)

/-- A token in front of other answers. -/
theorem Collected.cons {answers : List (Except LexError Token)}
    {result : Except LexError (List Token)} (h : Collected answers result) (t : Token) :
    Collected (.ok t :: answers) (result.map (t :: ·)) := by
  cases h with
  | tokens ts => exact .tokens (t :: ts)
  | error ts x => exact .error (t :: ts) x

theorem tokens_of_error {l : Lexer} {x : LexError} (h : l.next.1 = .error x) :
    l.tokens = .error x := by
  rw [Lexer.tokens]
  split
  · next y herror =>
    cases herror.symm.trans h
    rfl
  · next t htoken => cases h.symm.trans htoken

namespace Lexer

/-- The tokens from a lexer on are collected from its answers up to the first final one. -/
theorem collected_answers {l : Lexer} {n : Nat} (hbefore : ∀ k < n, ¬ IsFinal (l.answer k))
    (hfinal : IsFinal (l.answer n)) : Collected (l.answers (n + 1)) l.tokens := by
  induction n generalizing l with
  | zero =>
    rw [answers_succ]
    cases hfirst : l.next.1 with
    | ok t =>
      have hend : t = .endOfInput := by
        by_contra hne
        exact not_isFinal_of_token hne (hfirst ▸ hfinal)
      rw [tokens_of_next hfirst, if_pos hend, hend]
      exact .tokens [.endOfInput]
    | error x =>
      rw [tokens_of_error hfirst]
      exact .error [] x
  | succ n ih =>
    obtain ⟨t, hne, hfirst⟩ := exists_token_of_not_isFinal (hbefore 0 n.succ_pos)
    have hfirst : l.next.1 = .ok t := hfirst
    -- the other calls are those of the lexer that the first one leaves
    have hbehind : ∀ k < n, ¬ IsFinal (l.next.2.answer k) := by
      intro k hk
      rw [← answer_succ]
      exact hbefore (k + 1) (Nat.succ_lt_succ hk)
    rw [answer_succ] at hfinal
    rw [answers_succ, hfirst, tokens_of_next hfirst, if_neg hne]
    exact (ih hbehind hfinal).cons t

/-- All that holds of any number of calls of the lexer of a text. It never leaves the text and never
goes back, and every token but the end of the input takes it further. After at most as many calls as
there are characters it gives a first final answer, and all later calls give that answer again from
the same place. The tokens of the text, or the error, are collected from the answers up to the first
final one. -/
theorem answers_exact (text : String) :
    (∀ n, ((ofText text).after n).StandsIn text.toList) ∧
    (∀ n m, n ≤ m → ((ofText text).after n).offset ≤ ((ofText text).after m).offset) ∧
    (∀ n t, (ofText text).answer n = .ok t → t ≠ .endOfInput →
      ((ofText text).after n).offset < ((ofText text).after (n + 1)).offset) ∧
    ∃ n ≤ text.length, (∀ k < n, ∃ t, t ≠ .endOfInput ∧ (ofText text).answer k = .ok t) ∧
      IsFinal ((ofText text).answer n) ∧
      (∀ m, n ≤ m → (ofText text).answer m = (ofText text).answer n ∧
        (ofText text).after (m + 1) = (ofText text).after (n + 1)) ∧
      Collected ((ofText text).answers (n + 1)) (tokenize text) := by
  have hstart := StandsIn.ofText text
  refine ⟨hstart.after, fun n m hle => monotone_offset_after _ hle, ?_, ?_⟩
  · intro n t hanswer hne
    have htoken : ¬ IsFinal ((ofText text).answer n) := by
      rw [hanswer]
      exact not_isFinal_of_token hne
    rw [after_succ]
    exact offset_lt_next htoken
  · obtain ⟨n, hle, hbefore, hfinal⟩ := exists_first_final hstart
    refine ⟨n, hle, fun k hk => exists_token_of_not_isFinal (hbefore k hk), hfinal, ?_,
      collected_answers hbefore hfinal⟩
    intro m hm
    have hsame := next_after_of_isFinal hfinal hm
    exact ⟨congrArg Prod.fst hsame, by rw [after_succ, after_succ, hsame]⟩

/-- A numeral with a second point in front of a character that starts no lexeme: one token, and the
same error for ever. -/
theorem answers_exact_second_point :
    (ofText "1.2.3 $").answer 0 = .ok (.number (numeralValue ['1', '.', '2'])) ∧
    ((ofText "1.2.3 $").after 0).offset < ((ofText "1.2.3 $").after 1).offset ∧
    ∀ m, 1 ≤ m → (ofText "1.2.3 $").answer m = .error (.unexpectedChar '$' 6) := by
  have hfirst : (ofText "1.2.3 $").answer 0 = .ok (.number (numeralValue ['1', '.', '2'])) := by
    decide +kernel
  have hsecond : (ofText "1.2.3 $").answer 1 = .error (.unexpectedChar '$' 6) := by decide +kernel
  obtain ⟨-, -, hmoves, n, -, hbefore, hfinal, hlater, -⟩ := answers_exact "1.2.3 $"
  have hn : n = 1 := by
    rcases Nat.lt_trichotomy n 1 with hlt | heq | hgt
    · rw [Nat.lt_one_iff.1 hlt, hfirst] at hfinal
      cases hfinal
    · exact heq
    · obtain ⟨t, -, ht⟩ := hbefore 1 hgt
      cases hsecond.symm.trans ht
  refine ⟨hfirst, hmoves 0 _ hfirst nofun, fun m hm => ?_⟩
  have hsame := (hlater m (hn ▸ hm)).1
  rw [hsame, hn, hsecond]

end Lexer

end TextTemplate
