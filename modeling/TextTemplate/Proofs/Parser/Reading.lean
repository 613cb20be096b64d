import TextTemplate.Proofs.Parser.Outcome
/-!
# The tokens that a parser moves over

- `Reads c ts stop`: from `c` on a parser moves over the tokens `ts` and then stands at `stop`.
- `Spells c ts`: the tokens from `c` on up to the end of the input are `ts`.
- `Reads.rest`: what has been read is the first part of what can be spelled.
- `tokens_eq_ok_iff`, `tokenize_eq_ok_iff`: reading on demand and cutting the text beforehand give
  the same tokens.
-/

namespace TextTemplate

/-- From the first cursor on a parser moves over these tokens, one by one, and then stands at the
second cursor. It never moves over the end of the input. -/
inductive Reads : Cursor → List Token → Cursor → Prop where
  | here (c : Cursor) : Reads c [] c
  | cons {c stop : Cursor} {t token : Token} {ts : List Token} (htoken : c.token = t)
      (hne : t ≠ .endOfInput) (hnext : c.lexer.next.1 = .ok token)
      (more : Reads ⟨token, c.lexer.next.2⟩ ts stop) : Reads c (t :: ts) stop

/-- The tokens from a cursor on, up to the end of the input. -/
def Spells (c : Cursor) (ts : List Token) : Prop :=
  ∃ stop, Reads c ts stop ∧ stop.token = .endOfInput

namespace Reads

variable {c c₁ c₂ stop : Cursor} {t : Token} {ts us : List Token} {depth : Nat} {left : Token}

/-- The token under the cursor is the first that is read, or the one that stops the reading. -/
theorem token_eq (h : Reads c ts stop) : c.token = ts.headD stop.token := by
  cases h with
  | here => rfl
  | cons htoken => exact htoken

/-- The first token, and the cursor behind it. -/
theorem move (h : Reads c (t :: ts) stop) :
    c.token = t ∧ ∃ c₁, (∀ depth left, c.move depth left = .done () c₁) ∧ Reads c₁ ts stop := by
  cases h with
  | cons htoken hne hnext more =>
    exact ⟨htoken, _, fun depth left => by rw [Cursor.move, hnext], more⟩

theorem append (h₁ : Reads c ts c₁) (h₂ : Reads c₁ us c₂) : Reads c (ts ++ us) c₂ := by
  induction h₁ with
  | here => exact h₂
  | cons htoken hne hnext _ ih => exact .cons htoken hne hnext (ih h₂)

theorem of_append (h : Reads c (ts ++ us) stop) : ∃ c₁, Reads c ts c₁ ∧ Reads c₁ us stop := by
  induction ts generalizing c with
  | nil => exact ⟨c, .here c, h⟩
  | cons t ts ih =>
    cases h with
    | cons htoken hne hnext more =>
      obtain ⟨c₁, h₁, h₂⟩ := ih more
      exact ⟨c₁, .cons htoken hne hnext h₁, h₂⟩

/-- A successful move reads the token under the cursor. -/
theorem of_move (h : c.move depth left = .done () c₁) (htoken : c.token = t)
    (hne : t ≠ .endOfInput) : Reads c [t] c₁ := by
  unfold Cursor.move at h
  split at h
  · next token hnext =>
    cases h
    exact .cons htoken hne hnext (.here _)
  · cases h

/-- What has been read is the first part of what can be spelled. -/
theorem rest (h : Reads c ts c₁) (hs : Spells c us) : ∃ ws, us = ts ++ ws ∧ Spells c₁ ws := by
  induction h generalizing us with
  | here c => exact ⟨us, rfl, hs⟩
  | cons htoken hne hnext _ ih =>
    obtain ⟨stop, hread, hstop⟩ := hs
    -- both readings see the same token, and the lexer gives both the same next one
    cases hread with
    | here => exact absurd (htoken.symm.trans hstop) hne
    | cons htoken' _ hnext' more =>
      cases htoken.symm.trans htoken'
      cases hnext.symm.trans hnext'
      obtain ⟨ws, hws, hspell⟩ := ih ⟨stop, more, hstop⟩
      exact ⟨ws, by rw [hws, List.cons_append], hspell⟩

/-- Reading never makes the input that is left larger. -/
theorem size_le (h : Reads c ts stop) : stop.size ≤ c.size := by
  induction h with
  | here => exact Nat.le_refl _
  | cons htoken hne hnext _ ih =>
    have hlt := Cursor.size_next_lt hnext (htoken ▸ hne)
    omega

/-- Every token that is read makes the input that is left smaller. -/
theorem size_lt (h : Reads c (t :: ts) stop) : stop.size < c.size := by
  cases h with
  | cons htoken hne hnext more =>
    have hlt := Cursor.size_next_lt hnext (htoken ▸ hne)
    have hle := more.size_le
    omega

/-- A successful move one level down reads a token and finds room. -/
theorem of_moveDown (h : c.moveDown depth left = .done () c₁) (htoken : c.token = t)
    (hne : t ≠ .endOfInput) : Reads c [t] c₁ ∧ depth + 1 ≤ depthLimit := by
  obtain ⟨_, c₂, hmove, hdescend⟩ := Outcome.andThen_eq_done.1 h
  unfold Cursor.descend at hdescend
  split at hdescend
  · cases hdescend
  · cases hdescend
    exact ⟨of_move hmove htoken hne, by omega⟩

/-- A successful move over a particular token reads it. -/
theorem of_moveOver (h : c.moveOver depth t = .done () c₁) (hne : t ≠ .endOfInput) :
    Reads c [t] c₁ := by
  unfold Cursor.moveOver at h
  split at h
  · next htoken => exact of_move h htoken hne
  · cases h

end Reads

namespace Spells

variable {c : Cursor} {ts us : List Token}

/-- The token under the cursor is the first one, or the end of the input. -/
theorem token_eq (h : Spells c ts) : c.token = ts.headD .endOfInput := by
  obtain ⟨stop, hread, hstop⟩ := h
  rw [hread.token_eq, hstop]

theorem nil_iff (h : Spells c ts) : ts = [] ↔ c.token = .endOfInput := by
  obtain ⟨stop, hread, hstop⟩ := h
  cases hread with
  | here => exact iff_of_true rfl hstop
  | cons htoken hne => exact iff_of_false (by simp) (htoken ▸ hne)

/-- The tokens from a cursor on are determined. -/
theorem unique (h : Spells c ts) (h' : Spells c us) : ts = us := by
  obtain ⟨stop, hread, hstop⟩ := h
  obtain ⟨ws, rfl, hws⟩ := hread.rest h'
  rw [(hws.nil_iff).2 hstop, List.append_nil]

/-- The tokens from a cursor that is not at the end: its own, and those from the next cursor on. -/
theorem iff_of_ne (hne : c.token ≠ .endOfInput) :
    Spells c ts ↔ ∃ token more, c.lexer.next.1 = .ok token ∧
      Spells ⟨token, c.lexer.next.2⟩ more ∧ ts = c.token :: more := by
  constructor
  · rintro ⟨stop, hread, hstop⟩
    cases hread with
    | here => exact absurd hstop hne
    | cons htoken _ hnext more => exact ⟨_, _, hnext, ⟨stop, more, hstop⟩, by rw [htoken]⟩
  · rintro ⟨token, more, hnext, ⟨stop, hread, hstop⟩, rfl⟩
    exact ⟨stop, .cons rfl hne hnext hread, hstop⟩

end Spells

/-! ## All tokens of a text -/

/-- A lexer cuts its text into tokens iff a parser can read on to the end of the input. -/
theorem tokens_eq_ok_iff {l : Lexer} {all : List Token} :
    l.tokens = .ok all ↔ ∃ token ts, l.next.1 = .ok token ∧ Spells ⟨token, l.next.2⟩ ts ∧
      all = ts ++ [.endOfInput] := by
  fun_induction Lexer.tokens l generalizing all with
  | case1 l e hnext => simp [hnext]
  | case2 l hnext =>
    constructor
    · rintro ⟨⟩
      exact ⟨.endOfInput, [], hnext, ⟨_, .here _, rfl⟩, rfl⟩
    · rintro ⟨token, ts, hnext', hspell, rfl⟩
      cases hnext.symm.trans hnext'
      rw [hspell.nil_iff.2 rfl, List.nil_append]
  | case3 l token hnext hne e htokens ih =>
    -- what cannot be cut behind this token cannot be spelled there either
    rw [htokens] at ih
    refine iff_of_false (by simp) ?_
    rintro ⟨token', ts, hnext', hspell, -⟩
    cases hnext.symm.trans hnext'
    obtain ⟨token₁, more, hnext₁, hmore, -⟩ := (Spells.iff_of_ne hne).1 hspell
    exact nomatch ih.2 ⟨token₁, more, hnext₁, hmore, rfl⟩
  | case4 l token hnext hne more htokens ih =>
    rw [htokens] at ih
    obtain ⟨token₁, ts, hnext₁, hspell, rfl⟩ := ih.1 rfl
    have hcons := (Spells.iff_of_ne (c := ⟨token, l.next.2⟩) hne).2 ⟨token₁, ts, hnext₁, hspell, rfl⟩
    constructor
    · rintro ⟨⟩
      exact ⟨token, _, hnext, hcons, rfl⟩
    · rintro ⟨token', us, hnext', hspell', rfl⟩
      cases hnext.symm.trans hnext'
      rw [hspell'.unique hcons, List.cons_append]

theorem ofText_eq_ok_iff {text : String} {p : Parser} :
    Parser.ofText text = .ok p ↔ ∃ token, (Lexer.ofText text).next.1 = .ok token ∧
      p = ⟨⟨token, (Lexer.ofText text).next.2⟩, 0⟩ := by
  rw [Parser.ofText]
  split
  · next token lexer heq => simp [heq, eq_comm]
  · next e lexer heq => simp [heq]

/-- A text can be cut into tokens iff a parser starts at its head and can read on to the end. -/
theorem tokenize_eq_ok_iff {text : String} {all : List Token} :
    tokenize text = .ok all ↔ ∃ c ts, Parser.ofText text = .ok ⟨c, 0⟩ ∧ Spells c ts ∧
      all = ts ++ [.endOfInput] := by
  rw [tokenize, tokens_eq_ok_iff]
  constructor
  · rintro ⟨token, ts, hnext, hspell, hall⟩
    exact ⟨_, ts, ofText_eq_ok_iff.2 ⟨token, hnext, rfl⟩, hspell, hall⟩
  · rintro ⟨c, ts, hp, hspell, hall⟩
    obtain ⟨token, hnext, hc⟩ := ofText_eq_ok_iff.1 hp
    cases hc
    exact ⟨token, ts, hnext, hspell, hall⟩

end TextTemplate
