import TextTemplate.Proofs.Parser.Reading
/-!
# Two parsers in lockstep

The rules look at nothing but the token under the cursor. Two parsers that start at different
cursors therefore take the same steps as long as their tokens agree, and whatever the steps over a
single token keep between the two, whole rules keep.

- `Lockstep`: a relation between the outcomes of two parsers that single steps keep.
- `Lockstep.rule` and the theorems beside it: all rules keep such a relation.
- `Outcome.Alike`: equal values or equal errors, and no error of the lexer. Parsers with the same
  tokens before them keep it.
-/

namespace TextTemplate

/-- A relation `P` between the outcomes of two parsers that start at the same depth and at cursors
related by `R`, which all steps over a single token keep, and which carries over to compositions. -/
structure Lockstep (R : Cursor → Cursor → Prop)
    (P : {α : Type} → Nat → Cursor → Cursor → Outcome α → Outcome α → Prop) : Prop where
  /-- Related cursors stand at the same token. -/
  token_eq {c c' : Cursor} : R c c' → c.token = c'.token
  done {α : Type} {depth : Nat} {c c' : Cursor} (a : α) :
    R c c' → P depth c c' (.done a c) (.done a c')
  move {depth : Nat} {left : Token} {c c' : Cursor} :
    R c c' → c.token ≠ .endOfInput → P depth c c' (c.move depth left) (c'.move depth left)
  descend {depth : Nat} {c c' : Cursor} :
    R c c' → P depth c c' (c.descend depth) (c'.descend depth)
  /-- No operand or name stands under the cursor, and the end of the input is put in its place. -/
  reject {depth : Nat} {expected : Expectation} {c c' : Cursor} : R c c' →
    P (α := Expr) depth c c' (c.reject depth expected .endOfInput)
      (c'.reject depth expected .endOfInput)
  /-- Another token than the needed one stands under the cursor, and is kept. -/
  mismatch {depth : Nat} {t : Token} {c c' : Cursor} : R c c' →
    P (α := Unit) depth c c' (c.reject depth (.token t) c.token)
      (c'.reject depth (.token t) c.token)
  andThen {α β : Type} {depth : Nat} {c c' : Cursor} {o o' : Outcome α}
      {next : α → Cursor → Outcome β} :
    P depth c c' o o' →
    (∀ a c₁ c₁', o = .done a c₁ → R c₁ c₁' → P depth c₁ c₁' (next a c₁) (next a c₁')) →
    P depth c c' (o.andThen next) (o'.andThen next)
  /-- What starts one level further down is also related as seen from above. -/
  above {α : Type} {depth : Nat} {c c' : Cursor} {o o' : Outcome α} :
    P (depth + 1) c c' o o' → P depth c c' o o'

namespace Lockstep

variable {R : Cursor → Cursor → Prop}
  {P : {α : Type} → Nat → Cursor → Cursor → Outcome α → Outcome α → Prop}
  {α β : Type} {depth : Nat} {c c' : Cursor} {t left : Token}

theorem map {f : α → β} {o o' : Outcome α} (hP : Lockstep R P) (ho : P depth c c' o o') :
    P depth c c' (o.map f) (o'.map f) :=
  hP.andThen ho fun a _ _ _ hR => hP.done (f a) hR

/-- Two steps: over a token, and one level down. -/
theorem moveDown (hP : Lockstep R P) (hR : R c c') (hne : c.token ≠ .endOfInput) :
    P depth c c' (c.moveDown depth left) (c'.moveDown depth left) :=
  hP.andThen (hP.move hR hne) fun _ _ _ _ hR₁ => hP.descend hR₁

/-- Both parsers find the token that is needed, or both find the same other one. -/
theorem moveOver (hP : Lockstep R P) (hR : R c c') (ht : t ≠ .endOfInput) :
    P depth c c' (c.moveOver depth t) (c'.moveOver depth t) := by
  unfold Cursor.moveOver
  rw [← hP.token_eq hR]
  split
  · next htoken => exact hP.move hR (htoken ▸ ht)
  · exact hP.mismatch hR

/-- Behind a token that the lexer has given, the input that is left is smaller. -/
theorem size_moveDown {c₁ : Cursor} (hne : c.token ≠ .endOfInput)
    (h : c.moveDown depth left = .done () c₁) : c₁.size < c.size :=
  (Reads.of_moveDown h rfl hne).1.size_lt

open Rule

mutual

/-- The rules of the grammar keep what single steps keep. -/
theorem rule (hP : Lockstep R P) {r : Rule} {depth : Nat} {c c' : Cursor} (hR : R c c') :
    P depth c c' (r.parse depth c) (r.parse depth c') := by
  -- the tokens agree, so that both parsers are always in the same case
  match r with
  | .level l =>
    have hrank := rank_operand_lt l
    rw [parse_level, parse_level]
    refine hP.andThen (hP.rule hR) ?_
    intro left c₁ c₁' hleft hR₁
    have hsize := size_lt hleft
    exact hP.chain hR₁
  | .signed =>
    rw [parse_signed, parse_signed, ← hP.token_eq hR]
    split
    · next op htoken =>
      have hne : c.token ≠ .endOfInput := by simp [htoken]
      split
      · refine hP.andThen (hP.moveDown hR hne) ?_
        intro _ c₁ c₁' hmove hR₁
        have hsize := size_moveDown hne hmove
        exact hP.above (hP.map (hP.rule hR₁))
      · exact hP.rule hR
    · exact hP.rule hR
  | .atom =>
    rw [parse_atom, parse_atom, ← hP.token_eq hR]
    split
    · next n htoken => exact hP.map (hP.move hR (by simp [htoken]))
    · next htoken =>
      have hne : c.token ≠ .endOfInput := by simp [htoken]
      refine hP.andThen (hP.moveDown hR hne) ?_
      intro _ c₁ c₁' hmove hR₁
      refine hP.above ?_
      have hsize := size_moveDown hne hmove
      refine hP.andThen (hP.rule hR₁) ?_
      intro e c₂ c₂' _ hR₂
      exact hP.map (hP.moveOver hR₂ (by simp))
    · next name htoken =>
      have hne : c.token ≠ .endOfInput := by simp [htoken]
      refine hP.andThen (hP.move hR hne) ?_
      intro _ c₁ c₁' hmove hR₁
      have hsize := (Reads.of_move hmove rfl hne).size_lt
      rw [← hP.token_eq hR₁]
      split
      · next hcall =>
        have hne₁ : c₁.token ≠ .endOfInput := by simp [hcall]
        refine hP.andThen (hP.moveDown hR₁ hne₁) ?_
        intro _ c₂ c₂' hmove' hR₂
        have hsize' := size_moveDown hne₁ hmove'
        exact hP.above (hP.map (hP.arguments hR₂))
      · exact hP.suffixes hR₁
    · exact hP.reject hR
termination_by 11 * c.size + r.rank
decreasing_by
  all_goals
    have hsum : (level .sum).rank = 7 := rfl
    have hsigned : Rule.signed.rank = 2 := rfl
    have hatom : Rule.atom.rank = 1 := rfl
    omega

/-- So do the operators and operands of a level. -/
theorem chain (hP : Lockstep R P) {l : BinaryOp.Level} {depth : Nat} {left : Expr} {c c' : Cursor}
    (hR : R c c') : P depth c c' (chain l depth left c) (chain l depth left c') := by
  rw [chain_eq, chain_eq, ← hP.token_eq hR]
  split
  · next op htoken =>
    have hne : c.token ≠ .endOfInput := by simp [htoken]
    split
    · refine hP.andThen (hP.moveDown hR hne) ?_
      intro _ c₁ c₁' hmove hR₁
      refine hP.above ?_
      have hsize := size_moveDown hne hmove
      have hrank := l.operand.rank_le
      refine hP.andThen (hP.rule hR₁) ?_
      intro right c₂ c₂' hright hR₂
      have hsize' := size_lt hright
      exact hP.chain hR₂
    · exact hP.done left hR
  · exact hP.done left hR
termination_by 11 * c.size
decreasing_by all_goals omega

/-- So do arguments, up to the closing parenthesis. -/
theorem arguments (hP : Lockstep R P) {depth : Nat} {c c' : Cursor} (hR : R c c') :
    P depth c c' (arguments depth c) (arguments depth c') := by
  rw [arguments_eq, arguments_eq, ← hP.token_eq hR]
  split
  · next hclose => exact hP.map (hP.move hR (by simp [hclose]))
  · exact hP.moreArguments hR
termination_by 11 * c.size + 10
decreasing_by all_goals omega

theorem moreArguments (hP : Lockstep R P) {depth : Nat} {c c' : Cursor} (hR : R c c') :
    P depth c c' (moreArguments depth c) (moreArguments depth c') := by
  rw [moreArguments_eq, moreArguments_eq]
  refine hP.andThen (hP.rule hR) ?_
  intro arg c₁ c₁' harg hR₁
  have hsize := size_lt harg
  rw [← hP.token_eq hR₁]
  split
  · next hcomma =>
    have hne : c₁.token ≠ .endOfInput := by simp [hcomma]
    refine hP.andThen (hP.move hR₁ hne) ?_
    intro _ c₂ c₂' hmove hR₂
    have hsize' := (Reads.of_move hmove rfl hne).size_lt
    exact hP.map (hP.moreArguments hR₂)
  · exact hP.map (hP.moveOver hR₁ (by simp))
termination_by 11 * c.size + 9
decreasing_by
  all_goals
    have hsum : (level .sum).rank = 7 := rfl
    omega

/-- So do properties and positions. -/
theorem suffixes (hP : Lockstep R P) {depth : Nat} {base : Expr} {c c' : Cursor} (hR : R c c') :
    P depth c c' (suffixes depth base c) (suffixes depth base c') := by
  rw [suffixes_eq, suffixes_eq, ← hP.token_eq hR]
  split
  · next htoken =>
    have hne : c.token ≠ .endOfInput := by simp [htoken]
    refine hP.andThen (hP.moveDown hR hne) ?_
    intro _ c₁ c₁' hmove hR₁
    refine hP.above ?_
    have hsize := size_moveDown hne hmove
    refine hP.andThen (hP.rule hR₁) ?_
    intro position c₂ c₂' hposition hR₂
    have hsize' := size_lt hposition
    refine hP.andThen (hP.moveOver hR₂ (by simp)) ?_
    intro _ c₃ c₃' hover hR₃
    have hsize'' := (Reads.of_moveOver hover (by simp)).size_lt
    exact hP.suffixes hR₃
  · next htoken =>
    have hne : c.token ≠ .endOfInput := by simp [htoken]
    refine hP.andThen (hP.moveDown hR hne) ?_
    intro _ c₁ c₁' hmove hR₁
    refine hP.above ?_
    have hsize := size_moveDown hne hmove
    rw [← hP.token_eq hR₁]
    split
    · next name hname =>
      have hne₁ : c₁.token ≠ .endOfInput := by simp [hname]
      refine hP.andThen (hP.move hR₁ hne₁) ?_
      intro _ c₂ c₂' hmove' hR₂
      have hsize' := (Reads.of_move hmove' rfl hne₁).size_lt
      exact hP.suffixes hR₂
    · exact hP.reject hR₁
  · exact hP.done base hR
termination_by 11 * c.size
decreasing_by
  all_goals
    have hsum : (level .sum).rank = 7 := rfl
    omega

end

end Lockstep

/-! ## Equal tokens -/

/-- The same tokens lie before two cursors, up to the end of the input. -/
def Cursor.Alike (c c' : Cursor) : Prop := ∃ ts, Spells c ts ∧ Spells c' ts

/-- Two parsers have succeeded with the same value and the same tokens before them, or both have
failed with the same error, which is not an error of the lexer. -/
inductive Outcome.Alike {α : Type} : Outcome α → Outcome α → Prop where
  | done (a : α) {c c' : Cursor} (h : c.Alike c') : Alike (.done a c) (.done a c')
  | failed (e : ParseError) (hne : ∀ x, e ≠ .lex x) (stop stop' : Parser) :
    Alike (.failed e stop) (.failed e stop')

theorem Cursor.Alike.token_eq {c c' : Cursor} (h : c.Alike c') : c.token = c'.token := by
  obtain ⟨ts, hspell, hspell'⟩ := h
  rw [hspell.token_eq, hspell'.token_eq]

theorem Outcome.Alike.reject {α : Type} {depth : Nat} {expected : Expectation} {left : Token}
    {c c' : Cursor} (h : c.Alike c') :
    Outcome.Alike (α := α) (c.reject depth expected left) (c'.reject depth expected left) := by
  unfold Cursor.reject
  rw [h.token_eq]
  exact .failed _ (by simp) _ _

/-- Both lexers give the same token behind such cursors, and the same tokens follow it. -/
theorem Cursor.Alike.next {c c' : Cursor} (h : c.Alike c') (hne : c.token ≠ .endOfInput) :
    ∃ token, c.lexer.next.1 = .ok token ∧ c'.lexer.next.1 = .ok token ∧
      Cursor.Alike ⟨token, c.lexer.next.2⟩ ⟨token, c'.lexer.next.2⟩ := by
  have hne' : c'.token ≠ .endOfInput := h.token_eq ▸ hne
  obtain ⟨ts, hspell, hspell'⟩ := h
  -- the next token is the head of what is spelled behind the first one
  obtain ⟨token, more, hnext, hmore, rfl⟩ := (Spells.iff_of_ne hne).1 hspell
  obtain ⟨token', more', hnext', hmore', hcons⟩ := (Spells.iff_of_ne hne').1 hspell'
  cases (List.cons.inj hcons).2
  have htoken : token = token' := hmore.token_eq.trans hmore'.token_eq.symm
  subst htoken
  exact ⟨token, hnext, hnext', more, hmore, hmore'⟩

/-- Parsers with the same tokens before them take the same steps, and their lexers do not fail. -/
theorem lockstep_alike : Lockstep Cursor.Alike fun _ _ _ o o' => Outcome.Alike o o' where
  token_eq h := h.token_eq
  done a h := .done a h
  move := by
    intro depth left c c' h hne
    obtain ⟨token, hnext, hnext', hrest⟩ := h.next hne
    unfold Cursor.move
    rw [hnext, hnext']
    exact .done () hrest
  descend := by
    intro depth c c' h
    unfold Cursor.descend
    split
    · exact .failed _ (by simp) _ _
    · exact .done () h
  reject h := .reject h
  mismatch h := .reject h
  andThen := by
    intro α β depth c c' o o' next ho hnext
    cases ho with
    | done a h => exact hnext a _ _ rfl h
    | failed e hne stop stop' => exact .failed e hne stop stop'
  above h := h

end TextTemplate
