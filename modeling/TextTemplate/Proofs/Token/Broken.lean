import TextTemplate.Proofs.Token.Spelling
/-!
# Texts that break off

A text that cannot be cut into tokens has a first character that starts no lexeme. The text before
that character can be cut, and up to there a lexer gives the same tokens for both texts.

- `Lexer.next_cases`: all that a lexer can do; `Lexer.exists_lexeme`, `Lexer.exists_unexpected` and
  `Lexer.skipSpaces_of_endOfInput`: the text in front of a lexer that gives a token, of one that
  fails, and of one that is at its end.
- `Breaks x l l'`: two lexers give the same tokens until the first one fails with `x` and the second
  one is at its end.
- `exists_breaks`: where a lexer fails, and the lexer for the text before that.
- `exists_breaks_of_tokenize`: the same for a whole text.
-/

namespace TextTemplate

theorem takeWhile_append_drop (p : Char → Bool) (cs : List Char) :
    cs.takeWhile p ++ cs.drop (cs.takeWhile p).length = cs :=
  List.prefix_iff_eq_append.1 ( List.takeWhile_prefix p)

/-- A lexeme is the first part of the text. -/
theorem lexemeTail_append_drop (first : Char) (cs : List Char) :
    lexemeTail first cs ++ cs.drop (lexemeTail first cs).length = cs := by
  rw [lexemeTail_eq]
  exact takeWhile_append_drop ..

/-- A lexeme stays as it is when the text behind it is cut off somewhere. -/
theorem lexemeTail_of_append {first : Char} {tail before behind : List Char}
    (h : lexemeTail first (tail ++ (before ++ behind)) = tail) :
    lexemeTail first (tail ++ before) = tail := by
  rw [lexemeTail_eq] at h ⊢
  have htail : ∀ c ∈ tail, lexemeClass first c = true := fun c hc => List.mem_takeWhile_imp (h ▸ hc)
  exact takeWhile_append htail (stops_of_takeWhile_append htail h).of_append

namespace Lexer

variable {l : Lexer} {token : Token}

theorem skipSpaces_rest (l : Lexer) : l.skipSpaces.rest = l.rest.dropWhile (· == ' ') := by
  show l.rest.drop (l.rest.takeWhile (· == ' ')).length = l.rest.dropWhile (· == ' ')
  have hsplit := takeWhile_append_drop (· == ' ') l.rest
  exact List.append_cancel_left (hsplit.trans List.takeWhile_append_dropWhile.symm)

/-- Behind the spaces there is something else. -/
theorem stops_skipSpaces (l : Lexer) : Stops (· == ' ') l.skipSpaces.rest := by
  intro c hc
  have hhead := List.head?_dropWhile_not (· == ' ') l.rest
  rw [← skipSpaces_rest, hc] at hhead
  exact hhead

theorem skipSpaces_skipSpaces (l : Lexer) : l.skipSpaces.skipSpaces = l.skipSpaces := by
  have hnone : ∀ c ∈ ([] : List Char), (c == ' ') = true := by simp
  exact skipSpaces_eq hnone l.stops_skipSpaces rfl

/-- Spaces in front of a lexer make no difference to what it gives, and to where it goes. -/
theorem next_skipSpaces (l : Lexer) : l.skipSpaces.next = l.next := by
  rw [next, skipSpaces_skipSpaces, next]

/-- The spaces in front of a lexer, and what it finds behind them. -/
theorem exists_spaces (l : Lexer) : ∃ spaces : List Char, l.rest = spaces ++ l.skipSpaces.rest ∧
    l.skipSpaces.offset = l.offset + spaces.length ∧ ∀ c ∈ spaces, (c == ' ') = true := by
  refine ⟨l.rest.takeWhile (· == ' '), ?_, rfl, ?_⟩
  · rw [skipSpaces_rest]
    exact List.takeWhile_append_dropWhile.symm
  · intro c hc
    exact List.mem_takeWhile_imp (p := (· == ' ')) hc

/-- All that a lexer can do: behind the spaces it is at its end, or in front of a lexeme, or in front
of a character that starts none. -/
theorem next_cases (l : Lexer) :
    (l.skipSpaces.rest = [] ∧ l.next = (.ok .endOfInput, l.skipSpaces)) ∨
    (∃ c cs token, l.skipSpaces.rest = c :: cs ∧
      Token.ofLexeme? c (lexemeTail c cs) = some token ∧
      l.next = (.ok token, l.skipSpaces.drop ((lexemeTail c cs).length + 1))) ∨
    ∃ c cs, l.skipSpaces.rest = c :: cs ∧ Token.ofLexeme? c (lexemeTail c cs) = none ∧
      l.next = (.error (.unexpectedChar c l.skipSpaces.offset), l.skipSpaces) := by
  cases hrest : l.skipSpaces.rest with
  | nil => exact .inl ⟨rfl, next_of_nil hrest⟩
  | cons c cs =>
    cases htoken : Token.ofLexeme? c (lexemeTail c cs) with
    | some token => exact .inr (.inl ⟨c, cs, token, rfl, htoken, next_of_token hrest htoken⟩)
    | none => exact .inr (.inr ⟨c, cs, rfl, htoken, next_of_unexpected hrest htoken⟩)

/-- A lexer fails in front of a character that starts no lexeme, and stays there. -/
theorem exists_unexpected {x : LexError} (h : l.next.1 = .error x) :
    ∃ c cs, l.skipSpaces.rest = c :: cs ∧ Token.ofLexeme? c (lexemeTail c cs) = none ∧
      x = .unexpectedChar c l.skipSpaces.offset ∧ l.next.2 = l.skipSpaces := by
  obtain ⟨-, hnext⟩ | ⟨c, cs, token, -, -, hnext⟩ | ⟨c, cs, hrest, htoken, hnext⟩ := l.next_cases
  · rw [hnext] at h
    cases h
  · rw [hnext] at h
    cases h
  · rw [hnext] at h ⊢
    exact ⟨c, cs, hrest, htoken, (Except.error.inj h).symm, rfl⟩

/-- A lexer that has failed fails again in the same way. -/
theorem next_next_of_error {x : LexError} (h : l.next.1 = .error x) :
    l.next.2.next.1 = .error x := by
  obtain ⟨_, _, -, -, -, hstay⟩ := exists_unexpected h
  rw [hstay, next_skipSpaces, h]

/-- A lexer that gives the end of the input has only spaces in front of it, and moves over them. -/
theorem skipSpaces_of_endOfInput (h : l.next.1 = .ok .endOfInput) :
    l.skipSpaces.rest = [] ∧ l.next.2 = l.skipSpaces := by
  obtain ⟨hrest, hnext⟩ | ⟨c, cs, token, -, htoken, hnext⟩ | ⟨c, cs, -, -, hnext⟩ := l.next_cases
  · rw [hnext]
    exact ⟨hrest, rfl⟩
  · rw [hnext] at h
    cases h
    exact absurd htoken (Token.ofLexeme?_ne_endOfInput c _)
  · rw [hnext] at h
    cases h

/-- A lexer that has given the end of the input has used all characters. -/
theorem rest_next_of_endOfInput (h : l.next.1 = .ok .endOfInput) : l.next.2.rest = [] := by
  obtain ⟨hrest, hstay⟩ := skipSpaces_of_endOfInput h
  rw [hstay, hrest]

/-- The text in front of a lexer that gives a token: spaces, the lexeme of the token, and what the
lexer leaves. -/
theorem exists_lexeme (h : l.next.1 = .ok token) (hne : token ≠ .endOfInput) :
    ∃ spaces first tail, l.rest = spaces ++ first :: (tail ++ l.next.2.rest) ∧
      (∀ c ∈ spaces, (c == ' ') = true) ∧ lexemeTail first (tail ++ l.next.2.rest) = tail ∧
      Token.ofLexeme? first tail = some token ∧
      l.next.2.offset = l.offset + spaces.length + (tail.length + 1) := by
  obtain ⟨spaces, hsplit, hoffset, hspaces⟩ := l.exists_spaces
  obtain ⟨-, hnext⟩ | ⟨first, more, found, hrest, htoken, hnext⟩ | ⟨c, cs, -, -, hnext⟩ :=
    l.next_cases
  · rw [hnext] at h
    exact absurd (Except.ok.inj h).symm hne
  · have hleft : l.next.2.rest = more.drop (lexemeTail first more).length := by
      rw [hnext, drop, hrest, List.drop_succ_cons]
    have hmore := lexemeTail_append_drop first more
    rw [hleft]
    refine ⟨spaces, first, lexemeTail first more, ?_, hspaces, ?_, ?_, ?_⟩
    · rw [hmore, ← hrest, ← hsplit]
    · rw [hmore]
    · rw [hnext] at h
      rw [htoken, Except.ok.inj h]
    · rw [hnext, drop, hoffset]
  · rw [hnext] at h
    cases h

end Lexer

/-- Two lexers give the same tokens, until the first one fails with `x` and the second one is at the
end of its text. -/
inductive Breaks (x : LexError) : Lexer → Lexer → Prop where
  | here {l l' : Lexer} (herror : l.next.1 = .error x) (hend : l'.next.1 = .ok .endOfInput) :
      Breaks x l l'
  | step {l l' : Lexer} {token : Token} (hne : token ≠ .endOfInput) (hnext : l.next.1 = .ok token)
      (hnext' : l'.next.1 = .ok token) (more : Breaks x l.next.2 l'.next.2) : Breaks x l l'

/-- The second lexer does not fail. -/
theorem Breaks.tokens {x : LexError} {l l' : Lexer} (h : Breaks x l l') :
    ∃ ts, l'.tokens = .ok (ts ++ [.endOfInput]) := by
  induction h with
  | here herror hend => exact ⟨[], by rw [tokens_of_next hend, if_pos rfl]; rfl⟩
  | @step l l' token hne _ hnext' _ ih =>
    obtain ⟨ts, hts⟩ := ih
    exact ⟨token :: ts, by rw [tokens_of_next hnext', if_neg hne, hts]; rfl⟩

/-- A lexer that fails has met a character that starts no lexeme, and up to there it gives the
tokens of the text before that character. -/
theorem exists_breaks {l : Lexer} {x : LexError} (h : l.tokens = .error x) :
    ∃ c before behind, x = .unexpectedChar c (l.offset + before.length) ∧
      l.rest = before ++ c :: behind ∧ Breaks x l ⟨l.offset, before⟩ := by
  fun_induction Lexer.tokens l with
  | case1 l e hnext =>
    cases h
    obtain ⟨spaces, hsplit, hoffset, hspaces⟩ := l.exists_spaces
    obtain ⟨c, behind, hrest, -, hx, -⟩ := Lexer.exists_unexpected hnext
    refine ⟨c, spaces, behind, ?_, ?_, .here hnext ?_⟩
    · rw [hx, hoffset]
    · rw [hsplit, hrest]
    -- in front of the character there are only spaces
    · have hskip := Lexer.skipSpaces_eq (l := ⟨l.offset, spaces⟩) hspaces Stops.nil
        (List.append_nil spaces).symm
      rw [Lexer.next_of_nil (by rw [hskip])]
  | case2 l hnext => cases h
  | case3 l token hnext hne e htokens ih =>
    cases h
    obtain ⟨c, before, behind, hx, hrest, hbreaks⟩ := ih htokens
    obtain ⟨spaces, first, tail, hsplit, hspaces, htail, htoken, hoffset⟩ :=
      Lexer.exists_lexeme hnext hne
    rw [hrest] at hsplit htail
    rw [hoffset] at hx hbreaks
    have hnext' := Lexer.next_eq (l := ⟨l.offset, spaces ++ first :: (tail ++ before)⟩) hspaces
      (lexemeTail_of_append htail) htoken rfl
    refine ⟨c, spaces ++ first :: (tail ++ before), behind, ?_, ?_, ?_⟩
    · rw [hx]
      simp only [List.length_append, List.length_cons]
      congr 1
      omega
    · rw [hsplit]
      simp only [List.append_assoc, List.cons_append]
    · refine .step hne hnext ?_ ?_
      · rw [hnext']
      · rw [hnext']
        exact hbreaks
  | case4 l token hnext hne more htokens ih => cases h

/-- A text that cannot be cut into tokens breaks off before a character. -/
theorem exists_breaks_of_tokenize {text : String} {x : LexError} (h : tokenize text = .error x) :
    ∃ c offset, x = .unexpectedChar c offset ∧ text.toList[offset]? = some c ∧
      Breaks x (Lexer.ofText text)
        (Lexer.ofText (String.ofList (text.toList.take offset))) := by
  obtain ⟨c, before, behind, hx, hrest, hbreaks⟩ := exists_breaks h
  have hoffset : (Lexer.ofText text).offset + before.length = before.length := Nat.zero_add _
  rw [hoffset] at hx
  have htext : text.toList = before ++ c :: behind := hrest
  refine ⟨c, before.length, hx, ?_, ?_⟩
  · rw [htext, List.getElem?_append_right (Nat.le_refl _), Nat.sub_self]
    rfl
  · rw [htext, List.take_left, Lexer.ofText, Lexer.ofText, String.toList_ofList]
    exact hbreaks

end TextTemplate
