import TextTemplate.Proofs.Decimal.Rounded
import TextTemplate.Proofs.Token.Broken
/-!
# The tokens of a text

A text has one cut into lexemes, if it has any: between runs of spaces stands a lexeme that is as
long as it can be. A cut fails at the first character that no lexeme is made of.

- `InAlphabet`: the characters that an expression is made of.
- `IsLexeme`: the lexemes and their tokens, said without the lexer; `isLexeme_iff`: they are what the
  lexer takes for one.
- `LongestCut`: a text is cut into runs of spaces and longest lexemes with these tokens.
- `tokens_eq_ok_iff_longestCut`: the lexer gives the tokens of the longest cut.
- `exists_tokenize_iff`, `tokenize_eq_error_iff`: when it fails, and where.
- `tokenize_exact`: all that the lexer makes of a text.
-/

namespace TextTemplate

/-! ## Characters and lexemes -/

/-- The characters that are a token of their own. -/
def symbolTokens : List (Char × Token) :=
  [('+', .operator .add), ('-', .operator .subtract), ('*', .operator .multiply),
   ('/', .operator .divide), ('%', .operator .remainder), ('^', .operator .power),
   ('(', .leftParen), (')', .rightParen), ('[', .leftBracket), (']', .rightBracket),
   (',', .comma), ('.', .dot)]

/-- The characters that an expression may be made of: the space, ASCII letters, digits, the
underscore and the symbols. -/
def InAlphabet (c : Char) : Prop :=
  c = ' ' ∨ c.isAlpha ∨ c.isDigit ∨ c = '_' ∨ ∃ t, (c, t) ∈ symbolTokens

/-- The lexemes. -/
inductive IsLexeme : List Char → Token → Prop where
  /-- A digit with digits and points behind it. What stands before a second point is the number. -/
  | number {first : Char} {tail part behind : List Char} {n : Binary64}
      (hfirst : first.isDigit) (htail : ∀ c ∈ tail, c.isDigit ∨ c = '.')
      (hparts : first :: tail = part ++ behind)
      (hbehind : behind = [] ∨ '.' ∈ part ∧ behind.head? = some '.')
      (hvalue : WritesNumber part n) : IsLexeme (first :: tail) (.number n)
  /-- A letter or underscore with letters, digits and underscores behind it. -/
  | name {first : Char} {tail : List Char} (hfirst : first.isAlpha ∨ first = '_')
      (htail : ∀ c ∈ tail, c.isAlpha ∨ c.isDigit ∨ c = '_') :
      IsLexeme (first :: tail) (.identifier (String.ofList (first :: tail)))
  /-- A symbol. -/
  | symbol {c : Char} {t : Token} (h : (c, t) ∈ symbolTokens) : IsLexeme [c] t

/-- Runs of spaces and lexemes with these tokens make up a text, and the end of the input stands
behind them. No lexeme could be taken longer than it is. -/
inductive LongestCut : List Char → List Token → Prop where
  | done {spaces : List Char} (hspaces : ∀ c ∈ spaces, c = ' ') :
      LongestCut spaces [.endOfInput]
  | next {spaces lexeme rest : List Char} {t : Token} {ts : List Token}
      (hspaces : ∀ c ∈ spaces, c = ' ') (hlexeme : IsLexeme lexeme t)
      (hlongest : ∀ longer u, longer <+: lexeme ++ rest → IsLexeme longer u →
        longer.length ≤ lexeme.length)
      (hmore : LongestCut rest ts) : LongestCut (spaces ++ (lexeme ++ rest)) (t :: ts)

/-! ## Symbols -/

theorem ofLexeme?_symbol {c : Char} {t : Token} (h : (c, t) ∈ symbolTokens) :
    c.isDigit = false ∧ isNameStart c = false ∧ Token.ofLexeme? c [] = some t := by
  simp only [symbolTokens, List.mem_cons, Prod.mk.injEq, List.not_mem_nil, or_false] at h
  rcases h with h | h | h | h | h | h | h | h | h | h | h | h <;> obtain ⟨rfl, rfl⟩ := h <;>
    exact ⟨by decide, by decide, rfl⟩

theorem mem_symbolTokens {c : Char} {tail : List Char} {t : Token} (hdigit : c.isDigit = false)
    (hname : isNameStart c = false) (h : Token.ofLexeme? c tail = some t) :
    (c, t) ∈ symbolTokens := by
  rw [Token.ofLexeme?, hdigit, hname, if_neg Bool.false_ne_true, if_neg Bool.false_ne_true] at h
  split at h
  · next op hop =>
    cases h
    rw [BinaryOp.ofChar?_eq_some_iff.1 hop]
    cases op <;> decide
  · unfold Token.ofPunctuation? at h
    split at h <;> cases h <;> decide

theorem isNameStart_iff {c : Char} : isNameStart c = true ↔ c.isAlpha = true ∨ c = '_' := by
  rw [isNameStart, Bool.or_eq_true, beq_iff_eq]

theorem isNameChar_iff {c : Char} :
    isNameChar c = true ↔ c.isAlpha = true ∨ c.isDigit = true ∨ c = '_' := by
  rw [isNameChar, Bool.or_eq_true, beq_iff_eq, Char.isAlphanum, Bool.or_eq_true, or_assoc]

theorem isNumeralChar_iff {c : Char} : isNumeralChar c = true ↔ c.isDigit = true ∨ c = '.' := by
  rw [isNumeralChar, Bool.or_eq_true, beq_iff_eq]

theorem lexemeClass_of_isDigit {c : Char} (h : c.isDigit = true) : lexemeClass c = isNumeralChar :=
  if_pos h

theorem lexemeClass_of_isNameStart {c : Char} (h : isNameStart c = true) :
    lexemeClass c = isNameChar := by
  rw [lexemeClass, isDigit_of_isNameStart h, if_neg Bool.false_ne_true, if_pos h]

/-- A character with which a lexeme starts is in the alphabet, whatever follows it. -/
theorem inAlphabet_of_ofLexeme? {c : Char} {tail : List Char} {t : Token}
    (h : Token.ofLexeme? c tail = some t) : InAlphabet c := by
  cases hdigit : c.isDigit with
  | true => exact .inr (.inr (.inl hdigit))
  | false =>
    cases hname : isNameStart c with
    | true =>
      rcases isNameStart_iff.1 hname with halpha | hunderscore
      · exact .inr (.inl halpha)
      · exact .inr (.inr (.inr (.inl hunderscore)))
    | false => exact .inr (.inr (.inr (.inr ⟨t, mem_symbolTokens hdigit hname h⟩)))

/-- A lexeme starts with every character of the alphabet but the space, whatever follows it. -/
theorem exists_ofLexeme? {c : Char} (h : InAlphabet c) (hspace : c ≠ ' ') (tail : List Char) :
    ∃ t, Token.ofLexeme? c tail = some t := by
  unfold Token.ofLexeme?
  split
  · exact ⟨_, rfl⟩
  next hdigit =>
  split
  · exact ⟨_, rfl⟩
  next hname =>
  rcases h with h | h | h | h | ⟨t, h⟩
  · exact absurd h hspace
  · exact absurd (isNameStart_iff.2 (.inl h)) hname
  · exact absurd h hdigit
  · exact absurd (isNameStart_iff.2 (.inr h)) hname
  · obtain ⟨-, -, htoken⟩ := ofLexeme?_symbol h
    rw [Token.ofLexeme?, if_neg hdigit, if_neg hname] at htoken
    exact ⟨t, htoken⟩

/-! ## Numerals -/

/-- The value of a numeral is that of its part before a second point. -/
theorem numeralValue_append {part behind : List Char} {n : Binary64} (h : WritesNumber part n)
    (hbehind : behind = [] ∨ '.' ∈ part ∧ behind.head? = some '.') :
    numeralValue (part ++ behind) = n := by
  cases h with
  | whole _ hdigits =>
    have hnone : behind = [] := by
      rcases hbehind with hnone | ⟨hpoint, -⟩
      · exact hnone
      · exact absurd (hdigits '.' hpoint) (by decide)
    rw [hnone, numeralValue, splitDigits_append hdigits .nil]
    show (Decimal.ofNumeral part [] 0).toBinary64 false = _
    rw [Decimal.toBinary64_ofNumeral, List.append_nil]
    rfl
  | @pointed digits fraction _ hdigits hfraction =>
    have hstops : Stops Char.isDigit behind := by
      rcases hbehind with rfl | ⟨-, hhead⟩
      · exact .nil
      · intro c hc
        cases hhead.symm.trans hc
        decide
    have hwhole : splitDigits (digits ++ ('.' :: (fraction ++ behind)))
        = (digits, '.' :: (fraction ++ behind)) := splitDigits_append hdigits (.cons (by decide))
    rw [List.append_assoc, List.cons_append, numeralValue, hwhole]
    dsimp only
    rw [splitFraction_append hfraction hstops]
    exact Decimal.toBinary64_ofNumeral digits fraction

/-- Behind its first digits a text of digits and points ends, or goes on with a point. -/
theorem dropWhile_isDigit_cases {cs : List Char} (h : ∀ c ∈ cs, c.isDigit = true ∨ c = '.') :
    cs.dropWhile Char.isDigit = [] ∨ ∃ more, cs.dropWhile Char.isDigit = '.' :: more ∧
      ∀ c ∈ more, c.isDigit = true ∨ c = '.' := by
  have hsublist := List.dropWhile_sublist (l := cs) Char.isDigit
  have hnot := List.head?_dropWhile_not Char.isDigit cs
  cases hrest : cs.dropWhile Char.isDigit with
  | nil => exact .inl rfl
  | cons c more =>
    rw [hrest] at hsublist hnot
    rcases h c (hsublist.subset List.mem_cons_self) with hdigit | rfl
    · simp [hdigit] at hnot
    · exact .inr ⟨more, rfl, fun d hd => h d (hsublist.subset (List.mem_cons_of_mem _ hd))⟩

/-- A numeral has a part before a second point, and that writes a number. -/
theorem exists_writesNumber {first : Char} {tail : List Char} (hfirst : first.isDigit = true)
    (htail : ∀ c ∈ tail, c.isDigit = true ∨ c = '.') :
    ∃ part behind n, first :: tail = part ++ behind ∧
      (behind = [] ∨ '.' ∈ part ∧ behind.head? = some '.') ∧ WritesNumber part n := by
  have hdigits : ∀ cs : List Char, ∀ c ∈ cs.takeWhile Char.isDigit, c.isDigit = true :=
    fun _ _ => List.mem_takeWhile_imp
  have hwhole : ∀ c ∈ first :: tail.takeWhile Char.isDigit, c.isDigit = true :=
    List.forall_mem_cons.2 ⟨hfirst, hdigits tail⟩
  have hne : first :: tail.takeWhile Char.isDigit ≠ [] := List.cons_ne_nil _ _
  have htext := List.takeWhile_append_dropWhile (p := Char.isDigit) (l := tail)
  obtain hnone | ⟨more, hmore, hrest⟩ := dropWhile_isDigit_cases htail
  · rw [hnone] at htext
    exact ⟨_, [], _, congrArg _ htext.symm, .inl rfl, .whole hne hwhole⟩
  · have htext' := List.takeWhile_append_dropWhile (p := Char.isDigit) (l := more)
    refine ⟨_, more.dropWhile Char.isDigit, _, ?_, ?_, .pointed hne hwhole (hdigits more)⟩
    · rw [List.append_assoc, List.cons_append, List.cons_append, htext', ← hmore, htext]
    · obtain hend | ⟨_, hsecond, -⟩ := dropWhile_isDigit_cases hrest
      · exact .inl hend
      · exact .inr ⟨by simp, by rw [hsecond]; rfl⟩

/-! ## Lexemes -/

/-- The lexemes are what the lexer takes for one: a first character, a run of its class, and the
token that the lexer gives for them. -/
theorem isLexeme_iff {first : Char} {tail : List Char} {t : Token} :
    IsLexeme (first :: tail) t ↔
      (∀ c ∈ tail, lexemeClass first c = true) ∧ Token.ofLexeme? first tail = some t := by
  constructor
  · intro h
    cases h with
    | number hfirst htail hparts hbehind hvalue =>
      rw [lexemeClass_of_isDigit hfirst, Token.ofLexeme?, if_pos hfirst, hparts,
        numeralValue_append hvalue hbehind]
      exact ⟨fun c hc => isNumeralChar_iff.2 (htail c hc), rfl⟩
    | name hfirst htail =>
      have hname := isNameStart_iff.2 hfirst
      rw [lexemeClass_of_isNameStart hname, Token.ofLexeme?, isDigit_of_isNameStart hname,
        if_neg Bool.false_ne_true, if_pos hname]
      exact ⟨fun c hc => isNameChar_iff.2 (htail c hc), rfl⟩
    | symbol h => exact ⟨by simp, (ofLexeme?_symbol h).2.2⟩
  · rintro ⟨htail, htoken⟩
    cases hdigit : first.isDigit with
    | true =>
      rw [lexemeClass_of_isDigit hdigit] at htail
      have hrun := fun c hc => isNumeralChar_iff.1 (htail c hc)
      obtain ⟨part, behind, n, hparts, hbehind, hvalue⟩ := exists_writesNumber hdigit hrun
      rw [Token.ofLexeme?, if_pos hdigit, hparts, numeralValue_append hvalue hbehind] at htoken
      cases htoken
      exact .number hdigit hrun hparts hbehind hvalue
    | false =>
      cases hname : isNameStart first with
      | true =>
        rw [lexemeClass_of_isNameStart hname] at htail
        rw [Token.ofLexeme?, hdigit, if_neg Bool.false_ne_true, if_pos hname] at htoken
        cases htoken
        exact .name (isNameStart_iff.1 hname) fun c hc => isNameChar_iff.1 (htail c hc)
      | false =>
        have hsymbol := mem_symbolTokens hdigit hname htoken
        have hnil : tail = [] := by
          rw [lexemeClass, hdigit, hname] at htail
          exact List.eq_nil_iff_forall_not_mem.2 fun c hc => Bool.false_ne_true (htail c hc)
        exact hnil ▸ .symbol hsymbol

theorem IsLexeme.exists_cons {lexeme : List Char} {t : Token} (h : IsLexeme lexeme t) :
    ∃ first tail, lexeme = first :: tail := by
  cases h <;> exact ⟨_, _, rfl⟩

/-- All characters of a lexeme are in the alphabet. -/
theorem IsLexeme.inAlphabet {lexeme : List Char} {t : Token} (h : IsLexeme lexeme t) :
    ∀ c ∈ lexeme, InAlphabet c := by
  cases h with
  | number hfirst htail =>
    refine List.forall_mem_cons.2 ⟨.inr (.inr (.inl hfirst)), fun c hc => ?_⟩
    rcases htail c hc with hdigit | rfl
    · exact .inr (.inr (.inl hdigit))
    · exact .inr (.inr (.inr (.inr ⟨.dot, by decide⟩)))
  | name hfirst htail =>
    refine List.forall_mem_cons.2 ⟨?_, fun c hc => ?_⟩
    · rcases hfirst with halpha | hunderscore
      · exact .inr (.inl halpha)
      · exact .inr (.inr (.inr (.inl hunderscore)))
    · rcases htail c hc with halpha | hdigit | hunderscore
      · exact .inr (.inl halpha)
      · exact .inr (.inr (.inl hdigit))
      · exact .inr (.inr (.inr (.inl hunderscore)))
  | symbol h =>
    intro c hc
    obtain rfl := List.mem_singleton.1 hc
    exact .inr (.inr (.inr (.inr ⟨_, h⟩)))

/-- A lexeme cannot be taken longer iff the text behind it does not go on with its class. -/
theorem IsLexeme.longest_iff {first : Char} {tail rest : List Char} {t : Token}
    (h : IsLexeme (first :: tail) t) :
    (∀ longer u, longer <+: first :: tail ++ rest → IsLexeme longer u →
      longer.length ≤ (first :: tail).length) ↔ Stops (lexemeClass first) rest := by
  obtain ⟨htail, htoken⟩ := isLexeme_iff.1 h
  constructor
  · rintro hlongest c hc
    by_contra hclass
    rw [Bool.not_eq_false] at hclass
    -- the next character would make up a longer lexeme
    have hspace : first ≠ ' ' := Token.ne_space_of_ofLexeme? htoken
    obtain ⟨u, hu⟩ := exists_ofLexeme? (inAlphabet_of_ofLexeme? htoken) hspace (tail ++ [c])
    have hlexeme : IsLexeme (first :: (tail ++ [c])) u := by
      refine isLexeme_iff.2 ⟨fun d hd => ?_, hu⟩
      rcases List.mem_append.1 hd with hd | hd
      · exact htail d hd
      · exact List.mem_singleton.1 hd ▸ hclass
    have hprefix : first :: (tail ++ [c]) <+: first :: tail ++ rest := by
      obtain ⟨more, rfl⟩ := List.head?_eq_some_iff.1 hc
      exact ⟨more, by simp⟩
    have hle := hlongest _ u hprefix hlexeme
    simp at hle
  · rintro hstops longer u ⟨behind, htext⟩ hlexeme
    obtain ⟨first', tail', rfl⟩ := hlexeme.exists_cons
    rw [List.cons_append, List.cons_append, List.cons.injEq] at htext
    obtain ⟨rfl, htext⟩ := htext
    obtain ⟨htail', -⟩ := isLexeme_iff.1 hlexeme
    rcases List.append_eq_append_iff.1 htext with ⟨more, rfl, -⟩ | ⟨more, rfl, hrest⟩
    · simp
    · cases more with
      | nil => simp
      | cons c cs =>
        have hc := htail' c (by simp)
        rw [hstops c (by rw [hrest]; rfl)] at hc
        cases hc

/-! ## Cuts -/

/-- All characters of a text that can be cut are in the alphabet. -/
theorem LongestCut.inAlphabet {cs : List Char} {ts : List Token} (h : LongestCut cs ts) :
    ∀ c ∈ cs, InAlphabet c := by
  induction h with
  | done hspaces => exact fun c hc => .inl (hspaces c hc)
  | next hspaces hlexeme _ _ ih =>
    intro c hc
    rcases List.mem_append.1 hc with hc | hc
    · exact .inl (hspaces c hc)
    · rcases List.mem_append.1 hc with hc | hc
      · exact hlexeme.inAlphabet c hc
      · exact ih c hc

/-- A lexer that gives the end of the input stands in front of spaces only. -/
theorem Lexer.spaces_of_endOfInput {l : Lexer} (h : l.next.1 = .ok .endOfInput) :
    ∀ c ∈ l.rest, c = ' ' := by
  obtain ⟨spaces, hsplit, -, hspaces⟩ := l.exists_spaces
  obtain ⟨hrest, -⟩ := skipSpaces_of_endOfInput h
  rw [hsplit, hrest, List.append_nil]
  exact fun c hc => eq_of_beq (hspaces c hc)

/-- The lexer gives the tokens of the longest cut. -/
theorem tokens_eq_ok_of_longestCut {cs : List Char} {ts : List Token} (h : LongestCut cs ts)
    {l : Lexer} (hl : l.rest = cs) : l.tokens = .ok ts := by
  induction h generalizing l with
  | done hspaces => exact tokens_of_spaces fun c hc => beq_iff_eq.2 (hspaces c (hl ▸ hc))
  | @next spaces lexeme rest t ts hspaces hlexeme hlongest _ ih =>
    obtain ⟨first, tail, rfl⟩ := hlexeme.exists_cons
    have htail : lexemeTail first (tail ++ rest) = tail := by
      rw [lexemeTail_eq]
      exact takeWhile_append (isLexeme_iff.1 hlexeme).1 (hlexeme.longest_iff.1 hlongest)
    obtain ⟨behind, hbehind, htokens⟩ := tokens_of_lexeme
      (fun c hc => beq_iff_eq.2 (hspaces c hc)) htail (isLexeme_iff.1 hlexeme).2 hl
    rw [htokens, ih hbehind]
    rfl

/-- The tokens that the lexer gives are those of the longest cut. -/
theorem longestCut_of_tokens {l : Lexer} {ts : List Token} (h : l.tokens = .ok ts) :
    LongestCut l.rest ts := by
  fun_induction Lexer.tokens l generalizing ts with
  | case1 => cases h
  | case2 l hnext =>
    cases h
    exact .done (Lexer.spaces_of_endOfInput hnext)
  | case3 => cases h
  | case4 l token hnext hne more htokens ih =>
    cases h
    obtain ⟨spaces, first, tail, hsplit, hspaces, htail, htoken, -⟩ :=
      Lexer.exists_lexeme hnext hne
    rw [lexemeTail_eq] at htail
    have hrun : ∀ c ∈ tail, lexemeClass first c = true :=
      fun c hc => List.mem_takeWhile_imp (htail ▸ hc)
    have hlexeme : IsLexeme (first :: tail) token := isLexeme_iff.2 ⟨hrun, htoken⟩
    rw [hsplit, ← List.cons_append]
    refine .next (fun c hc => eq_of_beq (hspaces c hc)) hlexeme ?_ (ih htokens)
    exact hlexeme.longest_iff.2 (stops_of_takeWhile_append hrun htail)

/-- The lexer gives tokens iff the text has a longest cut with these tokens. -/
theorem tokens_eq_ok_iff_longestCut {l : Lexer} {ts : List Token} :
    l.tokens = .ok ts ↔ LongestCut l.rest ts :=
  ⟨longestCut_of_tokens, fun h => tokens_eq_ok_of_longestCut h rfl⟩

/-- A lexer fails at a character outside the alphabet. -/
theorem not_inAlphabet_of_tokens {l : Lexer} {c : Char} {offset : Nat}
    (h : l.tokens = .error (.unexpectedChar c offset)) : ¬ InAlphabet c := by
  fun_induction Lexer.tokens l with
  | case1 l e hnext =>
    cases h
    obtain ⟨first, cs, hrest, htoken, hx, -⟩ := Lexer.exists_unexpected hnext
    cases hx
    intro halphabet
    have hspace : c ≠ ' ' := by simpa using l.stops_skipSpaces c (by rw [hrest]; rfl)
    obtain ⟨t, ht⟩ := exists_ofLexeme? halphabet hspace (lexemeTail c cs)
    cases htoken.symm.trans ht
  | case2 => cases h
  | case3 l token hnext hne e htokens ih =>
    cases h
    exact ih htokens
  | case4 => cases h

/-- The end of the input stands behind the other tokens of a cut, and only there. -/
theorem LongestCut.exists_tokens {cs : List Char} {ts : List Token} (h : LongestCut cs ts) :
    ∃ us, ts = us ++ [.endOfInput] ∧ .endOfInput ∉ us := by
  induction h with
  | done => exact ⟨[], rfl, List.not_mem_nil⟩
  | @next _ _ _ t _ _ hlexeme _ _ ih =>
    obtain ⟨us, rfl, hus⟩ := ih
    obtain ⟨first, tail, rfl⟩ := hlexeme.exists_cons
    have hne : .endOfInput ≠ t := by
      rintro rfl
      exact Token.ofLexeme?_ne_endOfInput first tail (isLexeme_iff.1 hlexeme).2
    exact ⟨t :: us, rfl, List.not_mem_cons_of_ne_of_not_mem hne hus⟩

/-- The first character outside a class stands in front of all others. -/
theorem length_le_of_outside {P : Char → Prop} {before before' behind behind' : List Char}
    {c c' : Char} (h : before ++ c :: behind = before' ++ c' :: behind')
    (hbefore' : ∀ b ∈ before', P b) (hc : ¬ P c) : before'.length ≤ before.length := by
  by_contra hlt
  have hplace : (before ++ c :: behind)[before.length]? = some c := by simp
  rw [h, List.getElem?_append_left (Nat.not_le.1 hlt)] at hplace
  exact hc (hbefore' c (List.mem_of_getElem? hplace))

/-- A text that cannot be cut has a first character outside the alphabet, and the error is about
that. -/
theorem exists_outside_of_tokenize {text : String} {x : LexError} (h : tokenize text = .error x) :
    ∃ before c behind, text.toList = before ++ c :: behind ∧ (∀ b ∈ before, InAlphabet b) ∧
      ¬ InAlphabet c ∧ x = .unexpectedChar c before.length := by
  obtain ⟨c, before, behind, hx, htext, hbreaks⟩ := exists_breaks h
  have hoffset : (Lexer.ofText text).offset + before.length = before.length := Nat.zero_add _
  rw [hoffset] at hx
  subst hx
  obtain ⟨ts, hts⟩ := hbreaks.tokens
  exact ⟨before, c, behind, htext, (longestCut_of_tokens hts).inAlphabet,
    not_inAlphabet_of_tokens h, rfl⟩

/-- The texts over the alphabet are those that can be cut. -/
theorem exists_tokenize_iff {text : String} :
    (∃ ts, tokenize text = .ok ts) ↔ ∀ c ∈ text.toList, InAlphabet c := by
  constructor
  · rintro ⟨ts, hts⟩
    exact (longestCut_of_tokens hts).inAlphabet
  · intro hall
    cases htokens : tokenize text with
    | ok ts => exact ⟨ts, rfl⟩
    | error x =>
      obtain ⟨before, c, behind, htext, -, hc, -⟩ := exists_outside_of_tokenize htokens
      exact absurd (hall c (by simp [htext])) hc

/-- The lexer fails at the first character outside the alphabet. -/
theorem tokenize_eq_error_iff {text : String} {x : LexError} :
    tokenize text = .error x ↔ ∃ before c behind, text.toList = before ++ c :: behind ∧
      (∀ b ∈ before, InAlphabet b) ∧ ¬ InAlphabet c ∧ x = .unexpectedChar c before.length := by
  constructor
  · exact exists_outside_of_tokenize
  · rintro ⟨before, c, behind, htext, hbefore, hc, rfl⟩
    cases htokens : tokenize text with
    | ok ts => exact absurd (exists_tokenize_iff.1 ⟨ts, htokens⟩ c (by simp [htext])) hc
    | error x =>
      -- the first character outside the alphabet is the one of the error
      obtain ⟨before', c', behind', htext', hbefore', hc', rfl⟩ :=
        exists_outside_of_tokenize htokens
      have hsame := htext.symm.trans htext'
      have hlength := Nat.le_antisymm (length_le_of_outside hsame.symm hbefore hc')
        (length_le_of_outside hsame hbefore' hc)
      obtain ⟨rfl, hbehind⟩ := List.append_inj hsame hlength
      rw [(List.cons.inj hbehind).1]

/-- All that the lexer makes of a text. It gives the tokens of the longest cut of the text, the end
of the input behind all others and only there. There is such a cut iff all characters are in the
alphabet; otherwise the lexer fails at the first character that is not, with its offset. What stands
before a second point of a numeral can always be read as a number, and that is neither not-a-number
nor negative. -/
theorem tokenize_exact (text : String) :
    (∀ ts, tokenize text = .ok ts ↔ LongestCut text.toList ts) ∧
    (∀ ts, LongestCut text.toList ts → ∃ us, ts = us ++ [.endOfInput] ∧ .endOfInput ∉ us) ∧
    ((∃ ts, tokenize text = .ok ts) ↔ ∀ c ∈ text.toList, InAlphabet c) ∧
    (∀ x, tokenize text = .error x ↔ ∃ before c behind, text.toList = before ++ c :: behind ∧
      (∀ b ∈ before, InAlphabet b) ∧ ¬ InAlphabet c ∧ x = .unexpectedChar c before.length) ∧
    ∀ part n, WritesNumber part n →
      Binary64.read? part = some n ∧ ((∃ m, n = .finite false m) ∨ n = .infinite false) := by
  refine ⟨fun ts => tokens_eq_ok_iff_longestCut (l := Lexer.ofText text),
    fun ts => LongestCut.exists_tokens, exists_tokenize_iff, fun x => tokenize_eq_error_iff, ?_⟩
  intro part n h
  exact ⟨h.read?_eq, h.eq_finite_or_infinite⟩

end TextTemplate
