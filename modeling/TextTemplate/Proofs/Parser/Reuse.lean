import TextTemplate.Proofs.Parser.OnDemand
/-!
# Parsers that are used again

Nothing is put back after an error, and a parser can be used again after it. What later calls can
still return depends on what the error has left behind: a parser that has lost its token, or whose
lexer has failed, is dead, and one that has gone too deep has no room for anything but a name or a
number.

- `Cursor.Dead`: no parser can move on from here.
- `Leaves`: what a failed step leaves behind; `lockstep_leaves`: all rules keep to it.
- `Parser.replies`: the replies of one parser to a sequence of calls.
- `Ahead`, `TextTokens`: the tokens from a cursor on, and those of a text, up to the end of the
  input or to the place where the text breaks off.
- `Blocks`: each call moves over a block of the tokens, and an expression is derived from its block.
- `replies_sound`: all that holds of the replies to any sequence of calls.
-/

namespace TextTemplate

/-! ## Dead cursors -/

/-- No parser can move on from here: the end of the input lies under the cursor, or the lexer fails
behind it. -/
def Cursor.Dead (c : Cursor) : Prop := c.token = .endOfInput ∨ ∃ x, c.lexer.next.1 = .error x

/-- From a dead cursor on nothing is read. -/
theorem Cursor.Dead.of_reads {c stop : Cursor} {ts : List Token} (h : c.Dead)
    (hread : Reads c ts stop) : ts = [] ∧ stop = c := by
  cases hread with
  | here => exact ⟨rfl, rfl⟩
  | cons htoken hne hnext more =>
    rcases h with hend | ⟨x, herror⟩
    · exact absurd (htoken.symm.trans hend) hne
    · rw [hnext] at herror
      cases herror

/-- A parser that has read up to the end of the input has used all characters. -/
theorem Reads.rest_eq_nil {c stop : Cursor} {ts : List Token} (h : Reads c ts stop) (hne : ts ≠ [])
    (hend : stop.token = .endOfInput) : stop.lexer.rest = [] := by
  induction h with
  | here => exact absurd rfl hne
  | @cons c stop t token ts htoken _ hnext more ih =>
    cases more with
    | here =>
      have htoken' : token = .endOfInput := hend
      exact Lexer.rest_next_of_endOfInput (htoken' ▸ hnext)
    | cons => exact ih (by simp) hend

/-! ## What an error leaves behind -/

/-- Whether an error leaves a dead cursor behind: the lexer has failed, or a wrong token was taken
from the cursor. -/
def ParseError.Kills : ParseError → Prop
  | .lex _ => True
  | .unexpectedToken .operand _ => True
  | .unexpectedToken .propertyName _ => True
  | _ => False

/-- What a step that starts at `c`, `depth` levels deep, leaves behind when it fails. -/
structure Leaves (depth : Nat) (c : Cursor) (e : ParseError) (stop : Parser) : Prop where
  depth_le : depth ≤ stop.depth
  reads : stop.cursor.Dead ∨ ∃ ts, Reads c ts stop.cursor
  dead : e.Kills → stop.cursor.Dead
  deep : e = .tooDeep → depthLimit < stop.depth

/-- A step that starts at `c`, `depth` levels deep, has moved over tokens, or has failed and left
something behind. -/
inductive Outcome.Moved {α : Type} (depth : Nat) (c : Cursor) : Outcome α → Prop where
  | done (a : α) {rest : Cursor} {ts : List Token} (h : Reads c ts rest) :
      Moved depth c (.done a rest)
  | failed {e : ParseError} {stop : Parser} (h : Leaves depth c e stop) :
      Moved depth c (.failed e stop)

/-- A step that starts further on, and possibly deeper. -/
theorem Outcome.Moved.of_reads {α : Type} {depth depth' : Nat} {c c' : Cursor} {o : Outcome α}
    {ts : List Token} (h : Outcome.Moved depth' c' o) (hdepth : depth ≤ depth')
    (hread : Reads c ts c') : Outcome.Moved depth c o := by
  cases h with
  | done a hread' => exact .done a (hread.append hread')
  | failed hleaves =>
    refine .failed ⟨Nat.le_trans hdepth hleaves.depth_le, ?_, hleaves.dead, hleaves.deep⟩
    exact hleaves.reads.imp_right fun ⟨us, hus⟩ => ⟨ts ++ us, hread.append hus⟩

/-- All rules keep to what errors leave behind. -/
theorem lockstep_leaves : Lockstep Eq fun depth c _ o _ => Outcome.Moved depth c o where
  token_eq h := by rw [h]
  done a _ := .done a (.here _)
  move := by
    rintro depth left c _ rfl hne
    unfold Cursor.move
    cases hnext : c.lexer.next.1 with
    | ok token => exact .done () (.cons rfl hne hnext (.here _))
    | error x =>
      have hdead : Cursor.Dead ⟨left, c.lexer.next.2⟩ := .inr ⟨x, Lexer.next_next_of_error hnext⟩
      exact .failed ⟨Nat.le_refl _, .inl hdead, fun _ => hdead, by simp⟩
  descend := by
    rintro depth c _ rfl
    unfold Cursor.descend
    split
    · next hfull =>
      exact .failed
        ⟨Nat.le_succ _, .inr ⟨[], .here c⟩, False.elim, fun _ => Nat.lt_succ_of_le hfull⟩
    · exact .done () (.here c)
  reject := by
    rintro depth expected c _ rfl
    have hdead : Cursor.Dead ⟨.endOfInput, c.lexer⟩ := .inl rfl
    exact .failed ⟨Nat.le_refl _, .inl hdead, fun _ => hdead, by simp⟩
  mismatch := by
    rintro depth t c _ rfl
    exact .failed ⟨Nat.le_refl _, .inr ⟨[], .here c⟩, False.elim, by simp⟩
  andThen := by
    intro α β depth c c' o o' next ho hnext
    cases ho with
    | done a hread => exact (hnext a _ _ rfl rfl).of_reads (Nat.le_refl depth) hread
    | failed hleaves => exact .failed hleaves
  above := fun ho => ho.of_reads (Nat.le_succ _) (.here _)

/-! ## Calls -/

/-- The two ways of using a parser. -/
inductive Call where
  /-- One expression; more may follow it. -/
  | expression
  /-- One expression up to the end of the input. -/
  | parse

/-- A call, its result, and the parser before and after it. -/
structure Reply where
  call : Call
  before : Parser
  result : Except ParseError Expr
  after : Parser

namespace Parser

/-- What a call returns, and the parser that it leaves. -/
def answer (p : Parser) : Call → Except ParseError Expr × Parser
  | .expression => p.expression
  | .parse => p.parse

/-- The reply to a call. -/
def reply (p : Parser) (call : Call) : Reply := ⟨call, p, (p.answer call).1, (p.answer call).2⟩

/-- The replies of one parser to a sequence of calls, each of which finds the parser as the one
before has left it. -/
def replies : Parser → List Call → List Reply
  | _, [] => []
  | p, call :: calls => p.reply call :: replies (p.reply call).after calls

variable {p q : Parser} {call : Call} {calls : List Call} {e : Expr} {error : ParseError}

/-- Reading an expression, in terms of the loosest rule. -/
theorem expression_eq (p : Parser) :
    p.expression = match (Rule.level .sum).parse p.depth p.cursor with
      | .done e rest => (.ok e, ⟨rest, p.depth⟩)
      | .failed error stop => (.error error, stop) := by
  rw [expression, Rule.parse]
  cases parseLevel .sum p.depth p.cursor <;> rfl

/-- An expression is derived from the tokens that were read, and fits into the room that was left.
The depth is as before. -/
theorem expression_ok (h : p.expression = (.ok e, q)) :
    ∃ d : Derivation (.level .sum), d.tree = e ∧ d.need ≤ depthLimit - p.depth ∧
      Reads p.cursor d.tokens q.cursor ∧ q.depth = p.depth := by
  rw [expression_eq] at h
  split at h
  · next rest hrule =>
    cases h
    obtain ⟨d, hd, hneed, hread⟩ := Rule.exists_derivation hrule
    exact ⟨d, hd, hneed, hread, rfl⟩
  · cases h

theorem expression_error (h : p.expression = (.error error, q)) :
    Leaves p.depth p.cursor error q := by
  rw [expression_eq] at h
  have hmoved : Outcome.Moved p.depth p.cursor ((Rule.level .sum).parse p.depth p.cursor) :=
    lockstep_leaves.rule rfl
  split at h
  · cases h
  · next hrule =>
    cases h
    rw [hrule] at hmoved
    cases hmoved with
    | failed hleaves => exact hleaves

/-- Parsing to the end of the input reads an expression, and fails where more follows it. -/
theorem parse_cases (p : Parser) :
    (∃ e q, p.expression = (.ok e, q) ∧ q.cursor.token = .endOfInput ∧ p.parse = (.ok e, q)) ∨
    (∃ e q, p.expression = (.ok e, q) ∧
      p.parse = (.error (.trailingInput q.cursor.token), q)) ∨
    ∃ error q, p.expression = (.error error, q) ∧ p.parse = (.error error, q) := by
  rw [parse]
  cases hexpression : p.expression with
  | mk result q =>
    cases result with
    | ok e =>
      by_cases hend : q.cursor.token = .endOfInput
      · exact .inl ⟨e, q, rfl, hend, if_pos hend⟩
      · exact .inr (.inl ⟨e, q, rfl, if_neg hend⟩)
    | error error => exact .inr (.inr ⟨error, q, rfl, rfl⟩)

/-- The reply with an expression. -/
theorem reply_ok (h : (p.reply call).result = .ok e) :
    ∃ d : Derivation (.level .sum), d.tree = e ∧ d.need ≤ depthLimit - p.depth ∧
      Reads p.cursor d.tokens (p.reply call).after.cursor ∧
      (p.reply call).after.depth = p.depth ∧
      (call = .parse → (p.reply call).after.cursor.token = .endOfInput) := by
  cases call with
  | expression =>
    obtain ⟨d, hd, hneed, hread, hdepth⟩ := expression_ok (Prod.ext h rfl)
    exact ⟨d, hd, hneed, hread, hdepth, nofun⟩
  | parse =>
    simp only [reply, answer] at h ⊢
    rcases p.parse_cases with
      ⟨_, q, hok, hend, hparse⟩ | ⟨_, q, hok, hparse⟩ | ⟨_, q, hfail, hparse⟩
    · rw [hparse] at h ⊢
      cases h
      obtain ⟨d, hd, hneed, hread, hdepth⟩ := expression_ok hok
      exact ⟨d, hd, hneed, hread, hdepth, fun _ => hend⟩
    · rw [hparse] at h
      cases h
    · rw [hparse] at h
      cases h

/-- The reply with an error. -/
theorem reply_error (h : (p.reply call).result = .error error) :
    Leaves p.depth p.cursor error (p.reply call).after := by
  cases call with
  | expression => exact expression_error (Prod.ext h rfl)
  | parse =>
    simp only [reply, answer] at h ⊢
    rcases p.parse_cases with
      ⟨_, q, hok, hend, hparse⟩ | ⟨_, q, hok, hparse⟩ | ⟨_, q, hfail, hparse⟩
    · rw [hparse] at h
      cases h
    · -- the expression in front of the rest has been read, and the cursor stays behind it
      rw [hparse] at h ⊢
      cases h
      obtain ⟨d, -, -, hread, hdepth⟩ := expression_ok hok
      exact ⟨Nat.le_of_eq hdepth.symm, .inr ⟨d.tokens, hread⟩, False.elim, nofun⟩
    · rw [hparse] at h ⊢
      cases h
      exact expression_error hfail

/-- No call makes a parser less deep. -/
theorem depth_le_reply (p : Parser) (call : Call) : p.depth ≤ (p.reply call).after.depth := by
  cases hresult : (p.reply call).result with
  | ok e =>
    obtain ⟨_, -, -, -, hdepth, -⟩ := reply_ok hresult
    exact Nat.le_of_eq hdepth.symm
  | error error => exact (reply_error hresult).depth_le

/-- A parser at a dead cursor returns no expression. -/
theorem reply_ne_ok (h : p.cursor.Dead) : (p.reply call).result ≠ .ok e := by
  intro hresult
  obtain ⟨d, -, -, hread, -⟩ := reply_ok hresult
  obtain ⟨t, ts, htokens, -⟩ := d.tokens_eq_cons
  have hnone := (h.of_reads hread).1
  rw [htokens] at hnone
  cases hnone

/-- A dead cursor stays dead. -/
theorem dead_reply (h : p.cursor.Dead) : (p.reply call).after.cursor.Dead := by
  cases hresult : (p.reply call).result with
  | ok e => exact absurd hresult (reply_ne_ok h)
  | error error =>
    rcases (reply_error hresult).reads with hdead | ⟨ts, hread⟩
    · exact hdead
    · rw [(h.of_reads hread).2]
      exact h

/-- What every call keeps holds before each of them. -/
theorem replies_induction {I : Parser → Prop}
    (hstep : ∀ q call, I q → I (q.reply call).after) (hp : I p) :
    ∀ r ∈ p.replies calls, ∃ q call, r = q.reply call ∧ I q := by
  induction calls generalizing p with
  | nil =>
    intro r hr
    cases hr
  | cons call calls ih =>
    rw [replies, List.forall_mem_cons]
    exact ⟨⟨p, call, rfl, hp⟩, ih (hstep p call hp)⟩

/-- From a dead cursor on no call returns an expression. -/
theorem replies_ne_ok (h : p.cursor.Dead) :
    ∀ r ∈ p.replies calls, ∀ e, r.result ≠ .ok e := by
  intro r hr e
  obtain ⟨q, call, rfl, hq⟩ := replies_induction (I := fun q => q.cursor.Dead)
    (fun _ _ hq => dead_reply hq) h r hr
  exact reply_ne_ok hq

end Parser

/-! ## Blocks -/

/-- The tokens from a cursor on, up to the end of the input or to the place where the text breaks
off. -/
def Ahead (c : Cursor) (ts : List Token) : Prop :=
  Spells c ts ∨ ∃ x c', c.Breaks x c' ∧ Spells c' ts

/-- The tokens of a text up to the end of the input, or up to the character at which the text breaks
off. -/
def TextTokens (text : String) (ts : List Token) : Prop :=
  tokenize text = .ok (ts ++ [.endOfInput]) ∨
    ∃ c offset, tokenize text = .error (.unexpectedChar c offset) ∧
      tokenize (String.ofList (text.toList.take offset)) = .ok (ts ++ [.endOfInput])

/-- The calls of a parser move over the tokens in blocks. A call that returns an expression moves
over the tokens of its derivation, and if nothing may follow it, these are the last tokens and all
characters are used. -/
inductive Blocks : List Token → List Reply → Prop where
  | nil (ts : List Token) : Blocks ts []
  | failed {error : ParseError} {skipped rest : List Token} {r : Reply} {later : List Reply}
      (herror : r.result = .error error) (more : Blocks rest later) :
      Blocks (skipped ++ rest) (r :: later)
  | done {rest : List Token} {r : Reply} {later : List Reply} (d : Derivation (.level .sum))
      (hok : r.result = .ok d.tree)
      (hend : r.call = .parse → rest = [] ∧ r.after.cursor.lexer.rest = [])
      (more : Blocks rest later) : Blocks (d.tokens ++ rest) (r :: later)

namespace Ahead

variable {c stop : Cursor} {ts us : List Token}

/-- What has been read is the first part of the tokens from a cursor on. -/
theorem of_reads (h : Ahead c ts) (hread : Reads c us stop) :
    ∃ rest, ts = us ++ rest ∧ Ahead stop rest := by
  rcases h with hspell | ⟨x, c', hbreaks, hspell⟩
  · obtain ⟨rest, hts, hrest⟩ := hread.rest hspell
    exact ⟨rest, hts, .inl hrest⟩
  · obtain ⟨stop', hread', hstop⟩ := hbreaks.of_reads hread
    obtain ⟨rest, hts, hrest⟩ := hread'.rest hspell
    exact ⟨rest, hts, .inr ⟨x, stop', hstop, hrest⟩⟩

theorem eq_nil (h : Ahead c ts) (hend : c.token = .endOfInput) : ts = [] := by
  rcases h with hspell | ⟨x, c', hbreaks, -⟩
  · exact hspell.nil_iff.2 hend
  · exact absurd hend hbreaks.ne_endOfInput

end Ahead

/-- A new parser has all tokens of the text ahead. -/
theorem exists_textTokens {text : String} {p : Parser} (hp : Parser.ofText text = .ok p) :
    ∃ ts, TextTokens text ts ∧ Ahead p.cursor ts := by
  cases htokens : tokenize text with
  | ok all =>
    obtain ⟨c, ts, hc, hspell, rfl⟩ := tokenize_eq_ok_iff.1 htokens
    cases hp.symm.trans hc
    exact ⟨ts, .inl htokens, .inl hspell⟩
  | error x =>
    obtain ⟨c, offset, rfl, -, hbreaks⟩ := exists_breaks_of_tokenize htokens
    obtain ⟨ts, hts⟩ := hbreaks.tokens
    refine ⟨ts, .inr ⟨c, offset, htokens, hts⟩, ?_⟩
    obtain herror | ⟨token, hnext, hnext', hmore⟩ := hbreaks.next
    · cases hp.symm.trans (ofText_of_error herror)
    · cases hp.symm.trans (ofText_eq_ok_iff.2 ⟨token, hnext, rfl⟩)
      obtain ⟨c', us, hc', hspell, hus⟩ := tokenize_eq_ok_iff.1 hts
      cases hc'.symm.trans (ofText_eq_ok_iff.2 ⟨token, hnext', rfl⟩)
      rw [List.append_cancel_right hus]
      exact .inr ⟨_, _, hmore, hspell⟩

/-- Replies without an expression have no blocks. -/
theorem blocks_of_errors {ts : List Token} {replies : List Reply}
    (h : ∀ r ∈ replies, ∀ e, r.result ≠ .ok e) : Blocks ts replies := by
  induction replies with
  | nil => exact .nil ts
  | cons r later ih =>
    rw [List.forall_mem_cons] at h
    cases hresult : r.result with
    | ok e => exact absurd hresult (h.1 e)
    | error error =>
      show Blocks ([] ++ ts) (r :: later)
      exact .failed hresult (ih h.2)

/-- The calls of a parser move over the tokens ahead of it in blocks. -/
theorem blocks_replies {p : Parser} {calls : List Call} {ts : List Token}
    (h : Ahead p.cursor ts) : Blocks ts (p.replies calls) := by
  induction calls generalizing p ts with
  | nil => exact .nil ts
  | cons call calls ih =>
    rw [Parser.replies]
    cases hresult : (p.reply call).result with
    | ok e =>
      obtain ⟨d, rfl, -, hread, -, hend⟩ := Parser.reply_ok hresult
      obtain ⟨rest, rfl, hrest⟩ := h.of_reads hread
      refine .done d hresult ?_ (ih hrest)
      intro hcall
      obtain ⟨t, ts, htokens, -⟩ := d.tokens_eq_cons
      exact ⟨hrest.eq_nil (hend hcall), hread.rest_eq_nil (by simp [htokens]) (hend hcall)⟩
    | error error =>
      rcases (Parser.reply_error hresult).reads with hdead | ⟨us, hread⟩
      · -- nothing can be read any more
        show Blocks ([] ++ ts) _
        exact .failed hresult (blocks_of_errors (Parser.replies_ne_ok hdead))
      · obtain ⟨rest, rfl, hrest⟩ := h.of_reads hread
        exact .failed hresult (ih hrest)

/-! ## All calls -/

/-- A number or a name alone. -/
def Expr.IsBare (e : Expr) : Prop := (∃ n, e = .number n) ∨ ∃ name, e = .var name

/-- A derivation that goes no level down derives a number or a name. -/
theorem Derivation.isBare : ∀ {r : Rule} (d : Derivation r), d.need = 0 → d.tree.IsBare
  | _, .level first .nil, h => by
    rw [Derivation.need] at h
    exact first.isBare (Nat.le_zero.1 (h ▸ Nat.le_max_left ..))
  | _, .level first (.cons op hop right more), h => by
    simp at h
  | _, .sign s operand, h => by simp at h
  | _, .unsigned operand, h => operand.isBare h
  | _, .number n, _ => .inl ⟨n, rfl⟩
  | _, .group inside, h => by simp at h
  | _, .bareCall name, h => by simp at h
  | _, .call name args, h => by simp at h
  | _, .access name .nil, _ => .inr ⟨name, rfl⟩
  | _, .access name (.property _ more), h => by simp at h
  | _, .access name (.index _ more), h => by simp at h

/-- A parser that has gone too deep has no room but for numbers and names. -/
theorem Parser.replies_isBare {p : Parser} {calls : List Call} (h : depthLimit < p.depth) :
    ∀ r ∈ p.replies calls, ∀ e, r.result = .ok e → e.IsBare := by
  intro r hr e hok
  obtain ⟨q, call, rfl, hq⟩ := replies_induction (I := fun q => depthLimit < q.depth)
    (fun q call hq => Nat.lt_of_lt_of_le hq (q.depth_le_reply call)) h r hr
  obtain ⟨d, rfl, hneed, -⟩ := reply_ok hok
  refine d.isBare ?_
  omega

/-- Whatever calls are made of a new parser, and whatever errors occur in between: the calls move
over the tokens of the text in blocks, from which the expressions are derived; a call that returns
an expression leaves the depth as it was, and no error makes it smaller; behind an error of the
lexer, or a token that starts no operand or names no property, no call returns an expression, and
behind one that went too deep only a number or a name can be returned. -/
theorem replies_sound (text : String) (p : Parser) (hp : Parser.ofText text = .ok p)
    (calls : List Call) :
    (∃ ts, TextTokens text ts ∧ Blocks ts (p.replies calls)) ∧
    (∀ r ∈ p.replies calls,
      (∀ e, r.result = .ok e → r.after.depth = r.before.depth) ∧
      ∀ error, r.result = .error error → r.before.depth ≤ r.after.depth) ∧
    (p.replies calls).Pairwise fun r later =>
      (∀ error, r.result = .error error → error.Kills → ∀ e, later.result ≠ .ok e) ∧
      (r.result = .error .tooDeep → ∀ e, later.result = .ok e → e.IsBare) := by
  refine ⟨?_, ?_, ?_⟩
  · obtain ⟨ts, hts, hahead⟩ := exists_textTokens hp
    exact ⟨ts, hts, blocks_replies hahead⟩
  · intro r hr
    obtain ⟨q, call, rfl, -⟩ := Parser.replies_induction (I := fun _ => True)
      (fun _ _ _ => trivial) trivial r hr
    constructor
    · intro e hok
      obtain ⟨_, -, -, -, hdepth, -⟩ := Parser.reply_ok hok
      exact hdepth
    · intro error herror
      exact q.depth_le_reply call
  · clear hp
    induction calls generalizing p with
    | nil => exact .nil
    | cons call calls ih =>
      rw [Parser.replies]
      refine .cons ?_ (ih _)
      intro later hlater
      constructor
      · intro error herror hkills
        exact Parser.replies_ne_ok ((Parser.reply_error herror).dead hkills) later hlater
      · intro hdeep
        exact Parser.replies_isBare ((Parser.reply_error hdeep).deep rfl) later hlater

/-- An error for what follows does no harm, and one that takes the token from the cursor is the
end. -/
theorem replies_sound_one_text :
    ∃ p, Parser.ofText "a b ) c" = .ok p ∧
      (p.replies [.parse, .expression, .expression, .parse]).map Reply.result =
        [.error (.trailingInput (.identifier "b")), .ok (.var "b"),
          .error (.unexpectedToken .operand .rightParen),
          .error (.unexpectedToken .operand .endOfInput)] ∧
      ∃ ts, TextTokens "a b ) c" ts ∧
        Blocks ts (p.replies [.parse, .expression, .expression, .parse]) := by
  have hp : Parser.ofText "a b ) c" =
      .ok ⟨⟨.identifier "a", ⟨1, [' ', 'b', ' ', ')', ' ', 'c']⟩⟩, 0⟩ := by cbv
  refine ⟨_, hp, ?_, (replies_sound "a b ) c" _ hp _).1⟩
  cbv

end TextTemplate
