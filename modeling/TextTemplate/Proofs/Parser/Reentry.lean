import TextTemplate.Proofs.Parser.Complete
import TextTemplate.Proofs.Parser.Lockstep
import TextTemplate.Proofs.Token.Cut
/-!
# How often the parser enters itself anew

Inside a group, an argument or a position the grammar starts anew with a sum, and behind a sign with
another sign. Everything else that a rule calls lies further down in the grammar. Every such
re-entry takes a level of depth, and so at most `depthLimit` of them are open at once, whatever the
text.

The rules are written once more so that they can run out of two things, of calls and of room for
re-entries, and then they end with nothing at all, which nobody above can make up for. With as many
calls as a text needs and room for `depthLimit` re-entries they never do.

- `Rule.parseBounded` and the functions beside it: the rules with bounded calls and re-entries.
- `Rule.parseBounded_eq` and the theorems beside it: with enough of both they are the rules.
- `Parser.expressionBounded_eq`: so is a parser that is used at any depth.
- `parse_bounded`: the parse of a text, and that `depthLimit` cannot be made smaller.
-/

namespace TextTemplate

/-! ## The rules with bounded calls and re-entries -/

namespace Outcome

variable {α β : Type}

/-- Goes on from where a step has ended with what may not end. -/
def andThen? (o : Outcome α) (next? : α → Cursor → Option (Outcome β)) : Option (Outcome β) :=
  match o with
  | .done value rest => next? value rest
  | .failed error stop => some (.failed error stop)

theorem andThen?_eq_some {o : Outcome α} {next? : α → Cursor → Option (Outcome β)}
    {next : α → Cursor → Outcome β}
    (h : ∀ a rest, o = .done a rest → next? a rest = some (next a rest)) :
    o.andThen? next? = some (o.andThen next) := by
  cases o with
  | done a rest => exact h a rest rfl
  | failed error stop => rfl

end Outcome

/-- Opens a rule anew, if there is room for it. -/
def reenter {α : Type} (room : Nat) (rule : Nat → Option α) : Option α :=
  match room with
  | 0 => none
  | room + 1 => rule room

namespace Rule

open Outcome

mutual

/-- A rule with bounded calls, and with room for so many re-entries at once. -/
def parseBounded (calls room depth : Nat) (c : Cursor) (r : Rule) : Option (Outcome Expr) :=
  match calls with
  | 0 => none
  | calls + 1 =>
    match r with
    | .level l =>
      (parseBounded calls room depth c l.operand).bind fun first =>
        first.andThen? fun left rest => chainBounded calls room l depth left rest
    | .signed =>
      match c.token with
      | .operator op =>
        match Sign.ofOperator? op with
        | some sign =>
          (c.moveDown depth c.token).andThen? fun _ c₁ =>
            (reenter room fun room => parseBounded calls room (depth + 1) c₁ .signed).map
              (Outcome.map (.signed sign))
        | none => parseBounded calls room depth c .atom
      | _ => parseBounded calls room depth c .atom
    | .atom =>
      match c.token with
      | .number n => some ((c.move depth .endOfInput).map fun _ => .number n)
      | .leftParen =>
        (c.moveDown depth .endOfInput).andThen? fun _ c₁ =>
          (reenter room fun room => parseBounded calls room (depth + 1) c₁ (.level .sum)).map
            fun inside => inside.andThen fun e c₂ =>
              (c₂.moveOver (depth + 1) .rightParen).map fun _ => e
      | .identifier name =>
        (c.move depth .endOfInput).andThen? fun _ c₁ =>
          if c₁.token = .leftParen then
            (c₁.moveDown depth c₁.token).andThen? fun _ c₂ =>
              (argumentsBounded calls room (depth + 1) c₂).map (Outcome.map (.call name))
          else suffixesBounded calls room depth (.var name) c₁
      | _ => some (c.reject depth .operand .endOfInput)
termination_by structural calls

/-- The operators and operands that follow `left`. -/
def chainBounded (calls room : Nat) (l : BinaryOp.Level) (depth : Nat) (left : Expr) (c : Cursor) :
    Option (Outcome Expr) :=
  match calls with
  | 0 => none
  | calls + 1 =>
    match c.token with
    | .operator op =>
      if op.level = l then
        (c.moveDown depth c.token).andThen? fun _ c₁ =>
          (parseBounded calls room (depth + 1) c₁ l.operand).bind fun operand =>
            operand.andThen? fun right c₂ =>
              chainBounded calls room l (depth + 1) (.binary op left right) c₂
      else some (.done left c)
    | _ => some (.done left c)
termination_by structural calls

/-- The arguments of a call up to the closing parenthesis. -/
def argumentsBounded (calls room depth : Nat) (c : Cursor) : Option (Outcome (List Expr)) :=
  match calls with
  | 0 => none
  | calls + 1 =>
    if c.token = .rightParen then some ((c.move depth c.token).map fun _ => [])
    else moreArgumentsBounded calls room depth c
termination_by structural calls

/-- At least one argument, and the following ones. -/
def moreArgumentsBounded (calls room depth : Nat) (c : Cursor) : Option (Outcome (List Expr)) :=
  match calls with
  | 0 => none
  | calls + 1 =>
    (reenter room fun room => parseBounded calls room depth c (.level .sum)).bind fun argument =>
      argument.andThen? fun arg c₁ =>
        if c₁.token = .comma then
          (c₁.move depth c₁.token).andThen? fun _ c₂ =>
            (moreArgumentsBounded calls room depth c₂).map (Outcome.map (arg :: ·))
        else some ((c₁.moveOver depth .rightParen).map fun _ => [arg])
termination_by structural calls

/-- The properties and positions that follow `base`. -/
def suffixesBounded (calls room depth : Nat) (base : Expr) (c : Cursor) : Option (Outcome Expr) :=
  match calls with
  | 0 => none
  | calls + 1 =>
    match c.token with
    | .leftBracket =>
      (c.moveDown depth c.token).andThen? fun _ c₁ =>
        (reenter room fun room => parseBounded calls room (depth + 1) c₁ (.level .sum)).bind
          fun inside => inside.andThen? fun position c₂ =>
            (c₂.moveOver (depth + 1) .rightBracket).andThen? fun _ c₃ =>
              suffixesBounded calls room (depth + 1) (.index base position) c₃
    | .dot =>
      (c.moveDown depth c.token).andThen? fun _ c₁ =>
        match c₁.token with
        | .identifier name =>
          (c₁.move (depth + 1) .endOfInput).andThen? fun _ c₂ =>
            suffixesBounded calls room (depth + 1) (.property base name) c₂
        | _ => some (c₁.reject (depth + 1) .propertyName .endOfInput)
    | _ => some (.done base c)
termination_by structural calls

end

/-! ## Enough calls and enough room -/

/-- There is room for a re-entry as long as there is a level of depth left for it. -/
theorem reenter_eq {α : Type} {room depth : Nat} {rule : Nat → Option α} {a : α}
    (hdepth : depth < depthLimit) (hroom : depthLimit ≤ room + depth)
    (h : ∀ room', depthLimit ≤ room' + (depth + 1) → rule room' = some a) :
    reenter room rule = some a := by
  cases room with
  | zero => omega
  | succ room => exact h room (by omega)

mutual

/-- A rule needs no more calls than the input before it allows for, and no more re-entries than
there are levels of depth left. -/
theorem parseBounded_eq {calls room depth : Nat} {c : Cursor} {r : Rule}
    (hcalls : 11 * c.size + r.rank < calls) (hroom : depthLimit ≤ room + depth) :
    parseBounded calls room depth c r = some (r.parse depth c) := by
  match calls, r with
  | calls + 1, .level l =>
    have hrank := rank_operand_lt l
    rw [parseBounded, parse_level, parseBounded_eq (by omega) hroom, Option.bind_some]
    refine Outcome.andThen?_eq_some ?_
    intro left c₁ hleft
    have hsize := size_lt hleft
    exact chainBounded_eq (by omega) hroom
  | calls + 1, .signed =>
    have hatom : Rule.atom.rank < Rule.signed.rank := by decide
    rw [parseBounded, parse_signed]
    cases htoken : c.token with
    | operator op =>
      dsimp only
      cases Sign.ofOperator? op with
      | some sign =>
        refine Outcome.andThen?_eq_some ?_
        intro _ c₁ hmove
        obtain ⟨hread, hdepth⟩ := Reads.of_moveDown hmove htoken (by simp)
        have hsize := hread.size_lt
        rw [reenter_eq hdepth hroom fun room' hroom' => parseBounded_eq (by omega) hroom',
          Option.map_some]
      | none => exact parseBounded_eq (by omega) hroom
    | _ => exact parseBounded_eq (by omega) hroom
  | calls + 1, .atom =>
    have hsum : (level .sum).rank = 7 := rfl
    rw [parseBounded, parse_atom]
    cases htoken : c.token with
    | leftParen =>
      refine Outcome.andThen?_eq_some ?_
      intro _ c₁ hmove
      obtain ⟨hread, hdepth⟩ := Reads.of_moveDown hmove htoken (by simp)
      have hsize := hread.size_lt
      rw [reenter_eq hdepth hroom fun room' hroom' => parseBounded_eq (by omega) hroom',
        Option.map_some]
    | identifier name =>
      refine Outcome.andThen?_eq_some ?_
      intro _ c₁ hmove
      have hsize := (Reads.of_move hmove htoken (by simp)).size_lt
      split
      · next hcall =>
        refine Outcome.andThen?_eq_some ?_
        intro _ c₂ hmove'
        obtain ⟨hread, hdepth⟩ := Reads.of_moveDown hmove' rfl (by simp [hcall])
        have hsize' := hread.size_lt
        rw [argumentsBounded_eq (by omega) hdepth (by omega), Option.map_some]
      · exact suffixesBounded_eq (by omega) hroom
    | _ => rfl

theorem chainBounded_eq {calls room depth : Nat} {l : BinaryOp.Level} {left : Expr} {c : Cursor}
    (hcalls : 11 * c.size < calls) (hroom : depthLimit ≤ room + depth) :
    chainBounded calls room l depth left c = some (chain l depth left c) := by
  match calls with
  | calls + 1 =>
    rw [chainBounded, chain_eq]
    cases htoken : c.token with
    | operator op =>
      dsimp only
      split
      · refine Outcome.andThen?_eq_some ?_
        intro _ c₁ hmove
        have hsize := (Reads.of_moveDown hmove htoken (by simp)).1.size_lt
        have hrank := l.operand.rank_le
        rw [parseBounded_eq (by omega) (by omega), Option.bind_some]
        refine Outcome.andThen?_eq_some ?_
        intro right c₂ hright
        have hsize' := size_lt hright
        exact chainBounded_eq (by omega) (by omega)
      · rfl
    | _ => rfl

/-- Every argument takes up the level that the call has taken. -/
theorem argumentsBounded_eq {calls room depth : Nat} {c : Cursor}
    (hcalls : 11 * c.size + 10 < calls) (hdepth : depth ≤ depthLimit)
    (hroom : depthLimit < room + depth) :
    argumentsBounded calls room depth c = some (arguments depth c) := by
  match calls with
  | calls + 1 =>
    rw [argumentsBounded, arguments_eq]
    split
    · rfl
    · exact moreArgumentsBounded_eq (by omega) hdepth hroom

theorem moreArgumentsBounded_eq {calls room depth : Nat} {c : Cursor}
    (hcalls : 11 * c.size + 9 < calls) (hdepth : depth ≤ depthLimit)
    (hroom : depthLimit < room + depth) :
    moreArgumentsBounded calls room depth c = some (moreArguments depth c) := by
  match calls, room with
  | calls + 1, 0 => omega
  | calls + 1, room + 1 =>
    have hsum : (level .sum).rank = 7 := rfl
    rw [moreArgumentsBounded, moreArguments_eq, reenter, parseBounded_eq (by omega) (by omega),
      Option.bind_some]
    refine Outcome.andThen?_eq_some ?_
    intro arg c₁ harg
    have hsize := size_lt harg
    split
    · next hcomma =>
      refine Outcome.andThen?_eq_some ?_
      intro _ c₂ hmove
      have hsize' := (Reads.of_move hmove rfl (by simp [hcomma])).size_lt
      rw [moreArgumentsBounded_eq (by omega) hdepth hroom, Option.map_some]
    · rfl

theorem suffixesBounded_eq {calls room depth : Nat} {base : Expr} {c : Cursor}
    (hcalls : 11 * c.size < calls) (hroom : depthLimit ≤ room + depth) :
    suffixesBounded calls room depth base c = some (suffixes depth base c) := by
  match calls with
  | calls + 1 =>
    rw [suffixesBounded, suffixes_eq]
    cases htoken : c.token with
    | leftBracket =>
      have hsum : (level .sum).rank = 7 := rfl
      refine Outcome.andThen?_eq_some ?_
      intro _ c₁ hmove
      obtain ⟨hread, hdepth⟩ := Reads.of_moveDown hmove htoken (by simp)
      have hsize := hread.size_lt
      rw [reenter_eq hdepth hroom fun room' hroom' => parseBounded_eq (by omega) hroom',
        Option.bind_some]
      refine Outcome.andThen?_eq_some ?_
      intro position c₂ hposition
      have hsize' := size_lt hposition
      refine Outcome.andThen?_eq_some ?_
      intro _ c₃ hover
      have hsize'' := (Reads.of_moveOver hover (by simp)).size_lt
      exact suffixesBounded_eq (by omega) (by omega)
    | dot =>
      refine Outcome.andThen?_eq_some ?_
      intro _ c₁ hmove
      have hsize := (Reads.of_moveDown hmove htoken (by simp)).1.size_lt
      cases hname : c₁.token with
      | identifier name =>
        refine Outcome.andThen?_eq_some ?_
        intro _ c₂ hmove'
        have hsize' := (Reads.of_move hmove' hname (by simp)).size_lt
        exact suffixesBounded_eq (by omega) (by omega)
      | _ => rfl
    | _ => rfl

end

end Rule

/-! ## Parsers -/

/-- A parser with bounded calls and re-entries reads one expression. -/
def Parser.expressionBounded (calls reentries : Nat) (p : Parser) :
    Option (Except ParseError Expr × Parser) :=
  match Rule.parseBounded calls reentries p.depth p.cursor (.level .sum) with
  | some (.done e rest) => some (.ok e, ⟨rest, p.depth⟩)
  | some (.failed error stop) => some (.error error, stop)
  | none => none

/-- A parser with bounded calls and re-entries reads one expression up to the end of the input. -/
def Parser.parseBounded (calls reentries : Nat) (p : Parser) :
    Option (Except ParseError Expr × Parser) :=
  match p.expressionBounded calls reentries with
  | some (.ok e, rest) =>
    if rest.cursor.token = .endOfInput then some (.ok e, rest)
    else some (.error (.trailingInput rest.cursor.token), rest)
  | failure => failure

/-- The expression that a whole text stands for, with bounded calls and re-entries. -/
def Expr.parseBounded (calls reentries : Nat) (text : String) : Option (Except ParseError Expr) :=
  match Parser.ofText text with
  | .ok p => (p.parseBounded calls reentries).map (·.1)
  | .error e => some (.error e)

/-- At any depth, and so also after errors, a parser has room for the levels that are left. -/
theorem Parser.expressionBounded_eq {calls reentries : Nat} {p : Parser}
    (hcalls : 11 * p.cursor.size + 7 < calls) (hroom : depthLimit ≤ reentries + p.depth) :
    p.expressionBounded calls reentries = some p.expression := by
  rw [expressionBounded, expression, Rule.parseBounded_eq hcalls hroom, Rule.parse]
  cases parseLevel .sum p.depth p.cursor with
  | done e rest smaller => rfl
  | failed error stop => rfl

theorem Parser.parseBounded_eq {calls reentries : Nat} {p : Parser}
    (hcalls : 11 * p.cursor.size + 7 < calls) (hroom : depthLimit ≤ reentries + p.depth) :
    p.parseBounded calls reentries = some p.parse := by
  rw [parseBounded, parse, expressionBounded_eq hcalls hroom]
  cases p.expression with
  | mk result rest =>
    cases result with
    | ok e =>
      dsimp only
      split <;> rfl
    | error error => rfl

/-- A fresh parser has taken its first token from the text. -/
theorem Parser.size_of_ofText {text : String} {p : Parser} (h : ofText text = .ok p) :
    p.depth = 0 ∧ p.cursor.size ≤ 2 * text.length := by
  obtain ⟨token, hnext, rfl⟩ := ofText_eq_ok_iff.1 h
  have hle : (Lexer.ofText text).next.2.rest.length ≤ text.length :=
    (Lexer.ofText text).length_rest_next_le
  refine ⟨rfl, ?_⟩
  dsimp only [Cursor.size]
  split
  · omega
  · next hne =>
    have hlt : (Lexer.ofText text).next.2.rest.length < text.length :=
      Lexer.next_progress hnext hne
    omega

/-! ## As many re-entries as there are levels -/

namespace Rule

variable {room depth : Nat} {c stop : Cursor} {ts : List Token}

/-- A level never ends where its first operand does not. -/
theorem parseBounded_level_eq_none {l : BinaryOp.Level}
    (h : ∀ calls, parseBounded calls room depth c l.operand = none) (calls : Nat) :
    parseBounded calls room depth c (.level l) = none := by
  cases calls with
  | zero => rw [parseBounded]
  | succ calls => rw [parseBounded, h, Option.bind_none]

/-- A sum that starts with a parenthesis never ends where its inside cannot be entered. -/
theorem parseBounded_sum_eq_none (h : Reads c (.leftParen :: ts) stop) (hdepth : depth < depthLimit)
    (hinside : ∀ c₁, Reads c₁ ts stop → ∀ calls,
      (reenter room fun room => parseBounded calls room (depth + 1) c₁ (.level .sum)) = none)
    (calls : Nat) : parseBounded calls room depth c (.level .sum) = none := by
  obtain ⟨htoken, c₁, hmove, hread⟩ := h.moveDown
  have hatom : ∀ calls, parseBounded calls room depth c .atom = none := by
    intro calls
    cases calls with
    | zero => rw [parseBounded]
    | succ calls =>
      rw [parseBounded, htoken]
      dsimp only
      rw [(hmove depth .endOfInput).done hdepth, Outcome.andThen?, hinside c₁ hread, Option.map_none]
  have hsigned : ∀ calls, parseBounded calls room depth c .signed = none := by
    intro calls
    cases calls with
    | zero => rw [parseBounded]
    | succ calls =>
      rw [parseBounded, htoken]
      exact hatom calls
  have hpower := parseBounded_level_eq_none (l := .power) hsigned
  have hproduct := parseBounded_level_eq_none (l := .product) hpower
  exact parseBounded_level_eq_none (l := .sum) hproduct calls

/-- With one parenthesis more than there is room for, no number of calls is enough. -/
theorem parseBounded_parens_eq_none (h : Reads c (List.replicate (room + 1) .leftParen) stop)
    (hdepth : depth + room < depthLimit) (calls : Nat) :
    parseBounded calls room depth c (.level .sum) = none := by
  rw [List.replicate_succ] at h
  induction room generalizing depth c calls with
  | zero => exact parseBounded_sum_eq_none h hdepth (fun _ _ _ => rfl) calls
  | succ room ih =>
    refine parseBounded_sum_eq_none h (by omega) ?_ calls
    intro c₁ hread calls
    rw [List.replicate_succ] at hread
    exact ih hread (by omega) calls

end Rule

/-- The text of so many opening parentheses. -/
def openParens (n : Nat) : String := String.ofList (List.replicate n '(')

theorem cut_parens (n : Nat) : Cut (List.replicate n '(') (List.replicate n .leftParen) [] := by
  induction n with
  | zero => exact .nil []
  | succ n ih =>
    rw [List.replicate_succ, List.replicate_succ]
    exact Cut.leftParen.append ih

/-- So many opening parentheses take as many re-entries. -/
theorem Expr.parseBounded_openParens {n : Nat} (h : n < depthLimit) (calls : Nat) :
    Expr.parseBounded calls n (openParens (n + 1)) = none := by
  obtain ⟨c, ts, hp, ⟨stop, hread, hstop⟩, hts⟩ :=
    tokenize_eq_ok_iff.1 (tokenize_of_cut (cut_parens (n + 1)))
  cases List.append_cancel_right hts
  have hnone : Rule.parseBounded calls n 0 c (.level .sum) = none :=
    Rule.parseBounded_parens_eq_none hread (by omega) calls
  rw [Expr.parseBounded, openParens, hp]
  simp only [Parser.parseBounded, Parser.expressionBounded, hnone, Option.map_none]

/-- On every text the parser ends, and never has more than `depthLimit` re-entries open at once:
with room for as many or for more, a parser that is cut off otherwise gives the same expression or
the same error. With less room there is a text on which it is cut off. -/
theorem parse_bounded :
    (∀ text calls reentries, 22 * text.length + 7 < calls → depthLimit ≤ reentries →
      Expr.parseBounded calls reentries text = some (Expr.parse text) ∧
      ∀ p, Parser.ofText text = .ok p →
        p.expressionBounded calls reentries = some p.expression) ∧
    (∀ reentries, reentries < depthLimit →
      ∃ text, ∀ calls, Expr.parseBounded calls reentries text = none) := by
  constructor
  · intro text calls reentries hcalls hroom
    cases hp : Parser.ofText text with
    | error e =>
      rw [Expr.parseBounded, Expr.parse, hp]
      exact ⟨rfl, fun p hnone => nomatch hnone⟩
    | ok p =>
      obtain ⟨hdepth, hsize⟩ := Parser.size_of_ofText hp
      constructor
      · rw [Expr.parseBounded, Expr.parse, hp]
        dsimp only
        rw [Parser.parseBounded_eq (by omega) (by omega), Option.map_some]
      · rintro _ ⟨⟩
        exact Parser.expressionBounded_eq (by omega) (by omega)
  · intro reentries hlimit
    exact ⟨_, Expr.parseBounded_openParens hlimit⟩

/-- A sign, a call, a group and a position: all kinds of re-entries in one text. -/
theorem parse_bounded_every_kind :
    22 * "-f((a),b[c])".length + 7 < 300 ∧ depthLimit ≤ 257 ∧
    Expr.parseBounded 300 257 "-f((a),b[c])" =
      some (.ok (.signed .minus (.call "f" [.var "a", .index (.var "b") (.var "c")]))) ∧
    255 < depthLimit ∧ ∃ text, ∀ calls, Expr.parseBounded calls 255 text = none := by
  have hlength : 22 * "-f((a),b[c])".length + 7 < 300 := by decide
  have hparse : Expr.parse "-f((a),b[c])" =
      .ok (.signed .minus (.call "f" [.var "a", .index (.var "b") (.var "c")])) := by cbv
  refine ⟨hlength, by decide, ?_, by decide, parse_bounded.2 255 (by decide)⟩
  rw [(parse_bounded.1 _ 300 257 hlength (by decide)).1, hparse]

end TextTemplate
