import TextTemplate.Proofs.Parser.Derivation
import TextTemplate.Proofs.Parser.Reading
/-!
# What is derived is parsed, or is too deep

A parser that reads the tokens of a derivation ends behind them with the expression of the
derivation, if the derivation fits below the level at which it starts. Otherwise it fails with
`tooDeep`, and with nothing else: everything before the place that is too deep is in order.

- `Outcome.Decided`: an outcome that a condition decides in this way.
- `Derivation.decided`, `Links.decided`, `Arguments.decided`, `Suffixes.decided`: the mutual
  induction over derivations.
-/

namespace TextTemplate

variable {α β : Type}

/-- An outcome that succeeds if a condition holds, and else fails because it is too deep. -/
structure Outcome.Decided (fits : Prop) (a : α) (rest : Cursor) (o : Outcome α) : Prop where
  done : fits → o = .done a rest
  tooDeep : ¬ fits → ∃ stop, o = .failed .tooDeep stop

namespace Outcome.Decided

variable {p q fits : Prop} {o : Outcome α} {a : α} {b : β} {c rest : Cursor}

theorem of_done (h : fits) : Decided fits a rest (.done a rest) :=
  ⟨fun _ => rfl, fun hnot => absurd h hnot⟩

/-- Both conditions decide a composition, the second one only where the first one holds. -/
theorem andThen {next : α → Cursor → Outcome β} (ho : o.Decided p a c)
    (hnext : p → (next a c).Decided q b rest) (hfits : fits ↔ p ∧ q) :
    (o.andThen next).Decided fits b rest := by
  by_cases hp : p
  · rw [ho.done hp, Outcome.andThen_done]
    have hq := hnext hp
    constructor
    · intro h
      exact hq.done (hfits.1 h).2
    · intro hnot
      exact hq.tooDeep fun h => hnot (hfits.2 ⟨hp, h⟩)
  · obtain ⟨stop, hstop⟩ := ho.tooDeep hp
    rw [hstop, andThen_failed]
    constructor
    · intro h
      exact absurd (hfits.1 h).1 hp
    · intro _
      exact ⟨stop, rfl⟩

/-- What always succeeds changes nothing about when a composition succeeds. -/
theorem andThen_done {next : α → Cursor → Outcome β} (ho : o.Decided fits a c)
    (hnext : next a c = .done b rest) : (o.andThen next).Decided fits b rest :=
  ho.andThen (fun h => hnext ▸ of_done h) (and_self_iff).symm

theorem map {f : α → β} (ho : o.Decided fits a rest) : (o.map f).Decided fits (f a) rest :=
  ho.andThen_done rfl

end Outcome.Decided

namespace Reads

variable {c stop : Cursor} {t : Token} {ts : List Token}

/-- Whether there is room one level down decides a move that goes there. -/
theorem moveDown (h : Reads c (t :: ts) stop) :
    c.token = t ∧ ∃ c₁, (∀ depth left,
      (c.moveDown depth left).Decided (depth + 1 ≤ depthLimit) () c₁) ∧ Reads c₁ ts stop := by
  obtain ⟨htoken, c₁, hmove, hread⟩ := h.move
  refine ⟨htoken, c₁, ?_, hread⟩
  intro depth left
  rw [Cursor.moveDown, hmove, Outcome.andThen_done, Cursor.descend]
  by_cases hlimit : depthLimit ≤ depth
  · rw [if_pos hlimit]
    exact ⟨fun hroom => by omega, fun _ => ⟨_, rfl⟩⟩
  · rw [if_neg hlimit]
    exact .of_done (Nat.lt_of_not_le hlimit)

/-- A token that is there is moved over. -/
theorem moveOver (h : Reads c (t :: ts) stop) :
    ∃ c₁, (∀ depth, c.moveOver depth t = .done () c₁) ∧ Reads c₁ ts stop := by
  obtain ⟨htoken, c₁, hmove, hread⟩ := h.move
  refine ⟨c₁, ?_, hread⟩
  intro depth
  rw [Cursor.moveOver, if_pos htoken, hmove]

theorem eq_of_nil (h : Reads c [] stop) : c = stop := by
  cases h
  rfl

end Reads

open Rule

variable {l : BinaryOp.Level} {depth : Nat} {left base : Expr} {c stop : Cursor}

/-- Behind the first operand of a level stands an operator of the level, or its end. -/
theorem Links.ends_operand (links : Links l) (hread : Reads c links.tokens stop)
    (hstop : ¬ (level l).Absorbs stop.token) : ¬ l.operand.Absorbs c.token := by
  have hhead : ¬ l.operand.Absorbs ((links.tokens ++ []).headD stop.token) :=
    links.not_operand_absorbs hstop
  rwa [List.append_nil, ← hread.token_eq] at hhead

/-- A chain ends before a token that does not belong to its level. -/
theorem chain_of_not_absorbs (h : ¬ (level l).Absorbs c.token) :
    chain l depth left c = .done left c := by
  rw [chain_eq]
  split
  · next op htoken =>
    rw [if_neg]
    intro hop
    exact h (htoken ▸ level_absorbs hop)
  · rfl

/-- Suffixes end before a token that does not belong to an atom. -/
theorem suffixes_of_not_absorbs (h : ¬ atom.Absorbs c.token) :
    suffixes depth base c = .done base c := by
  rw [suffixes_eq]
  split
  · next htoken => exact absurd (htoken ▸ trivial) h
  · next htoken => exact absurd (htoken ▸ trivial) h
  · rfl

mutual

/-- A parser that reads a derivation succeeds with its expression iff it fits below `depth`. -/
theorem Derivation.decided : ∀ {r : Rule} (d : Derivation r) {depth : Nat} {c stop : Cursor},
    depth ≤ depthLimit → Reads c d.tokens stop → ¬ r.Absorbs stop.token →
    (r.parse depth c).Decided (depth + d.need ≤ depthLimit) d.tree stop
  | _, .level first more, depth, c, stop, hdepth, hread, hstop => by
    obtain ⟨c₁, hfirst, hmore⟩ := hread.of_append
    -- the operand ends before the first operator of the level, or where the whole level ends
    rw [parse_level]
    refine (first.decided hdepth hfirst (more.ends_operand hmore hstop)).andThen
      (fun _ => more.decided hdepth hmore hstop) ?_
    simp only [Derivation.need]
    omega
  | _, .sign s operand, depth, c, stop, hdepth, hread, hstop => by
    obtain ⟨htoken, c₁, hmove, hoperand⟩ := hread.moveDown
    rw [parse_signed, htoken]
    simp only [Sign.ofOperator?_operator]
    refine (hmove _ _).andThen (fun hroom => (operand.decided hroom hoperand hstop).map) ?_
    simp only [Derivation.need]
    omega
  | _, .unsigned operand, depth, c, stop, hdepth, hread, hstop => by
    have hatom := operand.decided hdepth hread fun h => hstop (absorbs_of_atom h)
    rw [parse_signed]
    split
    · next op htoken =>
      -- an atom does not start with an operator
      cases operand <;> exact nomatch htoken.symm.trans hread.token_eq
    · exact hatom
  | _, .number n, depth, c, stop, hdepth, hread, hstop => by
    obtain ⟨htoken, c₁, hmove, hrest⟩ := hread.move
    obtain rfl := hrest.eq_of_nil
    rw [parse_atom, htoken]
    show ((c.move depth .endOfInput).map fun _ => Expr.number n).Decided _ _ _
    rw [hmove]
    exact .of_done hdepth
  | _, .group inside, depth, c, stop, hdepth, hread, hstop => by
    obtain ⟨htoken, c₁, hmove, hinside⟩ := hread.moveDown
    obtain ⟨c₂, hinner, hclose⟩ := hinside.of_append
    have hparen : ¬ (level .sum).Absorbs c₂.token := by
      rw [hclose.token_eq]
      exact not_absorbs_rightParen
    obtain ⟨c₃, hover, hrest⟩ := hclose.moveOver
    obtain rfl := hrest.eq_of_nil
    rw [parse_atom, htoken]
    refine (hmove _ _).andThen
      (fun hroom => (inside.decided hroom hinner hparen).andThen_done ?_) ?_
    · rw [hover, Outcome.map_done]
      rfl
    · simp only [Derivation.need]
      omega
  | _, .bareCall name, depth, c, stop, hdepth, hread, hstop => by
    obtain ⟨htoken, c₁, hmove, hopen⟩ := hread.move
    obtain ⟨hparen, c₂, hdown, hclose⟩ := hopen.moveDown
    obtain ⟨hparen', c₃, hmove', hrest⟩ := hclose.move
    obtain rfl := hrest.eq_of_nil
    rw [parse_atom, htoken]
    dsimp only
    rw [hmove, Outcome.andThen_done, if_pos hparen]
    refine (hdown _ _).andThen_done ?_
    rw [arguments_eq, if_pos hparen', hmove', Outcome.map_done, Outcome.map_done]
    rfl
  | _, .call name args, depth, c, stop, hdepth, hread, hstop => by
    obtain ⟨htoken, c₁, hmove, hopen⟩ := hread.move
    obtain ⟨hparen, c₂, hdown, hargs⟩ := hopen.moveDown
    -- the first argument does not look like the end of a call without arguments
    have hstart : c₂.token ≠ .rightParen := by
      obtain ⟨t, ts, htokens, ht⟩ := args.tokens_eq_cons
      rw [hargs.token_eq, htokens]
      exact ht
    rw [parse_atom, htoken]
    dsimp only
    rw [hmove, Outcome.andThen_done, if_pos hparen]
    refine (hdown _ _).andThen (fun hroom => ?_) ?_ (q := depth + 1 + args.need ≤ depthLimit)
    · rw [arguments_eq, if_neg hstart]
      exact (args.decided hroom hargs).map
    · simp only [Derivation.need]
      omega
  | _, .access name suffixes, depth, c, stop, hdepth, hread, hstop => by
    obtain ⟨htoken, c₁, hmove, hsuffixes⟩ := hread.move
    -- what follows the name does not make it a call
    have hopen : c₁.token ≠ .leftParen := by
      rw [hsuffixes.token_eq, ← List.append_nil suffixes.tokens]
      exact suffixes.head_ne_leftParen hstop
    rw [parse_atom, htoken]
    dsimp only
    rw [hmove, Outcome.andThen_done, if_neg hopen]
    exact suffixes.decided hdepth hsuffixes hstop
termination_by structural _ d => d

/-- A parser that reads operators and operands succeeds iff they fit below `depth`. -/
theorem Links.decided : ∀ {l : BinaryOp.Level} (links : Links l) {depth : Nat} {left : Expr}
    {c stop : Cursor}, depth ≤ depthLimit → Reads c links.tokens stop →
    ¬ (level l).Absorbs stop.token →
    (chain l depth left c).Decided (depth + links.need ≤ depthLimit) (links.tree left) stop
  | _, .nil, depth, left, c, stop, hdepth, hread, hstop => by
    obtain rfl := hread.eq_of_nil
    rw [chain_of_not_absorbs hstop]
    exact .of_done hdepth
  | l, .cons op hop right more, depth, left, c, stop, hdepth, hread, hstop => by
    obtain ⟨htoken, c₁, hmove, hrest⟩ := hread.moveDown
    obtain ⟨c₂, hright, hmore⟩ := hrest.of_append
    rw [chain_eq, htoken]
    dsimp only
    rw [if_pos hop]
    -- the operand and the rest of the chain both start one level further down
    refine (hmove _ _).andThen (fun hroom =>
      (right.decided hroom hright (more.ends_operand hmore hstop)).andThen
        (fun _ => more.decided hroom hmore hstop) Iff.rfl) ?_
    simp only [Links.need]
    omega
termination_by structural _ links => links

/-- A parser that reads arguments succeeds iff they fit below `depth`. -/
theorem Arguments.decided : ∀ (args : Arguments) {depth : Nat} {c stop : Cursor},
    depth ≤ depthLimit → Reads c (args.tokens ++ [.rightParen]) stop →
    (moreArguments depth c).Decided (depth + args.need ≤ depthLimit) args.trees stop
  | .last arg, depth, c, stop, hdepth, hread => by
    obtain ⟨c₁, harg, hclose⟩ := hread.of_append
    have hparen : c₁.token = .rightParen := hclose.token_eq
    obtain ⟨c₂, hover, hrest⟩ := hclose.moveOver
    obtain rfl := hrest.eq_of_nil
    rw [moreArguments_eq]
    refine (arg.decided hdepth harg (hparen ▸ not_absorbs_rightParen)).andThen_done ?_
    rw [if_neg (by simp [hparen]), hover, Outcome.map_done]
    rfl
  | .more arg args, depth, c, stop, hdepth, hread => by
    rw [Arguments.tokens, List.append_assoc] at hread
    obtain ⟨c₁, harg, hrest⟩ := hread.of_append
    obtain ⟨hcomma, c₂, hmove, hargs⟩ := hrest.move
    rw [moreArguments_eq]
    refine (arg.decided hdepth harg (hcomma ▸ not_absorbs_comma)).andThen (fun _ => ?_) ?_
      (q := depth + args.need ≤ depthLimit)
    · rw [if_pos hcomma, hmove, Outcome.andThen_done]
      exact (args.decided hdepth hargs).map
    · simp only [Arguments.need]
      omega
termination_by structural args => args

/-- A parser that reads suffixes succeeds iff they fit below `depth`. -/
theorem Suffixes.decided : ∀ (suffixes : Suffixes) {depth : Nat} {base : Expr} {c stop : Cursor},
    depth ≤ depthLimit → Reads c suffixes.tokens stop → ¬ atom.Absorbs stop.token →
    (Rule.suffixes depth base c).Decided (depth + suffixes.need ≤ depthLimit)
      (suffixes.tree base) stop
  | .nil, depth, base, c, stop, hdepth, hread, hstop => by
    obtain rfl := hread.eq_of_nil
    rw [suffixes_of_not_absorbs hstop]
    exact .of_done hdepth
  | .property name more, depth, base, c, stop, hdepth, hread, hstop => by
    obtain ⟨htoken, c₁, hmove, hrest⟩ := hread.moveDown
    obtain ⟨hname, c₂, hmove', hmore⟩ := hrest.move
    rw [suffixes_eq, htoken]
    refine (hmove _ _).andThen (fun hroom => ?_) ?_ (q := depth + 1 + more.need ≤ depthLimit)
    · rw [hname]
      dsimp only
      rw [hmove', Outcome.andThen_done]
      exact more.decided hroom hmore hstop
    · simp only [Suffixes.need]
      omega
  | .index position more, depth, base, c, stop, hdepth, hread, hstop => by
    obtain ⟨htoken, c₁, hmove, hrest⟩ := hread.moveDown
    obtain ⟨c₂, hposition, hclose⟩ := hrest.of_append
    have hbracket : ¬ (level .sum).Absorbs c₂.token := by
      rw [hclose.token_eq]
      exact not_absorbs_rightBracket
    obtain ⟨c₃, hover, hmore⟩ := hclose.moveOver
    rw [suffixes_eq, htoken]
    refine (hmove _ _).andThen (fun hroom => (position.decided hroom hposition hbracket).andThen
      (fun _ => ?_) Iff.rfl (q := depth + 1 + more.need ≤ depthLimit)) ?_
    · rw [hover, Outcome.andThen_done]
      exact more.decided hroom hmore hstop
    · simp only [Suffixes.need]
      omega
termination_by structural suffixes => suffixes

end

end TextTemplate
