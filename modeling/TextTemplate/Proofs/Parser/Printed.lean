import TextTemplate.Proofs.Expr.Printer
import TextTemplate.Proofs.Parser.Language
/-!
# Parsing printed expressions

The text that an expression is printed to has a derivation of that expression. Every node takes at
most two levels, one of them for its parentheses.

- `Links.append`, `Suffixes.append`: longer chains.
- `Prints`, `PrintsChain`: a text is cut into the tokens of a derivation whose depth is bounded.
- `Expr.prints`: the mutual induction over expressions.
- `Prints.parse_cases`: what becomes of a text that stands for an expression.
- `Expr.parse_text`: a printed expression is parsed, or is too deep.
-/

namespace TextTemplate

/-! ## Longer chains -/

/-- The operators and operands of two chains. -/
def Links.append {l : BinaryOp.Level} : Links l → Links l → Links l
  | .nil, links => links
  | .cons op hop right more, links => .cons op hop right (more.append links)

/-- The properties and positions of two chains. -/
def Suffixes.append : Suffixes → Suffixes → Suffixes
  | .nil, suffixes => suffixes
  | .property name more, suffixes => .property name (more.append suffixes)
  | .index position more, suffixes => .index position (more.append suffixes)

namespace Links

variable {l : BinaryOp.Level}

/-- The tokens of the second chain follow those of the first. -/
@[simp] theorem tokens_append : ∀ links links' : Links l,
    (links.append links').tokens = links.tokens ++ links'.tokens
  | .nil, _ => rfl
  | .cons op hop right more, links' => by simp [append, tokens_append more links']

/-- The second chain goes on from the tree of the first. -/
@[simp] theorem tree_append : ∀ (links links' : Links l) (left : Expr),
    (links.append links').tree left = links'.tree (links.tree left)
  | .nil, _, _ => rfl
  | .cons op hop right more, links', left => by simp [append, tree_append more links']

/-- Both chains take up their levels one after the other. -/
theorem need_append_le : ∀ links links' : Links l,
    (links.append links').need ≤ links.need + links'.need
  | .nil, _ => by simp [append]
  | .cons op hop right more, links' => by
    have hmore := need_append_le more links'
    simp only [append, need]
    omega

end Links

namespace Suffixes

@[simp] theorem tokens_append : ∀ suffixes suffixes' : Suffixes,
    (suffixes.append suffixes').tokens = suffixes.tokens ++ suffixes'.tokens
  | .nil, _ => rfl
  | .property name more, suffixes' => by simp [append, tokens_append more suffixes']
  | .index position more, suffixes' => by simp [append, tokens_append more suffixes']

@[simp] theorem tree_append : ∀ (suffixes suffixes' : Suffixes) (base : Expr),
    (suffixes.append suffixes').tree base = suffixes'.tree (suffixes.tree base)
  | .nil, _, _ => rfl
  | .property name more, suffixes', base => by simp [append, tree_append more suffixes']
  | .index position more, suffixes', base => by simp [append, tree_append more suffixes']

theorem need_append_le : ∀ suffixes suffixes' : Suffixes,
    (suffixes.append suffixes').need ≤ suffixes.need + suffixes'.need
  | .nil, _ => by simp [append]
  | .property name more, suffixes' => by
    have hmore := need_append_le more suffixes'
    simp only [append, need]
    omega
  | .index position more, suffixes' => by
    have hmore := need_append_le more suffixes'
    simp only [append, need]
    omega

end Suffixes

/-! ## Texts with derivations -/

/-- A rule that passes on to the operands of a level is no looser than they are. -/
theorem Rule.rank_le_operand {r : Rule} {l : BinaryOp.Level} (hle : r.rank ≤ (level l).rank)
    (hne : r ≠ level l) : r.rank ≤ l.operand.rank := by
  cases r with
  | level l' => cases l <;> cases l' <;> simp_all [rank, BinaryOp.Level.operand]
  | signed => cases l <;> decide
  | atom => cases l <;> decide

/-- Whether a name or a numeral may go on with a character. -/
def isOperandChar (c : Char) : Bool := isNameChar c || c == '.'

/-- What ends every operand ends a name. -/
theorem Stops.name {rest : List Char} (h : Stops isOperandChar rest) : Stops isNameChar rest :=
  h.mono fun c hc => by rw [isOperandChar, hc, Bool.true_or]

/-- And it ends a numeral. -/
theorem Stops.numeral {rest : List Char} (h : Stops isOperandChar rest) :
    Stops isNumeralChar rest := by
  refine h.mono fun c hc => ?_
  rw [isNumeralChar, Bool.or_eq_true] at hc
  rw [isOperandChar, isNameChar, Char.isAlphanum, Bool.or_eq_true, Bool.or_eq_true,
    Bool.or_eq_true]
  rcases hc with hdigit | hdot
  · exact .inl (.inl (.inr hdigit))
  · exact .inr hdot

/-- An operator ends every operand. -/
theorem Stops.symbol (op : BinaryOp) (rest : List Char) : Stops isOperandChar (op.symbol :: rest) :=
  .cons (by cases op <;> decide)

/-- A text stands for an expression by a rule: it has a derivation whose depth is at most `limit`,
and is cut into its tokens if nothing that could belong to a lexeme follows. -/
def Prints (r : Rule) (e : Expr) (cs : List Char) (limit : Nat) : Prop :=
  ∃ d : Derivation r, d.tree = e ∧ d.need ≤ limit ∧
    ∀ rest, Stops isOperandChar rest → Cut (cs ++ rest) d.tokens rest

/-- A text stands for a name with properties and positions, and more of them may follow. -/
def PrintsChain (e : Expr) (cs : List Char) (limit : Nat) : Prop :=
  ∃ (name : String) (suffixes : Suffixes), suffixes.tree (.var name) = e ∧ suffixes.need ≤ limit ∧
    ∀ rest, Stops isNameChar rest → Cut (cs ++ rest) (.identifier name :: suffixes.tokens) rest

/-- A text stands for arguments. -/
def PrintsArguments (es : List Expr) (cs : List Char) (limit : Nat) : Prop :=
  ∃ args : Arguments, args.trees = es ∧ args.need ≤ limit ∧
    ∀ rest, Stops isOperandChar rest → Cut (cs ++ rest) args.tokens rest

namespace PrintsChain

variable {e p : Expr} {cs ps : List Char} {j k : Nat} {name : String}

/-- A variable is a chain of its own. -/
theorem var (h : IsName name) : PrintsChain (.var name) name.toList 0 :=
  ⟨name, .nil, rfl, Nat.le_refl 0, fun _ hrest => .name h hrest⟩

/-- A property is put at the end of a chain, and takes one more level. -/
theorem property (h : PrintsChain e cs k) (hname : IsName name) :
    PrintsChain (.property e name) (cs ++ '.' :: name.toList) (k + 1) := by
  obtain ⟨base, suffixes, rfl, hneed, hcut⟩ := h
  refine ⟨base, suffixes.append (.property name .nil), by simp, ?_, ?_⟩
  · exact Nat.le_trans (suffixes.need_append_le _) (Nat.add_le_add_right hneed 1)
  · intro rest hrest
    have hbase := hcut ('.' :: (name.toList ++ rest)) (.cons (by decide))
    have hchain := (hbase.append .dot).append (.name hname hrest)
    simpa using hchain

/-- So is a position, whose own levels come on top of that. -/
theorem index (h : PrintsChain e cs k) (hp : Prints (.level .sum) p ps j) :
    PrintsChain (.index e p) (cs ++ '[' :: (ps ++ [']'])) (k + (1 + j)) := by
  obtain ⟨base, suffixes, rfl, hneed, hcut⟩ := h
  obtain ⟨d, rfl, hneed', hcut'⟩ := hp
  refine ⟨base, suffixes.append (.index d .nil), by simp, ?_, ?_⟩
  · refine Nat.le_trans (suffixes.need_append_le _) (Nat.add_le_add hneed ?_)
    simp only [Suffixes.need]
    omega
  · intro rest _
    have hbase := hcut ('[' :: (ps ++ ']' :: rest)) (.cons (by decide))
    have hposition := hcut' (']' :: rest) (.cons (by decide))
    have hchain := hbase.append (Cut.leftBracket.append (hposition.append .rightBracket))
    simpa using hchain

/-- A chain that does not go on is an atom. -/
theorem prints (h : PrintsChain e cs k) : Prints .atom e cs k := by
  obtain ⟨base, suffixes, rfl, hneed, hcut⟩ := h
  exact ⟨.access base suffixes, rfl, hneed, fun rest hrest => hcut rest hrest.name⟩

theorem mono (h : PrintsChain e cs j) (hle : j ≤ k) : PrintsChain e cs k := by
  obtain ⟨base, suffixes, htree, hneed, hcut⟩ := h
  exact ⟨base, suffixes, htree, Nat.le_trans hneed hle, hcut⟩

end PrintsChain

namespace Prints

variable {r r' : Rule} {l : BinaryOp.Level} {e a b : Expr} {cs as bs : List Char} {j k : Nat}
  {name : String} {n : Binary64}

theorem mono (h : Prints r e cs j) (hle : j ≤ k) : Prints r e cs k := by
  obtain ⟨d, htree, hneed, hcut⟩ := h
  exact ⟨d, htree, Nat.le_trans hneed hle, hcut⟩

/-- A double that is written without an exponent is read back by the lexer. -/
theorem number (h : n.IsPlain) : Prints .atom (.number n) n.expansion 0 := by
  obtain ⟨m, rfl⟩ := h
  exact ⟨.number (.finite false m), rfl, Nat.le_refl 0, fun _ hrest => .numeral m hrest.numeral⟩

/-- An operand may do without signs. -/
theorem unsigned (h : Prints .atom e cs k) : Prints .signed e cs k := by
  obtain ⟨d, htree, hneed, hcut⟩ := h
  exact ⟨.unsigned d, htree, hneed, hcut⟩

/-- An expression may do without the operators of a level. -/
theorem level (h : Prints l.operand e cs k) : Prints (.level l) e cs k := by
  obtain ⟨d, htree, hneed, hcut⟩ := h
  refine ⟨.level d .nil, htree, ?_, ?_⟩
  · simpa using hneed
  · intro rest hrest
    simpa using hcut rest hrest

/-- A text that stands for an expression by a rule does so by every looser rule. -/
theorem loosen {r r' : Rule} (h : Prints r e cs k) (hle : r.rank ≤ r'.rank) :
    Prints r' e cs k := by
  match r' with
  | .atom =>
    match r with
    | .atom => exact h
    | .signed => exact absurd hle (by decide)
    | .level l => cases l <;> exact absurd hle (by decide)
  | .signed =>
    match r with
    | .atom => exact h.unsigned
    | .signed => exact h
    | .level l => cases l <;> exact absurd hle (by decide)
  | .level l =>
    by_cases heq : r = .level l
    · exact heq ▸ h
    · exact (loosen h (Rule.rank_le_operand hle heq)).level
termination_by r'.rank
decreasing_by exact Rule.rank_operand_lt l

/-- Parentheses, brackets and commas may have any expression between them. -/
theorem atSum (h : Prints r e cs k) : Prints (.level .sum) e cs k := h.loosen r.rank_le

/-- An expression in parentheses is an atom. -/
theorem group (h : Prints r e cs k) : Prints .atom e ('(' :: (cs ++ [')'])) (1 + k) := by
  obtain ⟨d, rfl, hneed, hcut⟩ := h.atSum
  refine ⟨.group d, rfl, Nat.add_le_add_left hneed 1, ?_⟩
  intro rest _
  have hinside := hcut (')' :: rest) (.cons (by decide))
  have hgroup := Cut.leftParen.append (hinside.append .rightParen)
  simpa using hgroup

/-- An expression stands where a rule is asked for, in parentheses if its own rule is looser. -/
theorem enclose {needed : Bool} (h : Prints r e cs k)
    (hneeded : needed = false → r.rank ≤ r'.rank) :
    Prints r' e (Expr.enclose needed cs) (1 + k) := by
  cases needed with
  | false => exact (h.loosen (hneeded rfl)).mono (Nat.le_add_left k 1)
  | true => exact h.group.loosen (by cases r' with | level l => cases l <;> decide | _ => decide)

/-- Signs may be put in front of one another, and take a level each. -/
theorem sign (s : Sign) (h : Prints .signed e cs k) :
    Prints .signed (.signed s e) (s.symbol :: cs) (1 + k) := by
  obtain ⟨d, rfl, hneed, hcut⟩ := h
  have hsymbol : s.symbol = s.operator.symbol := by cases s <;> rfl
  refine ⟨.sign s d, rfl, Nat.add_le_add_left hneed 1, ?_⟩
  intro rest hrest
  rw [hsymbol]
  exact (Cut.operator s.operator).append (hcut rest hrest)

/-- An operator and its right operand are put at the end of a chain of the same level, so that the
left operand needs no parentheses there. -/
theorem binary {op : BinaryOp} (ha : Prints (.level op.level) a as j)
    (hb : Prints op.level.operand b bs k) :
    Prints (.level op.level) (.binary op a b) (as ++ op.symbol :: bs) (j + (1 + k)) := by
  obtain ⟨d, rfl, hneed, hcut⟩ := ha
  obtain ⟨d', rfl, hneed', hcut'⟩ := hb
  match d with
  | .level first more =>
    have hmore := more.need_append_le (.cons op rfl d' .nil)
    refine ⟨.level first (more.append (.cons op rfl d' .nil)), by simp, ?_, ?_⟩
    · simp only [Derivation.need, Links.need] at hneed hmore ⊢
      omega
    · intro rest hrest
      have hleft := hcut (op.symbol :: (bs ++ rest)) (.symbol op _)
      have hchain := (hleft.append (.operator op)).append (hcut' rest hrest)
      simpa using hchain

/-- A call without arguments. -/
theorem bareCall (h : IsName name) :
    Prints .atom (.call name []) (name.toList ++ ['(', ')']) 1 := by
  refine ⟨.bareCall name, rfl, Nat.le_refl 1, ?_⟩
  intro rest _
  have hname : Cut (name.toList ++ '(' :: ')' :: rest) [.identifier name] ('(' :: ')' :: rest) :=
    .name h (.cons (by decide))
  have hcall := hname.append (Cut.leftParen.append .rightParen)
  simpa using hcall

/-- A call takes one level more than its arguments. -/
theorem call {es : List Expr} (h : IsName name) (hargs : PrintsArguments es cs k) :
    Prints .atom (.call name es) (name.toList ++ '(' :: (cs ++ [')'])) (1 + k) := by
  obtain ⟨args, rfl, hneed, hcut⟩ := hargs
  refine ⟨.call name args, rfl, Nat.add_le_add_left hneed 1, ?_⟩
  intro rest _
  have hname : Cut (name.toList ++ '(' :: (cs ++ ')' :: rest)) [.identifier name]
      ('(' :: (cs ++ ')' :: rest)) := .name h (.cons (by decide))
  have hinside := hcut (')' :: rest) (.cons (by decide))
  have hcall := hname.append (Cut.leftParen.append (hinside.append .rightParen))
  simpa using hcall

/-- An expression is a list of one argument. -/
theorem lastArgument (h : Prints (.level .sum) e cs k) : PrintsArguments [e] cs k := by
  obtain ⟨d, rfl, hneed, hcut⟩ := h
  exact ⟨.last d, rfl, hneed, hcut⟩

/-- A comma stands between two arguments. -/
theorem moreArguments {es : List Expr} (h : Prints (.level .sum) e cs k)
    (hargs : PrintsArguments es as j) :
    PrintsArguments (e :: es) (cs ++ ',' :: as) (k + j) := by
  obtain ⟨d, rfl, hneed, hcut⟩ := h
  obtain ⟨args, rfl, hneed', hcut'⟩ := hargs
  refine ⟨.more d args, rfl, ?_, ?_⟩
  · simp only [Arguments.need]
    omega
  · intro rest hrest
    have harg := hcut (',' :: (as ++ rest)) (.cons (by decide))
    have hmore := harg.append (Cut.comma.append (hcut' rest hrest))
    simpa using hmore

/-- A text that stands for an expression is parsed as the expression, or it is too deep. -/
theorem parse_cases (h : Prints r e cs k) :
    (Expr.parse (String.ofList cs) = .ok e ∨ Expr.parse (String.ofList cs) = .error .tooDeep) ∧
      (k ≤ depthLimit → Expr.parse (String.ofList cs) = .ok e) := by
  obtain ⟨d, htree, hneed, hcut⟩ := h.atSum
  have hcut' := hcut [] .nil
  rw [List.append_nil] at hcut'
  have htokens : tokenize (String.ofList cs) = .ok (d.tokens ++ [.endOfInput]) :=
    tokenize_of_cut hcut'
  have hok : d.need ≤ depthLimit → Expr.parse (String.ofList cs) = .ok e :=
    fun hfits => Expr.parse_eq_ok_iff.2 ⟨d, htokens, htree, hfits⟩
  constructor
  · rcases Nat.lt_or_ge depthLimit d.need with hdeep | hfits
    · exact .inr (Expr.parse_eq_tooDeep htokens hdeep)
    · exact .inl (hok hfits)
  · exact fun hk => hok (Nat.le_trans hneed hk)

end Prints

/-! ## Printed expressions -/

namespace Expr

/-- The rule that an expression belongs to without parentheses. -/
def rule : Expr → Rule
  | .binary op _ _ => .level op.level
  | .signed .. => .signed
  | _ => .atom

/-- What needs no parentheses behind a sign is no looser than a signed operand. -/
theorem rank_le_of_needsSigned {e : Expr} (h : e.needsSigned = false) :
    e.rule.rank ≤ Rule.signed.rank := by
  cases e with
  | binary inner left right => exact nomatch h
  | signed sign operand => exact Nat.le_refl _
  | number | var | call | index | property => exact Nat.le_succ 1

/-- What needs none on the right of an operator is no looser than the operands of its level. -/
theorem rank_le_of_needsRight {op : BinaryOp} {e : Expr} (h : e.needsRight op = false) :
    e.rule.rank ≤ op.level.operand.rank := by
  by_cases hsigned : e.needsSigned = false
  · exact Nat.le_trans (rank_le_of_needsSigned hsigned) (by cases op <;> decide)
  · cases e with
    | binary inner left right =>
      rw [needsRight, decide_eq_false_iff_not] at h
      show (Rule.level inner.level).rank ≤ op.level.operand.rank
      cases op <;> cases inner <;> first | decide | exact absurd (by decide) h
    | _ => exact absurd rfl hsigned

/-- What needs none on the left of an operator is no looser than its level. -/
theorem rank_le_of_needsLeft {op : BinaryOp} {e : Expr} (h : e.needsLeft op = false) :
    e.rule.rank ≤ (Rule.level op.level).rank := by
  by_cases hsigned : e.needsSigned = false
  · exact Nat.le_trans (rank_le_of_needsSigned hsigned) (by cases op <;> decide)
  · cases e with
    | binary inner left right =>
      rw [needsLeft, decide_eq_false_iff_not] at h
      show (Rule.level inner.level).rank ≤ (Rule.level op.level).rank
      cases op <;> cases inner <;> first | decide | exact absurd (by decide) h
    | _ => exact absurd rfl hsigned

theorem nodes_pos (e : Expr) : 0 < e.nodes := by
  cases e <;> simp only [nodes] <;> omega

/-- A position in a chain, in terms of nodes. -/
theorem printsIndex {collection position : Expr}
    (hcollection : PrintsChain collection collection.chars (2 * collection.nodes - 1))
    (hposition : Prints position.rule position position.chars (2 * position.nodes - 1)) :
    PrintsChain (.index collection position) (chars (.index collection position))
      (2 * nodes (.index collection position) - 1) := by
  have hpos := collection.nodes_pos
  have hpos' := position.nodes_pos
  refine (hcollection.index (hposition.loosen position.rule.rank_le)).mono ?_
  rw [nodes]
  omega

/-- A property of a chain, in terms of nodes. -/
theorem printsProperty {object : Expr} {name : String}
    (hobject : PrintsChain object object.chars (2 * object.nodes - 1)) (hname : IsName name) :
    PrintsChain (.property object name) (chars (.property object name))
      (2 * nodes (.property object name) - 1) := by
  have hpos := object.nodes_pos
  refine (hobject.property hname).mono ?_
  rw [nodes]
  omega

mutual

/-- The text of an expression stands for it, at a depth of less than two levels for each node. -/
theorem prints : ∀ {e : Expr}, e.Proper Binary64.IsPlain →
    Prints e.rule e e.chars (2 * e.nodes - 1)
  | .number n, h => (Prints.number h).mono (Nat.zero_le _)
  | .var name, h => (PrintsChain.var h).prints.mono (Nat.zero_le _)
  | .binary op left right, ⟨hleft, hright⟩ => by
    have hleft' : Prints (.level op.level) left _ _ :=
      (prints hleft).enclose rank_le_of_needsLeft
    have hbinary := hleft'.binary ((prints hright).enclose rank_le_of_needsRight)
    have hpos := left.nodes_pos
    have hpos' := right.nodes_pos
    refine hbinary.mono ?_
    rw [nodes]
    omega
  | .signed sign operand, h => by
    have hsigned := ((prints (e := operand) h).enclose rank_le_of_needsSigned).sign sign
    have hpos := operand.nodes_pos
    refine hsigned.mono ?_
    rw [nodes]
    omega
  | .call name [], ⟨hname, _⟩ => Prints.bareCall hname
  | .call name (arg :: args), ⟨hname, hargs⟩ => by
    have hpos := arg.nodes_pos
    refine (Prints.call hname (printsArguments hargs)).mono ?_
    rw [nodes, allNodes]
    omega
  | .index collection position, ⟨hchain, hcollection, hposition⟩ =>
    (printsIndex (printsChain hchain hcollection) (prints hposition)).prints
  | .property object name, ⟨hchain, hobject, hname⟩ =>
    (printsProperty (printsChain hchain hobject) hname).prints
termination_by e => sizeOf e

/-- The text of a chain stands for it, and the chain may go on. -/
theorem printsChain : ∀ {e : Expr}, e.IsChain → e.Proper Binary64.IsPlain →
    PrintsChain e e.chars (2 * e.nodes - 1)
  | .var name, _, h => (PrintsChain.var h).mono (Nat.zero_le _)
  | .index collection position, _, ⟨hchain, hcollection, hposition⟩ =>
    printsIndex (printsChain hchain hcollection) (prints hposition)
  | .property object name, _, ⟨hchain, hobject, hname⟩ =>
    printsProperty (printsChain hchain hobject) hname
  | .number _, hchain, _ => nomatch hchain
  | .binary .., hchain, _ => nomatch hchain
  | .signed .., hchain, _ => nomatch hchain
  | .call .., hchain, _ => nomatch hchain
termination_by e => sizeOf e

/-- The text of arguments stands for them. -/
theorem printsArguments : ∀ {e : Expr} {es : List Expr}, AllProper Binary64.IsPlain (e :: es) →
    PrintsArguments (e :: es) (argumentChars (e :: es)) (2 * allNodes (e :: es) - 1)
  | e, [], ⟨h, _⟩ => (prints h).atSum.lastArgument
  | e, e' :: es, ⟨h, hmore⟩ => by
    have hpos := e.nodes_pos
    have hpos' := e'.nodes_pos
    have hargs := (prints h).atSum.moreArguments
      (printsArguments hmore)
    obtain ⟨args, htrees, hneed, hcut⟩ := hargs
    refine ⟨args, htrees, Nat.le_trans hneed ?_, hcut⟩
    simp only [allNodes]
    omega
termination_by e es => sizeOf (e :: es)

end

/-- The text of an expression is parsed as the expression, or it is too deep, which an expression of
at most half as many nodes as there are levels is not. -/
theorem parse_text {e : Expr} (h : e.Proper Binary64.IsPlain) :
    (parse e.text = .ok e ∨ parse e.text = .error .tooDeep) ∧
      (e.nodes ≤ 128 → parse e.text = .ok e) := by
  obtain ⟨hparse, hfits⟩ := (prints h).parse_cases
  refine ⟨hparse, fun hnodes => hfits ?_⟩
  rw [depthLimit]
  omega

end Expr
end TextTemplate
