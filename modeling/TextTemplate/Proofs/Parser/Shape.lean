import TextTemplate.Proofs.Decimal.Rounded
import TextTemplate.Proofs.Parser.Printed
/-!
# The shape of parsed expressions

- `Token.Proper`: the names and numbers that the lexer can give.
- `Token.proper_of_tokenize`: all tokens of a text are of this kind.
- `Derivation.proper_tree`: a derivation from such tokens has a proper tree.
- `Expr.proper_of_parse`: every parsed expression is proper.
- `printed_exact`: what is parsed is what can be printed, and it is parsed from what is printed.
-/

namespace TextTemplate

/-! ## The tokens of a text -/

/-- A name is a name, and a number is one that a numeral can have. -/
def Token.Proper : Token → Prop
  | .number n => n.IsNumeralValue
  | .identifier name => IsName name
  | _ => True

/-- Numerals have no sign. -/
theorem isNumeralValue_toBinary64 (d : Decimal) : (d.toBinary64 false).IsNumeralValue := by
  rw [Decimal.toBinary64_eq_round]
  exact Binary64.nearest_unsigned ..

namespace Token

theorem proper_of_ofLexeme? {c : Char} {cs : List Char} {t : Token}
    (h : ofLexeme? c (lexemeTail c cs) = some t) : t.Proper := by
  unfold ofLexeme? at h
  split at h
  · obtain rfl := Option.some.inj h
    exact isNumeralValue_toBinary64 _
  · next hdigit =>
    split at h
    · next hstart =>
      obtain rfl := Option.some.inj h
      refine ⟨c, lexemeTail c cs, String.toList_ofList, hstart, ?_⟩
      intro d hd
      rw [lexemeTail, if_neg hdigit, if_pos hstart] at hd
      exact List.mem_takeWhile_imp hd
    · split at h
      · obtain rfl := Option.some.inj h
        trivial
      · unfold ofPunctuation? at h
        split at h
        case h_7 => cases h
        all_goals
          obtain rfl := Option.some.inj h
          trivial

theorem proper_of_next {l : Lexer} {t : Token} (h : l.next.1 = .ok t) : t.Proper := by
  cases hrest : l.skipSpaces.rest with
  | nil =>
    rw [Lexer.next_of_nil hrest] at h
    cases h
    trivial
  | cons c cs =>
    cases htoken : ofLexeme? c (lexemeTail c cs) with
    | none =>
      rw [Lexer.next_of_unexpected hrest htoken] at h
      cases h
    | some token =>
      rw [Lexer.next_of_token hrest htoken] at h
      cases h
      exact proper_of_ofLexeme? htoken

/-- All tokens that a lexer gives are proper. -/
theorem proper_of_tokens {l : Lexer} {ts : List Token} (h : l.tokens = .ok ts) :
    ∀ t ∈ ts, t.Proper := by
  fun_induction Lexer.tokens l generalizing ts with
  | case1 => cases h
  | case2 =>
    cases h
    intro t ht
    obtain rfl := List.mem_singleton.1 ht
    trivial
  | case3 => cases h
  | case4 l token hnext hne more htokens ih =>
    cases h
    intro t ht
    rcases List.mem_cons.1 ht with rfl | hmore
    · exact proper_of_next hnext
    · exact ih htokens t hmore

end Token

/-! ## Trees from proper tokens -/

mutual

/-- A derivation from proper tokens has a proper tree. -/
theorem Derivation.proper_tree : ∀ {r : Rule} (d : Derivation r),
    (∀ t ∈ d.tokens, t.Proper) → d.tree.Proper Binary64.IsNumeralValue
  | _, .level first more, h =>
    more.proper_tree (fun t ht => h t (List.mem_append_right _ ht))
      (first.proper_tree fun t ht => h t (List.mem_append_left _ ht))
  | _, .sign _ operand, h => operand.proper_tree fun t ht => h t (List.mem_cons_of_mem _ ht)
  | _, .unsigned operand, h => operand.proper_tree h
  | _, .number n, h => h (.number n) List.mem_cons_self
  | _, .group inside, h =>
    inside.proper_tree fun t ht => h t (List.mem_cons_of_mem _ (List.mem_append_left _ ht))
  | _, .bareCall name, h => ⟨h (.identifier name) List.mem_cons_self, trivial⟩
  | _, .call name args, h =>
    ⟨h (.identifier name) List.mem_cons_self, args.proper_trees fun t ht =>
      h t (List.mem_cons_of_mem _ (List.mem_cons_of_mem _ (List.mem_append_left _ ht)))⟩
  | _, .access name suffixes, h =>
    suffixes.proper_tree (fun t ht => h t (List.mem_cons_of_mem _ ht)) trivial
      (h (.identifier name) List.mem_cons_self)

/-- Operators and operands behind a proper tree make up a proper tree. -/
theorem Links.proper_tree : ∀ {l : BinaryOp.Level} (links : Links l) {left : Expr},
    (∀ t ∈ links.tokens, t.Proper) → left.Proper Binary64.IsNumeralValue →
    (links.tree left).Proper Binary64.IsNumeralValue
  | _, .nil, _, _, hleft => hleft
  | _, .cons op _ right more, _, h, hleft => by
    have htail : ∀ t ∈ right.tokens ++ more.tokens, t.Proper :=
      fun t ht => h t (List.mem_cons_of_mem _ ht)
    exact more.proper_tree (fun t ht => htail t (List.mem_append_right _ ht))
      ⟨hleft, right.proper_tree fun t ht => htail t (List.mem_append_left _ ht)⟩

/-- Arguments from proper tokens are proper. -/
theorem Arguments.proper_trees : ∀ args : Arguments,
    (∀ t ∈ args.tokens, t.Proper) → Expr.AllProper Binary64.IsNumeralValue args.trees
  | .last arg, h => ⟨arg.proper_tree h, trivial⟩
  | .more arg args, h =>
    ⟨arg.proper_tree fun t ht => h t (List.mem_append_left _ ht),
      args.proper_trees fun t ht => h t (List.mem_append_right _ (List.mem_cons_of_mem _ ht))⟩

/-- Properties and positions of a proper chain make up a proper tree. -/
theorem Suffixes.proper_tree : ∀ (suffixes : Suffixes) {base : Expr},
    (∀ t ∈ suffixes.tokens, t.Proper) → base.IsChain → base.Proper Binary64.IsNumeralValue →
    (suffixes.tree base).Proper Binary64.IsNumeralValue
  | .nil, _, _, _, hbase => hbase
  | .property name more, _, h, hchain, hbase => by
    have htail : ∀ t ∈ .identifier name :: more.tokens, t.Proper :=
      fun t ht => h t (List.mem_cons_of_mem _ ht)
    exact more.proper_tree (fun t ht => htail t (List.mem_cons_of_mem _ ht)) trivial
      ⟨hchain, hbase, htail (.identifier name) List.mem_cons_self⟩
  | .index position more, _, h, hchain, hbase => by
    have htail : ∀ t ∈ position.tokens ++ .rightBracket :: more.tokens, t.Proper :=
      fun t ht => h t (List.mem_cons_of_mem _ ht)
    exact more.proper_tree
      (fun t ht => htail t (List.mem_append_right _ (List.mem_cons_of_mem _ ht))) trivial
      ⟨hchain, hbase, position.proper_tree fun t ht => htail t (List.mem_append_left _ ht)⟩

end

/-- Every parsed expression is proper. -/
theorem Expr.proper_of_parse {text : String} {e : Expr} (h : Expr.parse text = .ok e) :
    e.Proper Binary64.IsNumeralValue := by
  obtain ⟨d, htokens, rfl, -⟩ := Expr.parse_eq_ok_iff.1 h
  exact d.proper_tree fun t ht => Token.proper_of_tokens htokens t (List.mem_append_left _ ht)

/-- A proper expression is parsed from its own text, unless it is too deep, which an expression of
at most 128 nodes is not; and every parsed expression is proper, where numbers may have
overflowed. -/
theorem printed_exact :
    (∀ e : Expr, e.Proper Binary64.IsPlain →
      (Expr.parse e.text = .ok e ∨ Expr.parse e.text = .error .tooDeep) ∧
        (e.nodes ≤ 128 → Expr.parse e.text = .ok e)) ∧
    ∀ (text : String) (e : Expr), Expr.parse text = .ok e →
      e.Proper Binary64.IsNumeralValue :=
  ⟨fun _ h => Expr.parse_text h, fun _ _ h => Expr.proper_of_parse h⟩

/-- Parentheses behind a sign, on the right of an operator of the same level, and nowhere else. -/
theorem printed_exact_parentheses :
    let e : Expr := .binary .subtract
      (.signed .minus (.binary .add (.var "a") (.number .zero)))
      (.binary .subtract (.binary .multiply (.var "b") (.var "c")) (.property (.var "d") "e"))
    e.Proper Binary64.IsPlain ∧ e.text = "-(a+0)-(b*c-d.e)" ∧
      Expr.parse "-(a+0)-(b*c-d.e)" = .ok e := by
  intro e
  have hname : ∀ s : String, s ∈ ["a", "b", "c", "d", "e"] → IsName s := by
    intro s hs
    simp only [List.mem_cons, List.not_mem_nil, or_false] at hs
    rcases hs with rfl | rfl | rfl | rfl | rfl <;> exact ⟨_, [], rfl, by decide, by simp⟩
  have hproper : e.Proper Binary64.IsPlain :=
    ⟨⟨hname "a" (by simp), .zero, rfl⟩, ⟨hname "b" (by simp), hname "c" (by simp)⟩, trivial,
      hname "d" (by simp), hname "e" (by simp)⟩
  have htext : e.text = "-(a+0)-(b*c-d.e)" := by decide +kernel
  exact ⟨hproper, htext, htext ▸ (printed_exact.1 e hproper).2 (by decide)⟩

end TextTemplate
