import TextTemplate.Proofs.Expr.FirstError
/-!
# Chains of plus signs

A plus sign adds two numbers and joins two values of which one is a text. A chain of plus signs
therefore adds as long as it has only met numbers, and from its first text on it joins. Which values
may stand before that text depends on how many they are: a single one can be of any kind.

- `Expr.plusChain`: the chain `e₀ + e₁ + ... + eₙ`, nested to the left.
- `Value.plusAll`, `Expr.eval_plusChain`: a chain takes one value after the other.
- `BinaryOp.apply_add_text`, `BinaryOp.apply_add_numbers`, `BinaryOp.apply_add_left`,
  `BinaryOp.apply_add_right`: one step of it.
- `Value.plusAll_text`, `Value.plusAll_numbers`, `Value.plusAll_refused`: the whole run, once it has
  become a text, while it is a number, and where it meets what is neither.
- `plusChain_exact`: the value or error of every chain whose operands have values.
-/

namespace TextTemplate

/-- The sum of numbers from left to right, rounded at each step. -/
def Binary64.sum (first : Binary64) (more : List Binary64) : Binary64 := more.foldl .add first

/-- The texts of values, one behind the other. -/
def Value.joined (vs : List Value) : String := String.join (vs.map display)

/-- The chain `first + e₁ + ... + eₙ`, nested to the left. -/
def Expr.plusChain (first : Expr) (more : List Expr) : Expr := more.foldl (.binary .add) first

/-! ## One step -/

section Step

variable {v w : Value}

theorem BinaryOp.apply_add_text (h : v.kind = .string ∨ w.kind = .string) :
    BinaryOp.add.apply v w = .ok (.string (v.display ++ w.display)) :=
  if_pos ⟨rfl, h⟩

theorem BinaryOp.apply_add_numbers (a b : Binary64) :
    BinaryOp.add.apply (.number a) (.number b) = .ok (.number (a.add b)) := rfl

/-- Next to a value that is no text, both operands have to be numbers. -/
theorem BinaryOp.apply_add_left (hv : v.kind ≠ .string) (hw : w.kind ≠ .string)
    (h : v.kind ≠ .number) :
    BinaryOp.add.apply v w = .error (.notANumber (.leftOperand .add) v.kind) := by
  rw [apply, if_neg (fun hjoin => hjoin.2.elim hv hw), Role.number_eq_error h]

theorem BinaryOp.apply_add_right (a : Binary64) (hw : w.kind ≠ .string) (h : w.kind ≠ .number) :
    BinaryOp.add.apply (.number a) w = .error (.notANumber (.rightOperand .add) w.kind) := by
  rw [apply, if_neg (fun hjoin => hjoin.2.elim nofun hw), Role.number_eq_error h]
  rfl

end Step

/-! ## The whole run -/

namespace Value

/-- The result of plus signs between values, from left to right. -/
def plusAll (first : Value) (more : List Value) : Except EvalError Value :=
  more.foldlM BinaryOp.add.apply first

theorem plusAll_cons (first w : Value) (more : List Value) :
    plusAll first (w :: more) = (BinaryOp.add.apply first w).bind (plusAll · more) := rfl

theorem plusAll_append (first : Value) (vs ws : List Value) :
    plusAll first (vs ++ ws) = (plusAll first vs).bind (plusAll · ws) := List.foldlM_append

theorem joined_cons (v : Value) (vs : List Value) : joined (v :: vs) = v.display ++ joined vs :=
  String.join_cons

/-- A text takes every value, of whatever kind, by its text. -/
theorem plusAll_string (s : String) (vs : List Value) :
    plusAll (.string s) vs = .ok (.string (s ++ joined vs)) := by
  induction vs generalizing s with
  | nil =>
    rw [joined, List.map_nil, String.join_nil, String.append_empty]
    rfl
  | cons w vs ih =>
    rw [plusAll_cons, BinaryOp.apply_add_text (.inl rfl), Except.bind, ih, joined_cons,
      ← String.append_assoc]
    rfl

/-- Any value in front of a text becomes a text. -/
theorem plusAll_text (v : Value) (s : String) (after : List Value) :
    plusAll v (.string s :: after) = .ok (.string (v.display ++ joined (.string s :: after))) := by
  rw [plusAll_cons, BinaryOp.apply_add_text (.inr rfl), Except.bind, plusAll_string, joined_cons,
    String.append_assoc]

/-- Numbers make a number. -/
theorem plusAll_numbers (n : Binary64) (ns : List Binary64) :
    plusAll (.number n) (ns.map .number) = .ok (.number (Binary64.sum n ns)) := by
  induction ns generalizing n with
  | nil => rfl
  | cons m ns ih =>
    rw [List.map_cons, plusAll_cons, BinaryOp.apply_add_numbers, Except.bind, ih]
    rfl

/-- The error of plus signs between values that are no texts: the first of them that is no number
stands to the left of the first sign or to the right of a later one. -/
def PlusRefusal (vs : List Value) (x : EvalError) : Prop :=
  ∃ (numbers : List Binary64) (w : Value) (after : List Value),
    vs = numbers.map number ++ w :: after ∧ w.kind ≠ .number ∧
      x = .notANumber (if numbers.isEmpty then .leftOperand .add else .rightOperand .add) w.kind

theorem exists_plusRefusal {vs : List Value} (h : ∃ w ∈ vs, w.kind ≠ .number) :
    ∃ x, PlusRefusal vs x := by
  induction vs with
  | nil => simp at h
  | cons v vs ih =>
    cases v with
    | number n =>
      obtain ⟨w, hw, hkind⟩ := h
      have hmem : w ∈ vs := (List.mem_cons.1 hw).resolve_left (by rintro rfl; exact hkind rfl)
      obtain ⟨_, numbers, u, after, rfl, hu, -⟩ := ih ⟨w, hmem, hkind⟩
      exact ⟨_, n :: numbers, u, after, rfl, hu, rfl⟩
    | null | boolean | string | array | object => exact ⟨_, [], _, vs, rfl, nofun, rfl⟩

theorem PlusRefusal.plusAll_eq {first : Value} {more : List Value} {x : EvalError}
    (h : PlusRefusal (first :: more) x) (hkind : ∀ v ∈ first :: more, v.kind ≠ .string)
    (hmore : more ≠ []) : plusAll first more = .error x := by
  obtain ⟨numbers, w, after, heq, hw, rfl⟩ := h
  cases numbers with
  | nil =>
    cases heq
    obtain ⟨u, rest, rfl⟩ := List.exists_cons_of_ne_nil hmore
    rw [plusAll_cons, BinaryOp.apply_add_left (hkind _ (by simp)) (hkind _ (by simp)) hw]
    rfl
  | cons n ns =>
    rw [List.map_cons, List.cons_append, List.cons.injEq] at heq
    obtain ⟨rfl, rfl⟩ := heq
    rw [plusAll_append, plusAll_numbers, Except.bind, plusAll_cons,
      BinaryOp.apply_add_right _ (hkind _ (by simp)) hw]
    rfl

end Value

namespace Expr

variable {context : Value} {e : Expr} {es : List Expr} {v : Value} {vs : List Value}

/-- A chain takes the values of its operands one after the other. -/
theorem eval_plusChain (h : Values context (e :: es) (v :: vs)) :
    (plusChain e es).eval context = v.plusAll vs := by
  obtain _ | ⟨hfirst, hmore⟩ := h
  -- the values so far are those of the chain so far
  suffices hrun : ∀ result, e.eval context = result →
      (plusChain e es).eval context = result.bind (Value.plusAll · vs) from hrun _ hfirst
  clear hfirst
  induction hmore generalizing e with
  | nil =>
    rintro result rfl
    show e.eval context = _
    cases e.eval context <;> rfl
  | @cons e' w es vs hvalue _ ih =>
    rintro result rfl
    refine (ih _ rfl).trans ?_
    rw [eval_binary, hvalue]
    cases e.eval context <;> rfl

end Expr

/-- A chain of plus signs whose operands have values. All from the first text on is joined; what
stands before it is added if it is numbers, taken as it is if it is a single value, and refused
otherwise. Without a text the chain is the sum of numbers, or refused. -/
theorem plusChain_exact {context : Value} {e : Expr} {es : List Expr} {v : Value}
    {vs : List Value} (h : Expr.Values context (e :: es) (v :: vs)) :
    (∀ before s after, v :: vs = before ++ .string s :: after →
      (∀ w ∈ before, w.kind ≠ .string) →
        (before = [] → (Expr.plusChain e es).eval context =
          .ok (.string (Value.joined (.string s :: after)))) ∧
        (∀ w, before = [w] → (Expr.plusChain e es).eval context =
          .ok (.string (w.display ++ Value.joined (.string s :: after)))) ∧
        (∀ n ns, before = (n :: ns).map .number → (Expr.plusChain e es).eval context =
          .ok (.string ((Value.number (Binary64.sum n ns)).display ++
            Value.joined (.string s :: after)))) ∧
        (2 ≤ before.length → (∃ w ∈ before, w.kind ≠ .number) →
          ∃ x, Value.PlusRefusal before x ∧ (Expr.plusChain e es).eval context = .error x)) ∧
    ((∀ w ∈ v :: vs, w.kind ≠ .string) →
      (∀ n ns, v :: vs = (n :: ns).map .number →
        (Expr.plusChain e es).eval context = .ok (.number (Binary64.sum n ns))) ∧
      (vs ≠ [] → (∃ w ∈ v :: vs, w.kind ≠ .number) →
        ∃ x, Value.PlusRefusal (v :: vs) x ∧
          (Expr.plusChain e es).eval context = .error x)) := by
  rw [Expr.eval_plusChain h]
  refine ⟨fun before s after heq hbefore => ⟨?_, ?_, ?_, ?_⟩, fun hkind => ⟨?_, ?_⟩⟩
  · rintro rfl
    cases heq
    rw [Value.plusAll_string, Value.joined_cons]
    rfl
  · rintro w rfl
    cases heq
    exact Value.plusAll_text ..
  · rintro n ns rfl
    rw [List.map_cons, List.cons_append, List.cons.injEq] at heq
    obtain ⟨rfl, rfl⟩ := heq
    rw [Value.plusAll_append, Value.plusAll_numbers, Except.bind, Value.plusAll_text]
  · intro hlength hother
    obtain ⟨x, hx⟩ := Value.exists_plusRefusal hother
    obtain _ | ⟨first, more⟩ := before
    · cases hlength
    · rw [List.cons_append, List.cons.injEq] at heq
      obtain ⟨rfl, rfl⟩ := heq
      have hmore : more ≠ [] := by
        rintro rfl
        simp at hlength
      rw [Value.plusAll_append, hx.plusAll_eq hbefore hmore]
      exact ⟨x, hx, rfl⟩
  · intro n ns heq
    cases heq
    exact Value.plusAll_numbers ..
  · intro hvs hother
    obtain ⟨x, hx⟩ := Value.exists_plusRefusal hother
    exact ⟨x, hx, hx.plusAll_eq hkind hvs⟩

/-- Two numbers in front of a text are added, and null behind it is joined. Null is refused where it
stands in front of the text with a number between them. -/
theorem plusChain_exact_number_text_null :
    let context := Value.object [("s", .string "x"), ("n", .null)]
    let one := Binary64.ofNat 1
    let two := Binary64.ofNat 2
    Expr.Values context [.number one, .number two, .var "s", .var "n"]
        [.number one, .number two, .string "x", .null] ∧
      (Expr.plusChain (.number one) [.number two, .var "s", .var "n"]).eval context =
        .ok (.string "3xnull") ∧
      Expr.Values context [.var "n", .number one, .var "s"] [.null, .number one, .string "x"] ∧
      (Expr.plusChain (.var "n") [.number one, .var "s"]).eval context =
        .error (.notANumber (.leftOperand .add) .null) := by
  intro context one two
  have hjoined : Expr.Values context [.number one, .number two, .var "s", .var "n"]
      [.number one, .number two, .string "x", .null] :=
    .cons rfl (.cons rfl (.cons rfl (.cons rfl .nil)))
  have hrefused : Expr.Values context [.var "n", .number one, .var "s"]
      [.null, .number one, .string "x"] := .cons rfl (.cons rfl (.cons rfl .nil))
  refine ⟨hjoined, ?_, hrefused, ?_⟩
  · have htext := ((plusChain_exact hjoined).1 [.number one, .number two] "x" [.null] rfl
      (by simp [Value.kind])).2.2.1 one [two] rfl
    have hsum : (Value.number (Binary64.sum one [two])).display = "3" := by decide +kernel
    rw [htext, hsum]
    rfl
  · obtain ⟨x, ⟨numbers, w, after, hvalues, hw, rfl⟩, herror⟩ :=
      ((plusChain_exact hrefused).1 [.null, .number one] "x" [] rfl (by simp [Value.kind])).2.2.2
        (Nat.le_refl 2) ⟨.null, by simp, nofun⟩
    rw [herror]
    cases numbers with
    | nil =>
      cases hvalues
      rfl
    | cons n ns => cases hvalues

end TextTemplate
