import TextTemplate.Evaluation
/-!
# Evaluation, part by part

An expression is evaluated by evaluating its parts from left to right and handing their values on.
The equations below say so with `Except.bind`, which stops at the first error.

- `Value.item_array`, `Value.item_eq_error`, `Value.property_eq`: the items and properties of values.
- `Expr.eval_var`, `Expr.eval_binary`, `Expr.eval_signed`, `Expr.eval_call`, `Expr.eval_index`,
  `Expr.eval_property`, `Expr.evalAll_cons`: one for each kind of expression.
- `BinaryOp.apply_eq_ok`, `Sign.apply_eq_ok`, `callBuiltin_eq_ok`, `Value.item_eq_ok`,
  `Value.property?_eq_some`: the values that operations can give.
- `evaluate_eq`: the value of a text.
-/

namespace TextTemplate

/-- What a result goes on with was there before it. -/
theorem exists_of_bind_eq_ok {ε α β : Type} {x : Except ε α} {f : α → Except ε β} {b : β}
    (h : x.bind f = .ok b) : ∃ a, x = .ok a ∧ f a = .ok b := by
  cases x with
  | error e => cases h
  | ok a => exact ⟨a, rfl, h⟩

/-- The same where what follows cannot fail. -/
theorem exists_of_map_eq_ok {ε α β : Type} {x : Except ε α} {f : α → β} {b : β}
    (h : x.map f = .ok b) : ∃ a, x = .ok a ∧ f a = b := by
  cases x with
  | error e => cases h
  | ok a => exact ⟨a, rfl, Except.ok.inj h⟩

namespace Value

/-- The item of an array, in terms of the double of the position. -/
theorem item_array (items : List Value) (position : Value) :
    (Value.array items).item position = match position.number? with
      | none => .error (.invalidIndex position.summary)
      | some n =>
        if n.isInteger then
          if n.lt .zero || (Binary64.ofNat items.length).le n then
            .error (.indexOutOfBounds n items.length)
          else items[n.toNat]?.elim (.error (.indexOutOfBounds n items.length)) .ok
        else .error (.invalidIndex position.summary) := by
  cases position with
  | number n =>
    simp only [item, number?]
    cases items[n.toNat]? <;> rfl
  | null | boolean | string | array | object => rfl

variable {v : Value}

theorem eq_array_of_kind (h : v.kind = .array) : ∃ items, v = .array items := by
  cases v with
  | array items => exact ⟨items, rfl⟩
  | null | boolean | number | string | object => cases h

/-- No other value has items. -/
theorem item_eq_error (h : v.kind ≠ .array) (position : Value) :
    v.item position = .error (.notIndexable v.kind) := by
  cases v with
  | array items => exact absurd rfl h
  | null | boolean | number | string | object => rfl

/-- An item is one of an array. -/
theorem item_eq_ok {position w : Value} (h : v.item position = .ok w) :
    ∃ (items : List Value) (i : Nat), v = .array items ∧ items[i]? = some w := by
  by_cases harray : v.kind = .array
  · obtain ⟨items, rfl⟩ := eq_array_of_kind harray
    unfold item at h
    dsimp only at h
    split at h
    · next n =>
      split at h
      · split at h
        · cases h
        · cases hitem : items[n.toNat]? with
          | none => rw [hitem] at h; cases h
          | some found => rw [hitem] at h; cases h; exact ⟨items, n.toNat, rfl, hitem⟩
      · cases h
    · cases h
  · rw [item_eq_error harray] at h
    cases h

/-- A property is the entry of an object, or a length. -/
theorem property?_eq_some {name : String} {w : Value} (h : v.property? name = some w) :
    (∃ entries, v = .object entries ∧ entries.lookup name = some w) ∨
      v.kind ≠ .object ∧ ∃ n, w = .number n := by
  cases v with
  | object entries => exact .inl ⟨entries, rfl, h⟩
  | array items =>
    dsimp only [property?] at h
    split at h <;> cases h
    exact .inr ⟨nofun, _, rfl⟩
  | string s =>
    dsimp only [property?] at h
    split at h <;> cases h
    exact .inr ⟨nofun, _, rfl⟩
  | null | boolean | number => cases h

/-- A property that a value does not have is missing. -/
theorem property_eq (name : String) (v : Value) :
    v.property name = (v.property? name).elim (.error (.missingProperty name v.summary)) .ok := by
  rw [property]
  cases v.property? name <;> rfl

end Value

/-! ## The values of operations -/

/-- An operator gives a number, or it is a plus sign next to a text. -/
theorem BinaryOp.apply_eq_ok {op : BinaryOp} {v w found : Value} (h : op.apply v w = .ok found) :
    (∃ n, found = .number n) ∨
      op = .add ∧ (v.kind = .string ∨ w.kind = .string) ∧
        found = .string (v.display ++ w.display) := by
  unfold apply at h
  split at h
  · next hjoin =>
    cases h
    exact .inr ⟨hjoin.1, hjoin.2, rfl⟩
  · split at h
    · cases h
    · split at h
      · cases h
      · cases h
        exact .inl ⟨_, rfl⟩

/-- A sign gives a number. -/
theorem Sign.apply_eq_ok {sign : Sign} {v found : Value} (h : sign.apply v = .ok found) :
    ∃ n, found = .number n := by
  unfold apply at h
  split at h
  · cases h
    exact ⟨_, rfl⟩
  · split at h
    · cases h
      exact ⟨_, rfl⟩
    · cases h
  · cases h
    exact ⟨_, rfl⟩
  · cases h

/-- So does a function. -/
theorem callBuiltin_eq_ok {name : String} {args : List Value} {found : Value}
    (h : callBuiltin name args = .ok found) : ∃ n, found = .number n := by
  unfold callBuiltin at h
  split at h
  · cases h
  · split at h
    · cases h
    · cases h
    · cases h
      exact ⟨_, rfl⟩

/-! ## The parts of an expression -/

namespace Expr

variable (context : Value)

theorem eval_var (name : String) :
    (var name).eval context = (context.get? name).elim (.error (.undefinedVariable name)) .ok := by
  rw [eval]
  cases context.get? name <;> rfl

/-- Both operands are evaluated before the operator looks at them. -/
theorem eval_binary (op : BinaryOp) (left right : Expr) :
    (binary op left right).eval context =
      (left.eval context).bind fun a => (right.eval context).bind fun b => op.apply a b := by
  rw [eval]
  cases left.eval context with
  | error e => rfl
  | ok a => cases right.eval context <;> rfl

theorem eval_signed (sign : Sign) (operand : Expr) :
    (signed sign operand).eval context = (operand.eval context).bind sign.apply := by
  rw [eval]
  cases operand.eval context <;> rfl

/-- Arguments are evaluated before the function is looked up. -/
theorem eval_call (name : String) (args : List Expr) :
    (call name args).eval context = (evalAll context args).bind (callBuiltin name) := by
  rw [eval]
  cases evalAll context args <;> rfl

/-- The position is evaluated even if the first value has no items. -/
theorem eval_index (collection position : Expr) :
    (index collection position).eval context =
      (collection.eval context).bind fun c => (position.eval context).bind c.item := by
  rw [eval]
  cases collection.eval context with
  | error e => rfl
  | ok c => cases position.eval context <;> rfl

theorem eval_property (receiver : Expr) (name : String) :
    (property receiver name).eval context =
      (receiver.eval context).bind fun v => v.property name := by
  rw [eval]
  cases receiver.eval context <;> rfl

/-- The first expression that has no value ends the run. -/
theorem evalAll_cons (e : Expr) (more : List Expr) :
    evalAll context (e :: more) =
      (e.eval context).bind fun v => (evalAll context more).bind fun vs => .ok (v :: vs) := by
  rw [evalAll]
  cases e.eval context with
  | error e => rfl
  | ok v => cases evalAll context more <;> rfl

end Expr

/-- A text has the value of its expression, and the two stages have errors of their own. -/
theorem evaluate_eq (text : String) (context : Value) :
    evaluate text context = ((Expr.parse text).mapError .parse).bind fun e =>
      (e.eval context).mapError .eval := by
  rw [evaluate]
  cases Expr.parse text with
  | error e => rfl
  | ok e =>
    dsimp only [Except.mapError, Except.bind]
    cases e.eval context <;> rfl

end TextTemplate
