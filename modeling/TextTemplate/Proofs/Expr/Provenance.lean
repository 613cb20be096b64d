import TextTemplate.Proofs.Expr.Eval
/-!
# Where values come from

Evaluation makes no structure of its own. What it gives is either stored in the data context, or it
was computed, and then it is a number or a text.

- `Inside`: the values that a data context holds.
- `Resolved`: a value that is stored in the data context, or one that was computed.
- `Expr.resolve`: evaluation that says which of the two a value is; `Expr.eval_eq_resolve`: its
  values are those of evaluation.
- `Resolved.Sound`: what is true of stored and computed values; `Expr.resolve_sound` carries it
  through every kind of expression.
- `eval_provenance`: where the result of an expression comes from.
-/

namespace TextTemplate

/-- A value occurs in a data context: object keys and array positions lead to it from one of the
entries of the context. -/
inductive Inside (context : Value) : Value → Prop where
  | root {key : String} {v : Value} (h : context.get? key = some v) : Inside context v
  | entry {entries : List (String × Value)} {key : String} {v : Value}
      (h : Inside context (.object entries)) (hentry : entries.lookup key = some v) :
      Inside context v
  | item {items : List Value} {i : Nat} {v : Value} (h : Inside context (.array items))
      (hitem : items[i]? = some v) : Inside context v

/-! ## Evaluation in place -/

/-- A value with the place where it is. -/
inductive Resolved where
  /-- The data context holds the value. -/
  | stored (v : Value)
  /-- The value was made by evaluation. -/
  | computed (v : Value)

namespace Resolved

/-- The value, wherever it is. -/
def value : Resolved → Value
  | .stored v => v
  | .computed v => v

/-- The item of a stored array is stored, that of a computed one is computed. -/
def item (position : Value) : Resolved → Except EvalError Resolved
  | .stored v => (v.item position).map .stored
  | .computed v => (v.item position).map .computed

/-- The entry of an object is where the object is; a length is computed. -/
def ofProperty (name : String) (v : Value) : Except EvalError Resolved :=
  match v with
  | .object _ => (v.property name).map .stored
  | _ => (v.property name).map .computed

/-- The property of a stored value is where it is in the context, that of a computed one is
computed. -/
def property (name : String) : Resolved → Except EvalError Resolved
  | .stored v => ofProperty name v
  | .computed v => (ofProperty name v).map fun found => .computed found.value

end Resolved

namespace Expr

mutual

/-- Evaluates an expression without taking a value out of the data context before its end. -/
def resolve (context : Value) : Expr → Except EvalError Resolved
  | .number n => .ok (.computed (.number n))
  | .var name =>
    match context.get? name with
    | some v => .ok (.stored v)
    | none => .error (.undefinedVariable name)
  | .binary op left right =>
    (resolve context left).bind fun a => (resolve context right).bind fun b =>
      (op.apply a.value b.value).map .computed
  | .signed sign operand =>
    (resolve context operand).bind fun v => (sign.apply v.value).map .computed
  | .call name args =>
    (resolveAll context args).bind fun vs =>
      (callBuiltin name (vs.map Resolved.value)).map .computed
  | .index collection position =>
    (resolve context collection).bind fun c => (resolve context position).bind fun p =>
      c.item p.value
  | .property object name => (resolve context object).bind fun v => v.property name

/-- Evaluates arguments from left to right. -/
def resolveAll (context : Value) : List Expr → Except EvalError (List Resolved)
  | [] => .ok []
  | e :: more =>
    (resolve context e).bind fun v => (resolveAll context more).bind fun vs => .ok (v :: vs)

end

end Expr

/-! ## The same values -/

theorem map_value_map {place : Value → Resolved} (h : ∀ v, (place v).value = v)
    (x : Except EvalError Value) : (x.map place).map Resolved.value = x := by
  cases x with
  | error e => rfl
  | ok v => exact congrArg Except.ok (h v)

namespace Resolved

theorem map_value_item (position : Value) (c : Resolved) :
    (c.item position).map value = c.value.item position := by
  cases c <;> exact map_value_map (fun _ => rfl) _

theorem map_value_ofProperty (name : String) (v : Value) :
    (ofProperty name v).map value = v.property name := by
  unfold ofProperty
  split <;> exact map_value_map (fun _ => rfl) _

theorem map_value_property (name : String) (v : Resolved) :
    (v.property name).map value = v.value.property name := by
  cases v with
  | stored v => exact map_value_ofProperty name v
  | computed v =>
    rw [value, ← map_value_ofProperty, property]
    cases ofProperty name v <;> rfl

end Resolved

namespace Expr

variable (context : Value)

mutual

/-- Evaluation gives the values that are resolved, and the same errors. -/
theorem eval_eq_resolve : ∀ e : Expr, e.eval context = (e.resolve context).map Resolved.value
  | .number n => by
    rw [eval, resolve]
    rfl
  | .var name => by
    rw [eval, resolve]
    cases context.get? name <;> rfl
  | .binary op left right => by
    rw [eval_binary, resolve, eval_eq_resolve left, eval_eq_resolve right]
    cases left.resolve context with
    | error e => rfl
    | ok a =>
      cases right.resolve context with
      | error e => rfl
      | ok b => exact (map_value_map (fun _ => rfl) _).symm
  | .signed sign operand => by
    rw [eval_signed, resolve, eval_eq_resolve operand]
    cases operand.resolve context with
    | error e => rfl
    | ok v => exact (map_value_map (fun _ => rfl) _).symm
  | .call name args => by
    rw [eval_call, resolve, evalAll_eq_resolveAll args]
    cases resolveAll context args with
    | error e => rfl
    | ok vs => exact (map_value_map (fun _ => rfl) _).symm
  | .index collection position => by
    rw [eval_index, resolve, eval_eq_resolve collection, eval_eq_resolve position]
    cases collection.resolve context with
    | error e => rfl
    | ok c =>
      cases position.resolve context with
      | error e => rfl
      | ok p => exact (c.map_value_item p.value).symm
  | .property object name => by
    rw [eval_property, resolve, eval_eq_resolve object]
    cases object.resolve context with
    | error e => rfl
    | ok v => exact (v.map_value_property name).symm

theorem evalAll_eq_resolveAll : ∀ es : List Expr,
    evalAll context es = (resolveAll context es).map (List.map Resolved.value)
  | [] => by
    rw [evalAll, resolveAll]
    rfl
  | e :: more => by
    rw [evalAll_cons, resolveAll, eval_eq_resolve e, evalAll_eq_resolveAll more]
    cases e.resolve context with
    | error x => rfl
    | ok v => cases resolveAll context more <;> rfl

end

theorem eval_of_resolve {e : Expr} {r : Resolved} (h : e.resolve context = .ok r) :
    e.eval context = .ok r.value := by
  rw [eval_eq_resolve, h]
  rfl

end Expr

/-! ## Stored and computed values -/

/-- A stored value occurs in the data context. A computed one is a number, or what a plus sign with
a text on one of its sides makes of its operands. -/
inductive Resolved.Sound (context : Value) : Expr → Resolved → Prop where
  | stored {e : Expr} {v : Value} (h : Inside context v) : Sound context e (.stored v)
  | number {e : Expr} (n : Binary64) : Sound context e (.computed (.number n))
  | joined {left right : Expr} {a b : Value} (hleft : left.eval context = .ok a)
      (hright : right.eval context = .ok b) (htext : a.kind = .string ∨ b.kind = .string) :
      Sound context (.binary .add left right) (.computed (.string (a.display ++ b.display)))

namespace Resolved.Sound

variable {context v position : Value} {e e' : Expr} {r found : Resolved} {name : String}

theorem inside (h : Sound context e (.stored v)) : Inside context v := by
  cases h
  assumption

/-- A computed value is a number or a text. -/
theorem kind_eq (h : Sound context e (.computed v)) : v.kind = .number ∨ v.kind = .string := by
  cases h with
  | number n => exact .inl rfl
  | joined => exact .inr rfl

/-- A computed value has no items. -/
theorem item_computed (h : Sound context e (.computed v)) (position : Value) :
    (Resolved.computed v).item position = .error (.notIndexable v.kind) := by
  have harray : v.kind ≠ .array := by
    intro heq
    rcases h.kind_eq with hkind | hkind <;> cases heq.symm.trans hkind
  rw [Resolved.item, Value.item_eq_error harray]
  rfl

theorem item (h : r.Sound context e) (hitem : r.item position = .ok found) :
    found.Sound context e' := by
  cases r with
  | computed v =>
    rw [h.item_computed] at hitem
    cases hitem
  | stored v =>
    rw [Resolved.item] at hitem
    obtain ⟨w, hv, rfl⟩ := exists_of_map_eq_ok hitem
    obtain ⟨items, i, rfl, hi⟩ := Value.item_eq_ok hv
    exact .stored (h.inside.item hi)

/-- A property is where the object with this entry is, or a computed length. -/
theorem ofProperty (h : Resolved.ofProperty name v = .ok found) :
    (∃ entries w, v = .object entries ∧ entries.lookup name = some w ∧ found = .stored w) ∨
      ∃ n, found = .computed (.number n) := by
  have hvalue : v.property name = .ok found.value := by
    rw [← map_value_ofProperty, h]
    rfl
  rw [Value.property_eq] at hvalue
  cases hfound : v.property? name with
  | none => rw [hfound] at hvalue; cases hvalue
  | some w =>
    rw [hfound] at hvalue
    have hw : w = found.value := Except.ok.inj hvalue
    obtain ⟨entries, rfl, hentry⟩ | ⟨hkind, n, rfl⟩ := Value.property?_eq_some hfound
    · obtain ⟨w', -, rfl⟩ := exists_of_map_eq_ok h
      exact .inl ⟨entries, w, rfl, hentry, congrArg Resolved.stored hw.symm⟩
    · unfold Resolved.ofProperty at h
      split at h
      · exact absurd rfl hkind
      · obtain ⟨w', -, rfl⟩ := exists_of_map_eq_ok h
        exact .inr ⟨n, congrArg Resolved.computed hw.symm⟩

theorem property (h : r.Sound context e) (hproperty : r.property name = .ok found) :
    found.Sound context e' := by
  cases r with
  | stored v =>
    obtain ⟨entries, w, rfl, hentry, rfl⟩ | ⟨n, rfl⟩ := ofProperty hproperty
    · exact .stored (h.inside.entry hentry)
    · exact .number n
  | computed v =>
    rw [Resolved.property] at hproperty
    obtain ⟨w, hv, rfl⟩ := exists_of_map_eq_ok hproperty
    obtain ⟨entries, w, rfl, -, -⟩ | ⟨n, rfl⟩ := ofProperty hv
    · rcases h.kind_eq with hkind | hkind <;> cases hkind
    · exact .number n

end Resolved.Sound

namespace Expr

variable {context : Value}

/-- What is true of stored and computed values, for every kind of expression. -/
theorem resolve_sound : ∀ {e : Expr} {r : Resolved}, e.resolve context = .ok r →
    r.Sound context e
  | .number n, r, h => by
    rw [resolve] at h
    cases h
    exact .number n
  | .var name, r, h => by
    rw [resolve] at h
    split at h
    · next v hv =>
      cases h
      exact .stored (.root hv)
    · cases h
  | .binary op left right, r, h => by
    rw [resolve] at h
    obtain ⟨a, ha, h⟩ := exists_of_bind_eq_ok h
    obtain ⟨b, hb, h⟩ := exists_of_bind_eq_ok h
    obtain ⟨v, hv, rfl⟩ := exists_of_map_eq_ok h
    obtain ⟨n, rfl⟩ | ⟨rfl, htext, rfl⟩ := BinaryOp.apply_eq_ok hv
    · exact .number n
    · exact .joined (eval_of_resolve context ha) (eval_of_resolve context hb) htext
  | .signed sign operand, r, h => by
    rw [resolve] at h
    obtain ⟨a, -, h⟩ := exists_of_bind_eq_ok h
    obtain ⟨v, hv, rfl⟩ := exists_of_map_eq_ok h
    obtain ⟨n, rfl⟩ := Sign.apply_eq_ok hv
    exact .number n
  | .call name args, r, h => by
    rw [resolve] at h
    obtain ⟨vs, -, h⟩ := exists_of_bind_eq_ok h
    obtain ⟨v, hv, rfl⟩ := exists_of_map_eq_ok h
    obtain ⟨n, rfl⟩ := callBuiltin_eq_ok hv
    exact .number n
  | .index collection position, r, h => by
    rw [resolve] at h
    obtain ⟨c, hc, h⟩ := exists_of_bind_eq_ok h
    obtain ⟨p, -, h⟩ := exists_of_bind_eq_ok h
    exact (resolve_sound hc).item h
  | .property object name, r, h => by
    rw [resolve] at h
    obtain ⟨v, hv, h⟩ := exists_of_bind_eq_ok h
    exact (resolve_sound hv).property h

/-- An index whose collection was computed fails, at its position or for want of an array. -/
theorem resolve_index_computed {e : Expr} {v : Value} (h : e.resolve context = .ok (.computed v))
    (position : Expr) : (index e position).resolve context =
      (position.resolve context).bind fun _ => .error (.notIndexable v.kind) := by
  rw [resolve, h]
  dsimp only [Except.bind]
  cases position.resolve context with
  | error x => rfl
  | ok p => exact (resolve_sound h).item_computed p.value

end Expr

/-- The result of an expression occurs in the data context, or it is a number or a text; and a text
that does not occur there is what a plus sign makes of the texts of its operands. Evaluation in
place gives the same results: what it calls stored occurs in the data context, and what it calls
computed is a number or a text and has no items. -/
theorem eval_provenance (context : Value) (e : Expr) :
    (∀ v, e.eval context = .ok v →
      (v.kind = .null ∨ v.kind = .boolean ∨ v.kind = .array ∨ v.kind = .object →
        Inside context v) ∧
      ∀ s, v = .string s → Inside context v ∨
        ∃ left right a b, e = .binary .add left right ∧
          left.eval context = .ok a ∧ right.eval context = .ok b ∧
          (a.kind = .string ∨ b.kind = .string) ∧ s = a.display ++ b.display) ∧
    e.eval context = (e.resolve context).map Resolved.value ∧
    (∀ v, e.resolve context = .ok (.stored v) → Inside context v) ∧
    ∀ v, e.resolve context = .ok (.computed v) →
      (v.kind = .number ∨ v.kind = .string) ∧
      ∀ position, (Expr.index e position).resolve context =
        (position.resolve context).bind fun _ => .error (.notIndexable v.kind) := by
  refine ⟨?_, e.eval_eq_resolve context, fun v h => (Expr.resolve_sound h).inside, fun v h =>
    ⟨(Expr.resolve_sound h).kind_eq, Expr.resolve_index_computed h⟩⟩
  intro v hv
  rw [e.eval_eq_resolve context] at hv
  obtain ⟨r, hr, rfl⟩ := exists_of_map_eq_ok hv
  cases Expr.resolve_sound hr with
  | stored h => exact ⟨fun _ => h, fun _ _ => .inl h⟩
  | number n =>
    constructor
    · rintro (h | h | h | h) <;> cases h
    · intro s h
      cases h
  | @joined left right a b hleft hright htext =>
    constructor
    · rintro (h | h | h | h) <;> cases h
    · intro s h
      cases h
      exact .inr ⟨left, right, a, b, rfl, hleft, hright, htext, rfl⟩

end TextTemplate
