import TextTemplate.Proofs.Expr.Eval
import TextTemplate.Proofs.Value.Reorder
/-!
# Evaluation does not see the order of entries

- `Agree R`: two results are the same error, or values related by `R`; `Agree.bind` carries this over
  to what goes on from such results.
- `BinaryOp.apply_same`, `Sign.apply_same`, `callBuiltin_same`, `Value.item_same`,
  `Value.property_same`: every operation on the same data gives the same data or the same error.
- `Expr.eval_same`: so does every expression, by induction over it.
- `evaluate_same`: so does every text.
-/

namespace TextTemplate

open Value

/-- Two results are the same error, or values that are related. -/
def Agree {ε α : Type} (R : α → α → Prop) (r r' : Except ε α) : Prop :=
  (∃ e, r = .error e ∧ r' = .error e) ∨ ∃ v w, r = .ok v ∧ r' = .ok w ∧ R v w

namespace Agree

variable {ε α : Type} {R : α → α → Prop}

theorem error (e : ε) : Agree R (.error e) (.error e) := .inl ⟨e, rfl, rfl⟩

theorem ok {v w : α} (h : R v w) : Agree (ε := ε) R (.ok v) (.ok w) := .inr ⟨v, w, rfl, rfl, h⟩

/-- What goes on from related values in related ways. -/
theorem bind {β : Type} {S : β → β → Prop} {r r' : Except ε α} {f f' : α → Except ε β}
    (h : Agree R r r') (hf : ∀ v w, R v w → Agree S (f v) (f' w)) :
    Agree S (r.bind f) (r'.bind f') := by
  obtain ⟨e, rfl, rfl⟩ | ⟨v, w, rfl, rfl, hvw⟩ := h
  · exact .error e
  · exact hf v w hvw

/-- What is found on both sides agrees, and so does the error for what is found on neither. -/
theorem of_rel {o o' : Option α} (h : Option.Rel R o o') (e : ε) :
    Agree R (o.elim (.error e) .ok) (o'.elim (.error e) .ok) := by
  cases h with
  | some h => exact .ok h
  | none => exact .error e

theorem mapError {δ : Type} {r r' : Except ε α} (f : ε → δ) (h : Agree R r r') :
    Agree R (r.mapError f) (r'.mapError f) := by
  obtain ⟨e, rfl, rfl⟩ | ⟨v, w, rfl, rfl, hvw⟩ := h
  · exact .error (f e)
  · exact .ok hvw

/-- Equal results agree, if their value stores no key twice. -/
theorem of_keysUnique {r r' : Except ε Value} (heq : r = r') (h : ∀ v, r = .ok v → v.KeysUnique) :
    Agree Same r r' := by
  subst heq
  cases r with
  | error e => exact .error e
  | ok v => exact .ok (.refl (h v rfl))

end Agree

/-! ## Operations -/

section Operations

variable {v v' w w' : Value}

/-- A place for a number is filled in the same way. -/
theorem Role.number_eq (role : Role) (h : Same v v') : role.number v = role.number v' := by
  obtain rfl | ⟨_, _, rfl, rfl, -⟩ | ⟨_, _, rfl, rfl⟩ := h.cases <;> rfl

theorem BinaryOp.keysUnique_apply {op : BinaryOp} (h : op.apply v w = .ok v') : v'.KeysUnique := by
  obtain ⟨n, rfl⟩ | ⟨-, -, rfl⟩ := apply_eq_ok h <;> trivial

theorem BinaryOp.apply_same (op : BinaryOp) (hv : Same v v') (hw : Same w w') :
    Agree Same (op.apply v w) (op.apply v' w') := by
  refine .of_keysUnique ?_ fun _ => BinaryOp.keysUnique_apply
  unfold BinaryOp.apply
  rw [hv.kind_eq, hw.kind_eq, hv.display_eq, hw.display_eq, Role.number_eq _ hv,
    Role.number_eq _ hw]

theorem Sign.keysUnique_apply {sign : Sign} (h : sign.apply v = .ok v') : v'.KeysUnique := by
  obtain ⟨n, rfl⟩ := apply_eq_ok h
  trivial

theorem Sign.apply_same (sign : Sign) (h : Same v v') :
    Agree Same (sign.apply v) (sign.apply v') := by
  refine .of_keysUnique ?_ fun _ => Sign.keysUnique_apply
  obtain rfl | ⟨_, _, rfl, rfl, -⟩ | ⟨_, _, rfl, rfl⟩ := h.cases
  · rfl
  · cases sign <;> rfl
  · cases sign <;> rfl

theorem numberArguments_eq (function : String) : ∀ {items items' : List Value} (position : Nat),
    SameItems items items' →
    numberArguments function position items = numberArguments function position items'
  | [], [], _, _ => rfl
  | v :: more, w :: more', position, ⟨⟨hv, hmore⟩, hvw, hmore'⟩ => by
    rw [numberArguments, numberArguments, Role.number_eq _ ⟨hv, hvw⟩,
      numberArguments_eq function (position + 1) ⟨hmore, hmore'⟩]

theorem callBuiltin_same (name : String) {items items' : List Value} (h : SameItems items items') :
    Agree Same (callBuiltin name items) (callBuiltin name items') := by
  have heq : callBuiltin name items = callBuiltin name items' := by
    rw [callBuiltin, callBuiltin, numberArguments_eq name 1 h]
  refine .of_keysUnique heq ?_
  intro v hv
  obtain ⟨n, rfl⟩ := callBuiltin_eq_ok hv
  trivial

/-- The same position of the same array holds the same data. -/
theorem Value.item_same (hv : Same v v') (hw : Same w w') :
    Agree Same (v.item w) (v'.item w') := by
  by_cases harray : v.kind = .array
  · obtain ⟨items, rfl⟩ := eq_array_of_kind harray
    obtain ⟨items', rfl, hitems⟩ := hv.of_array
    rw [item_array, item_array, ← hw.number?_eq, ← hw.summary_eq, ← hitems.reorder.length_eq]
    split
    · exact .error _
    split
    · split
      · exact .error _
      · exact .of_rel (hitems.getElem? _) _
    · exact .error _
  · rw [item_eq_error harray, item_eq_error (hv.kind_eq ▸ harray), hv.kind_eq]
    exact .error _

/-- The same data has the same property, or has none of that name. -/
theorem Value.property?_same (name : String) (h : Same v v') :
    Option.Rel Same (v.property? name) (v'.property? name) := by
  cases v with
  | object entries =>
    obtain ⟨entries', rfl⟩ := h.of_object
    exact h.lookup name
  | array items =>
    obtain ⟨items', rfl, hitems⟩ := h.of_array
    rw [property?, property?, ← hitems.reorder.length_eq]
    split
    · exact .some (.refl trivial)
    · exact .none
  | string s =>
    cases h.reorders
    rw [property?]
    split
    · exact .some (.refl trivial)
    · exact .none
  | null | boolean | number =>
    cases h.reorders
    exact .none

theorem Value.property_same (name : String) (h : Same v v') :
    Agree Same (v.property name) (v'.property name) := by
  rw [property_eq, property_eq, h.summary_eq]
  exact .of_rel (property?_same name h) _

end Operations

/-! ## Expressions -/

namespace Expr

variable {context context' : Value}

mutual

/-- An expression has the same data as its value in both contexts, or the same error. -/
theorem eval_same (h : Same context context') :
    ∀ e : Expr, Agree Same (e.eval context) (e.eval context')
  | .number n => by
    rw [eval, eval]
    exact .ok (.refl trivial)
  | .var name => by
    rw [eval_var, eval_var]
    exact .of_rel (h.get? name) _
  | .binary op left right => by
    rw [eval_binary, eval_binary]
    refine (eval_same h left).bind ?_
    intro a a' ha
    refine (eval_same h right).bind ?_
    intro b b' hb
    exact op.apply_same ha hb
  | .signed sign operand => by
    rw [eval_signed, eval_signed]
    refine (eval_same h operand).bind ?_
    intro v v' hv
    exact sign.apply_same hv
  | .call name args => by
    rw [eval_call, eval_call]
    refine (evalAll_same h args).bind ?_
    intro vs vs' hvs
    exact callBuiltin_same name hvs
  | .index collection position => by
    rw [eval_index, eval_index]
    refine (eval_same h collection).bind ?_
    intro v v' hv
    refine (eval_same h position).bind ?_
    intro w w' hw
    exact item_same hv hw
  | .property receiver name => by
    rw [eval_property, eval_property]
    refine (eval_same h receiver).bind ?_
    intro v v' hv
    exact property_same name hv

/-- So do expressions in a row. -/
theorem evalAll_same (h : Same context context') :
    ∀ es : List Expr, Agree SameItems (evalAll context es) (evalAll context' es)
  | [] => by
    rw [evalAll, evalAll]
    exact .ok ⟨trivial, trivial⟩
  | e :: more => by
    rw [evalAll_cons, evalAll_cons]
    refine (eval_same h e).bind ?_
    intro v v' hv
    refine (evalAll_same h more).bind ?_
    intro vs vs' hvs
    exact .ok ⟨⟨hv.keysUnique, hvs.keysUnique⟩, hv.reorders, hvs.reorder⟩

end

end Expr

/-- The text of an expression has the same data as its value in both contexts, or the same error. -/
theorem evaluate_same {context context' : Value} (h : Same context context') (text : String) :
    Agree Same (evaluate text context) (evaluate text context') := by
  rw [evaluate_eq, evaluate_eq]
  cases Expr.parse text with
  | error e => exact .error _
  | ok e => exact (e.eval_same h).mapError ExprError.eval

end TextTemplate
