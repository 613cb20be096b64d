import Mathlib.Data.List.Forall2
import TextTemplate.Proofs.Expr.Eval
/-!
# The first error of an expression

Evaluation is strict. It goes through all subexpressions of an expression in post-order, and where
the operation of one of them fails on the values of its operands it ends with that error.

- `Expr.children`, `Expr.postorder`: the direct subexpressions of an expression, and all of them in
  the order in which they get their values.
- `Expr.Operation`: what the operation of an expression gives for the values of its children.
- `Expr.evalAll_cases`, `Expr.operation_eval`: one step of evaluation, for every kind of expression.
- `Expr.hasValue_of_mem_postorder`, `Expr.exists_failing`: the whole run, by induction over expressions.
- `callBuiltin_eq_error_iff`: the errors of a call, and which of them comes first.
- `eval_first_error`: when an expression has a value, and which error it has otherwise.
-/

namespace TextTemplate
namespace Expr

/-! ## Subexpressions -/

/-- The direct subexpressions of an expression, from left to right. -/
def children : Expr → List Expr
  | .number _ => []
  | .var _ => []
  | .binary _ left right => [left, right]
  | .signed _ operand => [operand]
  | .call _ args => args
  | .index collection position => [collection, position]
  | .property object _ => [object]

mutual

/-- All subexpressions of an expression from left to right, each behind its own ones; the expression
itself is the last. -/
def postorder : Expr → List Expr
  | .number n => [.number n]
  | .var name => [.var name]
  | .binary op left right => postorder left ++ postorder right ++ [.binary op left right]
  | .signed sign operand => postorder operand ++ [.signed sign operand]
  | .call name args => postorderAll args ++ [.call name args]
  | .index collection position =>
    postorder collection ++ postorder position ++ [.index collection position]
  | .property object name => postorder object ++ [.property object name]

/-- All subexpressions of expressions in a row. -/
def postorderAll : List Expr → List Expr
  | [] => []
  | e :: more => postorder e ++ postorderAll more

end

theorem postorderAll_eq : ∀ es, postorderAll es = es.flatMap postorder
  | [] => rfl
  | e :: more => congrArg (postorder e ++ ·) (postorderAll_eq more)

/-- The subexpressions of an expression other than itself. -/
def parts (e : Expr) : List Expr := e.children.flatMap postorder

theorem postorder_eq (e : Expr) : e.postorder = e.parts ++ [e] := by
  cases e with
  | call name args => rw [postorder, postorderAll_eq, parts, children]
  | number | var | binary | signed | index | property => simp [postorder, parts, children]

theorem sizeOf_lt_of_mem_children {e c : Expr} (h : c ∈ e.children) : sizeOf c < sizeOf e := by
  cases e with
  | call name args =>
    rw [children] at h
    have hlt := List.sizeOf_lt_of_mem h
    rw [call.sizeOf_spec]
    omega
  | number | var => exact absurd h List.not_mem_nil
  | binary | signed | index | property =>
    simp only [children, List.mem_cons, List.not_mem_nil, or_false] at h
    grind

/-- Induction over expressions, from the children of each. -/
@[elab_as_elim]
theorem induction {motive : Expr → Prop}
    (step : ∀ e : Expr, (∀ c ∈ e.children, motive c) → motive e) (e : Expr) : motive e :=
  step e fun c _ => induction step c
termination_by sizeOf e
decreasing_by exact sizeOf_lt_of_mem_children ‹c ∈ e.children›

/-! ## One step -/

/-- An expression has a value in a data context. -/
def HasValue (context : Value) (e : Expr) : Prop := ∃ v, e.eval context = .ok v

/-- Expressions in a row have these values. -/
def Values (context : Value) (es : List Expr) (vs : List Value) : Prop :=
  List.Forall₂ (fun e v => e.eval context = .ok v) es vs

/-- What the operation of an expression gives for the values of its children. -/
inductive Operation (context : Value) : Expr → List Value → Except EvalError Value → Prop where
  | number (n : Binary64) : Operation context (.number n) [] (.ok (.number n))
  | found {name : String} {v : Value} (h : context.get? name = some v) :
      Operation context (.var name) [] (.ok v)
  | missing {name : String} (h : context.get? name = none) :
      Operation context (.var name) [] (.error (.undefinedVariable name))
  | binary (op : BinaryOp) (left right : Expr) (a b : Value) :
      Operation context (.binary op left right) [a, b] (op.apply a b)
  | signed (sign : Sign) (operand : Expr) (v : Value) :
      Operation context (.signed sign operand) [v] (sign.apply v)
  | call (name : String) (args : List Expr) (vs : List Value) :
      Operation context (.call name args) vs (callBuiltin name vs)
  | index (collection position : Expr) (c p : Value) :
      Operation context (.index collection position) [c, p] (c.item p)
  | property (object : Expr) (name : String) (v : Value) :
      Operation context (.property object name) [v] (v.property name)

/-- The children of an expression all have values, and its own operation gives a result for them. -/
def Performs (context : Value) (e : Expr) (result : Except EvalError Value) : Prop :=
  ∃ vs, Values context e.children vs ∧ e.Operation context vs result

variable {context : Value} {e : Expr} {es : List Expr} {vs : List Value} {x : EvalError}

theorem Operation.unique {r r' : Except EvalError Value} (h : e.Operation context vs r)
    (h' : e.Operation context vs r') : r = r' := by
  cases h with
  | found hv =>
    cases h' with
    | found hv' => rw [Option.some.inj (hv.symm.trans hv')]
    | missing hnone => cases hv.symm.trans hnone
  | missing hnone =>
    cases h' with
    | found hv => cases hv.symm.trans hnone
    | missing => rfl
  | number | binary | signed | call | index | property =>
    cases h'
    rfl

theorem operation_call_iff {name : String} {args : List Expr} {r : Except EvalError Value} :
    (call name args).Operation context vs r ↔ r = callBuiltin name vs := by
  constructor
  · intro h
    cases h
    rfl
  · rintro rfl
    exact .call name args vs

theorem Values.hasValue (h : Values context es vs) : ∀ e ∈ es, e.HasValue context := by
  induction h with
  | nil => simp
  | cons hv _ ih => exact List.forall_mem_cons.2 ⟨⟨_, hv⟩, ih⟩

theorem Values.evalAll_eq (h : Values context es vs) : evalAll context es = .ok vs := by
  induction h with
  | nil => rw [evalAll]
  | cons hv _ ih =>
    rw [evalAll_cons, hv, ih]
    rfl

/-- Expressions in a row all have values, or the first one that has none decides. -/
theorem evalAll_cases (context : Value) (es : List Expr) :
    (∃ vs, Values context es vs) ∨
      ∃ before e after x, es = before ++ e :: after ∧ (∀ b ∈ before, b.HasValue context) ∧
        e.eval context = .error x ∧ evalAll context es = .error x := by
  induction es with
  | nil => exact .inl ⟨[], .nil⟩
  | cons e more ih =>
    cases hvalue : e.eval context with
    | error x =>
      refine .inr ⟨[], e, more, x, rfl, by simp, hvalue, ?_⟩
      rw [evalAll_cons, hvalue]
      rfl
    | ok v =>
      obtain ⟨vs, hvs⟩ | ⟨before, e', after, x, rfl, hbefore, herror, hall⟩ := ih
      · exact .inl ⟨v :: vs, .cons hvalue hvs⟩
      · refine .inr ⟨e :: before, e', after, x, rfl,
          List.forall_mem_cons.2 ⟨⟨v, hvalue⟩, hbefore⟩, herror, ?_⟩
        rw [evalAll_cons, hvalue, hall]
        rfl

/-- If the children have values, the operation of the expression is what is left to do. -/
theorem operation_eval (h : Values context e.children vs) :
    e.Operation context vs (e.eval context) := by
  cases e with
  | number n =>
    cases h
    rw [eval]
    exact .number n
  | var name =>
    cases h
    rw [eval_var]
    cases hfound : context.get? name with
    | some v => exact .found hfound
    | none => exact .missing hfound
  | binary op left right =>
    obtain _ | ⟨hleft, _ | ⟨hright, ⟨⟩⟩⟩ := h
    rw [eval_binary, hleft, hright]
    exact .binary op left right _ _
  | signed sign operand =>
    obtain _ | ⟨hoperand, ⟨⟩⟩ := h
    rw [eval_signed, hoperand]
    exact .signed sign operand _
  | call name args =>
    have hargs : Values context args vs := h
    rw [eval_call, hargs.evalAll_eq]
    exact .call name args vs
  | index collection position =>
    obtain _ | ⟨hcollection, _ | ⟨hposition, ⟨⟩⟩⟩ := h
    rw [eval_index, hcollection, hposition]
    exact .index collection position _ _
  | property object name =>
    obtain _ | ⟨hobject, ⟨⟩⟩ := h
    rw [eval_property, hobject]
    exact .property object name _

theorem evalAll_single_eq_error (h : evalAll context [e] = .error x) :
    e.eval context = .error x := by
  rw [evalAll_cons, evalAll] at h
  cases hvalue : e.eval context with
  | error y => rw [hvalue] at h; cases h; rfl
  | ok v => rw [hvalue] at h; cases h

theorem evalAll_pair_eq_error {left right : Expr} (h : evalAll context [left, right] = .error x) :
    left.eval context = .error x ∨ left.HasValue context ∧ right.eval context = .error x := by
  rw [evalAll_cons] at h
  cases hleft : left.eval context with
  | error y => rw [hleft] at h; cases h; exact .inl rfl
  | ok a =>
    rw [hleft] at h
    refine .inr ⟨⟨a, hleft⟩, evalAll_single_eq_error ?_⟩
    cases hright : evalAll context [right] with
    | error y => rw [hright] at h; cases h; rfl
    | ok vs => rw [hright] at h; cases h

/-- The first child without a value decides. -/
theorem eval_of_children (h : evalAll context e.children = .error x) :
    e.eval context = .error x := by
  cases e with
  | number n => rw [children, evalAll] at h; cases h
  | var name => rw [children, evalAll] at h; cases h
  | binary op left right =>
    rw [eval_binary]
    obtain hleft | ⟨⟨a, hleft⟩, hright⟩ := evalAll_pair_eq_error h
    · rw [hleft]; rfl
    · rw [hleft, hright]; rfl
  | signed sign operand =>
    rw [eval_signed, evalAll_single_eq_error h]
    rfl
  | call name args =>
    rw [children] at h
    rw [eval_call, h]
    rfl
  | index collection position =>
    rw [eval_index]
    obtain hcollection | ⟨⟨c, hcollection⟩, hposition⟩ := evalAll_pair_eq_error h
    · rw [hcollection]; rfl
    · rw [hcollection, hposition]; rfl
  | property object name =>
    rw [eval_property, evalAll_single_eq_error h]
    rfl

/-- An expression is what its operation makes of the values of its children, or it has the error of
the first child without a value. -/
theorem eval_cases (context : Value) (e : Expr) :
    e.Performs context (e.eval context) ∨
      ∃ before c after x, e.children = before ++ c :: after ∧ (∀ b ∈ before, b.HasValue context) ∧
        c.eval context = .error x ∧ e.eval context = .error x := by
  obtain ⟨vs, hvs⟩ | ⟨before, c, after, x, hchildren, hbefore, herror, hall⟩ :=
    evalAll_cases context e.children
  · exact .inl ⟨vs, hvs, operation_eval hvs⟩
  · exact .inr ⟨before, c, after, x, hchildren, hbefore, herror, eval_of_children hall⟩

theorem Performs.eval_eq {r : Except EvalError Value} (h : e.Performs context r) :
    e.eval context = r := by
  obtain ⟨vs, hvs, hoperation⟩ := h
  exact (operation_eval hvs).unique hoperation

/-! ## The whole run -/

/-- Evaluation is strict: an expression with a value has no subexpression without one. -/
theorem hasValue_of_mem_postorder {s : Expr} (h : e.HasValue context) (hs : s ∈ e.postorder) :
    s.HasValue context := by
  induction e using Expr.induction with
  | step e ih =>
    rw [postorder_eq, List.mem_append, List.mem_singleton] at hs
    obtain hs | rfl := hs
    · obtain ⟨c, hc, hsc⟩ := List.mem_flatMap.1 hs
      obtain ⟨vs, hvs, -⟩ | ⟨before, c', after, x, -, -, -, herror⟩ := eval_cases context e
      · exact ih c hc (hvs.hasValue c hc) hsc
      · obtain ⟨v, hv⟩ := h
        cases hv.symm.trans herror
    · exact h

/-- The error of an expression is that of a subexpression whose operation fails, and all that
stands before this one in post-order has a value. -/
theorem exists_failing (h : e.eval context = .error x) :
    ∃ before s after, e.postorder = before ++ s :: after ∧ s.Performs context (.error x) ∧
      ∀ b ∈ before, b.HasValue context := by
  induction e using Expr.induction with
  | step e ih =>
    obtain hperforms | ⟨before, c, after, y, hchildren, hbefore, herror, heval⟩ :=
      eval_cases context e
    · refine ⟨e.parts, e, [], postorder_eq e, h ▸ hperforms, ?_⟩
      obtain ⟨vs, hvs, -⟩ := hperforms
      intro b hb
      obtain ⟨c, hc, hbc⟩ := List.mem_flatMap.1 hb
      exact hasValue_of_mem_postorder (hvs.hasValue c hc) hbc
    · obtain rfl : y = x := Except.error.inj (heval.symm.trans h)
      obtain ⟨inner, s, rest, hc, hs, hinner⟩ := ih c (by simp [hchildren]) herror
      refine ⟨before.flatMap postorder ++ inner, s, rest ++ after.flatMap postorder ++ [e],
        ?_, hs, ?_⟩
      · rw [postorder_eq, parts, hchildren, List.flatMap_append, List.flatMap_cons, hc]
        simp only [List.append_assoc, List.cons_append]
      · intro b hb
        obtain hb | hb := List.mem_append.1 hb
        · obtain ⟨c', hc', hbc⟩ := List.mem_flatMap.1 hb
          exact hasValue_of_mem_postorder (hbefore c' hc') hbc
        · exact hinner b hb

/-- The operation of an expression with a value does not fail. -/
theorem HasValue.not_performs (h : e.HasValue context) : ¬ e.Performs context (.error x) := by
  obtain ⟨v, hv⟩ := h
  intro hperforms
  cases hv.symm.trans hperforms.eval_eq

/-- What comes first in a row is the same, however the row is cut there. -/
theorem eq_of_first {α : Type} {p : α → Prop} {before before' after after' : List α} {s s' : α}
    (heq : before ++ s :: after = before' ++ s' :: after') (hs : p s) (hs' : p s')
    (hbefore : ∀ b ∈ before, ¬ p b) (hbefore' : ∀ b ∈ before', ¬ p b) : s = s' := by
  classical
  have hfirst : (before ++ s :: after).find? (p ·) = some s :=
    List.find?_eq_some_iff_append.2 ⟨by simpa using hs, before, after, rfl, by simpa using hbefore⟩
  have hfirst' : (before ++ s :: after).find? (p ·) = some s' :=
    List.find?_eq_some_iff_append.2
      ⟨by simpa using hs', before', after', heq, by simpa using hbefore'⟩
  exact Option.some.inj (hfirst.symm.trans hfirst')

theorem eval_eq_ok_iff {v : Value} : e.eval context = .ok v ↔
    (∀ s ∈ e.parts, s.HasValue context) ∧ e.Performs context (.ok v) := by
  constructor
  · intro h
    constructor
    · intro s hs
      have hmem : s ∈ e.postorder := by
        rw [postorder_eq]
        exact List.mem_append_left _ hs
      exact hasValue_of_mem_postorder ⟨v, h⟩ hmem
    · obtain hperforms | ⟨_, _, _, y, -, -, -, herror⟩ := eval_cases context e
      · exact h ▸ hperforms
      · cases h.symm.trans herror
  · rintro ⟨-, hperforms⟩
    exact hperforms.eval_eq

theorem eval_eq_error_iff : e.eval context = .error x ↔
    ∃ before s after, e.postorder = before ++ s :: after ∧ s.Performs context (.error x) ∧
      ∀ b ∈ before, ∀ y, ¬ b.Performs context (.error y) := by
  constructor
  · intro h
    obtain ⟨before, s, after, horder, hs, hbefore⟩ := exists_failing h
    exact ⟨before, s, after, horder, hs, fun b hb y => (hbefore b hb).not_performs⟩
  · rintro ⟨before, s, after, horder, hs, hbefore⟩
    cases heval : e.eval context with
    | ok v =>
      have hmem : s ∈ e.postorder := by simp [horder]
      exact absurd hs (hasValue_of_mem_postorder ⟨v, heval⟩ hmem).not_performs
    | error y =>
      obtain ⟨before', s', after', horder', hs', hbefore'⟩ := exists_failing heval
      obtain rfl : s = s' := eq_of_first (p := fun s => ∃ y, s.Performs context (.error y))
        (horder.symm.trans horder') ⟨x, hs⟩ ⟨y, hs'⟩ (fun b hb ⟨z, hz⟩ => hbefore b hb z hz)
        (fun b hb ⟨z, hz⟩ => (hbefore' b hb).not_performs hz)
      exact hs'.eval_eq.symm.trans hs.eval_eq

end Expr

/-! ## Calls -/

theorem Role.number_eq_ok (role : Role) {v : Value} (h : v.kind = .number) :
    ∃ n, role.number v = .ok n := by
  cases v with
  | number n => exact ⟨n, rfl⟩
  | null | boolean | string | array | object => cases h

theorem Role.number_eq_error {role : Role} {v : Value} (h : v.kind ≠ .number) :
    role.number v = .error (.notANumber role v.kind) := by
  cases v with
  | number n => exact absurd rfl h
  | null | boolean | string | array | object => rfl

theorem numberArguments_of_numbers (function : String) {args : List Value}
    (h : ∀ v ∈ args, v.kind = .number) (position : Nat) :
    ∃ ns, numberArguments function position args = .ok ns ∧ ns.length = args.length := by
  induction args generalizing position with
  | nil => exact ⟨[], rfl, rfl⟩
  | cons arg more ih =>
    obtain ⟨harg, hmore⟩ := List.forall_mem_cons.1 h
    obtain ⟨n, hn⟩ := Role.number_eq_ok (.argument position function) harg
    obtain ⟨ns, hns, hlength⟩ := ih hmore (position + 1)
    exact ⟨n :: ns, by rw [numberArguments, hn, hns], congrArg (· + 1) hlength⟩

/-- The leftmost argument that is not a number is refused, whatever stands behind it. -/
theorem numberArguments_of_leftmost (function : String) {before : List Value} {v : Value}
    (hbefore : ∀ w ∈ before, w.kind = .number) (hkind : v.kind ≠ .number) (after : List Value)
    (position : Nat) : numberArguments function position (before ++ v :: after) =
      .error (.notANumber (.argument (position + before.length) function) v.kind) := by
  induction before generalizing position with
  | nil =>
    rw [List.nil_append, numberArguments, Role.number_eq_error hkind]
    rfl
  | cons arg more ih =>
    obtain ⟨harg, hmore⟩ := List.forall_mem_cons.1 hbefore
    obtain ⟨n, hn⟩ := Role.number_eq_ok (.argument position function) harg
    rw [List.cons_append, numberArguments, hn, ih hmore, List.length_cons, Nat.add_right_comm,
      Nat.add_assoc]

/-- Why a call fails for the values of its arguments. The name comes first, the leftmost argument
that is not a number comes next, and the want of an argument comes last. -/
inductive CallFailure (name : String) (args : List Value) : EvalError → Prop where
  | name (hname : Builtin.ofName? name = none) : CallFailure name args (.unknownFunction name)
  | argument {f : Builtin} {before after : List Value} {v : Value}
      (hname : Builtin.ofName? name = some f) (hargs : args = before ++ v :: after)
      (hbefore : ∀ w ∈ before, w.kind = .number) (hkind : v.kind ≠ .number) :
      CallFailure name args (.notANumber (.argument (before.length + 1) name) v.kind)
  | arity {f : Builtin} (hname : Builtin.ofName? name = some f) (hargs : args = []) :
      CallFailure name args (.missingArgument name)

theorem callBuiltin_eq_error_iff {name : String} {args : List Value} {x : EvalError} :
    callBuiltin name args = .error x ↔ CallFailure name args x := by
  constructor
  · intro h
    rw [callBuiltin] at h
    cases hname : Builtin.ofName? name with
    | none =>
      rw [hname] at h
      cases h
      exact .name hname
    | some f =>
      rw [hname] at h
      dsimp only at h
      cases hfirst : args.find? (·.kind ≠ .number) with
      | none =>
        have hnumbers : ∀ v ∈ args, v.kind = .number := by simpa using hfirst
        obtain ⟨ns, hns, hlength⟩ := numberArguments_of_numbers name hnumbers 1
        rw [hns] at h
        cases ns with
        | nil =>
          cases h
          exact .arity hname (List.length_eq_zero_iff.1 hlength.symm)
        | cons first rest => cases h
      | some v =>
        obtain ⟨hkind, before, after, hargs, hbefore⟩ := List.find?_eq_some_iff_append.1 hfirst
        have hkind' : v.kind ≠ .number := by simpa using hkind
        have hbefore' : ∀ w ∈ before, w.kind = .number := by simpa using hbefore
        rw [hargs, numberArguments_of_leftmost name hbefore' hkind', Nat.add_comm] at h
        cases h
        exact .argument hname hargs hbefore' hkind'
  · rintro (hname | ⟨hname, rfl, hbefore, hkind⟩ | ⟨hname, rfl⟩)
    · rw [callBuiltin, hname]
    · rw [callBuiltin, hname]
      dsimp only
      rw [numberArguments_of_leftmost name hbefore hkind, Nat.add_comm]
    · rw [callBuiltin, hname]
      rfl

/-- An expression has a value iff all its subexpressions have values and its own operation succeeds,
and otherwise it has the error of the first subexpression in post-order whose children have values
and whose own operation fails. A call fails for its name before its arguments, and for the leftmost
argument that is not a number before the want of one. -/
theorem eval_first_error (context : Value) (e : Expr) :
    (∀ v, e.eval context = .ok v ↔
      (∀ s ∈ e.parts, ∃ w, s.eval context = .ok w) ∧ e.Performs context (.ok v)) ∧
    (∀ x, e.eval context = .error x ↔ ∃ before s after, e.postorder = before ++ s :: after ∧
      s.Performs context (.error x) ∧ ∀ b ∈ before, ∀ y, ¬ b.Performs context (.error y)) ∧
    ∀ name args x, (Expr.call name args).Performs context (.error x) ↔
      ∃ vs, Expr.Values context args vs ∧ CallFailure name vs x := by
  refine ⟨fun v => Expr.eval_eq_ok_iff, fun x => Expr.eval_eq_error_iff, fun name args x => ?_⟩
  constructor
  · rintro ⟨vs, hvs, hcall⟩
    exact ⟨vs, hvs, callBuiltin_eq_error_iff.1 (Expr.operation_call_iff.1 hcall).symm⟩
  · rintro ⟨vs, hvs, hfailure⟩
    exact ⟨vs, hvs, Expr.operation_call_iff.2 (callBuiltin_eq_error_iff.2 hfailure).symm⟩

/-- An argument without a value comes before a name that no function has. -/
example : (Expr.call "nosuch" [.number .zero, .var "x"]).eval .emptyObject =
    .error (.undefinedVariable "x") := rfl

end TextTemplate
