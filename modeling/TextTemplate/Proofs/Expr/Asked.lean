import TextTemplate.Proofs.Expr.FirstError
/-!
# What an expression asks of its data context

The data context is only ever asked for the names of variables. Evaluation is written once more so
that it sees nothing of a data context but the answers to its questions, and keeps a list of these.

- `Expr.varNames`: the names of the variables of an expression.
- `Asked`, `Expr.evalAsking`: evaluation that lists the keys it asks for; `Expr.result_evalAsking`:
  its results are those of evaluation.
- `Expr.follows_varNames`: the keys are the variables from left to right, up to the first error.
- `Expr.evalAsking_congr`: equal answers to these keys give equal runs.
- `Expr.eval_eq_of_agree`, `Expr.eval_of_extends`: two data contexts with the same variables, and
  one with further keys.
-/

namespace TextTemplate

/-! ## Variables -/

namespace Expr

/-- The name of a variable; no other expression is one. -/
def varName? : Expr → Option String
  | .var name => some name
  | _ => none

/-- The names of the variables of an expression, from left to right. -/
def varNames (e : Expr) : List String := e.postorder.filterMap varName?

theorem mem_varNames_iff {e : Expr} {name : String} :
    name ∈ e.varNames ↔ .var name ∈ e.postorder := by
  rw [varNames, List.mem_filterMap]
  constructor
  · rintro ⟨s, hs, hname⟩
    cases s with
    | var name' =>
      cases hname
      exact hs
    | number | binary | signed | call | index | property => cases hname
  · intro h
    exact ⟨_, h, rfl⟩

theorem varNames_eq {e : Expr} (h : e.varName? = none) :
    e.varNames = e.children.flatMap varNames := by
  rw [varNames, postorder_eq, parts, List.filterMap_append, List.filterMap_flatMap,
    List.filterMap_cons_none h, List.filterMap_nil, List.append_nil]
  rfl

end Expr

/-! ## Questions and answers -/

/-- A result, and the keys that were asked for on the way to it. -/
structure Asked (α : Type) where
  keys : List String
  result : Except EvalError α

namespace Asked

variable {α β : Type}

/-- A result that needs no questions. -/
def of (result : Except EvalError α) : Asked α := ⟨[], result⟩

/-- Goes on from a value; an error ends the questions. -/
def bind (x : Asked α) (f : α → Asked β) : Asked β :=
  match x.result with
  | .error e => ⟨x.keys, .error e⟩
  | .ok a => ⟨x.keys ++ (f a).keys, (f a).result⟩

theorem result_bind (x : Asked α) (f : α → Asked β) :
    (x.bind f).result = x.result.bind fun a => (f a).result := by
  rw [bind]
  cases x.result <;> rfl

/-- Two runs whose parts are the same, as long as all that is asked for has a property. -/
theorem bind_congr {p : String → Prop} {x x' : Asked α} {f f' : α → Asked β}
    (hx : (∀ key ∈ x.keys, p key) → x = x') (hf : ∀ a, (∀ key ∈ (f a).keys, p key) → f a = f' a)
    (h : ∀ key ∈ (x.bind f).keys, p key) : x.bind f = x'.bind f' := by
  rw [bind] at h
  cases hresult : x.result with
  | error e =>
    rw [hresult] at h
    rw [← hx h, bind, bind, hresult]
  | ok a =>
    rw [hresult] at h
    obtain ⟨hleft, hright⟩ := List.forall_mem_append.1 h
    rw [← hx hleft, bind, bind, hresult]
    dsimp only
    rw [hf a hright]

/-- What is asked for are the given names, one after the other. Only an error leaves out some of the
last ones. -/
structure Follows (x : Asked α) (names : List String) : Prop where
  starts : x.keys <+: names
  all : ∀ a, x.result = .ok a → x.keys = names

theorem Follows.of (result : Except EvalError α) : (of result).Follows [] :=
  ⟨List.nil_prefix, fun _ _ => rfl⟩

theorem Follows.bind {x : Asked α} {f : α → Asked β} {names more : List String}
    (hx : x.Follows names) (hf : ∀ a, (f a).Follows more) : (x.bind f).Follows (names ++ more) := by
  rw [Asked.bind]
  cases hresult : x.result with
  | error e =>
    exact ⟨hx.starts.trans (List.prefix_append names more), nofun⟩
  | ok a =>
    have hkeys : x.keys = names := hx.all a hresult
    refine ⟨?_, fun b hb => ?_⟩
    · show x.keys ++ (f a).keys <+: names ++ more
      rw [hkeys]
      exact (List.prefix_append_right_inj names).2 (hf a).starts
    · show x.keys ++ (f a).keys = names ++ more
      rw [hkeys, (hf a).all b hb]

end Asked

namespace Expr

mutual

/-- Evaluates an expression with nothing but answers to questions for keys. -/
def evalAsking (answer : String → Option Value) : Expr → Asked Value
  | .number n => .of (.ok (.number n))
  | .var name => ⟨[name], (answer name).elim (.error (.undefinedVariable name)) .ok⟩
  | .binary op left right =>
    (evalAsking answer left).bind fun a => (evalAsking answer right).bind fun b =>
      .of (op.apply a b)
  | .signed sign operand => (evalAsking answer operand).bind fun v => .of (sign.apply v)
  | .call name args => (evalAllAsking answer args).bind fun vs => .of (callBuiltin name vs)
  | .index collection position =>
    (evalAsking answer collection).bind fun c => (evalAsking answer position).bind fun p =>
      .of (c.item p)
  | .property object name => (evalAsking answer object).bind fun v => .of (v.property name)

/-- Evaluates expressions in a row. -/
def evalAllAsking (answer : String → Option Value) : List Expr → Asked (List Value)
  | [] => .of (.ok [])
  | e :: more =>
    (evalAsking answer e).bind fun v =>
      (evalAllAsking answer more).bind fun vs => .of (.ok (v :: vs))

end

mutual

/-- The results are those of evaluation in the data context that gives the answers. -/
theorem result_evalAsking (context : Value) :
    ∀ e : Expr, (e.evalAsking context.get?).result = e.eval context
  | .number n => by
    rw [evalAsking, eval]
    rfl
  | .var name => by
    rw [evalAsking, eval_var]
  | .binary op left right => by
    rw [evalAsking, eval_binary, Asked.result_bind, result_evalAsking context left]
    simp only [Asked.result_bind, result_evalAsking context right, Asked.of]
  | .signed sign operand => by
    rw [evalAsking, eval_signed, Asked.result_bind, result_evalAsking context operand]
    rfl
  | .call name args => by
    rw [evalAsking, eval_call, Asked.result_bind, result_evalAllAsking context args]
    rfl
  | .index collection position => by
    rw [evalAsking, eval_index, Asked.result_bind, result_evalAsking context collection]
    simp only [Asked.result_bind, result_evalAsking context position, Asked.of]
  | .property object name => by
    rw [evalAsking, eval_property, Asked.result_bind, result_evalAsking context object]
    rfl

theorem result_evalAllAsking (context : Value) :
    ∀ es : List Expr, (evalAllAsking context.get? es).result = evalAll context es
  | [] => by
    rw [evalAllAsking, evalAll]
    rfl
  | e :: more => by
    rw [evalAllAsking, evalAll_cons, Asked.result_bind, result_evalAsking context e]
    simp only [Asked.result_bind, result_evalAllAsking context more, Asked.of]

end

mutual

/-- The keys that are asked for are the variables from left to right, up to the first error. -/
theorem follows_varNames (answer : String → Option Value) :
    ∀ e : Expr, (e.evalAsking answer).Follows e.varNames
  | .number n => by
    rw [evalAsking]
    exact .of _
  | .var name => by
    rw [evalAsking]
    exact ⟨List.prefix_rfl, fun _ _ => rfl⟩
  | .binary op left right => by
    rw [evalAsking, varNames_eq rfl, children, List.flatMap_cons, List.flatMap_cons]
    exact (follows_varNames answer left).bind fun a =>
      (follows_varNames answer right).bind fun b => .of _
  | .signed sign operand => by
    rw [evalAsking, varNames_eq rfl, children, List.flatMap_cons]
    exact (follows_varNames answer operand).bind fun v => .of _
  | .call name args => by
    rw [evalAsking, varNames_eq rfl, children, ← List.append_nil (args.flatMap varNames)]
    exact (follows_allVarNames answer args).bind fun vs => .of _
  | .index collection position => by
    rw [evalAsking, varNames_eq rfl, children, List.flatMap_cons, List.flatMap_cons]
    exact (follows_varNames answer collection).bind fun c =>
      (follows_varNames answer position).bind fun p => .of _
  | .property object name => by
    rw [evalAsking, varNames_eq rfl, children, List.flatMap_cons]
    exact (follows_varNames answer object).bind fun v => .of _

theorem follows_allVarNames (answer : String → Option Value) :
    ∀ es : List Expr, (evalAllAsking answer es).Follows (es.flatMap varNames)
  | [] => by
    rw [evalAllAsking]
    exact .of _
  | e :: more => by
    rw [evalAllAsking, List.flatMap_cons, ← List.append_nil (more.flatMap varNames)]
    exact (follows_varNames answer e).bind fun v =>
      (follows_allVarNames answer more).bind fun vs => .of _

end

mutual

/-- Two runs with the same answers to all that the first one asks for are the same. -/
theorem evalAsking_congr {answer answer' : String → Option Value} : ∀ e : Expr,
    (∀ key ∈ (e.evalAsking answer).keys, answer key = answer' key) →
    e.evalAsking answer = e.evalAsking answer'
  | .number n, _ => by rw [evalAsking, evalAsking]
  | .var name, h => by
    rw [evalAsking] at h
    rw [evalAsking, evalAsking, h name List.mem_cons_self]
  | .binary op left right, h => by
    rw [evalAsking] at h ⊢
    rw [evalAsking]
    exact Asked.bind_congr (evalAsking_congr left)
      (fun a => Asked.bind_congr (evalAsking_congr right) fun b _ => rfl) h
  | .signed sign operand, h => by
    rw [evalAsking] at h ⊢
    rw [evalAsking]
    exact Asked.bind_congr (evalAsking_congr operand) (fun v _ => rfl) h
  | .call name args, h => by
    rw [evalAsking] at h ⊢
    rw [evalAsking]
    exact Asked.bind_congr (evalAllAsking_congr args) (fun vs _ => rfl) h
  | .index collection position, h => by
    rw [evalAsking] at h ⊢
    rw [evalAsking]
    exact Asked.bind_congr (evalAsking_congr collection)
      (fun c => Asked.bind_congr (evalAsking_congr position) fun p _ => rfl) h
  | .property object name, h => by
    rw [evalAsking] at h ⊢
    rw [evalAsking]
    exact Asked.bind_congr (evalAsking_congr object) (fun v _ => rfl) h

theorem evalAllAsking_congr {answer answer' : String → Option Value} : ∀ es : List Expr,
    (∀ key ∈ (evalAllAsking answer es).keys, answer key = answer' key) →
    evalAllAsking answer es = evalAllAsking answer' es
  | [], _ => by rw [evalAllAsking, evalAllAsking]
  | e :: more, h => by
    rw [evalAllAsking] at h ⊢
    rw [evalAllAsking]
    exact Asked.bind_congr (evalAsking_congr e)
      (fun v => Asked.bind_congr (evalAllAsking_congr more) fun vs _ => rfl) h

end

variable {context context' : Value} {e : Expr}

/-- Two data contexts with the same variables give the same value or the same error. -/
theorem eval_eq_of_agree (h : ∀ name ∈ e.varNames, context.get? name = context'.get? name) :
    e.eval context = e.eval context' := by
  have hkeys : ∀ key ∈ (e.evalAsking context.get?).keys, context.get? key = context'.get? key :=
    fun key hkey => h key ((follows_varNames _ e).starts.subset hkey)
  rw [← result_evalAsking, ← result_evalAsking, evalAsking_congr e hkeys]

/-- All variables of an expression with a value are in the data context, so that further keys do not
change the value. -/
theorem eval_of_extends {v : Value}
    (h : ∀ key w, context.get? key = some w → context'.get? key = some w)
    (hvalue : e.eval context = .ok v) : e.eval context' = .ok v := by
  rw [← hvalue]
  symm
  refine eval_eq_of_agree fun name hname => ?_
  obtain ⟨w, hw⟩ := hasValue_of_mem_postorder ⟨v, hvalue⟩ (mem_varNames_iff.1 hname)
  rw [eval_var] at hw
  cases hfound : context.get? name with
  | none => rw [hfound] at hw; cases hw
  | some found => rw [h name found hfound]

end Expr
end TextTemplate
