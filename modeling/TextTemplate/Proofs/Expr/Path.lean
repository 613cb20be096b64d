import TextTemplate.Proofs.Binary64.WholeNumber
import TextTemplate.Proofs.Expr.Eval
import TextTemplate.Proofs.Parser.Printed
import TextTemplate.Proofs.Token.LongestCut
/-!
# Paths

A name with properties and positions behind it is a path into the data context. Its text is parsed
as one chain, and the chain is evaluated by following the path step by step.

- `PathStep`: a property or a position; `PathStep.find?`: where it leads from a value.
- `followPath`, `lookupPath`: the value at the end of a path, or the error of the first step that
  leads nowhere.
- `PrintsChain.extend`, `Expr.eval_extend`: what one step adds to the text and to the value.
- `evaluate_path`: the text of a path has the value that the path leads to.
-/

namespace TextTemplate

attribute [local instance] natPow

/-! ## Steps -/

/-- Digits between brackets that write a whole number below `2 ^ 53`, perhaps with zeros before it. -/
structure Position where
  digits : List Char
  digits_ne_nil : digits ≠ []
  isDigit : ∀ c ∈ digits, c.isDigit = true
  value_lt : Nat.ofDigitChars 10 digits 0 < 2 ^ (53 : Nat)

/-- The number that the digits write. -/
def Position.value (p : Position) : Nat := Nat.ofDigitChars 10 p.digits 0

theorem Position.lt (p : Position) : p.value < 2 ^ (53 : Nat) := p.value_lt

/-- A step of a path. -/
inductive PathStep where
  /-- To a property, by its name. -/
  | property (name : String) (isName : IsName name)
  /-- To an item of an array. -/
  | position (p : Position)

namespace PathStep

/-- The text of a step. -/
def chars : PathStep → List Char
  | .property name _ => '.' :: name.toList
  | .position p => '[' :: (p.digits ++ [']'])

/-- Where a step leads from a value: to the entry of an object, also one with the name of the
length, to the number of items of an array or of characters of a text, or to an item. -/
def find? : PathStep → Value → Option Value
  | .property name _, .object entries => entries.lookup name
  | .property name _, .array items =>
    if name = "length" then some (.number (.ofNat items.length)) else none
  | .property name _, .string s =>
    if name = "length" then some (.number (.ofNat s.length)) else none
  | .position p, .array items => items[p.value]?
  | _, _ => none

/-- Why a step leads nowhere from a value. -/
def refusal : PathStep → Value → EvalError
  | .property name _, v => .missingProperty name v.summary
  | .position p, .array items => .indexOutOfBounds (.ofNat p.value) items.length
  | .position _, v => .notIndexable v.kind

/-- An expression with one step more. -/
def extend (e : Expr) : PathStep → Expr
  | .property name _ => .property e name
  | .position p => .index e (.number (.ofNat p.value))

end PathStep

/-! ## Paths -/

/-- The value that a path leads to, or the error of its first step that leads nowhere. -/
def followPath (v : Value) : List PathStep → Except EvalError Value
  | [] => .ok v
  | step :: more =>
    match step.find? v with
    | some w => followPath w more
    | none => .error (step.refusal v)

/-- The value that a path leads to from an entry of the data context. -/
def lookupPath (context : Value) (root : String) (path : List PathStep) : Except EvalError Value :=
  match context.get? root with
  | some v => followPath v path
  | none => .error (.undefinedVariable root)

/-- The text of a path. -/
def pathText (root : String) (path : List PathStep) : String :=
  String.ofList (root.toList ++ path.flatMap PathStep.chars)

/-- The expression of a path. -/
def pathExpr (root : String) (path : List PathStep) : Expr := path.foldl PathStep.extend (.var root)

/-! ## The text of a path -/

/-- Digits stand for the number that they write. -/
theorem Position.prints (p : Position) :
    Prints .atom (.number (.ofNat p.value)) p.digits 0 := by
  refine ⟨.number (.ofNat p.value), rfl, Nat.le_refl 0, ?_⟩
  intro rest hrest
  have hvalue : numeralValue p.digits = .ofNat p.value := by
    have happend := numeralValue_append (.whole p.digits_ne_nil p.isDigit) (.inl rfl)
    rwa [List.append_nil] at happend
  rw [← hvalue]
  obtain ⟨first, tail, hdigits⟩ := List.exists_cons_of_ne_nil p.digits_ne_nil
  have hrun := p.isDigit
  rw [hdigits] at hrun ⊢
  refine .number (hrun first List.mem_cons_self) ?_ hrest.numeral
  intro c hc
  exact isNumeralChar_iff.2 (.inl (hrun c (List.mem_cons_of_mem _ hc)))

theorem PrintsChain.extend {e : Expr} {cs : List Char} {k : Nat} (h : PrintsChain e cs k) :
    ∀ step : PathStep, PrintsChain (step.extend e) (cs ++ step.chars) (k + 1)
  | .property _ isName => h.property isName
  | .position p => h.index p.prints.atSum

/-- Each step takes one level. -/
theorem PrintsChain.path {e : Expr} {cs : List Char} {k : Nat} (h : PrintsChain e cs k)
    (path : List PathStep) :
    PrintsChain (path.foldl PathStep.extend e) (cs ++ path.flatMap PathStep.chars)
      (k + path.length) := by
  induction path generalizing e cs k with
  | nil => simpa using h
  | cons step more ih =>
    have hmore := ih (h.extend step)
    rw [List.append_assoc, Nat.add_right_comm] at hmore
    exact hmore

theorem parse_pathText {root : String} {path : List PathStep} (hroot : IsName root)
    (hlength : path.length ≤ depthLimit) :
    Expr.parse (pathText root path) = .ok (pathExpr root path) := by
  have hchain := (PrintsChain.var hroot).path path
  rw [Nat.zero_add] at hchain
  exact hchain.prints.parse_cases.2 hlength

/-! ## The value of a path -/

/-- A whole number below `2 ^ 53` is the position that it says. -/
theorem Position.item_eq (p : Position) (items : List Value) :
    (Value.array items).item (.number (.ofNat p.value)) =
      items[p.value]?.elim (.error (.indexOutOfBounds (.ofNat p.value) items.length)) .ok := by
  rw [Value.item_array, Value.number?]
  dsimp only
  rw [if_pos (Binary64.isInteger_ofNat p.lt), Binary64.not_ofNat_lt_zero p.lt,
    Binary64.toNat_ofNat p.lt, Bool.false_or]
  split
  · next hle =>
    rw [List.getElem?_eq_none ((Binary64.ofNat_le_ofNat_iff p.lt).1 hle), Option.elim_none]
  · rfl

/-- A step more takes the value of an expression where the step leads. -/
theorem Expr.eval_extend (context : Value) (e : Expr) (step : PathStep) :
    (step.extend e).eval context =
      (e.eval context).bind fun v => (step.find? v).elim (.error (step.refusal v)) .ok := by
  cases step with
  | property name isName =>
    rw [PathStep.extend, eval_property]
    congr 1
    funext v
    rw [Value.property_eq]
    cases v <;> rfl
  | position p =>
    rw [PathStep.extend, eval_index]
    congr 1
    funext v
    show v.item (.number (.ofNat p.value)) = _
    cases v with
    | array items => exact p.item_eq items
    | null | boolean | number | string | object => rfl

theorem Expr.eval_path (context : Value) (path : List PathStep) (e : Expr) :
    (path.foldl PathStep.extend e).eval context =
      (e.eval context).bind fun v => followPath v path := by
  induction path generalizing e with
  | nil =>
    show e.eval context = (e.eval context).bind .ok
    cases e.eval context <;> rfl
  | cons step more ih =>
    rw [List.foldl_cons, ih, eval_extend]
    cases e.eval context with
    | error x => rfl
    | ok v =>
      dsimp only [Except.bind]
      rw [followPath]
      cases step.find? v <;> rfl

/-- The text of a path of at most 256 steps has the value that the path leads to, step by step, and
the error of the first step that leads nowhere. -/
theorem evaluate_path (context : Value) {root : String} {path : List PathStep}
    (hroot : IsName root) (hlength : path.length ≤ 256) :
    evaluate (pathText root path) context = (lookupPath context root path).mapError .eval := by
  rw [evaluate_eq, parse_pathText hroot hlength]
  show ((pathExpr root path).eval context).mapError ExprError.eval = _
  rw [pathExpr, Expr.eval_path, Expr.eval_var, lookupPath]
  cases context.get? root <;> rfl

/-- The entry "length" of an object comes before the number of what it holds. -/
theorem evaluate_path_own_length :
    evaluate "a.length[00].b.length"
        (.object [("a", .object [("length", .array [.object [("b", .string "xy")]])])]) =
      .ok (.number (.ofNat 2)) := by
  have ha : IsName "a" := ⟨'a', [], rfl, by decide, by simp⟩
  have hb : IsName "b" := ⟨'b', [], rfl, by decide, by simp⟩
  have hlength : IsName "length" := ⟨'l', ['e', 'n', 'g', 't', 'h'], rfl, by decide,
    by simp [isNameChar]⟩
  let path : List PathStep := [.property "length" hlength,
    .position ⟨['0', '0'], by decide, by simp, by decide⟩, .property "b" hb,
    .property "length" hlength]
  have htext : pathText "a" path = "a.length[00].b.length" := rfl
  rw [← htext, evaluate_path _ ha (Nat.le_of_ble_eq_true rfl)]
  rfl

end TextTemplate
