import TextTemplate.Proofs.Binary64.Extreme
import TextTemplate.Proofs.Expr.FirstError
/-!
# Calls with numbers

A call finds its function by the name in any letter case and takes the doubles of its arguments. For
`min` and `max` the result is the extreme one of these doubles.

- `Builtin.ofName?_of_spelled`, `numberArguments_numbers`: how a call finds function and numbers.
- `Builtin.Gives`, `Builtin.gives_compute`: the result for numbers, under every spelling of a name.
- `Builtin.exists_extreme`: functions that pick by an order.
- `extremes_exact`: `min` and `max`.
-/

namespace TextTemplate

/-- The function of a name, which may be written in any letter case. -/
theorem Builtin.ofName?_of_spelled {name : String} {f : Builtin}
    (h : name.toList.map Char.toLower = f.name.toList) : Builtin.ofName? name = some f := by
  have hspells : ∀ g : Builtin, spells g.name name.toList = decide (f = g) := by
    intro g
    rw [spells, h]
    cases f <;> cases g <;> decide
  unfold ofName?
  simp only [hspells]
  cases f <;> rfl

theorem numberArguments_numbers (function : String) (position : Nat) (ns : List Binary64) :
    numberArguments function position (ns.map .number) = .ok ns := by
  induction ns generalizing position with
  | nil => rfl
  | cons n ns ih =>
    rw [List.map_cons, numberArguments, ih]
    rfl

/-- A function gives this number for these ones, under its name in any letter case. -/
def Builtin.Gives (f : Builtin) (numbers : List Binary64) (r : Binary64) : Prop :=
  ∀ name : String, name.toList.map Char.toLower = f.name.toList →
    callBuiltin name (numbers.map .number) = .ok (.number r)

theorem Builtin.gives_compute (f : Builtin) (first : Binary64) (rest : List Binary64) :
    f.Gives (first :: rest) (f.compute first rest) := by
  intro name hname
  rw [callBuiltin, ofName?_of_spelled hname]
  dsimp only
  rw [numberArguments_numbers]

/-- Where a function picks by an order, calls with the same arguments in any order and number give
the same number. -/
theorem Builtin.exists_extreme {f : Builtin} {pick : Binary64 → Binary64 → Binary64}
    {before : Binary64 → Binary64 → Bool} (hpick : Binary64.Picks pick before)
    (hf : ∀ first rest, f.compute first rest = .extreme pick first rest) (first : Binary64)
    (rest : List Binary64) : ∃ r, f.Gives (first :: rest) r ∧
      Binary64.IsExtreme before (first :: rest) r ∧
      ∀ others : List Binary64, (∀ x, x ∈ first :: rest ↔ x ∈ others) →
        ∃ r', f.Gives others r' ∧ r.SameNumber r' := by
  have hextreme : ∀ first rest,
      Binary64.IsExtreme before (first :: rest) (f.compute first rest) := by
    intro first rest
    rw [hf]
    exact hpick.isExtreme
  refine ⟨_, gives_compute f first rest, hextreme first rest, fun others hsame => ?_⟩
  cases others with
  | nil => exact absurd ((hsame first).1 List.mem_cons_self) List.not_mem_nil
  | cons first' rest' =>
    exact ⟨_, gives_compute f first' rest', (hextreme first rest).sameNumber hpick
      (hextreme first' rest') hsame⟩

/-- Called with numbers, `min` and `max` give the extreme one in any letter case: not-a-number iff
there is one among them, and otherwise a number that is equal to one of them and bounds all of them.
Order and repetition of the arguments do not matter. -/
theorem extremes_exact (first : Binary64) (rest : List Binary64) :
    (∃ r, Builtin.min.Gives (first :: rest) r ∧
      Binary64.IsExtreme (fun x y => x.le y) (first :: rest) r ∧
      ∀ others : List Binary64, (∀ x, x ∈ first :: rest ↔ x ∈ others) →
        ∃ r', Builtin.min.Gives others r' ∧ r.SameNumber r') ∧
    (∃ r, Builtin.max.Gives (first :: rest) r ∧
      Binary64.IsExtreme (fun x y => y.le x) (first :: rest) r ∧
      ∀ others : List Binary64, (∀ x, x ∈ first :: rest ↔ x ∈ others) →
        ∃ r', Builtin.max.Gives others r' ∧ r.SameNumber r') :=
  ⟨Builtin.exists_extreme Binary64.picks_min (fun _ _ => rfl) first rest,
    Builtin.exists_extreme Binary64.picks_max (fun _ _ => rfl) first rest⟩

/-- An infinity does not outweigh not-a-number. -/
example : callBuiltin "mAX" [.number .nan, .number (.infinite false)] = .ok (.number .nan) := rfl

end TextTemplate
