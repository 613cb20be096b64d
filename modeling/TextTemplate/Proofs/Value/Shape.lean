import TextTemplate.Proofs.Decimal.Numeral
import TextTemplate.Value.Printer
/-!
# The shape of values

- `Value.induction`: a property of all values from its parts.
- `Value.depth`: how deep arrays and objects are nested.
- `Value.KeysUnique`: no object stores a key twice, which is how every object of a data context is.
- `Value.finiteOnly`: the value with null in place of all numbers that are not finite.
- `Value.stored`: the value that the JSON text of a value stands for.
-/

namespace TextTemplate
namespace Value

/-- Induction over values, with one case for each kind. -/
@[elab_as_elim]
theorem induction {motive : Value → Prop} (null : motive .null)
    (boolean : ∀ b, motive (.boolean b)) (number : ∀ n, motive (.number n))
    (string : ∀ s, motive (.string s))
    (array : ∀ items, (∀ v ∈ items, motive v) → motive (.array items))
    (object : ∀ entries, (∀ e ∈ entries, motive e.2) → motive (.object entries)) :
    ∀ v, motive v
  | .null => null
  | .boolean b => boolean b
  | .number n => number n
  | .string s => string s
  | .array items =>
    array items fun v _ => induction null boolean number string array object v
  | .object entries =>
    object entries fun e _ => induction null boolean number string array object e.2
termination_by v => sizeOf v
decreasing_by
  · have hlt := List.sizeOf_lt_of_mem ‹v ∈ items›
    rw [Value.array.sizeOf_spec]
    omega
  · have hlt := List.sizeOf_lt_of_mem ‹e ∈ entries›
    have hpair : sizeOf e = 1 + sizeOf e.1 + sizeOf e.2 := by cases e; rfl
    rw [Value.object.sizeOf_spec]
    omega

/-! ## Nesting -/

mutual

/-- How many levels of arrays and objects a value has. -/
def depth : Value → Nat
  | .array items => 1 + itemsDepth items
  | .object entries => 1 + entriesDepth entries
  | _ => 0

/-- The largest depth of the values of a list. -/
def itemsDepth : List Value → Nat
  | [] => 0
  | v :: more => max (depth v) (itemsDepth more)

/-- The largest depth of the values of a list of entries. -/
def entriesDepth : List (String × Value) → Nat
  | [] => 0
  | (_, v) :: more => max (depth v) (entriesDepth more)

end

theorem depth_le_itemsDepth : ∀ {items : List Value} {v : Value}, v ∈ items →
    v.depth ≤ itemsDepth items
  | item :: more, v, h => by
    rw [itemsDepth]
    rcases List.mem_cons.1 h with rfl | hmore
    · exact Nat.le_max_left _ _
    · exact Nat.le_trans (depth_le_itemsDepth hmore) (Nat.le_max_right _ _)

theorem depth_le_entriesDepth : ∀ {entries : List (String × Value)} {e : String × Value},
    e ∈ entries → e.2.depth ≤ entriesDepth entries
  | entry :: more, e, h => by
    rw [entriesDepth]
    rcases List.mem_cons.1 h with rfl | hmore
    · exact Nat.le_max_left _ _
    · exact Nat.le_trans (depth_le_entriesDepth hmore) (Nat.le_max_right _ _)

/-! ## Keys -/

mutual

/-- No object within the value stores a key twice. -/
def KeysUnique : Value → Prop
  | .array items => ItemsKeysUnique items
  | .object entries => (entries.map (·.1)).Nodup ∧ EntriesKeysUnique entries
  | _ => True

/-- No object within the values of a list stores a key twice. -/
def ItemsKeysUnique : List Value → Prop
  | [] => True
  | v :: more => KeysUnique v ∧ ItemsKeysUnique more

/-- No object within the values of a list of entries stores a key twice. -/
def EntriesKeysUnique : List (String × Value) → Prop
  | [] => True
  | (_, v) :: more => KeysUnique v ∧ EntriesKeysUnique more

end

theorem ItemsKeysUnique.of_mem : ∀ {items : List Value} {v : Value}, ItemsKeysUnique items →
    v ∈ items → v.KeysUnique
  | _ :: _, _, ⟨hv, hmore⟩, h => (List.mem_cons.1 h).elim (fun heq => heq ▸ hv) hmore.of_mem

theorem EntriesKeysUnique.of_mem : ∀ {entries : List (String × Value)} {e : String × Value},
    EntriesKeysUnique entries → e ∈ entries → e.2.KeysUnique
  | _ :: _, _, ⟨hv, hmore⟩, h => (List.mem_cons.1 h).elim (fun heq => heq ▸ hv) hmore.of_mem

/-! ## Numbers that JSON cannot carry -/

mutual

/-- The value with null in place of every number that is not finite. -/
def finiteOnly : Value → Value
  | .number n => if n.isFinite then .number n else .null
  | .array items => .array (finiteItems items)
  | .object entries => .object (finiteEntries entries)
  | v => v

/-- `finiteOnly` for the values of a list. -/
def finiteItems : List Value → List Value
  | [] => []
  | v :: more => finiteOnly v :: finiteItems more

/-- `finiteOnly` for the values of a list of entries. -/
def finiteEntries : List (String × Value) → List (String × Value)
  | [] => []
  | (key, v) :: more => (key, finiteOnly v) :: finiteEntries more

end

theorem finiteItems_eq : ∀ items, finiteItems items = items.map finiteOnly
  | [] => rfl
  | v :: more => congrArg (finiteOnly v :: ·) (finiteItems_eq more)

theorem finiteEntries_eq : ∀ entries,
    finiteEntries entries = entries.map fun e => (e.1, e.2.finiteOnly)
  | [] => rfl
  | (key, v) :: more => congrArg ((key, finiteOnly v) :: ·) (finiteEntries_eq more)

/-! ## What a text stands for -/

mutual

/-- What the JSON text of a value stands for: negative zero has lost its sign, entries are in the
order of their keys, and the last of several entries with one key counts. -/
def stored : Value → Value
  | .number n => if n.isFinite then .number n.unsignedZero else .null
  | .array items => .array (storedItems items)
  | .object entries => ofEntries (sortByKey (storedEntries entries))
  | v => v

/-- `stored` for the values of a list. -/
def storedItems : List Value → List Value
  | [] => []
  | v :: more => stored v :: storedItems more

/-- `stored` for the values of a list of entries. -/
def storedEntries : List (String × Value) → List (String × Value)
  | [] => []
  | (key, v) :: more => (key, stored v) :: storedEntries more

end

theorem storedItems_eq : ∀ items, storedItems items = items.map stored
  | [] => rfl
  | v :: more => congrArg (stored v :: ·) (storedItems_eq more)

theorem storedEntries_eq : ∀ entries,
    storedEntries entries = entries.map fun e => (e.1, e.2.stored)
  | [] => rfl
  | (key, v) :: more => congrArg ((key, stored v) :: ·) (storedEntries_eq more)

/-! ## The parts of a text -/

/-- The JSON text of an entry. -/
def entryText (layout : Layout) (level : Nat) (e : String × Value) : List Char :=
  quote e.1.toList ++ (layout.colon ++ jsonChars layout level e.2)

theorem itemChars_eq (layout : Layout) (level : Nat) : ∀ items,
    itemChars layout level items = items.map (jsonChars layout level)
  | [] => rfl
  | v :: more => congrArg (jsonChars layout level v :: ·) (itemChars_eq layout level more)

theorem entryChars_eq (layout : Layout) (level : Nat) : ∀ entries,
    entryChars layout level entries = entries.map fun e => (e.1, entryText layout level e)
  | [] => rfl
  | (key, v) :: more => by
    rw [entryChars, List.map_cons, entryChars_eq layout level more, entryText, List.append_assoc]

/-! ## Sorted entries -/

/-- Sorting looks at the keys only. -/
theorem sortByKey_map {α β : Type} (f : String × α → β) (entries : List (String × α)) :
    sortByKey (entries.map fun e => (e.1, f e))
      = (sortByKey entries).map fun e => (e.1, f e) := by
  unfold sortByKey
  symm
  apply List.map_mergeSort
  intros
  rfl

theorem sortByKey_perm {α : Type} (entries : List (String × α)) :
    (sortByKey entries).Perm entries :=
  List.mergeSort_perm ..

end Value
end TextTemplate
