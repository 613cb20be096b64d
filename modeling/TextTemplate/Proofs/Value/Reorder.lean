import Mathlib
import TextTemplate.Proofs.Value.RoundTrip
/-!
# The order of entries

Two values that differ only in the order in which their objects store entries have the same texts,
because the entries are sorted before anything is printed or cut off.

- `Value.Reorders`: the same value up to the order of entries, at any level.
- `sortByKey_eq_of_perm`, `lookup_eq_of_perm`: entries with different keys are sorted and found in
  the same way, whatever the order in which they are stored.
- `Same`: `Reorders`, for values that store no key twice.
- `Same.jsonChars_eq`, `Same.display_eq`, `Same.summary_eq`: the texts of such values.
- `Same.lookup`: their entries.
-/

namespace TextTemplate
namespace Value

mutual

/-- The values differ only in the order in which objects store their entries, at any level. -/
def Reorders : Value → Value → Prop
  | .array items, .array items' => ItemsReorder items items'
  | .object entries, .object entries' =>
    ∃ moved, moved.Perm entries' ∧ EntriesReorder entries moved
  | v, w => v = w

/-- The lists hold such values position by position. -/
def ItemsReorder : List Value → List Value → Prop
  | [], [] => True
  | v :: more, w :: more' => Reorders v w ∧ ItemsReorder more more'
  | _, _ => False

/-- The lists hold the same keys with such values, position by position. -/
def EntriesReorder : List (String × Value) → List (String × Value) → Prop
  | [], [] => True
  | (key, v) :: more, (key', w) :: more' => key = key' ∧ Reorders v w ∧ EntriesReorder more more'
  | _, _ => False

end

mutual

theorem Reorders.refl : ∀ v : Value, v.Reorders v
  | .null => rfl
  | .boolean _ => rfl
  | .number _ => rfl
  | .string _ => rfl
  | .array items => ItemsReorder.refl items
  | .object entries => ⟨entries, .refl entries, EntriesReorder.refl entries⟩

theorem ItemsReorder.refl : ∀ items : List Value, ItemsReorder items items
  | [] => trivial
  | v :: more => ⟨Reorders.refl v, ItemsReorder.refl more⟩

theorem EntriesReorder.refl : ∀ entries : List (String × Value), EntriesReorder entries entries
  | [] => trivial
  | (_, v) :: more => ⟨rfl, Reorders.refl v, EntriesReorder.refl more⟩

end

/-! ## Items and entries -/

namespace ItemsReorder

theorem length_eq : ∀ {items items' : List Value}, ItemsReorder items items' →
    items.length = items'.length
  | [], [], _ => rfl
  | _ :: _, _ :: _, ⟨_, hmore⟩ => congrArg (· + 1) hmore.length_eq

/-- What does not see the order of entries is the same for all items. -/
theorem map_eq {α : Type} {f : Value → α} : ∀ {items items' : List Value},
    ItemsReorder items items' → (∀ v ∈ items, ∀ w, v.Reorders w → f v = f w) →
    items.map f = items'.map f
  | [], [], _, _ => rfl
  | v :: more, w :: more', ⟨hv, hmore⟩, hf => by
    rw [List.forall_mem_cons] at hf
    rw [List.map_cons, List.map_cons, hf.1 w hv, hmore.map_eq hf.2]

end ItemsReorder

namespace EntriesReorder

/-- What does not see the order of entries is the same for all entries. -/
theorem map_eq {α : Type} {f : String × Value → α} : ∀ {entries moved : List (String × Value)},
    EntriesReorder entries moved →
    (∀ e ∈ entries, ∀ w, e.2.Reorders w → f e = f (e.1, w)) → entries.map f = moved.map f
  | [], [], _, _ => rfl
  | (key, v) :: more, (_, w) :: more', ⟨rfl, hv, hmore⟩, hf => by
    rw [List.forall_mem_cons] at hf
    rw [List.map_cons, List.map_cons, hf.1 w hv, hmore.map_eq hf.2]

theorem keys_eq {entries moved : List (String × Value)} (h : EntriesReorder entries moved) :
    entries.map (·.1) = moved.map (·.1) :=
  h.map_eq fun _ _ _ _ => rfl

end EntriesReorder

/-! ## Entries with different keys -/

theorem pairwise_sortByKey {α : Type} (entries : List (String × α)) :
    (sortByKey entries).Pairwise fun a b => a.1 ≤ b.1 := by
  have hsorted : (sortByKey entries).Pairwise fun a b => decide (a.1 ≤ b.1) = true := by
    refine List.pairwise_mergeSort ?_ ?_ entries
    · intro a b c hab hbc
      exact decide_eq_true (String.le_trans (of_decide_eq_true hab) (of_decide_eq_true hbc))
    · intro a b
      simpa using String.le_total a.1 b.1
  exact hsorted.imp of_decide_eq_true

/-- Entries with different keys are sorted in one way only. -/
theorem sortByKey_eq_of_perm {α : Type} {entries entries' : List (String × α)}
    (hperm : entries.Perm entries') (hnodup : (entries.map (·.1)).Nodup) :
    sortByKey entries = sortByKey entries' := by
  have hsorted := (sortByKey_perm entries).trans (hperm.trans (sortByKey_perm entries').symm)
  refine List.Perm.eq_of_pairwise ?_ (pairwise_sortByKey _) (pairwise_sortByKey _) hsorted
  intro a b ha hb hab hba
  -- two entries with one key are the same entry
  have ha' : a ∈ entries := (sortByKey_perm entries).mem_iff.1 ha
  have hb' : b ∈ entries := hperm.mem_iff.2 ((sortByKey_perm entries').mem_iff.1 hb)
  exact List.inj_on_of_nodup_map hnodup ha' hb' (String.le_antisymm hab hba)

theorem mem_of_lookup {entries : List (String × Value)} {key : String} {v : Value}
    (h : entries.lookup key = some v) : (key, v) ∈ entries := by
  obtain ⟨before, after, rfl, -⟩ := List.lookup_eq_some_iff.1 h
  exact List.mem_append_right _ List.mem_cons_self

/-- An entry is found wherever it is stored, as long as the keys are different. -/
theorem lookup_eq_of_perm {entries entries' : List (String × Value)}
    (hperm : entries.Perm entries') (hnodup : (entries.map (·.1)).Nodup) (key : String) :
    entries.lookup key = entries'.lookup key := by
  have hnodup' : (entries'.map (·.1)).Nodup := (hperm.map _).nodup_iff.1 hnodup
  cases hlookup : entries.lookup key with
  | some v =>
    exact (lookup_of_mem hnodup' (hperm.mem_iff.1 (mem_of_lookup hlookup))).symm
  | none =>
    rw [List.lookup_eq_none_iff] at hlookup
    symm
    rw [List.lookup_eq_none_iff]
    intro e he
    exact hlookup e (hperm.mem_iff.2 he)

/-! ## The same data -/

/-- The values differ only in the order of entries, and store no key twice. -/
structure Same (v w : Value) : Prop where
  keysUnique : v.KeysUnique
  reorders : v.Reorders w

/-- The same data at every position of two lists. -/
structure SameItems (items items' : List Value) : Prop where
  keysUnique : ItemsKeysUnique items
  reorder : ItemsReorder items items'

/-- Both lists have the same data at a position, or none of them has any. -/
theorem SameItems.getElem? {items items' : List Value} (h : SameItems items items') (n : Nat) :
    Option.Rel Same items[n]? items'[n]? := by
  induction items generalizing items' n with
  | nil =>
    cases items' with
    | nil => exact .none
    | cons => exact h.reorder.elim
  | cons v more ih =>
    cases items' with
    | nil => exact h.reorder.elim
    | cons w more' =>
      obtain ⟨⟨hv, hmore⟩, hvw, hreorder⟩ := h
      cases n with
      | zero => exact .some ⟨hv, hvw⟩
      | succ n => exact ih ⟨hmore, hreorder⟩ n

/-- Both lists have the same data under a key, or none of them has any. -/
theorem EntriesReorder.lookup {entries moved : List (String × Value)}
    (h : EntriesReorder entries moved) (hkeys : EntriesKeysUnique entries) (key : String) :
    Option.Rel Same (entries.lookup key) (moved.lookup key) := by
  induction entries generalizing moved with
  | nil =>
    cases moved with
    | nil => exact .none
    | cons => exact h.elim
  | cons entry more ih =>
    cases moved with
    | nil => exact h.elim
    | cons entry' more' =>
      obtain ⟨k, v⟩ := entry
      obtain ⟨k', w⟩ := entry'
      obtain ⟨rfl, hvw, hmore⟩ := h
      rw [List.lookup_cons, List.lookup_cons]
      cases key == k with
      | true => exact .some ⟨hkeys.1, hvw⟩
      | false => exact ih hmore hkeys.2

namespace Same

variable {v w : Value} {items items' : List Value} {entries moved : List (String × Value)}

theorem refl (h : v.KeysUnique) : Same v v := ⟨h, .refl v⟩

theorem of_array (h : Same (.array items) w) :
    ∃ items', w = .array items' ∧ SameItems items items' := by
  cases w with
  | array items' => exact ⟨items', rfl, h.keysUnique, h.reorders⟩
  | null | boolean | number | string | object => cases h.reorders

theorem of_object (h : Same (.object entries) w) : ∃ entries', w = .object entries' := by
  cases w with
  | object entries' => exact ⟨entries', rfl⟩
  | null | boolean | number | string | array => cases h.reorders

/-- The same data is equal, or both values are arrays, or both are objects. -/
theorem cases (h : Same v w) :
    v = w ∨
    (∃ items items', v = .array items ∧ w = .array items' ∧ SameItems items items') ∨
    ∃ entries entries', v = .object entries ∧ w = .object entries' := by
  cases v with
  | array items =>
    obtain ⟨items', rfl, hitems⟩ := h.of_array
    exact .inr (.inl ⟨items, items', rfl, rfl, hitems⟩)
  | object entries =>
    obtain ⟨entries', rfl⟩ := h.of_object
    exact .inr (.inr ⟨entries, entries', rfl, rfl⟩)
  | null | boolean | number | string => exact .inl h.reorders

theorem kind_eq (h : Same v w) : v.kind = w.kind := by
  obtain rfl | ⟨_, _, rfl, rfl, -⟩ | ⟨_, _, rfl, rfl⟩ := h.cases <;> rfl

theorem number?_eq (h : Same v w) : v.number? = w.number? := by
  obtain rfl | ⟨_, _, rfl, rfl, -⟩ | ⟨_, _, rfl, rfl⟩ := h.cases <;> rfl

/-- Sorted entries are the same if what becomes of each does not depend on the order within. -/
theorem sortByKey_map_eq {α : Type} {f : String × Value → α} {entries' : List (String × Value)}
    (hnodup : (entries.map (·.1)).Nodup) (hperm : moved.Perm entries')
    (hf : entries.map (fun e => (e.1, f e)) = moved.map fun e => (e.1, f e)) :
    (sortByKey entries).map (fun e => (e.1, f e)) =
      (sortByKey entries').map fun e => (e.1, f e) := by
  rw [← sortByKey_map, ← sortByKey_map]
  refine sortByKey_eq_of_perm (hf ▸ hperm.map _) ?_
  rw [List.map_map]
  exact hnodup

/-- The same data has the same JSON text, in every layout. -/
theorem jsonChars_eq (layout : Layout) (h : Same v w) (level : Nat) :
    jsonChars layout level v = jsonChars layout level w := by
  induction v using Value.induction generalizing w level with
  | null | boolean | number | string =>
    cases h.reorders
    rfl
  | array items ih =>
    obtain ⟨items', rfl, hkeys, hitems⟩ := h.of_array
    rw [jsonChars, jsonChars, itemChars_eq, itemChars_eq, hitems.map_eq]
    intro v hv w hvw
    exact ih v hv ⟨hkeys.of_mem hv, hvw⟩ (level + 1)
  | object entries ih =>
    obtain ⟨entries', rfl⟩ := h.of_object
    obtain ⟨⟨hnodup, hkeys⟩, moved, hperm, hentries⟩ := h
    have htexts : entries.map (fun e => (e.1, entryText layout (level + 1) e)) =
        moved.map fun e => (e.1, entryText layout (level + 1) e) := by
      refine hentries.map_eq ?_
      intro e he w hw
      rw [entryText, entryText, ih e he ⟨hkeys.of_mem he, hw⟩ (level + 1)]
    rw [jsonChars, jsonChars, entryChars_eq, entryChars_eq, sortByKey_map, sortByKey_map,
      sortByKey_map_eq hnodup hperm htexts]

theorem compact_eq (h : Same v w) : v.compact = w.compact := by
  rw [compact, compact, h.jsonChars_eq]

theorem indented_eq (h : Same v w) : v.indented = w.indented := by
  rw [indented, indented, h.jsonChars_eq]

/-- The same data has the same text in a template. -/
theorem display_eq (h : Same v w) : v.display = w.display := by
  have hcompact := h.compact_eq
  obtain rfl | ⟨_, _, rfl, rfl, -⟩ | ⟨_, _, rfl, rfl⟩ := h.cases
  · rfl
  · exact hcompact
  · exact hcompact

/-- The same data has the same summary, although a summary lists only the first keys. -/
theorem summary_eq (h : Same v w) : v.summary = w.summary := by
  obtain rfl | ⟨items, items', rfl, rfl, hitems⟩ | ⟨entries, entries', rfl, rfl⟩ := h.cases
  · rfl
  · rw [summary, summary, hitems.reorder.length_eq]
  · obtain ⟨⟨hnodup, -⟩, moved, hperm, hentries⟩ := h
    have hkeys : entries.map (fun e => (e.1, ())) = moved.map fun e => (e.1, ()) :=
      hentries.map_eq fun _ _ _ _ => rfl
    have hsorted := congrArg (List.map (·.1)) (sortByKey_map_eq hnodup hperm hkeys)
    rw [List.map_map, List.map_map] at hsorted
    have hlisted : (sortByKey entries).map (·.1) = (sortByKey entries').map (·.1) := hsorted
    rw [summary, summary, hlisted]

/-- Both objects have the same data under a key, or none of them has any. -/
theorem lookup {entries' : List (String × Value)}
    (h : Same (.object entries) (.object entries')) (key : String) :
    Option.Rel Same (entries.lookup key) (entries'.lookup key) := by
  obtain ⟨⟨hnodup, hkeys⟩, moved, hperm, hentries⟩ := h
  rw [hentries.keys_eq] at hnodup
  rw [← lookup_eq_of_perm hperm hnodup]
  exact hentries.lookup hkeys key

/-- The same for the entries of any value. -/
theorem get? (h : Same v w) (key : String) : Option.Rel Same (v.get? key) (w.get? key) := by
  cases v with
  | object entries =>
    obtain ⟨entries', rfl⟩ := h.of_object
    exact h.lookup key
  | array items =>
    obtain ⟨items', rfl, -⟩ := h.of_array
    exact .none
  | null | boolean | number | string =>
    cases h.reorders
    exact .none

end Same

end Value
end TextTemplate
