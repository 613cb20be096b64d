import TextTemplate.Proofs.Value.Printed
/-!
# Round trips of values

What the text of a value stands for is equal to the value, with null for the numbers that JSON
cannot carry, as long as no object stores a key twice.

- `ofEntries_of_nodup`: entries with different keys make up an object as they are.
- `equals_object`: equality of objects from that of their entries, in any order.
- `equals_stored`: what a text stands for is equal to the value.
- `json_round_trip`: printing and reading.
-/

namespace TextTemplate
namespace Value

/-! ## Objects with different keys -/

theorem insertEntry_of_not_mem {key : String} {v : Value} : ∀ {entries : List (String × Value)},
    key ∉ entries.map (·.1) → insertEntry entries key v = entries ++ [(key, v)]
  | [], _ => rfl
  | (k, u) :: more, h => by
    obtain ⟨hkey, hmore⟩ := not_or.1 ((not_congr List.mem_cons).1 h)
    rw [insertEntry, if_neg (Ne.symm hkey), insertEntry_of_not_mem hmore, List.cons_append]

theorem foldl_insertEntry : ∀ entries before : List (String × Value),
    ((before ++ entries).map (·.1)).Nodup →
    entries.foldl (fun stored e => insertEntry stored e.1 e.2) before = before ++ entries
  | [], before, _ => (List.append_nil before).symm
  | (key, v) :: more, before, h => by
    -- the keys stored so far and those to come are all different, and stay so with each step
    have hnew : key ∉ before.map (·.1) := by
      rw [List.map_append, List.nodup_append] at h
      exact fun hmem => h.2.2 key hmem key List.mem_cons_self rfl
    rw [List.append_cons] at h
    rw [List.foldl_cons, insertEntry_of_not_mem hnew, foldl_insertEntry more _ h,
      ← List.append_cons]

/-- Entries with different keys make up an object as they are. -/
theorem ofEntries_of_nodup {entries : List (String × Value)} (h : (entries.map (·.1)).Nodup) :
    ofEntries entries = .object entries := by
  rw [ofEntries, foldl_insertEntry entries [] h, List.nil_append]

theorem lookup_of_mem : ∀ {entries : List (String × Value)} {key : String} {v : Value},
    (entries.map (·.1)).Nodup → (key, v) ∈ entries → entries.lookup key = some v
  | (k, u) :: more, key, v, hnodup, h => by
    obtain ⟨hfirst, hmore⟩ := List.nodup_cons.1 hnodup
    rcases List.mem_cons.1 h with heq | hmem
    · obtain ⟨rfl, rfl⟩ := Prod.mk.inj heq
      exact List.lookup_cons_self
    · have hkey : key ≠ k := fun heq => hfirst (List.mem_map.2 ⟨_, hmem, heq⟩)
      rw [List.lookup_cons, beq_false_of_ne hkey]
      exact lookup_of_mem hmore hmem

/-! ## Equality -/

theorem equalItems_map {f g : Value → Value} : ∀ {items : List Value},
    (∀ v ∈ items, (f v).equals (g v) = true) → equalItems (items.map f) (items.map g) = true
  | [], _ => rfl
  | v :: more, h => by
    rw [List.map_cons, List.map_cons, equalItems, h v List.mem_cons_self,
      equalItems_map fun u hu => h u (List.mem_cons_of_mem _ hu), Bool.and_self]

theorem equalEntries_of_lookup {bs : List (String × Value)} : ∀ {as : List (String × Value)},
    (∀ e ∈ as, ∃ b, bs.lookup e.1 = some b ∧ e.2.equals b = true) → equalEntries as bs = true
  | [], _ => by rw [equalEntries]
  | (key, a) :: more, h => by
    obtain ⟨b, hlookup, hequal⟩ := h (key, a) List.mem_cons_self
    rw [equalEntries, hlookup, equalEntries_of_lookup fun e he => h e (List.mem_cons_of_mem _ he)]
    dsimp only
    rw [hequal, Bool.and_self]

/-- Two objects that take their entries from the same list, in any order, are equal if their values
are. -/
theorem equals_object {f g : Value → Value} {entries sorted : List (String × Value)}
    (hsorted : sorted.Perm entries) (hkeys : (entries.map (·.1)).Nodup)
    (h : ∀ e ∈ entries, (f e.2).equals (g e.2) = true) :
    (Value.object (sorted.map fun e => (e.1, f e.2))).equals
      (.object (entries.map fun e => (e.1, g e.2))) = true := by
  have hkeys' : ((entries.map fun e => (e.1, g e.2)).map (·.1)).Nodup := by
    rw [List.map_map]
    exact hkeys
  have hlength : (sorted.map fun e => (e.1, f e.2)).length
      = (entries.map fun e => (e.1, g e.2)).length := by
    rw [List.length_map, List.length_map, hsorted.length_eq]
  rw [equals, hlength, beq_self_eq_true, Bool.true_and]
  refine equalEntries_of_lookup ?_
  intro e' he'
  obtain ⟨e, he, rfl⟩ := List.mem_map.1 he'
  have hmem := hsorted.mem_iff.1 he
  exact ⟨g e.2, lookup_of_mem hkeys' (List.mem_map_of_mem (f := fun e => (e.1, g e.2)) hmem),
    h e hmem⟩

/-- What the text of a value stands for is equal to the value, with null for all numbers that are
not finite. -/
theorem equals_stored {v : Value} (h : v.KeysUnique) : v.stored.equals v.finiteOnly = true := by
  induction v using Value.induction with
  | null => rfl
  | boolean b => cases b <;> rfl
  | number n =>
    rw [stored, finiteOnly]
    split
    · next hfinite => exact Binary64.equals_unsignedZero (by rintro rfl; cases hfinite)
    · rfl
  | string s => exact beq_self_eq_true s
  | array items ih =>
    rw [stored, storedItems_eq, finiteOnly, finiteItems_eq]
    exact equalItems_map fun v hv => ih v hv (ItemsKeysUnique.of_mem h hv)
  | object entries ih =>
    obtain ⟨hkeys, hvalues⟩ := h
    have hperm := sortByKey_perm entries
    have hsorted : (((sortByKey entries).map fun e => (e.1, e.2.stored)).map (·.1)).Nodup := by
      rw [List.map_map]
      exact (hperm.map _).nodup_iff.2 hkeys
    rw [stored, storedEntries_eq, sortByKey_map, ofEntries_of_nodup hsorted, finiteOnly,
      finiteEntries_eq]
    exact equals_object hperm hkeys fun e he => ih e he (hvalues.of_mem he)

end Value

/-! ## Printing and reading -/

/-- A value that is nested at most 127 levels deep is read back from its JSON text, in both layouts,
up to the numbers that JSON cannot carry, which are read as null. -/
theorem json_round_trip (v : Value) (hkeys : v.KeysUnique) (hdepth : v.depth ≤ 127) :
    (∃ w, Value.ofJson? v.compact = some w ∧ w.equals v.finiteOnly = true) ∧
      ∃ w, Value.ofJson? v.indented = some w ∧ w.equals v.finiteOnly = true := by
  have hequal := Value.equals_stored hkeys
  exact ⟨⟨v.stored, Value.ofJson?_jsonChars .compact hdepth, hequal⟩,
    ⟨v.stored, Value.ofJson?_jsonChars .indented hdepth, hequal⟩⟩

/-- Keys out of order, one of them with a quote in it, an empty array and a number that becomes
null. -/
theorem json_round_trip_nested :
    let v := Value.object [("b\"", .array [.number .nan, .number .zero, .string "\x7f"]),
      ("a", .array [])]
    v.KeysUnique ∧ v.depth ≤ 127 ∧
      (∃ w, Value.ofJson? v.compact = some w ∧ w.equals v.finiteOnly = true) ∧
      ∃ w, Value.ofJson? v.indented = some w ∧ w.equals v.finiteOnly = true := by
  intro v
  have hkeys : v.KeysUnique := ⟨by decide, ⟨trivial, trivial, trivial, trivial⟩, trivial, trivial⟩
  have hdepth : v.depth ≤ 127 := by decide
  exact ⟨hkeys, hdepth, json_round_trip v hkeys hdepth⟩

end TextTemplate
