import TextTemplate.Proofs.Value.Reorder
/-!
# JSON text as a canonical form

Two values have the same JSON text, in either layout, iff they have the same contents. Both sides
come down to what the texts stand for: `Value.stored` is at once what a text is read as and one
representative of all values with the same contents.

- `Value.AllFinite`: all numbers within a value are finite, so that its text tells them apart.
- `jsonChars_stored`: a value and what its text stands for have the same text.
- `jsonChars_eq_iff`: texts are equal iff they stand for the same value; no limit on nesting is
  needed, because a text can be read with as much room as it takes.
- `equals_iff_stored_eq`: contents are equal iff the texts stand for the same value.
- `text_eq_iff`: both together, for one layout; `json_canonical`: for both layouts.
-/

namespace TextTemplate

/-- The text of a number does not show the sign of a zero. -/
theorem Binary64.textChars_unsignedZero (n : Binary64) : n.unsignedZero.textChars = n.textChars := by
  cases n with
  | nan => rfl
  | infinite s => rfl
  | finite s m =>
    rw [unsignedZero]
    split
    · next hzero => rw [textChars, if_pos hzero]; rfl
    · rfl

/-- Finite numbers are equal iff they are the same apart from the sign of a zero. -/
theorem Binary64.equals_iff_unsignedZero_eq {n k : Binary64} (hn : n.isFinite = true)
    (hk : k.isFinite = true) : n.equals k = true ↔ n.unsignedZero = k.unsignedZero := by
  obtain ⟨s, m, rfl⟩ := exists_of_isFinite hn
  obtain ⟨t, l, rfl⟩ := exists_of_isFinite hk
  have horder : equals (.finite s m) (.finite t l) = true
      ↔ signed s m.units = signed t l.units := decide_eq_true_iff
  rw [horder, unsignedZero, unsignedZero]
  constructor
  · intro h
    by_cases hzero : m.units = 0
    · have hzero' : l.units = 0 := by
        cases s <;> cases t <;> simp [signed] at h <;> omega
      rw [if_pos hzero, if_pos hzero']
    · obtain ⟨rfl, hunits⟩ : s = t ∧ m.units = l.units := by
        cases s <;> cases t <;> simp [signed] at h ⊢ <;> omega
      rw [Magnitude.ext hunits]
  · intro h
    split at h
    · next hzero =>
      split at h
      · next hzero' => rw [hzero, hzero']; cases s <;> cases t <;> rfl
      · next hzero' =>
        obtain ⟨-, rfl⟩ := Binary64.finite.inj h
        exact absurd rfl hzero'
    · next hzero =>
      split at h
      · next hzero' =>
        obtain ⟨-, rfl⟩ := Binary64.finite.inj h
        exact absurd rfl hzero
      · cases h
        rfl

namespace Value

/-! ## Finite numbers -/

mutual

/-- All numbers within the value are finite. -/
def AllFinite : Value → Prop
  | .number n => n.isFinite = true
  | .array items => ItemsFinite items
  | .object entries => EntriesFinite entries
  | _ => True

/-- All numbers within the values of a list are finite. -/
def ItemsFinite : List Value → Prop
  | [] => True
  | v :: more => AllFinite v ∧ ItemsFinite more

/-- All numbers within the values of a list of entries are finite. -/
def EntriesFinite : List (String × Value) → Prop
  | [] => True
  | (_, v) :: more => AllFinite v ∧ EntriesFinite more

end

theorem ItemsFinite.of_mem : ∀ {items : List Value} {v : Value}, ItemsFinite items →
    v ∈ items → v.AllFinite
  | _ :: _, _, ⟨hv, hmore⟩, h => (List.mem_cons.1 h).elim (fun heq => heq ▸ hv) hmore.of_mem

theorem EntriesFinite.of_mem : ∀ {entries : List (String × Value)} {e : String × Value},
    EntriesFinite entries → e ∈ entries → e.2.AllFinite
  | _ :: _, _, ⟨hv, hmore⟩, h => (List.mem_cons.1 h).elim (fun heq => heq ▸ hv) hmore.of_mem

/-! ## What a text stands for -/

/-- The entries of an object as its text has them, before they are sorted. -/
def entriesStored (entries : List (String × Value)) : List (String × Value) :=
  entries.map fun e => (e.1, e.2.stored)

theorem keys_entriesStored (entries : List (String × Value)) :
    (entriesStored entries).map (·.1) = entries.map (·.1) := by
  rw [entriesStored, List.map_map]
  rfl

/-- An object with different keys stands for its sorted entries. -/
theorem stored_object {entries : List (String × Value)} (hkeys : (entries.map (·.1)).Nodup) :
    stored (.object entries) = .object (sortByKey (entriesStored entries)) := by
  rw [stored, storedEntries_eq, ← entriesStored]
  refine ofEntries_of_nodup (((sortByKey_perm _).map _).nodup_iff.2 ?_)
  rwa [keys_entriesStored]

/-- A value and what its text stands for have the same text. -/
theorem jsonChars_stored (layout : Layout) {v : Value} (hkeys : v.KeysUnique) (level : Nat) :
    jsonChars layout level v.stored = jsonChars layout level v := by
  induction v using Value.induction generalizing level with
  | null | boolean | string => rfl
  | number n =>
    rw [stored, jsonChars]
    split
    · next hfinite =>
      obtain ⟨s, m, rfl⟩ := Binary64.exists_of_isFinite hfinite
      rw [jsonChars, if_pos (Binary64.isFinite_unsignedZero s m), Binary64.textChars_unsignedZero]
    · rfl
  | array items ih =>
    rw [stored, storedItems_eq, jsonChars, jsonChars, itemChars_eq, itemChars_eq, List.map_map]
    congr 1
    exact List.map_congr_left fun v hv => ih v hv (ItemsKeysUnique.of_mem hkeys hv) (level + 1)
  | object entries ih =>
    obtain ⟨hnodup, hvalues⟩ := hkeys
    have hsame : sortByKey (sortByKey entries) = sortByKey entries :=
      sortByKey_eq_of_perm (sortByKey_perm entries)
        (((sortByKey_perm entries).map _).nodup_iff.2 hnodup)
    rw [stored_object hnodup, jsonChars, jsonChars, sorted_entryChars, sorted_entryChars,
      entriesStored, sortByKey_map, sortByKey_map, hsame, List.map_map]
    congr 1
    refine List.map_congr_left ?_
    intro e he
    have hmem := (sortByKey_perm entries).mem_iff.1 he
    show entryText layout (level + 1) (e.1, e.2.stored) = entryText layout (level + 1) e
    rw [entryText, entryText, ih e hmem (hvalues.of_mem hmem) (level + 1)]

/-- Two texts are equal iff they stand for the same value. -/
theorem jsonChars_eq_iff (layout : Layout) {a b : Value} (ha : a.KeysUnique) (hb : b.KeysUnique) :
    jsonChars layout 0 a = jsonChars layout 0 b ↔ a.stored = b.stored := by
  constructor
  · intro h
    have hread := ofJsonWithin?_jsonChars layout (Nat.le_max_left a.depth b.depth)
    rw [h, ofJsonWithin?_jsonChars layout (Nat.le_max_right a.depth b.depth)] at hread
    exact (Option.some.inj hread).symm
  · intro h
    rw [← jsonChars_stored layout ha 0, h, jsonChars_stored layout hb 0]

/-! ## Equal contents -/

theorem equalItems_iff : ∀ {items items' : List Value},
    (∀ v ∈ items, ∀ w ∈ items', v.equals w = true ↔ v.stored = w.stored) →
    (equalItems items items' = true ↔ items.map stored = items'.map stored)
  | [], [], _ => iff_of_true rfl rfl
  | [], _ :: _, _ => iff_of_false nofun nofun
  | _ :: _, [], _ => iff_of_false nofun nofun
  | v :: more, w :: more', h => by
    have hmore : equalItems more more' = true ↔ more.map stored = more'.map stored :=
      equalItems_iff fun u hu u' hu' =>
        h u (List.mem_cons_of_mem _ hu) u' (List.mem_cons_of_mem _ hu')
    rw [equalItems, Bool.and_eq_true, List.map_cons, List.map_cons, List.cons.injEq, hmore,
      h v List.mem_cons_self w List.mem_cons_self]

theorem equalEntries_iff {as bs : List (String × Value)} :
    equalEntries as bs = true ↔ ∀ e ∈ as, ∃ b, bs.lookup e.1 = some b ∧ e.2.equals b = true := by
  induction as with
  | nil => simp [equalEntries]
  | cons e more ih =>
    rw [equalEntries, Bool.and_eq_true, ih, List.forall_mem_cons]
    cases bs.lookup e.1 <;> simp

/-- Entries with different keys make up the same object iff they are the same in any order. -/
theorem sortByKey_eq_iff_perm {α : Type} {entries entries' : List (String × α)}
    (hnodup : (entries.map (·.1)).Nodup) :
    sortByKey entries = sortByKey entries' ↔ entries.Perm entries' := by
  constructor
  · intro h
    exact (sortByKey_perm entries).symm.trans (h ▸ sortByKey_perm entries')
  · intro h
    exact sortByKey_eq_of_perm h hnodup

/-- Lists with as many entries and different keys are the same in any order iff one has all entries
of the other. -/
theorem perm_iff_of_nodup {entries entries' : List (String × Value)}
    (hnodup : (entries.map (·.1)).Nodup) :
    entries.Perm entries' ↔
      entries.length = entries'.length ∧ ∀ e ∈ entries, e ∈ entries' := by
  constructor
  · intro h
    exact ⟨h.length_eq, fun e => h.mem_iff.1⟩
  · rintro ⟨hlength, hmem⟩
    have hsub := List.subperm_of_subset (List.Nodup.of_map _ hnodup) hmem
    exact hsub.perm_of_length_le (Nat.le_of_eq hlength.symm)

theorem mem_entriesStored_iff {entries : List (String × Value)} (hkeys : (entries.map (·.1)).Nodup)
    {key : String} {v : Value} :
    (key, v) ∈ entriesStored entries ↔ ∃ w, entries.lookup key = some w ∧ w.stored = v := by
  constructor
  · intro h
    obtain ⟨e, he, heq⟩ := List.mem_map.1 h
    obtain ⟨rfl, rfl⟩ := Prod.mk.inj heq
    exact ⟨e.2, lookup_of_mem hkeys he, rfl⟩
  · rintro ⟨w, hlookup, rfl⟩
    exact List.mem_map.2 ⟨(key, w), mem_of_lookup hlookup, rfl⟩

/-- Objects are equal iff their texts stand for the same object, if that is so for their values. -/
theorem equals_object_iff {as bs : List (String × Value)} (ha : (as.map (·.1)).Nodup)
    (hb : (bs.map (·.1)).Nodup)
    (h : ∀ e ∈ as, ∀ e' ∈ bs, e.2.equals e'.2 = true ↔ e.2.stored = e'.2.stored) :
    (Value.object as).equals (.object bs) = true ↔
      stored (.object as) = stored (.object bs) := by
  have ha' : ((entriesStored as).map (·.1)).Nodup := by rwa [keys_entriesStored]
  rw [stored_object ha, stored_object hb, object.injEq, sortByKey_eq_iff_perm ha',
    perm_iff_of_nodup ha', entriesStored, entriesStored, List.length_map, List.length_map, equals,
    Bool.and_eq_true, beq_iff_eq, equalEntries_iff, List.forall_mem_map]
  refine and_congr_right fun _ => forall₂_congr fun e he => ?_
  rw [← entriesStored, mem_entriesStored_iff hb]
  refine exists_congr fun w => and_congr_right fun hlookup => ?_
  rw [h e he (e.1, w) (mem_of_lookup hlookup), eq_comm]

theorem kind_stored {v : Value} (h : v.AllFinite) : v.stored.kind = v.kind := by
  cases v with
  | number n =>
    have hfinite : n.isFinite = true := h
    rw [stored, if_pos hfinite]
    rfl
  | null | boolean | string | array | object => rfl

theorem kind_eq_of_equals {a b : Value} (h : a.equals b = true) : a.kind = b.kind := by
  cases a <;> cases b <;> first | rfl | cases h

/-- Values of different kinds are different on both counts. -/
theorem equals_iff_of_kind_ne {a b : Value} (ha : a.AllFinite) (hb : b.AllFinite)
    (h : a.kind ≠ b.kind) : a.equals b = true ↔ a.stored = b.stored := by
  refine iff_of_false (fun hequal => h (kind_eq_of_equals hequal)) fun hstored => h ?_
  rw [← kind_stored ha, hstored, kind_stored hb]

/-- Values have the same contents iff their texts stand for the same value. -/
theorem equals_iff_stored_eq {a b : Value} (ha : a.KeysUnique) (hb : b.KeysUnique)
    (hfa : a.AllFinite) (hfb : b.AllFinite) : a.equals b = true ↔ a.stored = b.stored := by
  induction a using Value.induction generalizing b with
  | null =>
    cases b with
    | null => exact iff_of_true rfl rfl
    | _ => exact equals_iff_of_kind_ne hfa hfb (by simp [kind])
  | boolean x =>
    cases b with
    | boolean y => exact beq_iff_eq.trans (boolean.injEq x y).symm.to_iff
    | _ => exact equals_iff_of_kind_ne hfa hfb (by simp [kind])
  | number n =>
    cases b with
    | number k =>
      have hn : n.isFinite = true := hfa
      have hk : k.isFinite = true := hfb
      rw [stored, stored, if_pos hn, if_pos hk, number.injEq]
      exact Binary64.equals_iff_unsignedZero_eq hn hk
    | _ => exact equals_iff_of_kind_ne hfa hfb (by simp [kind])
  | string s =>
    cases b with
    | string t => exact beq_iff_eq.trans (string.injEq s t).symm.to_iff
    | _ => exact equals_iff_of_kind_ne hfa hfb (by simp [kind])
  | array items ih =>
    cases b with
    | array items' =>
      rw [equals, stored, stored, array.injEq, storedItems_eq, storedItems_eq]
      exact equalItems_iff fun v hv w hw =>
        ih v hv (ItemsKeysUnique.of_mem ha hv) (ItemsKeysUnique.of_mem hb hw)
          (ItemsFinite.of_mem hfa hv) (ItemsFinite.of_mem hfb hw)
    | _ => exact equals_iff_of_kind_ne hfa hfb (by simp [kind])
  | object entries ih =>
    cases b with
    | object entries' =>
      exact equals_object_iff ha.1 hb.1 fun e he e' he' =>
        ih e he (ha.2.of_mem he) (hb.2.of_mem he') (EntriesFinite.of_mem hfa he)
          (EntriesFinite.of_mem hfb he')
    | _ => exact equals_iff_of_kind_ne hfa hfb (by simp [kind])

/-- Values with finite numbers have the same text iff they have the same contents. -/
theorem text_eq_iff (layout : Layout) {a b : Value} (ha : a.KeysUnique) (hb : b.KeysUnique)
    (hfa : a.AllFinite) (hfb : b.AllFinite) :
    String.ofList (jsonChars layout 0 a) = String.ofList (jsonChars layout 0 b) ↔
      a.equals b = true := by
  rw [String.ofList_inj, jsonChars_eq_iff layout ha hb, equals_iff_stored_eq ha hb hfa hfb]

end Value

/-- The JSON text is a canonical form: values without a number that JSON cannot carry have the same
text, in either layout, iff they have the same contents. -/
theorem json_canonical {a b : Value} (ha : a.KeysUnique) (hb : b.KeysUnique) (hfa : a.AllFinite)
    (hfb : b.AllFinite) :
    (a.compact = b.compact ↔ a.equals b = true) ∧
      (a.indented = b.indented ↔ a.equals b = true) :=
  ⟨Value.text_eq_iff .compact ha hb hfa hfb, Value.text_eq_iff .indented ha hb hfa hfb⟩

/-- Entries in another order, a negative zero, and a nested array. -/
theorem json_canonical_negative_zero :
    let a := Value.object [("b", .array [.number (.finite true .zero)]), ("a", .string "\"")]
    let b := Value.object [("a", .string "\""), ("b", .array [.number .zero])]
    a.KeysUnique ∧ b.KeysUnique ∧ a.AllFinite ∧ b.AllFinite ∧ a ≠ b ∧
      a.compact = b.compact ∧ a.indented = b.indented := by
  intro a b
  have ha : a.KeysUnique := ⟨by decide, ⟨trivial, trivial⟩, trivial, trivial⟩
  have hb : b.KeysUnique := ⟨by decide, trivial, ⟨trivial, trivial⟩, trivial⟩
  have hfa : a.AllFinite := ⟨⟨rfl, trivial⟩, trivial, trivial⟩
  have hfb : b.AllFinite := ⟨trivial, ⟨rfl, trivial⟩, trivial⟩
  have hequal : a.equals b = true := by decide
  obtain ⟨hcompact, hindented⟩ := json_canonical ha hb hfa hfb
  exact ⟨ha, hb, hfa, hfb, by simp [a, b], hcompact.2 hequal, hindented.2 hequal⟩

end TextTemplate
