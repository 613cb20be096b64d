import TextTemplate.Proofs.Value.Canonical
/-!
# Values that are read from a text

The theorems on printed values ask that no object stores a key twice, that all numbers are finite,
and that nesting is limited. A value that was read from a text has all of this, so that what is
printed of it is read again, with the same contents and the same text.

- `exists_ofEntries`: the object that entries make up when they are stored one after the other.
- `FromText`: what holds of all values that the reader gives; `FromText.array`, `FromText.object`:
  one more level.
- `fromText_read`: the induction over the reader.
- `fromText_ofJson?`: the value of a whole text.
- `printed_reads_again`, `printed_eq_iff`: what the value of a text is printed to.
-/

namespace TextTemplate

/-- A number that is too large for a double is not read. -/
theorem isFinite_of_readNumber {cs rest : List Char} {n : Binary64}
    (h : readNumber cs = some (n, rest)) : n.isFinite = true := by
  unfold readNumber at h
  dsimp only at h
  split at h
  · split at h
    · cases h
    · split at h
      · next hfinite =>
        obtain ⟨rfl, -⟩ := Prod.mk.inj (Option.some.inj h)
        exact hfinite
      · cases h
  · cases h

namespace Value

/-! ## Storing entries -/

/-- Storing an entry adds no other entry. -/
theorem mem_insertEntry {key : String} {v : Value} {e : String × Value} :
    ∀ {entries : List (String × Value)}, e ∈ insertEntry entries key v →
      e = (key, v) ∨ e ∈ entries
  | [], h => .inl (List.mem_singleton.1 h)
  | (k, u) :: more, h => by
    rw [insertEntry] at h
    split at h
    · rcases List.mem_cons.1 h with rfl | hmore
      · exact .inl rfl
      · exact .inr (List.mem_cons_of_mem _ hmore)
    · rcases List.mem_cons.1 h with rfl | hmore
      · exact .inr List.mem_cons_self
      · exact (mem_insertEntry hmore).imp_right (List.mem_cons_of_mem _)

/-- An entry is stored in the place of one with the same key. -/
theorem nodup_insertEntry {key : String} {v : Value} : ∀ {entries : List (String × Value)},
    (entries.map (·.1)).Nodup → ((insertEntry entries key v).map (·.1)).Nodup
  | [], _ => List.nodup_cons.2 ⟨List.not_mem_nil, List.nodup_nil⟩
  | (k, u) :: more, h => by
    obtain ⟨hk, hmore⟩ := List.nodup_cons.1 h
    rw [insertEntry]
    split
    · next heq => exact List.nodup_cons.2 ⟨heq ▸ hk, hmore⟩
    · next hne =>
      refine List.nodup_cons.2 ⟨?_, nodup_insertEntry hmore⟩
      intro hmem
      obtain ⟨e, he, rfl⟩ := List.mem_map.1 hmem
      rcases mem_insertEntry he with rfl | hold
      · exact hne rfl
      · exact hk (List.mem_map.2 ⟨e, hold, rfl⟩)

/-- So do all entries of a list, whatever is stored before them. -/
theorem nodup_foldl_insertEntry : ∀ {entries before : List (String × Value)},
    (before.map (·.1)).Nodup →
    ((entries.foldl (fun stored e => insertEntry stored e.1 e.2) before).map (·.1)).Nodup
  | [], _, h => h
  | entry :: more, before, h => by
    rw [List.foldl_cons]
    exact nodup_foldl_insertEntry (nodup_insertEntry h)

/-- Nothing but these entries is stored. -/
theorem mem_foldl_insertEntry {e : String × Value} : ∀ {entries before : List (String × Value)},
    e ∈ entries.foldl (fun stored e => insertEntry stored e.1 e.2) before →
      e ∈ entries ∨ e ∈ before
  | [], _, h => .inr h
  | entry :: more, before, h => by
    rw [List.foldl_cons] at h
    rcases mem_foldl_insertEntry h with hmore | hstored
    · exact .inl (List.mem_cons_of_mem _ hmore)
    · rcases mem_insertEntry hstored with rfl | hbefore
      · exact .inl List.mem_cons_self
      · exact .inr hbefore

/-- Entries that are stored one after the other make up an object of some of them, with each key
once. -/
theorem exists_ofEntries (entries : List (String × Value)) :
    ∃ stored, ofEntries entries = .object stored ∧ (stored.map (·.1)).Nodup ∧
      ∀ e ∈ stored, e ∈ entries :=
  ⟨_, rfl, nodup_foldl_insertEntry List.nodup_nil, fun _ he =>
    (mem_foldl_insertEntry he).resolve_right List.not_mem_nil⟩

/-! ## What holds of values that are read -/

/-- What holds of every value that the reader gives when arrays and objects may be nested `room`
levels deep. -/
structure FromText (room : Nat) (v : Value) : Prop where
  keysUnique : v.KeysUnique
  allFinite : v.AllFinite
  depth_le : v.depth ≤ room

namespace FromText

variable {room : Nat}

/-- An array takes one level more than its items. -/
theorem array {items : List Value} (h : ∀ v ∈ items, v.FromText room) :
    (Value.array items).FromText (room + 1) := by
  induction items with
  | nil => exact ⟨trivial, trivial, Nat.le_add_left 1 room⟩
  | cons v more ih =>
    obtain ⟨hv, hmore⟩ := List.forall_mem_cons.1 h
    have hrest := ih hmore
    refine ⟨⟨hv.keysUnique, hrest.keysUnique⟩, ⟨hv.allFinite, hrest.allFinite⟩, ?_⟩
    have hfirst := hv.depth_le
    have hdepth := hrest.depth_le
    simp only [depth, itemsDepth] at hdepth ⊢
    omega

/-- An object takes one level more than the values of its entries. -/
theorem object {entries : List (String × Value)} (hkeys : (entries.map (·.1)).Nodup)
    (h : ∀ e ∈ entries, e.2.FromText room) : (Value.object entries).FromText (room + 1) := by
  induction entries with
  | nil => exact ⟨⟨List.nodup_nil, trivial⟩, trivial, Nat.le_add_left 1 room⟩
  | cons e more ih =>
    obtain ⟨he, hmore⟩ := List.forall_mem_cons.1 h
    have hrest := ih (List.nodup_cons.1 hkeys).2 hmore
    refine ⟨⟨hkeys, he.keysUnique, hrest.keysUnique.2⟩, ⟨he.allFinite, hrest.allFinite⟩, ?_⟩
    have hfirst := he.depth_le
    have hdepth := hrest.depth_le
    simp only [depth, entriesDepth] at hdepth ⊢
    omega

/-- The entries of a text are stored one after the other, so that the last one of a key counts. -/
theorem ofEntries {entries : List (String × Value)} (h : ∀ e ∈ entries, e.2.FromText room) :
    (Value.ofEntries entries).FromText (room + 1) := by
  obtain ⟨stored, heq, hkeys, hmem⟩ := exists_ofEntries entries
  rw [heq]
  exact object hkeys fun e he => h e (hmem e he)

end FromText

/-! ## Reading -/

/-- Words and numbers are not nested at all. -/
theorem fromText_readAtom {room : Nat} {cs rest : List Char} {v : Value}
    (h : readAtom cs = some (v, rest)) : v.FromText room := by
  unfold readAtom at h
  split at h
  case h_4 =>
    obtain ⟨⟨n, rest'⟩, hnumber, hpair⟩ := Option.map_eq_some_iff.1 h
    obtain ⟨rfl, -⟩ := Prod.mk.inj hpair
    exact ⟨trivial, isFinite_of_readNumber hnumber, Nat.zero_le room⟩
  all_goals
    obtain ⟨rfl, -⟩ := Prod.mk.inj (Option.some.inj h)
    exact ⟨trivial, trivial, Nat.zero_le room⟩

theorem length_lt_of_skipGap {c : Char} {cs more : List Char} (h : skipGap cs = c :: more) :
    more.length < cs.length := by
  have hlength := length_skipGap_le cs
  rw [h, List.length_cons] at hlength
  exact hlength

mutual

/-- A value that the reader gives. -/
theorem fromText_read {room : Nat} {cs : List Char} {v : Value} {rest : Rest cs}
    (h : read room cs = some (v, rest)) : v.FromText room := by
  rw [read] at h
  split at h
  · cases h
  · next c more hgap =>
    have hmore := length_lt_of_skipGap hgap
    -- the first character tells a text, an array, an object and the rest
    split at h
    · split at h
      · obtain ⟨rfl, -⟩ := Prod.mk.inj (Option.some.inj h)
        exact ⟨trivial, trivial, Nat.zero_le room⟩
      · cases h
    · split at h
      · split at h
        · cases h
        · next room =>
          obtain ⟨⟨items, rest'⟩, hitems, hpair⟩ := Option.map_eq_some_iff.1 h
          obtain ⟨rfl, -⟩ := Prod.mk.inj hpair
          exact .array (fromText_readItems hitems)
      · split at h
        · split at h
          · cases h
          · next room =>
            obtain ⟨⟨entries, rest'⟩, hentries, hpair⟩ := Option.map_eq_some_iff.1 h
            obtain ⟨rfl, -⟩ := Prod.mk.inj hpair
            exact .ofEntries (fromText_readEntries hentries)
        · split at h
          · next hatom =>
            obtain ⟨rfl, -⟩ := Prod.mk.inj (Option.some.inj h)
            exact fromText_readAtom hatom
          · cases h
termination_by 3 * cs.length + 0

/-- The items of an array. -/
theorem fromText_readItems {room : Nat} {cs : List Char} {items : List Value} {rest : Rest cs}
    (h : readItems room cs = some (items, rest)) : ∀ v ∈ items, v.FromText room := by
  rw [readItems] at h
  split at h
  · obtain ⟨rfl, -⟩ := Prod.mk.inj (Option.some.inj h)
    exact nofun
  · exact fromText_readMoreItems h
termination_by 3 * cs.length + 2

/-- At least one item of an array. -/
theorem fromText_readMoreItems {room : Nat} {cs : List Char} {items : List Value}
    {rest : Rest cs} (h : readMoreItems room cs = some (items, rest)) :
    ∀ v ∈ items, v.FromText room := by
  rw [readMoreItems] at h
  split at h
  · cases h
  · next item after hitem =>
    have hfirst := fromText_read hitem
    split at h
    · obtain ⟨rfl, -⟩ := Prod.mk.inj (Option.some.inj h)
      exact List.forall_mem_singleton.2 hfirst
    · next more hgap =>
      have hmore := Nat.lt_trans (length_lt_of_skipGap hgap) after.property
      obtain ⟨⟨items', rest'⟩, hitems, hpair⟩ := Option.map_eq_some_iff.1 h
      obtain ⟨rfl, -⟩ := Prod.mk.inj hpair
      exact List.forall_mem_cons.2 ⟨hfirst, fromText_readMoreItems hitems⟩
    · cases h
termination_by 3 * cs.length + 1

/-- The values of the entries of an object. -/
theorem fromText_readEntries {room : Nat} {cs : List Char} {entries : List (String × Value)}
    {rest : Rest cs} (h : readEntries room cs = some (entries, rest)) :
    ∀ e ∈ entries, e.2.FromText room := by
  rw [readEntries] at h
  split at h
  · obtain ⟨rfl, -⟩ := Prod.mk.inj (Option.some.inj h)
    exact nofun
  · exact fromText_readMoreEntries h
termination_by 3 * cs.length + 2

/-- The values of at least one entry of an object. -/
theorem fromText_readMoreEntries {room : Nat} {cs : List Char}
    {entries : List (String × Value)} {rest : Rest cs}
    (h : readMoreEntries room cs = some (entries, rest)) :
    ∀ e ∈ entries, e.2.FromText room := by
  rw [readMoreEntries] at h
  split at h
  · cases h
  · next key afterKey hkey =>
    have hafterKey := length_of_readKey hkey
    dsimp only at h
    split at h
    · cases h
    · next value after hvalue =>
      have hfirst := fromText_read hvalue
      split at h
      · obtain ⟨rfl, -⟩ := Prod.mk.inj (Option.some.inj h)
        exact List.forall_mem_singleton.2 hfirst
      · next more hgap =>
        have hmore := Nat.lt_trans (length_lt_of_skipGap hgap)
          (Nat.lt_trans after.property hafterKey)
        obtain ⟨⟨entries', rest'⟩, hentries, hpair⟩ := Option.map_eq_some_iff.1 h
        obtain ⟨rfl, -⟩ := Prod.mk.inj hpair
        exact List.forall_mem_cons.2 ⟨hfirst, fromText_readMoreEntries hentries⟩
      · cases h
termination_by 3 * cs.length + 1

end

/-- The value of a whole text. -/
theorem fromText_ofJson? {text : String} {v : Value} (h : ofJson? text = some v) :
    v.FromText nestingLimit := by
  rw [ofJson?, ofJsonWithin?] at h
  split at h
  · next hread =>
    split at h
    · exact Option.some.inj h ▸ fromText_read hread
    · cases h
  · cases h

/-! ## Printing what was read -/

/-- A value with finite numbers has nothing that JSON cannot carry. -/
theorem finiteOnly_eq_self {v : Value} (h : v.AllFinite) : v.finiteOnly = v := by
  induction v using Value.induction with
  | null | boolean | string => rfl
  | number n =>
    have hfinite : n.isFinite = true := h
    rw [finiteOnly, if_pos hfinite]
  | array items ih =>
    rw [finiteOnly, finiteItems_eq, array.injEq]
    have hitems : items.map finiteOnly = items.map id :=
      List.map_congr_left fun v hv => ih v hv (ItemsFinite.of_mem h hv)
    rw [hitems, List.map_id]
  | object entries ih =>
    rw [finiteOnly, finiteEntries_eq, object.injEq]
    have hentries : (entries.map fun e => (e.1, e.2.finiteOnly)) = entries.map id :=
      List.map_congr_left fun e he => Prod.ext rfl (ih e he (EntriesFinite.of_mem h he))
    rw [hentries, List.map_id]

/-- What the value of a text is printed to is read again, in both layouts. The value that is read
then has the same contents, and is printed to the same text. -/
theorem printed_reads_again {text : String} {v : Value} (layout : Layout)
    (h : ofJson? text = some v) :
    ∃ w, ofJson? (String.ofList (jsonChars layout 0 v)) = some w ∧ w.equals v = true ∧
      jsonChars layout 0 w = jsonChars layout 0 v := by
  have hv := fromText_ofJson? h
  refine ⟨v.stored, ofJson?_jsonChars layout hv.depth_le, ?_,
    jsonChars_stored layout hv.keysUnique 0⟩
  have hequal := equals_stored hv.keysUnique
  rwa [finiteOnly_eq_self hv.allFinite] at hequal

/-- The values of two texts are printed to one text, in either layout, iff they have the same
contents. -/
theorem printed_eq_iff {text text' : String} {v v' : Value} (layout : Layout)
    (h : ofJson? text = some v) (h' : ofJson? text' = some v') :
    String.ofList (jsonChars layout 0 v) = String.ofList (jsonChars layout 0 v') ↔
      v.equals v' = true := by
  have hv := fromText_ofJson? h
  have hv' := fromText_ofJson? h'
  exact text_eq_iff layout hv.keysUnique hv'.keysUnique hv.allFinite hv'.allFinite

end Value
end TextTemplate
