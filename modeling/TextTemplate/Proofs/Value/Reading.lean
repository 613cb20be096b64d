import TextTemplate.Proofs.Decimal.Digits
import TextTemplate.Value.Reader
/-!
# Steps of the reader

One lemma for each way in which the reader goes on, with the rest of the text as a plain list.

- `Yields`: what a reader takes off the head of a text, and what it leaves.
- `yields_string`, `yields_array`, `yields_object`, `yields_atom`: one value.
- `yields_noItems`, `yields_items`, `yields_lastItem`, `yields_nextItem`: the items of an array.
- `yields_noEntries`, `yields_entries`, `yields_lastEntry`, `yields_nextEntry`: the entries of an
  object.
- `ofJsonWithin?_eq`: a whole text.
-/

namespace TextTemplate

/-- The result of a reader is `x`, with this rest. -/
def Yields {α : Type} {cs : List Char} (result : Option (α × Rest cs)) (x : α)
    (rest : List Char) : Prop :=
  ∃ r : Rest cs, result = some (x, r) ∧ r.val = rest

/-- A reader whose result is made up of the result for a shorter text. -/
theorem Yields.map {α β : Type} {short long : List Char} {result : Option (α × Rest short)} {x : α}
    {rest : List Char} (h : Yields result x rest) (f : α → β) (hlong : short.length < long.length) :
    Yields (result.map fun (x, r) => (f x, r.within hlong)) (f x) rest := by
  obtain ⟨r, rfl, hrest⟩ := h
  exact ⟨r.within hlong, rfl, hrest⟩

namespace Value

variable {room : Nat} {cs more rest : List Char}

/-! ## Values -/

/-- A text starts with a quote and goes on to the closing one. -/
theorem yields_string {text : List Char} (hcs : skipGap cs = '"' :: more)
    (htext : readQuoted more = some (text, rest)) :
    Yields (read room cs) (.string (String.ofList text)) rest := by
  -- the first character behind the gap decides how the reader goes on
  rw [read]
  split
  · next hnil => cases hcs.symm.trans hnil
  · next c more' hcons =>
    obtain ⟨rfl, rfl⟩ := List.cons.inj (hcs.symm.trans hcons)
    rw [if_pos rfl]
    split
    · next heq =>
      obtain ⟨rfl, rfl⟩ := Prod.mk.inj (Option.some.inj (htext.symm.trans heq))
      exact ⟨_, rfl, rfl⟩
    · next heq => cases htext.symm.trans heq

/-- An array starts with a bracket. Its items have one level less to nest in. -/
theorem yields_array {items : List Value} (hcs : skipGap cs = '[' :: more)
    (hitems : Yields (readItems room more) items rest) :
    Yields (read (room + 1) cs) (.array items) rest := by
  rw [read]
  split
  · next hnil => cases hcs.symm.trans hnil
  · next c more' hcons =>
    obtain ⟨rfl, rfl⟩ := List.cons.inj (hcs.symm.trans hcons)
    rw [if_neg (by decide), if_pos rfl]
    exact hitems.map Value.array _

/-- An object starts with a brace. Its entries are stored one after the other. -/
theorem yields_object {entries : List (String × Value)} (hcs : skipGap cs = '\x7b' :: more)
    (hentries : Yields (readEntries room more) entries rest) :
    Yields (read (room + 1) cs) (ofEntries entries) rest := by
  rw [read]
  split
  · next hnil => cases hcs.symm.trans hnil
  · next c more' hcons =>
    obtain ⟨rfl, rfl⟩ := List.cons.inj (hcs.symm.trans hcons)
    rw [if_neg (by decide), if_neg (by decide), if_pos rfl]
    exact hentries.map ofEntries _

/-- Whether a text or brackets start with a character. -/
def opensMore (c : Char) : Bool := c == '"' || c == '[' || c == '\x7b'

/-- What starts neither a text nor brackets is a word or a number. -/
theorem yields_atom {c : Char} {v : Value} (hcs : skipGap cs = c :: more)
    (hc : opensMore c = false) (hatom : readAtom (c :: more) = some (v, rest)) :
    Yields (read room cs) v rest := by
  have hother : c ≠ '"' ∧ c ≠ '[' ∧ c ≠ '\x7b' := by
    refine ⟨?_, ?_, ?_⟩ <;> rintro rfl <;> exact absurd hc (by decide)
  rw [read]
  split
  · next hnil => cases hcs.symm.trans hnil
  · next c' more' hcons =>
    obtain ⟨rfl, rfl⟩ := List.cons.inj (hcs.symm.trans hcons)
    rw [if_neg hother.1, if_neg hother.2.1, if_neg hother.2.2]
    split
    · next heq =>
      obtain ⟨rfl, rfl⟩ := Prod.mk.inj (Option.some.inj (hatom.symm.trans heq))
      exact ⟨_, rfl, rfl⟩
    · next heq => cases hatom.symm.trans heq

/-! ## Items -/

/-- An array that is closed at once has no items. -/
theorem yields_noItems (hcs : skipGap cs = ']' :: rest) : Yields (readItems room cs) [] rest := by
  rw [readItems]
  split
  · next heq =>
    obtain ⟨-, rfl⟩ := List.cons.inj (hcs.symm.trans heq)
    exact ⟨_, rfl, rfl⟩
  · next hother => exact absurd hcs (hother _)

/-- An array that is not closed at once has items. -/
theorem yields_items {items : List Value} (hcs : Stops (· == ']') (skipGap cs))
    (hitems : Yields (readMoreItems room cs) items rest) :
    Yields (readItems room cs) items rest := by
  rw [readItems]
  split
  -- the closing bracket does not stand at the head
  · next heq => exact absurd (Stops.cons_iff.1 (heq ▸ hcs)) (by decide)
  · exact hitems

/-- The last item has the closing bracket behind it. -/
theorem yields_lastItem {item : Value} {after : List Char}
    (hitem : Yields (read room cs) item after) (hafter : skipGap after = ']' :: rest) :
    Yields (readMoreItems room cs) [item] rest := by
  obtain ⟨r, hread, rfl⟩ := hitem
  rw [readMoreItems, hread]
  dsimp only
  split
  · next heq =>
    obtain ⟨-, rfl⟩ := List.cons.inj (hafter.symm.trans heq)
    exact ⟨_, rfl, rfl⟩
  · next heq => exact absurd (List.cons.inj (hafter.symm.trans heq)).1 (by decide)
  · next hother _ => exact absurd hafter (hother _)

/-- An item with a comma behind it has another one behind that, so that no comma stands before
the closing bracket. -/
theorem yields_nextItem {item : Value} {items : List Value} {after : List Char}
    (hitem : Yields (read room cs) item after) (hafter : skipGap after = ',' :: more)
    (hitems : Yields (readMoreItems room more) items rest) :
    Yields (readMoreItems room cs) (item :: items) rest := by
  obtain ⟨r, hread, rfl⟩ := hitem
  rw [readMoreItems, hread]
  dsimp only
  split
  · next heq => exact absurd (List.cons.inj (hafter.symm.trans heq)).1 (by decide)
  · next heq =>
    obtain ⟨-, rfl⟩ := List.cons.inj (hafter.symm.trans heq)
    exact hitems.map (item :: ·) _
  · next hother => exact absurd hafter (hother _)

/-! ## Entries -/

/-- An object that is closed at once has no entries. -/
theorem yields_noEntries (hcs : skipGap cs = '\x7d' :: rest) :
    Yields (readEntries room cs) [] rest := by
  rw [readEntries]
  split
  · next heq =>
    obtain ⟨-, rfl⟩ := List.cons.inj (hcs.symm.trans heq)
    exact ⟨_, rfl, rfl⟩
  · next hother => exact absurd hcs (hother _)

/-- An object that is not closed at once has entries. -/
theorem yields_entries {entries : List (String × Value)} (hcs : Stops (· == '\x7d') (skipGap cs))
    (hentries : Yields (readMoreEntries room cs) entries rest) :
    Yields (readEntries room cs) entries rest := by
  rw [readEntries]
  split
  · next heq => exact absurd (Stops.cons_iff.1 (heq ▸ hcs)) (by decide)
  · exact hentries

variable {key : String} {afterKey after : List Char} {v : Value}

/-- A key is a text with a colon behind it, and there may be gaps on both sides of the text. -/
theorem readKey_eq {text : List Char} (hcs : skipGap cs = '"' :: more)
    (htext : readQuoted more = some (text, after)) (hafter : skipGap after = ':' :: rest) :
    readKey cs = some (String.ofList text, rest) := by
  simp only [readKey, hcs, htext, hafter]

/-- The last entry has the closing brace behind its value. -/
theorem yields_lastEntry (hkey : readKey cs = some (key, afterKey))
    (hvalue : Yields (read room afterKey) v after) (hafter : skipGap after = '\x7d' :: rest) :
    Yields (readMoreEntries room cs) [(key, v)] rest := by
  obtain ⟨r, hread, rfl⟩ := hvalue
  rw [readMoreEntries]
  split
  · next hnone => cases hkey.symm.trans hnone
  · next heq =>
    obtain ⟨rfl, rfl⟩ := Prod.mk.inj (Option.some.inj (hkey.symm.trans heq))
    rw [hread]
    dsimp only
    split
    · next heq =>
      obtain ⟨-, rfl⟩ := List.cons.inj (hafter.symm.trans heq)
      exact ⟨_, rfl, rfl⟩
    · next heq => exact absurd (List.cons.inj (hafter.symm.trans heq)).1 (by decide)
    · next hother _ => exact absurd hafter (hother _)

/-- An entry with a comma behind its value has another one behind that. -/
theorem yields_nextEntry {entries : List (String × Value)}
    (hkey : readKey cs = some (key, afterKey)) (hvalue : Yields (read room afterKey) v after)
    (hafter : skipGap after = ',' :: more)
    (hentries : Yields (readMoreEntries room more) entries rest) :
    Yields (readMoreEntries room cs) ((key, v) :: entries) rest := by
  obtain ⟨r, hread, rfl⟩ := hvalue
  rw [readMoreEntries]
  split
  · next hnone => cases hkey.symm.trans hnone
  · next heq =>
    obtain ⟨rfl, rfl⟩ := Prod.mk.inj (Option.some.inj (hkey.symm.trans heq))
    rw [hread]
    dsimp only
    split
    · next heq => exact absurd (List.cons.inj (hafter.symm.trans heq)).1 (by decide)
    · next heq =>
      obtain ⟨-, rfl⟩ := List.cons.inj (hafter.symm.trans heq)
      exact hentries.map ((key, v) :: ·) _
    · next hother => exact absurd hafter (hother _)

/-! ## Whole texts -/

/-- A whole text is one value with nothing but a gap behind it. -/
theorem ofJsonWithin?_eq {limit : Nat} {text : String}
    (hread : Yields (read limit text.toList) v rest) (hrest : skipGap rest = []) :
    ofJsonWithin? limit text = some v := by
  obtain ⟨r, hread, rfl⟩ := hread
  rw [ofJsonWithin?, hread]
  dsimp only
  rw [if_pos hrest]

end Value
end TextTemplate
