import TextTemplate.Proofs.Text.Quoted
import TextTemplate.Proofs.Value.Reading
import TextTemplate.Proofs.Value.Shape
/-!
# Reading printed values

- `following`: what stands behind a member of an array or object, up to the closing bracket.
- `ReadsBack`: the text of a value is read as what it stands for, behind any gap.
- `readsBack_array`, `readsBack_object`: arrays and objects of such values.
- `readsBack`: the induction over values.
- `ofJsonWithin?_jsonChars`, `ofJson?_jsonChars`: whole texts, in both layouts.
-/

namespace TextTemplate

/-! ## Gaps -/

theorem skipGap_append {gap rest : List Char} (hgap : ∀ c ∈ gap, isGap c = true)
    (hrest : Stops isGap rest) : skipGap (gap ++ rest) = rest :=
  dropWhile_append hgap hrest

namespace Value

variable {layout : Layout} {level room : Nat} {rest : List Char}

/-- A line break with its indentation is a gap. -/
theorem Layout.isGap_of_mem_lineBreak {c : Char} (h : c ∈ layout.lineBreak level) :
    isGap c = true := by
  cases layout with
  | compact => exact nomatch h
  | indented =>
    rcases List.mem_cons.1 h with rfl | hspace
    · decide
    · rw [List.eq_of_mem_replicate hspace]
      decide

/-- A colon, with a gap behind it in one of the layouts. -/
theorem Layout.exists_colon (layout : Layout) :
    ∃ gap, layout.colon = ':' :: gap ∧ ∀ c ∈ gap, isGap c = true := by
  cases layout with
  | compact => exact ⟨[], rfl, fun _ h => nomatch h⟩
  | indented => exact ⟨[' '], rfl, List.forall_mem_singleton.2 rfl⟩

/-! ## Members -/

/-- What stands behind a member: the other members behind commas, and the closing bracket. -/
def following (layout : Layout) (level : Nat) (right : Char) (more : List (List Char)) :
    List Char :=
  more.flatMap (fun m => ',' :: layout.lineBreak (level + 1) ++ m)
    ++ (layout.lineBreak level ++ [right])

/-- The first member stands behind the opening bracket and a line break. -/
theorem bracketed_cons (left right : Char) (member : List Char) (more : List (List Char)) :
    bracketed layout level left right (member :: more)
      = left :: (layout.lineBreak (level + 1)
          ++ (member ++ following layout level right more)) := by
  simp only [bracketed, following, List.cons_append, List.append_assoc]

theorem bracketed_cons_append (left right : Char) (member : List Char) (more : List (List Char)) :
    bracketed layout level left right (member :: more) ++ rest
      = left :: (layout.lineBreak (level + 1)
          ++ (member ++ (following layout level right more ++ rest))) := by
  rw [bracketed_cons, List.cons_append, List.append_assoc, List.append_assoc]

theorem following_nil_append (right : Char) :
    following layout level right [] ++ rest = layout.lineBreak level ++ right :: rest := by
  simp only [following, List.flatMap_nil, List.nil_append, List.append_assoc, List.singleton_append]

/-- The next member stands behind a comma and a line break. -/
theorem following_cons (right : Char) (member : List Char) (more : List (List Char)) :
    following layout level right (member :: more)
      = ',' :: (layout.lineBreak (level + 1)
          ++ (member ++ following layout level right more)) := by
  simp only [following, List.flatMap_cons, List.cons_append, List.append_assoc]

theorem following_cons_append (right : Char) (member : List Char) (more : List (List Char)) :
    following layout level right (member :: more) ++ rest
      = ',' :: (layout.lineBreak (level + 1)
          ++ (member ++ (following layout level right more ++ rest))) := by
  rw [following_cons, List.cons_append, List.append_assoc, List.append_assoc]

theorem skipGap_following_nil {right : Char} (hright : isGap right = false) :
    skipGap (following layout level right [] ++ rest) = right :: rest := by
  rw [following_nil_append]
  exact skipGap_append (fun _ => Layout.isGap_of_mem_lineBreak) (.cons hright)

theorem skipGap_following_cons (right : Char) (member : List Char) (more : List (List Char)) :
    skipGap (following layout level right (member :: more) ++ rest)
      = ',' :: (layout.lineBreak (level + 1)
          ++ (member ++ (following layout level right more ++ rest))) := by
  rw [following_cons_append]
  exact List.dropWhile_cons_of_neg (by decide)

/-- No numeral goes on behind a member. -/
theorem stops_following {right : Char} (hright : continuesNumeral right = false)
    (more : List (List Char)) :
    Stops continuesNumeral (following layout level right more ++ rest) := by
  cases more with
  | nil =>
    rw [following_nil_append]
    cases layout with
    | compact => exact .cons hright
    | indented => exact .cons (by decide)
  | cons member more =>
    rw [following_cons_append]
    exact .cons (by decide)

/-! ## The head of a text -/

/-- What a numeral starts with starts nothing else. -/
theorem not_other_of_numeral {c : Char} (h : c = '-' ∨ c.isDigit = true) :
    isGap c = false ∧ opensMore c = false ∧ c ∉ [']', '\x7d', 'n', 't', 'f'] := by
  have hother : ∀ d ∈ [' ', '\t', '\n', '\r', '"', '[', '\x7b', ']', '\x7d', 'n', 't', 'f'],
      c ≠ d := by
    rintro d hd rfl
    rcases h with rfl | hdigit
    · exact absurd hd (by decide)
    · simp only [List.mem_cons, List.not_mem_nil, or_false] at hd
      rcases hd with rfl | rfl | rfl | rfl | rfl | rfl | rfl | rfl | rfl | rfl | rfl | rfl <;>
        exact absurd hdigit (by decide)
  refine ⟨?_, ?_, ?_⟩
  · simp [isGap, hother]
  · simp [opensMore, hother]
  · simp [hother]

/-- The text of a value starts with no gap and no closing bracket. -/
theorem exists_jsonChars (layout : Layout) (level : Nat) (v : Value) :
    ∃ c cs, jsonChars layout level v = c :: cs ∧ isGap c = false ∧ c ∉ [']', '\x7d'] := by
  cases v with
  | null => exact ⟨'n', _, rfl, by decide, by decide⟩
  | boolean b =>
    cases b with
    | true => exact ⟨'t', _, rfl, by decide, by decide⟩
    | false => exact ⟨'f', _, rfl, by decide, by decide⟩
  | number n =>
    rw [jsonChars]
    split
    · next hfinite =>
      obtain ⟨c, cs, hchars, hc⟩ := Binary64.exists_textChars hfinite
      obtain ⟨hgap, -, hother⟩ := not_other_of_numeral hc
      exact ⟨c, cs, hchars, hgap, fun h => hother (List.mem_append_left ['n', 't', 'f'] h)⟩
    · exact ⟨'n', _, rfl, by decide, by decide⟩
  | string s => exact ⟨'"', _, rfl, by decide, by decide⟩
  | array items =>
    rw [jsonChars]
    cases itemChars layout (level + 1) items with
    | nil => exact ⟨'[', _, rfl, by decide, by decide⟩
    | cons => exact ⟨'[', _, rfl, by decide, by decide⟩
  | object entries =>
    rw [jsonChars]
    cases (sortByKey (entryChars layout (level + 1) entries)).map (·.2) with
    | nil => exact ⟨'\x7b', _, rfl, by decide, by decide⟩
    | cons => exact ⟨'\x7b', _, rfl, by decide, by decide⟩

/-- A gap ends where the text of a value starts. -/
theorem skipGap_jsonChars {gap : List Char} (hgap : ∀ c ∈ gap, isGap c = true) (layout : Layout)
    (level : Nat) (v : Value) (rest : List Char) :
    skipGap (gap ++ (jsonChars layout level v ++ rest)) = jsonChars layout level v ++ rest := by
  obtain ⟨c, cs, hchars, hc, -⟩ := exists_jsonChars layout level v
  rw [hchars]
  exact skipGap_append hgap (.cons hc)

/-- So does the line break in front of a member. -/
theorem skipGap_member (layout : Layout) (level : Nat) (v : Value) (rest : List Char) :
    skipGap (layout.lineBreak level ++ (jsonChars layout level v ++ rest))
      = jsonChars layout level v ++ rest :=
  skipGap_jsonChars (fun _ => Layout.isGap_of_mem_lineBreak) layout level v rest

/-- The text of an entry starts with a quote. -/
theorem skipGap_entry (layout : Layout) (level : Nat) (e : String × Value) (rest : List Char) :
    skipGap (layout.lineBreak level ++ (entryText layout level e ++ rest))
      = entryText layout level e ++ rest := by
  refine skipGap_append (fun _ => Layout.isGap_of_mem_lineBreak) ?_
  rw [entryText, List.append_assoc, quote_append]
  exact .cons (by decide)

/-! ## Values without parts -/

/-- The text of a value is read as what it stands for, behind a gap and in front of anything that a
numeral cannot go on with, if the value is not nested too deep. -/
def ReadsBack (layout : Layout) (v : Value) : Prop :=
  ∀ ⦃level room : Nat⦄ ⦃cs rest : List Char⦄, v.depth ≤ room →
    skipGap cs = jsonChars layout level v ++ rest → Stops continuesNumeral rest →
    Yields (read room cs) v.stored rest

theorem readsBack_null : ReadsBack layout .null := by
  intro level room cs rest _ hcs _
  exact yields_atom hcs (by decide) rfl

theorem readsBack_boolean (b : Bool) : ReadsBack layout (.boolean b) := by
  intro level room cs rest _ hcs _
  cases b with
  | true => exact yields_atom hcs (by decide) rfl
  | false => exact yields_atom hcs (by decide) rfl

/-- What starts none of the three words is read as a number. -/
theorem readAtom_number {c : Char} {cs : List Char} (h : c ∉ [']', '\x7d', 'n', 't', 'f']) :
    readAtom (c :: cs) = (readNumber (c :: cs)).map fun (n, rest) => (.number n, rest) := by
  unfold readAtom
  split
  case h_4 => rfl
  all_goals
    next heq =>
      obtain ⟨rfl, -⟩ := List.cons.inj heq
      exact absurd h (by decide)

/-- A number that is not finite is written as null, and read as that. -/
theorem readsBack_number (n : Binary64) : ReadsBack layout (.number n) := by
  intro level room cs rest _ hcs hrest
  rw [jsonChars] at hcs
  rw [stored]
  by_cases hfinite : n.isFinite = true
  · obtain ⟨c, more, hchars, hc⟩ := Binary64.exists_textChars hfinite
    obtain ⟨-, hopens, hother⟩ := not_other_of_numeral hc
    have hread := Binary64.readNumber_textChars hfinite hrest
    rw [if_pos hfinite] at hcs ⊢
    rw [hchars, List.cons_append] at hcs hread
    refine yields_atom hcs hopens ?_
    rw [readAtom_number hother, hread]
    rfl
  · rw [if_neg hfinite] at hcs ⊢
    exact yields_atom hcs (by decide) rfl

theorem readsBack_string (s : String) : ReadsBack layout (.string s) := by
  intro level room cs rest _ hcs _
  rw [jsonChars, quote_append] at hcs
  have hyields : Yields (read room cs) (.string (String.ofList s.toList)) rest :=
    yields_string hcs (readQuoted_flatMap_escape s.toList rest)
  rwa [String.ofList_toList] at hyields

/-! ## Arrays -/

/-- The items of an array, from one of them on. -/
theorem yields_printed_items {item : Value} {items : List Value} {cs : List Char}
    (hback : ∀ v ∈ item :: items, ReadsBack layout v) (hdepth : ∀ v ∈ item :: items, v.depth ≤ room)
    (hcs : skipGap cs = jsonChars layout (level + 1) item
      ++ (following layout level ']' (items.map (jsonChars layout (level + 1))) ++ rest)) :
    Yields (readMoreItems room cs) ((item :: items).map stored) rest := by
  induction items generalizing item cs with
  | nil =>
    have hitem := hback item List.mem_cons_self (hdepth item List.mem_cons_self) hcs
      (stops_following rfl _)
    exact yields_lastItem hitem (skipGap_following_nil rfl)
  | cons next items ih =>
    have hitem := hback item List.mem_cons_self (hdepth item List.mem_cons_self) hcs
      (stops_following rfl _)
    exact yields_nextItem hitem (skipGap_following_cons _ _ _)
      (ih (fun v hv => hback v (List.mem_cons_of_mem _ hv))
        (fun v hv => hdepth v (List.mem_cons_of_mem _ hv))
        (skipGap_member layout (level + 1) next _))

theorem exists_room {n room : Nat} (h : 1 + n ≤ room) : ∃ room', room = room' + 1 ∧ n ≤ room' :=
  ⟨room - 1, by omega, by omega⟩

/-- An array is read back if all its items are. -/
theorem readsBack_array {items : List Value} (hback : ∀ v ∈ items, ReadsBack layout v) :
    ReadsBack layout (.array items) := by
  intro level room cs rest hdepth hcs _
  -- the brackets take up one level
  rw [depth] at hdepth
  obtain ⟨room, rfl, hroom⟩ := exists_room hdepth
  rw [jsonChars, itemChars_eq] at hcs
  rw [stored, storedItems_eq]
  cases items with
  | nil => exact yields_array hcs (yields_noItems (List.dropWhile_cons_of_neg (by decide)))
  | cons item items =>
    have hskip := skipGap_member layout (level + 1) item
      (following layout level ']' (items.map (jsonChars layout (level + 1))) ++ rest)
    rw [List.map_cons, bracketed_cons_append] at hcs
    refine yields_array hcs (yields_items ?_ ?_)
    · obtain ⟨c, more, hchars, -, hc⟩ := exists_jsonChars layout (level + 1) item
      rw [hskip, hchars]
      exact .cons (beq_false_of_ne (List.ne_of_not_mem_cons hc))
    · exact yields_printed_items hback
        (fun v hv => Nat.le_trans (depth_le_itemsDepth hv) hroom) hskip

/-! ## Objects -/

/-- The key of an entry is read up to its colon. -/
theorem readKey_entryText {e : String × Value} {cs : List Char}
    (hcs : skipGap cs = entryText layout level e ++ rest) :
    ∃ afterKey, readKey cs = some (e.1, afterKey) ∧
      skipGap afterKey = jsonChars layout level e.2 ++ rest := by
  obtain ⟨gap, hcolon, hgap⟩ := layout.exists_colon
  rw [entryText, List.append_assoc, quote_append, List.append_assoc, hcolon,
    List.cons_append] at hcs
  have hkey := readKey_eq hcs (readQuoted_flatMap_escape _ _)
    (List.dropWhile_cons_of_neg (by decide))
  rw [String.ofList_toList] at hkey
  exact ⟨_, hkey, skipGap_jsonChars hgap layout level e.2 rest⟩

/-- The entries of an object, from one of them on. -/
theorem yields_printed_entries {e : String × Value} {entries : List (String × Value)}
    {cs : List Char} (hback : ∀ e' ∈ e :: entries, ReadsBack layout e'.2)
    (hdepth : ∀ e' ∈ e :: entries, e'.2.depth ≤ room)
    (hcs : skipGap cs = entryText layout (level + 1) e
      ++ (following layout level '\x7d' (entries.map (entryText layout (level + 1))) ++ rest)) :
    Yields (readMoreEntries room cs) ((e :: entries).map fun e' => (e'.1, e'.2.stored)) rest := by
  induction entries generalizing e cs with
  | nil =>
    obtain ⟨afterKey, hkey, hafter⟩ := readKey_entryText hcs
    have hvalue := hback e List.mem_cons_self (hdepth e List.mem_cons_self) hafter
      (stops_following rfl _)
    exact yields_lastEntry hkey hvalue (skipGap_following_nil rfl)
  | cons next entries ih =>
    obtain ⟨afterKey, hkey, hafter⟩ := readKey_entryText hcs
    have hvalue := hback e List.mem_cons_self (hdepth e List.mem_cons_self) hafter
      (stops_following rfl _)
    exact yields_nextEntry hkey hvalue (skipGap_following_cons _ _ _)
      (ih (fun e' he => hback e' (List.mem_cons_of_mem _ he))
        (fun e' he => hdepth e' (List.mem_cons_of_mem _ he))
        (skipGap_entry layout (level + 1) next _))

/-- The texts of the entries of an object, in the order of their keys. -/
theorem sorted_entryChars (entries : List (String × Value)) :
    (sortByKey (entryChars layout level entries)).map (·.2)
      = (sortByKey entries).map (entryText layout level) := by
  rw [entryChars_eq, sortByKey_map, List.map_map]
  rfl

/-- So is an object, with its entries in the order of their keys. -/
theorem readsBack_object {entries : List (String × Value)}
    (hback : ∀ e ∈ entries, ReadsBack layout e.2) : ReadsBack layout (.object entries) := by
  intro level room cs rest hdepth hcs _
  rw [depth] at hdepth
  obtain ⟨room, rfl, hroom⟩ := exists_room hdepth
  rw [jsonChars, sorted_entryChars] at hcs
  rw [stored, storedEntries_eq, sortByKey_map]
  -- the entries are read in the order of their keys, so the argument is about the sorted list
  have hmem : ∀ e ∈ sortByKey entries, e ∈ entries := fun e => (sortByKey_perm entries).mem_iff.1
  cases hsorted : sortByKey entries with
  | nil =>
    rw [hsorted] at hcs
    exact yields_object hcs (yields_noEntries (List.dropWhile_cons_of_neg (by decide)))
  | cons e more =>
    rw [hsorted] at hcs hmem
    have hskip := skipGap_entry layout (level + 1) e
      (following layout level '\x7d' (more.map (entryText layout (level + 1))) ++ rest)
    rw [List.map_cons, bracketed_cons_append] at hcs
    refine yields_object hcs (yields_entries ?_ ?_)
    · rw [hskip, entryText, List.append_assoc, quote_append]
      exact .cons (by decide)
    · exact yields_printed_entries (fun e' he => hback e' (hmem e' he))
        (fun e' he => Nat.le_trans (depth_le_entriesDepth (hmem e' he)) hroom) hskip

/-! ## Whole texts -/

/-- The text of every value is read as what it stands for. -/
theorem readsBack (layout : Layout) (v : Value) : ReadsBack layout v := by
  induction v using Value.induction with
  | null => exact readsBack_null
  | boolean b => exact readsBack_boolean b
  | number n => exact readsBack_number n
  | string s => exact readsBack_string s
  | array items ih => exact readsBack_array ih
  | object entries ih => exact readsBack_object ih

/-- The text of a value is read as what it stands for wherever there is room for its nesting. -/
theorem ofJsonWithin?_jsonChars (layout : Layout) {limit : Nat} {v : Value} (h : v.depth ≤ limit) :
    ofJsonWithin? limit (String.ofList (jsonChars layout 0 v)) = some v.stored := by
  obtain ⟨c, cs, hchars, hc, -⟩ := exists_jsonChars layout 0 v
  have hskip : skipGap (String.ofList (jsonChars layout 0 v)).toList
      = jsonChars layout 0 v ++ [] := by
    rw [String.toList_ofList, List.append_nil, hchars]
    exact List.dropWhile_cons_of_neg (by rw [hc]; decide)
  exact ofJsonWithin?_eq (readsBack layout v h hskip .nil) rfl

/-- The text of a value that is not nested too deep is read as what it stands for. -/
theorem ofJson?_jsonChars (layout : Layout) {v : Value} (h : v.depth ≤ nestingLimit) :
    ofJson? (String.ofList (jsonChars layout 0 v)) = some v.stored :=
  ofJsonWithin?_jsonChars layout h

end Value
end TextTemplate
