import TextTemplate.Proofs.Template.Bytes
import TextTemplate.Proofs.Text.Trim
/-!
# Where the markers of a template are

The scanner of `TextTemplate.Template.Marker` follows the text; here its markers are given by their
places in the whole template.

- `IsMatch`: where a marker could stand.
- `IsNext`: the leftmost of these places behind a given one, with the first closing braces.
- `Scan`: all markers, one behind the other.
- `markers_exact`: the markers of a template are those of a scan, which is the only one.
-/

namespace TextTemplate

/-! ## Matches -/

/-- A character stands twice, at a place and behind it. -/
def PairAt (b : Char) (cs : List Char) (i : Nat) : Prop := cs[i]? = some b ∧ cs[i + 1]? = some b

/-- A marker could stand from `s` up to the closing braces at `j`: there is at least one character
between the braces, and no end of a line. -/
structure IsMatch (cs : List Char) (s j : Nat) : Prop where
  opens : PairAt '\x7b' cs s
  closes : PairAt '\x7d' cs j
  nonempty : s + 3 ≤ j
  oneLine : ∀ k, s + 2 ≤ k → k < j → cs[k]? ≠ some '\n'

/-- The next marker that starts at `start` or behind it: the leftmost place of all, and the first
closing braces for that place. -/
structure IsNext (cs : List Char) (start s j : Nat) : Prop where
  le : start ≤ s
  isMatch : IsMatch cs s j
  leftmost : ∀ s' j', start ≤ s' → s' < s → ¬ IsMatch cs s' j'
  first : ∀ j', j' < j → ¬ IsMatch cs s j'

/-- The markers from `start` on, each with the places of its opening and its closing braces. -/
inductive Scan (cs : List Char) : Nat → List (Nat × Nat) → Prop where
  | stop {start : Nat} (hnone : ∀ s j, start ≤ s → ¬ IsMatch cs s j) : Scan cs start []
  | next {start s j : Nat} {more : List (Nat × Nat)} (hnext : IsNext cs start s j)
      (hmore : Scan cs (j + 2) more) : Scan cs start ((s, j) :: more)

theorem IsNext.unique {cs : List Char} {start s j s' j' : Nat} (h : IsNext cs start s j)
    (h' : IsNext cs start s' j') : s = s' ∧ j = j' := by
  have hs : s = s' := by
    rcases Nat.lt_trichotomy s s' with hlt | heq | hgt
    · exact absurd h.isMatch (h'.leftmost s j h.le hlt)
    · exact heq
    · exact absurd h'.isMatch (h.leftmost s' j' h'.le hgt)
  subst hs
  refine ⟨rfl, ?_⟩
  rcases Nat.lt_trichotomy j j' with hlt | heq | hgt
  · exact absurd h.isMatch (h'.first j hlt)
  · exact heq
  · exact absurd h'.isMatch (h.first j' hgt)

namespace Scan

variable {cs : List Char} {start : Nat} {places places' : List (Nat × Nat)}

/-- There is only one way of scanning a text. -/
theorem unique (h : Scan cs start places) (h' : Scan cs start places') : places = places' := by
  induction h generalizing places' with
  | stop hnone =>
    cases h' with
    | stop => rfl
    | next hnext => exact absurd hnext.isMatch (hnone _ _ hnext.le)
  | next hnext _ ih =>
    cases h' with
    | stop hnone => exact absurd hnext.isMatch (hnone _ _ hnext.le)
    | next hnext' hmore' =>
      obtain ⟨rfl, rfl⟩ := hnext.unique hnext'
      rw [ih hmore']

/-- A place where no marker starts can be passed over. -/
theorem skip (hnone : ∀ j, ¬ IsMatch cs start j) (h : Scan cs (start + 1) places) :
    Scan cs start places := by
  -- the only place that is left to look at is `start` itself
  have hleft : ∀ s' j', start ≤ s' → ¬ start + 1 ≤ s' → ¬ IsMatch cs s' j' := by
    intro s' j' hle hnot
    have hs : s' = start := by omega
    rw [hs]
    exact hnone j'
  cases h with
  | stop hnone' =>
    refine .stop ?_
    intro s j hle
    by_cases hs : start + 1 ≤ s
    · exact hnone' s j hs
    · exact hleft s j hle hs
  | next hnext hmore =>
    refine .next ⟨Nat.le_of_succ_le hnext.le, hnext.isMatch, ?_, hnext.first⟩ hmore
    intro s' j' hle hlt
    by_cases hs : start + 1 ≤ s'
    · exact hnext.leftmost s' j' hs hlt
    · exact hleft s' j' hle hs

end Scan

/-! ## The scanner -/

theorem pairAt_zero_iff {b : Char} {cs : List Char} :
    PairAt b cs 0 ↔ ∃ rest, cs = b :: b :: rest := by
  constructor
  · rintro ⟨hfirst, hsecond⟩
    match cs with
    | [] => cases hfirst
    | [_] => cases hsecond
    | c :: d :: rest =>
      cases hfirst
      cases hsecond
      exact ⟨rest, rfl⟩
  · rintro ⟨rest, rfl⟩
    exact ⟨rfl, rfl⟩

theorem pairAt_drop {b : Char} {cs : List Char} {k i : Nat} :
    PairAt b (cs.drop k) i ↔ PairAt b cs (k + i) := by
  simp only [PairAt, List.getElem?_drop, Nat.add_assoc]

theorem not_pairAt_of_afterClosing? {cs : List Char} (h : afterClosing? cs = none) :
    ¬ PairAt '\x7d' cs 0 := by
  intro hpair
  obtain ⟨rest, rfl⟩ := pairAt_zero_iff.1 hpair
  cases h

/-- Closing braces behind at least one character and before the end of the line. -/
structure IsClosing (cs : List Char) (n : Nat) : Prop where
  closes : PairAt '\x7d' cs n
  pos : 0 < n
  oneLine : ∀ k < n, cs[k]? ≠ some '\n'

namespace IsClosing

variable {c : Char} {cs : List Char} {n : Nat}

theorem not_nil : ¬ IsClosing [] n := by
  intro h
  exact nomatch h.closes.1

/-- The first character may be anything but the end of the line. -/
theorem succ_iff : IsClosing (c :: cs) (n + 1) ↔
    c ≠ '\n' ∧ (n = 0 ∧ PairAt '\x7d' cs 0 ∨ IsClosing cs n) := by
  constructor
  · intro h
    refine ⟨fun hc => h.oneLine 0 h.pos (by rw [hc]; rfl), ?_⟩
    have hcloses : PairAt '\x7d' cs n := h.closes
    cases n with
    | zero => exact .inl ⟨rfl, hcloses⟩
    | succ n => exact .inr ⟨hcloses, Nat.succ_pos n, fun k hk => h.oneLine (k + 1) (by omega)⟩
  · rintro ⟨hc, hrest⟩
    have hcloses : PairAt '\x7d' cs n := by
      rcases hrest with ⟨rfl, h⟩ | h
      · exact h
      · exact h.closes
    refine ⟨hcloses, Nat.succ_pos n, ?_⟩
    intro k hk
    cases k with
    | zero => simpa using hc
    | succ k =>
      rcases hrest with ⟨rfl, -⟩ | h
      · omega
      · exact h.oneLine k (by omega)

end IsClosing

/-- A body goes up to the first closing braces. -/
theorem isClosing_of_splitBody {cs body rest : List Char} (h : splitBody cs = some (body, rest)) :
    IsClosing cs body.length ∧ ∀ n < body.length, ¬ IsClosing cs n := by
  fun_induction splitBody cs generalizing body rest with
  | case1 => cases h
  | case2 => cases h
  | case3 c cs hc after hafter =>
    cases h
    refine ⟨IsClosing.succ_iff.2 ⟨hc, .inl ⟨rfl, pairAt_zero_iff.2 ⟨_, eq_of_afterClosing? hafter⟩⟩⟩, ?_⟩
    intro n hn hclosing
    have hpos := hclosing.pos
    simp only [List.length_cons, List.length_nil] at hn
    omega
  | case4 c cs hc hafter ih =>
    obtain ⟨⟨body', rest'⟩, hsplit, hpair⟩ := Option.map_eq_some_iff.1 h
    cases hpair
    obtain ⟨hclosing, hfirst⟩ := ih hsplit
    refine ⟨IsClosing.succ_iff.2 ⟨hc, .inr hclosing⟩, ?_⟩
    intro n hn hclosing'
    cases n with
    | zero => exact absurd hclosing'.pos (Nat.lt_irrefl 0)
    | succ n =>
      rcases (IsClosing.succ_iff.1 hclosing').2 with ⟨-, hcloses⟩ | hrest
      -- closing braces right behind this character would have ended the body before
      · exact not_pairAt_of_afterClosing? hafter hcloses
      · exact hfirst n (Nat.lt_of_succ_lt_succ hn) hrest

/-- Without a body there are no closing braces. -/
theorem not_isClosing_of_splitBody {cs : List Char} (h : splitBody cs = none) (n : Nat) :
    ¬ IsClosing cs n := by
  fun_induction splitBody cs generalizing n with
  | case1 => exact IsClosing.not_nil
  | case2 cs =>
    intro hclosing
    exact hclosing.oneLine 0 hclosing.pos rfl
  | case3 => cases h
  | case4 c cs hc hafter ih =>
    intro hclosing
    cases n with
    | zero => exact absurd hclosing.pos (Nat.lt_irrefl 0)
    | succ n =>
      rcases (IsClosing.succ_iff.1 hclosing).2 with ⟨-, hcloses⟩ | hrest
      · exact not_pairAt_of_afterClosing? hafter hcloses
      · exact ih (Option.map_eq_none_iff.1 h) n hrest

/-- A match, seen from behind its opening braces. -/
theorem isMatch_add_iff {cs : List Char} {s n : Nat} :
    IsMatch cs s (s + 2 + n) ↔ PairAt '\x7b' cs s ∧ IsClosing (cs.drop (s + 2)) n := by
  constructor
  · intro h
    refine ⟨h.opens, pairAt_drop.2 h.closes, ?_, ?_⟩
    · have hnonempty := h.nonempty
      omega
    · intro k hk
      rw [List.getElem?_drop]
      exact h.oneLine (s + 2 + k) (by omega) (by omega)
  · rintro ⟨hopens, hcloses, hpos, hline⟩
    refine ⟨hopens, pairAt_drop.1 hcloses, by omega, ?_⟩
    intro k hle hk
    have hchar := hline (k - (s + 2)) (by omega)
    rwa [List.getElem?_drop, Nat.add_sub_cancel' hle] at hchar

/-- A match is always of that form. -/
theorem IsMatch.exists_add {cs : List Char} {s j : Nat} (h : IsMatch cs s j) :
    ∃ n, j = s + 2 + n := by
  have hnonempty := h.nonempty
  exact ⟨j - (s + 2), by omega⟩

/-- A marker at the head of what is left of a template is the next one. -/
theorem isNext_of_markerAtHead? {cs body rest : List Char} {start : Nat}
    (h : markerAtHead? (cs.drop start) = some (body, rest)) :
    IsNext cs start start (start + 2 + body.length) := by
  obtain ⟨after, hopen, hsplit⟩ := Option.bind_eq_some_iff.1 h
  have hpair : PairAt '\x7b' cs start :=
    pairAt_drop.1 (pairAt_zero_iff.2 ⟨after, eq_of_afterOpening? hopen⟩)
  have hafter : cs.drop (start + 2) = after := by
    rw [← List.drop_drop, eq_of_afterOpening? hopen]
    rfl
  obtain ⟨hclosing, hfirst⟩ := isClosing_of_splitBody hsplit
  refine ⟨Nat.le_refl start, isMatch_add_iff.2 ⟨hpair, hafter ▸ hclosing⟩, ?_, ?_⟩
  · intro s' j' hle hlt
    omega
  · intro j' hlt hmatch
    obtain ⟨n, rfl⟩ := hmatch.exists_add
    exact hfirst n (by omega) (hafter ▸ (isMatch_add_iff.1 hmatch).2)

/-- No marker starts before a character that stands for itself. -/
theorem not_isMatch_of_markerAtHead? {cs : List Char} {start : Nat}
    (h : markerAtHead? (cs.drop start) = none) (j : Nat) : ¬ IsMatch cs start j := by
  intro hmatch
  obtain ⟨n, rfl⟩ := hmatch.exists_add
  obtain ⟨hopens, hclosing⟩ := isMatch_add_iff.1 hmatch
  obtain ⟨after, hdrop⟩ := pairAt_zero_iff.1 (pairAt_drop.2 hopens)
  have hafter : cs.drop (start + 2) = after := by
    rw [← List.drop_drop, hdrop]
    rfl
  have hsplit : splitBody after = none := by
    rw [hdrop] at h
    exact h
  exact not_isClosing_of_splitBody hsplit n (hafter ▸ hclosing)

/-! ## All markers -/

/-- The marker between opening and closing braces. -/
def markerAt (cs : List Char) : Nat × Nat → Marker
  | (s, j) =>
    ⟨byteSize (cs.take s), byteSize (cs.take (j + 2)), String.ofList ((cs.take (j + 2)).drop s),
      markerExpression ((cs.take j).drop (s + 2))⟩

/-- The text of a marker at the head of what is left of a template, what follows it, and the offset
behind it. -/
theorem parts_of_markerAtHead? {cs body rest : List Char} {start : Nat}
    (h : markerAtHead? (cs.drop start) = some (body, rest)) :
    (cs.take (start + 2 + body.length + 2)).drop start = Piece.source (.marker body) ∧
      cs.drop (start + 2 + body.length + 2) = rest ∧
      byteSize (cs.take (start + 2 + body.length + 2))
        = byteSize (cs.take start) + byteSize (Piece.source (.marker body)) := by
  have hparts : cs.drop start = Piece.source (.marker body) ++ rest := by
    rw [eq_of_markerAtHead? h, Piece.source]
    simp
  have hstop : start + (Piece.source (.marker body)).length = start + 2 + body.length + 2 := by
    simp only [Piece.source, List.length_cons, List.length_append, List.length_nil]
    omega
  obtain ⟨hsource, hrest⟩ := drop_add_eq hparts
  rw [hstop] at hsource hrest
  refine ⟨hsource, hrest, ?_⟩
  rw [byteSize_take_eq (i := start) (by omega), hsource]

/-- The scanner follows a scan from any place on. -/
theorem exists_scan {cs rest : List Char} {start : Nat} (h : cs.drop start = rest) :
    ∃ places, Scan cs start places ∧
      markersFrom (byteSize (cs.take start)) (pieces rest) = places.map (markerAt cs) := by
  fun_induction pieces rest generalizing start with
  | case1 =>
    refine ⟨[], .stop ?_, rfl⟩
    intro s j hle hmatch
    -- nothing is left, so that no brace can stand from here on
    have hlength : cs.length ≤ start := List.drop_eq_nil_iff.1 h
    have hnone : cs[s]? = none := List.getElem?_eq_none (Nat.le_trans hlength hle)
    cases hnone.symm.trans hmatch.opens.1
  | case2 c more body rest hhead ih =>
    have hhead' : markerAtHead? (cs.drop start) = some (body, rest) := h ▸ hhead
    obtain ⟨hsource, hrest, hsize⟩ := parts_of_markerAtHead? hhead'
    have hbody : cs.drop (start + 2) = body ++ ('\x7d' :: '\x7d' :: rest) := by
      rw [← List.drop_drop, eq_of_markerAtHead? hhead']
      rfl
    obtain ⟨places, hscan, hmarkers⟩ := ih hrest
    refine ⟨(start, start + 2 + body.length) :: places,
      .next (isNext_of_markerAtHead? hhead') hscan, ?_⟩
    rw [markersFrom, List.map_cons, markerAt, hsource, (drop_add_eq hbody).1, ← hmarkers, hsize]
  | case3 c more hhead ih =>
    -- no marker starts at this character, so that the scan behind it is the scan from it on
    obtain ⟨-, hmore, hsize⟩ := parts_of_drop_eq_cons h
    obtain ⟨places, hscan, hmarkers⟩ := ih hmore
    refine ⟨places, hscan.skip (not_isMatch_of_markerAtHead? (h ▸ hhead)), ?_⟩
    rw [hsize] at hmarkers
    exact hmarkers

namespace Scan

variable {cs : List Char} {start : Nat} {places : List (Nat × Nat)}

theorem isMatch (h : Scan cs start places) : ∀ p ∈ places, IsMatch cs p.1 p.2 := by
  induction h with
  | stop hnone => simp
  | next hnext hmore ih =>
    intro p hp
    rcases List.mem_cons.1 hp with rfl | hp
    · exact hnext.isMatch
    · exact ih p hp

theorem le_start (h : Scan cs start places) : ∀ p ∈ places, start ≤ p.1 := by
  induction h with
  | stop hnone => simp
  | next hnext hmore ih =>
    intro p hp
    rcases List.mem_cons.1 hp with rfl | hp
    · exact hnext.le
    · have hle := ih p hp
      have hstart := hnext.le
      have hnonempty := hnext.isMatch.nonempty
      omega

/-- A marker starts behind the one before it. -/
theorem pairwise (h : Scan cs start places) : places.Pairwise fun p q => p.2 + 2 ≤ q.1 := by
  induction h with
  | stop hnone => exact .nil
  | next hnext hmore ih => exact .cons hmore.le_start ih

end Scan

/-- The closing braces lie within the text. -/
theorem IsMatch.le_length {cs : List Char} {s j : Nat} (h : IsMatch cs s j) : j + 2 ≤ cs.length := by
  obtain ⟨hlt, -⟩ := List.getElem?_eq_some_iff.1 h.closes.2
  exact hlt

/-- A marker is a part of its template, between two offsets that are not inside characters. -/
structure Marker.Fits (template : String) (m : Marker) : Prop where
  valid_start : String.Pos.Raw.IsValid template ⟨m.start⟩
  valid_stop : String.Pos.Raw.IsValid template ⟨m.stop⟩
  start_lt : m.start < m.stop
  slice_eq : slice template m.start m.stop = m.source

theorem fits_markerAt {template : String} {s j : Nat} (h : IsMatch template.toList s j) :
    (markerAt template.toList (s, j)).Fits template := by
  have hnonempty := h.nonempty
  refine ⟨isValid_byteSize_take .., isValid_byteSize_take .., ?_, slice_byteSize _ (by omega)⟩
  have hlength : 0 < ((template.toList.take (j + 2)).drop s).length := by
    rw [List.length_drop, List.length_take, Nat.min_eq_left h.le_length]
    omega
  have hsize := length_le_byteSize ((template.toList.take (j + 2)).drop s)
  have htake : byteSize (template.toList.take (j + 2)) = byteSize (template.toList.take s)
      + byteSize ((template.toList.take (j + 2)).drop s) := byteSize_take_eq (by omega)
  show byteSize (template.toList.take s) < byteSize (template.toList.take (j + 2))
  omega

/-- The markers of a template: every one starts at the leftmost place behind the one before it
where a marker can stand, and ends with the first closing braces that it can end with. -/
theorem markers_exact (template : String) :
    ∃ places, Scan template.toList 0 places ∧
      (∀ places', Scan template.toList 0 places' → places' = places) ∧
      markers template = places.map (markerAt template.toList) ∧
      (∀ s j, (s, j) ∈ places → Trims ((template.toList.take j).drop (s + 2))
        (markerAt template.toList (s, j)).expression.toList) ∧
      (∀ m ∈ markers template, m.Fits template) ∧
      (markers template).Pairwise fun m m' => m.stop ≤ m'.start := by
  have hdrop : template.toList.drop 0 = template.toList := rfl
  obtain ⟨places, hscan, hmarkers⟩ := exists_scan hdrop
  have hmap : markers template = places.map (markerAt template.toList) := hmarkers
  refine ⟨places, hscan, fun places' h => h.unique hscan, hmap, ?_, ?_, ?_⟩
  · intro s j _
    have hexpression : (markerAt template.toList (s, j)).expression.toList
        = trim ((template.toList.take j).drop (s + 2)) := String.toList_ofList
    rw [hexpression]
    exact trims_trim _
  · intro m hm
    rw [hmap] at hm
    obtain ⟨⟨s, j⟩, hp, rfl⟩ := List.mem_map.1 hm
    exact fits_markerAt (hscan.isMatch (s, j) hp)
  · rw [hmap, List.pairwise_map]
    exact hscan.pairwise.imp fun hle => byteSize_take_le hle

end TextTemplate
