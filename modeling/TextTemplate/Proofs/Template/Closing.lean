import Mathlib
import TextTemplate.Proofs.Template.Splice
/-!
# Where markers close

A marker has at least one character between its braces, so that closing braces right behind its
opening ones do not end it. It then goes on to the next closing braces of its line, whatever stands
before them, another marker included.

- `ClosesFirst`: a marker ends with the first closing braces behind its opening ones.
- `EmptyPairAt`: closing braces stand right behind opening ones.
- `FirstScan`: the markers of a template in which every marker ends with the first closing braces
  and an empty pair is just text.
- `closing_exact`: the markers are those of such a scan iff none of them starts with an empty pair,
  which can be seen from the line behind every empty pair.
- `emptyPair_swallows_marker`: a template with an empty pair before a marker.
-/

namespace TextTemplate

/-- The closing braces at `j` are the first ones behind the opening braces at `s`. -/
def ClosesFirst (cs : List Char) (s j : Nat) : Prop :=
  ∀ i, s + 2 ≤ i → i < j → ¬ PairAt '\x7d' cs i

/-- Opening braces stand at a place, and closing braces right behind them. -/
def EmptyPairAt (cs : List Char) (p : Nat) : Prop := PairAt '\x7b' cs p ∧ PairAt '\x7d' cs (p + 2)

/-- A marker that ends with the first closing braces could stand from `s` up to those at `j`. -/
structure IsFirstMatch (cs : List Char) (s j : Nat) : Prop where
  isMatch : IsMatch cs s j
  closesFirst : ClosesFirst cs s j

/-- The markers from `start` on, if every one of them had to end with the first closing braces
behind its opening ones. -/
inductive FirstScan (cs : List Char) : Nat → List (Nat × Nat) → Prop where
  | stop {start : Nat} (hnone : ∀ s j, start ≤ s → ¬ IsFirstMatch cs s j) : FirstScan cs start []
  | next {start s j : Nat} {more : List (Nat × Nat)} (hle : start ≤ s)
      (hmatch : IsFirstMatch cs s j)
      (hleftmost : ∀ s' j', start ≤ s' → s' < s → ¬ IsFirstMatch cs s' j')
      (hmore : FirstScan cs (j + 2) more) : FirstScan cs start ((s, j) :: more)

/-! ## One marker -/

section

variable {cs : List Char} {start s j p i : Nat}

/-- Closing braces between those of a match, but not right behind its opening ones, would close it
as well. -/
theorem IsMatch.shorten (h : IsMatch cs s j) (hle : s + 3 ≤ i) (hlt : i < j)
    (hpair : PairAt '\x7d' cs i) : IsMatch cs s i :=
  ⟨h.opens, hpair, hle, fun k hk hki => h.oneLine k hk (Nat.lt_trans hki hlt)⟩

/-- The only closing braces before the end of a marker are those of an empty pair at its start. -/
theorem IsNext.eq_of_pairAt (h : IsNext cs start s j) (hle : s + 2 ≤ i) (hlt : i < j)
    (hpair : PairAt '\x7d' cs i) : i = s + 2 := by
  by_contra hne
  exact h.first i hlt (h.isMatch.shorten (by omega) hlt hpair)

/-- A marker ends with the first closing braces unless it starts with an empty pair. -/
theorem IsNext.closesFirst_iff (h : IsNext cs start s j) :
    ClosesFirst cs s j ↔ ¬ EmptyPairAt cs s := by
  constructor
  · rintro hfirst ⟨-, hcloses⟩
    exact hfirst (s + 2) (Nat.le_refl _) h.isMatch.nonempty hcloses
  · intro hempty i hle hlt hpair
    obtain rfl := h.eq_of_pairAt hle hlt hpair
    exact hempty ⟨h.isMatch.opens, hpair⟩

/-- An empty pair within a marker stands at its start, or its closing braces are those that end the
marker. -/
theorem IsNext.place_of_emptyPairAt (h : IsNext cs start s j) (hle : s ≤ p) (hlt : p + 2 ≤ j)
    (hempty : EmptyPairAt cs p) : p = s ∨ p + 2 = j := by
  by_cases hend : p + 2 = j
  · exact .inr hend
  · have hplace := h.eq_of_pairAt (by omega) (by omega) hempty.2
    exact .inl (by omega)

/-- The text between the braces of a marker that ends with the first closing braces has no pair of
closing braces in it. -/
theorem ClosesFirst.not_infix (h : ClosesFirst cs s j) :
    ¬ ['\x7d', '\x7d'] <:+: (cs.take j).drop (s + 2) := by
  rintro ⟨before, after, heq⟩
  have hpair : PairAt '\x7d' ((cs.take j).drop (s + 2)) before.length := by
    rw [← heq]
    constructor <;> simp
  have htake : PairAt '\x7d' (cs.take j) (s + 2 + before.length) := pairAt_drop.1 hpair
  have hlt : s + 2 + before.length < j := by
    obtain ⟨hlength, -⟩ := List.getElem?_eq_some_iff.1 htake.1
    rw [List.length_take] at hlength
    omega
  -- both braces of the pair are in the text up to `j`, and so they are in the whole text
  refine h (s + 2 + before.length) (Nat.le_add_right _ _) hlt ⟨?_, ?_⟩
  · rw [← List.getElem?_take_of_lt hlt]
    exact htake.1
  · obtain ⟨hlength, -⟩ := List.getElem?_eq_some_iff.1 htake.2
    rw [List.length_take] at hlength
    rw [← List.getElem?_take_of_lt (j := j) (by omega)]
    exact htake.2

end

/-! ## All markers -/

namespace Scan

variable {cs : List Char} {start : Nat} {places : List (Nat × Nat)}

/-- Every marker is the next one from some place on. -/
theorem exists_isNext (h : Scan cs start places) :
    ∀ q ∈ places, ∃ from', IsNext cs from' q.1 q.2 := by
  induction h with
  | stop hnone => simp
  | next hnext hmore ih =>
    intro q hq
    rcases List.mem_cons.1 hq with rfl | hq
    · exact ⟨_, hnext⟩
    · exact ih q hq

/-- A place where a marker could start lies within a marker. -/
theorem exists_cover (h : Scan cs start places) {p j : Nat} (hle : start ≤ p)
    (hmatch : IsMatch cs p j) : ∃ q ∈ places, q.1 ≤ p ∧ p < q.2 + 2 := by
  induction h with
  | stop hnone => exact absurd hmatch (hnone p j hle)
  | @next start s j' more hnext hmore ih =>
    by_cases hs : p < s
    · exact absurd hmatch (hnext.leftmost p j hle hs)
    · by_cases hj : p < j' + 2
      · exact ⟨(s, j'), List.mem_cons_self, by simpa using hs, hj⟩
      · obtain ⟨q, hq, hcover⟩ := ih (by omega)
        exact ⟨q, List.mem_cons_of_mem _ hq, hcover⟩

/-- No marker starts within another one. -/
theorem not_mem_inside (h : Scan cs start places) {q q' : Nat × Nat} (hq : q ∈ places)
    (hq' : q' ∈ places) : ¬ (q.1 < q'.1 ∧ q'.1 < q.2) := by
  induction h with
  | stop hnone => exact absurd hq List.not_mem_nil
  | next hnext hmore ih =>
    have hnonempty := hnext.isMatch.nonempty
    -- every other marker starts behind the first one
    rcases List.mem_cons.1 hq with rfl | hq
    · rcases List.mem_cons.1 hq' with rfl | hq'
      · exact fun hinside => Nat.lt_irrefl _ hinside.1
      · have hle := hmore.le_start q' hq'
        omega
    · rcases List.mem_cons.1 hq' with rfl | hq'
      · have hle := hmore.le_start q hq
        omega
      · exact ih hq hq'

/-- A scan goes from marker to marker with the first closing braces iff all its markers end with
those. -/
theorem firstScan_iff (h : Scan cs start places) :
    FirstScan cs start places ↔ ∀ q ∈ places, ClosesFirst cs q.1 q.2 := by
  constructor
  · intro hfirst
    clear h
    induction hfirst with
    | stop hnone => simp
    | next hle hmatch hleftmost hmore ih =>
      exact List.forall_mem_cons.2 ⟨hmatch.closesFirst, ih⟩
  · induction h with
    | stop hnone =>
      intro _
      exact .stop fun s j hle hmatch => hnone s j hle hmatch.isMatch
    | next hnext hmore ih =>
      intro hall
      obtain ⟨hfirst, hrest⟩ := List.forall_mem_cons.1 hall
      exact .next hnext.le ⟨hnext.isMatch, hfirst⟩
        (fun s' j' hle hlt hmatch => hnext.leftmost s' j' hle hlt hmatch.isMatch) (ih hrest)

/-- No marker starts with an empty pair iff every empty pair that has closing braces behind it on
its line lies within a marker. -/
theorem forall_not_emptyPairAt_iff (h : Scan cs 0 places) :
    (∀ q ∈ places, ¬ EmptyPairAt cs q.1) ↔ ∀ p j, EmptyPairAt cs p → IsMatch cs p j →
      ∃ q ∈ places, q.1 < p ∧ p < q.2 := by
  constructor
  · intro hall p j hempty hmatch
    obtain ⟨q, hq, hle, hlt⟩ := h.exists_cover (Nat.zero_le p) hmatch
    have hne : q.1 ≠ p := by
      rintro rfl
      exact hall q hq hempty
    -- an opening brace stands at `p`, and closing ones where the marker ends
    have hcloses := (h.isMatch q hq).closes
    have hopen : cs[p]? = some '\x7b' := hmatch.opens.1
    have hend : p ≠ q.2 := by
      rintro rfl
      exact absurd (hopen.symm.trans hcloses.1) (by decide)
    have hend' : p ≠ q.2 + 1 := by
      rintro rfl
      exact absurd (hopen.symm.trans hcloses.2) (by decide)
    exact ⟨q, hq, by omega, by omega⟩
  · intro hall q hq hempty
    obtain ⟨q', hq', hinside⟩ := hall q.1 q.2 hempty (h.isMatch q hq)
    exact h.not_mem_inside hq' hq hinside

end Scan

/-- A marker ends with the first closing braces behind its opening ones iff it does not start with
an empty pair; the text between its braces then has no pair of closing braces in it, and all that an
empty pair can do within the marker is to end it. The markers of a template are those of a scan with
the first closing braces, in which empty pairs are just text, iff none of them starts with an empty
pair. This is so iff every empty pair that is followed by further closing braces on its line lies
within a marker that starts before it. Every marker that is found is substituted. -/
theorem closing_exact (template : String) :
    ∃ places, Scan template.toList 0 places ∧
      markers template = places.map (markerAt template.toList) ∧
      (∀ q ∈ places,
        (ClosesFirst template.toList q.1 q.2 ↔ ¬ EmptyPairAt template.toList q.1) ∧
        (ClosesFirst template.toList q.1 q.2 →
          ¬ ['\x7d', '\x7d'] <:+: (template.toList.take q.2).drop (q.1 + 2)) ∧
        ∀ p, q.1 ≤ p → p + 2 ≤ q.2 → EmptyPairAt template.toList p → p = q.1 ∨ p + 2 = q.2) ∧
      (FirstScan template.toList 0 places ↔ ∀ q ∈ places, ¬ EmptyPairAt template.toList q.1) ∧
      ((∀ q ∈ places, ¬ EmptyPairAt template.toList q.1) ↔
        ∀ p j, EmptyPairAt template.toList p → IsMatch template.toList p j →
          ∃ q ∈ places, q.1 < p ∧ p < q.2) ∧
      ∀ context, render template context
        = splice template (replacement context) 0 (places.map (markerAt template.toList)) := by
  have hdrop : template.toList.drop 0 = template.toList := rfl
  obtain ⟨places, hscan, hmarkers⟩ := exists_scan hdrop
  have hmap : markers template = places.map (markerAt template.toList) := hmarkers
  refine ⟨places, hscan, hmap, ?_, ?_, hscan.forall_not_emptyPairAt_iff, ?_⟩
  · intro q hq
    obtain ⟨_, hnext⟩ := hscan.exists_isNext q hq
    exact ⟨hnext.closesFirst_iff, ClosesFirst.not_infix, fun p => hnext.place_of_emptyPairAt⟩
  · rw [hscan.firstScan_iff]
    refine forall₂_congr ?_
    intro q hq
    obtain ⟨_, hnext⟩ := hscan.exists_isNext q hq
    exact hnext.closesFirst_iff
  · intro context
    rw [← hmap]
    exact (splice_markers (fun _ => rfl) (replacement_ofBody context)).symm

/-- An empty pair before a marker on the same line. The empty pair takes the marker with it up to
the closing braces of that, so that the marker is neither found nor substituted, though its
expression has a value. -/
theorem emptyPair_swallows_marker :
    let template := "\x7b\x7b\x7d\x7d\x7b\x7bx\x7d\x7d"
    let context := Value.object [("x", .string "y")]
    EmptyPairAt template.toList 0 ∧ IsFirstMatch template.toList 4 7 ∧
      Scan template.toList 0 [(0, 7)] ∧ ¬ ClosesFirst template.toList 0 7 ∧
      markers template = [⟨0, 9, template, "\x7d\x7d\x7b\x7bx"⟩] ∧
      evaluate "x" context = .ok (.string "y") ∧ render template context = template := by
  intro template context
  have hempty : EmptyPairAt template.toList 0 :=
    ⟨⟨by decide, by decide⟩, by decide, by decide⟩
  have hhead : markerAtHead? (template.toList.drop 0)
      = some (['\x7d', '\x7d', '\x7b', '\x7b', 'x'], []) := by decide
  have hnext : IsNext template.toList 0 0 7 := isNext_of_markerAtHead? hhead
  have hmatch : IsMatch template.toList 4 7 :=
    (isMatch_add_iff (n := 1)).2
      ⟨⟨by decide, by decide⟩, ⟨by decide, by decide⟩, Nat.one_pos, by decide⟩
  have hstop : Scan template.toList 9 [] := by
    refine .stop fun s j hle hmatch => ?_
    have hlength := hmatch.le_length
    have hnonempty := hmatch.nonempty
    have htext : template.toList.length = 9 := by decide
    omega
  refine ⟨hempty, ⟨hmatch, ?_⟩, .next hnext hstop, ?_, ?_, ?_, ?_⟩
  · intro i hle hlt
    obtain rfl : i = 6 := by omega
    exact fun hpair => absurd hpair.1 (by decide)
  · exact fun hfirst => hnext.closesFirst_iff.1 hfirst hempty
  · decide +kernel
  · cbv
  · cbv

end TextTemplate
