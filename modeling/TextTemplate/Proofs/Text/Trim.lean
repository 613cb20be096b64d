import Mathlib.Data.List.DropRight
import TextTemplate.Text.Blank
/-!
# Trimmed texts

- `Trims`: a text is what is left of another one without the blank characters around it.
- `trims_trim`: `trim` leaves that.
- `trim_eq_self`: a text without blank characters is left as it is.
-/

namespace TextTemplate

/-- `core` is `cs` without the blank characters around it. -/
def Trims (cs core : List Char) : Prop :=
  (∃ before after, cs = before ++ core ++ after ∧ (∀ c ∈ before, isBlank c) ∧
    ∀ c ∈ after, isBlank c) ∧
  (∀ c, core.head? = some c → ¬ isBlank c) ∧ ∀ c, core.getLast? = some c → ¬ isBlank c

theorem trimEnd_eq (cs : List Char) : trimEnd cs = cs.rdropWhile isBlank := rfl

/-- The first character that is left is not blank. -/
theorem not_isBlank_head_dropWhile {cs : List Char} {c : Char}
    (h : (cs.dropWhile isBlank).head? = some c) : ¬ isBlank c := by
  have hnot := List.head?_dropWhile_not isBlank cs
  rw [h] at hnot
  simpa using hnot

theorem trims_trim (cs : List Char) : Trims cs (trim cs) := by
  have hend : trim cs ++ (cs.dropWhile isBlank).rtakeWhile isBlank = cs.dropWhile isBlank := by
    rw [trim, trimEnd_eq]
    exact List.rdropWhile_append_rtakeWhile
  refine ⟨⟨cs.takeWhile isBlank, (cs.dropWhile isBlank).rtakeWhile isBlank, ?_, ?_, ?_⟩, ?_, ?_⟩
  · rw [List.append_assoc, hend, List.takeWhile_append_dropWhile]
  · intro c hc
    exact List.mem_takeWhile_imp hc
  · intro c hc
    exact List.mem_rtakeWhile_imp hc
  · intro c hc
    -- what is cut off at the end does not touch the first character
    have hhead : (cs.dropWhile isBlank).head? = some c := by
      rw [← hend, List.head?_append, hc]
      rfl
    exact not_isBlank_head_dropWhile hhead
  · intro c hc
    rw [trim, trimEnd, List.getLast?_reverse] at hc
    exact not_isBlank_head_dropWhile hc

/-- Digits are not blank. -/
theorem not_isBlank_of_isDigit {c : Char} (h : c.isDigit = true) : isBlank c = false := by
  simp only [Char.isDigit, Bool.and_eq_true, decide_eq_true_eq, UInt32.le_iff_toNat_le] at h
  have hrange : 48 ≤ c.toNat ∧ c.toNat ≤ 57 := h
  simp [isBlank, Blank.ranges]
  omega

theorem dropWhile_isBlank_eq_self {cs : List Char} (h : ∀ c ∈ cs, isBlank c = false) :
    cs.dropWhile isBlank = cs := by
  cases cs with
  | nil => rfl
  | cons c more => exact List.dropWhile_cons_of_neg (by rw [h c List.mem_cons_self]; decide)

/-- A text without blank characters is left as it is. -/
theorem trim_eq_self {cs : List Char} (h : ∀ c ∈ cs, isBlank c = false) : trim cs = cs := by
  have hreverse : ∀ c ∈ cs.reverse, isBlank c = false := fun c hc => h c (List.mem_reverse.1 hc)
  rw [trim, dropWhile_isBlank_eq_self h, trimEnd, dropWhile_isBlank_eq_self hreverse,
    List.reverse_reverse]

end TextTemplate
