import TextTemplate.Decimal.Numeral
/-!
# Runs of characters

- `Stops`: a text does not go on with a character of a class.
- `takeWhile_append`, `dropWhile_append`, `stops_of_takeWhile_append`: a run of a class ends where the
  text behind it stops.
- `splitDigits_append`, `splitFraction_append`, `splitFraction_of_stops`: the parts of a numeral in
  front of what stands behind it.
-/

namespace TextTemplate

/-- The text is empty or starts with a character outside the class. -/
def Stops (p : Char → Bool) (cs : List Char) : Prop := ∀ c, cs.head? = some c → p c = false

namespace Stops

variable {p q : Char → Bool} {c : Char} {cs : List Char}

theorem nil : Stops p [] := fun _ h => nomatch h

theorem cons_iff : Stops p (c :: cs) ↔ p c = false :=
  ⟨fun h => h c rfl, fun h _ hd => Option.some.inj hd ▸ h⟩

theorem cons (h : p c = false) : Stops p (c :: cs) := cons_iff.2 h

/-- What stops a larger class stops a smaller one. -/
theorem mono (h : Stops q cs) (hpq : ∀ c, p c = true → q c = true) : Stops p cs := by
  intro c hc
  have hq := h c hc
  cases hp : p c with
  | false => rfl
  | true => rw [hpq c hp] at hq; exact nomatch hq

/-- What stands at the head of a text stops as long as any of it is left. -/
theorem of_append {more : List Char} (h : Stops p (cs ++ more)) : Stops p cs := by
  cases cs with
  | nil => exact nil
  | cons c cs => exact cons (cons_iff.1 h)

end Stops

variable {p : Char → Bool} {run rest : List Char}

/-- A run ends where something else follows. -/
theorem takeWhile_append (hrun : ∀ c ∈ run, p c = true) (hrest : Stops p rest) :
    (run ++ rest).takeWhile p = run := by
  rw [List.takeWhile_append_of_pos hrun]
  cases rest with
  | nil => exact List.append_nil run
  | cons c cs =>
    rw [List.takeWhile_cons_of_neg (by rw [Stops.cons_iff.1 hrest]; exact Bool.false_ne_true),
      List.append_nil]

/-- A run that does not go on has been stopped. -/
theorem stops_of_takeWhile_append (hrun : ∀ c ∈ run, p c = true)
    (h : (run ++ rest).takeWhile p = run) : Stops p rest := by
  rw [List.takeWhile_append_of_pos hrun] at h
  have hnone := List.append_right_eq_self.1 h
  cases rest with
  | nil => exact .nil
  | cons c cs =>
    refine .cons ?_
    cases hc : p c with
    | false => rfl
    | true =>
      rw [List.takeWhile_cons_of_pos hc] at hnone
      exact nomatch hnone

/-- And what follows is left over. -/
theorem dropWhile_append (hrun : ∀ c ∈ run, p c = true) (hrest : Stops p rest) :
    (run ++ rest).dropWhile p = rest := by
  rw [List.dropWhile_append_of_pos hrun]
  cases rest with
  | nil => rfl
  | cons c cs =>
    exact List.dropWhile_cons_of_neg (by rw [Stops.cons_iff.1 hrest]; exact Bool.false_ne_true)

/-! ## Parts of numerals -/

/-- Digits end where something else follows. -/
theorem splitDigits_append (hrun : ∀ c ∈ run, c.isDigit = true) (hrest : Stops Char.isDigit rest) :
    splitDigits (run ++ rest) = (run, rest) := by
  rw [splitDigits, takeWhile_append hrun hrest, dropWhile_append hrun hrest]

/-- The digits behind a point. -/
theorem splitFraction_append (hrun : ∀ c ∈ run, c.isDigit = true)
    (hrest : Stops Char.isDigit rest) :
    splitFraction ('.' :: (run ++ rest)) = (some run, rest) := by
  rw [splitFraction, splitDigits_append hrun hrest]

/-- A text without a point at its head has no fraction. -/
theorem splitFraction_of_stops {cs : List Char} (h : Stops (· == '.') cs) :
    splitFraction cs = (none, cs) := by
  unfold splitFraction
  split
  · exact absurd (Stops.cons_iff.1 h) (by decide)
  · rfl

theorem isDigit_of_mem_toDigits {n : Nat} {c : Char} (h : c ∈ Nat.toDigits 10 n) :
    c.isDigit = true :=
  Nat.isDigit_of_mem_toDigits (by decide) (by decide) h

end TextTemplate
