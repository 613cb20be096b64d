import TextTemplate.Proofs.Binary64.WholeNumber
import TextTemplate.Proofs.Decimal.Numeral
import TextTemplate.Proofs.Decimal.Rounded
import TextTemplate.Proofs.Expr.Eval
import TextTemplate.Proofs.Parser.Printed
import TextTemplate.Proofs.Text.Trim
/-!
# Reading the text of a number back

The text of a number can reach an expression in two ways: as a text behind a plus sign, where a
numeral may have a sign and an exponent, and as the text of an expression, where a minus sign is an
operator and there are no exponents. Both give the number back, the second one wherever the text
has no exponent.

- `numberOfText_text`: a plus sign before the text of a number.
- `Numeral.prints`: a numeral without an exponent stands for its number in an expression.
- `evaluate_text`: the text of a number as an expression.
- `number_reads_back`: both together.
-/

namespace TextTemplate

/-! ## Behind a plus sign -/

namespace Binary64

/-- No text of a number has a blank character. -/
theorem not_isBlank_of_mem_textChars {n : Binary64} {c : Char} (h : c ∈ n.textChars) :
    isBlank c = false := by
  have hnan : ∀ d ∈ textChars .nan, isBlank d = false := by
    simp [textChars, isBlank, Blank.ranges]
  have hinfinite : ∀ s, ∀ d ∈ textChars (.infinite s), isBlank d = false := by
    rintro (_ | _) <;> simp [textChars, withSign, isBlank, Blank.ranges]
  have hsymbols : ∀ d ∈ ['-', '+', '.', 'e'], isBlank d = false := by
    simp [isBlank, Blank.ranges]
  cases n with
  | nan => exact hnan c h
  | infinite s => exact hinfinite s c h
  | finite s m =>
    rcases isDigit_or_mem_of_mem_textChars rfl h with hdigit | hother
    · exact not_isBlank_of_isDigit hdigit
    · exact hsymbols c hother

/-- The text of a number is read as this number; negative zero has the text of zero. -/
theorem read?_textChars (n : Binary64) : read? n.textChars = some n.unsignedZero := by
  cases n with
  | nan => decide
  | infinite s => cases s <;> decide
  | finite s m =>
    obtain ⟨negative, numeral, hchars, hvalue, -⟩ := exists_numeral_textChars s m
    obtain ⟨c, cs, hcons, hdigit⟩ := numeral.exists_chars
    have hread := numeral.readUnsigned?_chars
    rw [hcons] at hread
    rw [hchars, hcons, read?_withSign negative hdigit, hread, Option.map_some, hvalue]

end Binary64

/-- A plus sign before the text of a number gives the number. -/
theorem numberOfText_text (n : Binary64) : numberOfText n.text = .ok n.unsignedZero := by
  have htrim : trim n.text.toList = n.textChars := by
    rw [Binary64.text, String.toList_ofList]
    exact trim_eq_self fun c hc => Binary64.not_isBlank_of_mem_textChars hc
  have hread := n.read?_textChars
  rw [numberOfText, htrim]
  split
  · next hnil => rw [hnil] at hread; cases hread
  · rw [hread]

/-! ## As an expression -/

namespace Numeral

variable {n : Numeral}

/-- A numeral without an exponent is one lexeme. -/
theorem isNumeralChar_of_mem_chars (hexponent : n.exponent? = none) {c : Char} (h : c ∈ n.chars) :
    isNumeralChar c = true := by
  have hdigit : ∀ d, d.isDigit = true → isNumeralChar d = true := fun d hd => by
    rw [isNumeralChar, hd, Bool.true_or]
  have hpart : c ∈ n.whole ∨ c = '.' ∨ c ∈ n.fraction := by
    rw [chars, exponentChars, hexponent, fractionChars] at h
    split at h
    · exact .inl (by simpa using h)
    · simpa using h
  rcases hpart with hwhole | rfl | hfraction
  · exact hdigit c (n.isDigit_whole c hwhole)
  · rfl
  · exact hdigit c (n.isDigit_fraction c hfraction)

theorem numeralValue_chars (hexponent : n.exponent? = none) :
    numeralValue n.chars = n.decimal.toBinary64 false := by
  rw [numeralValue, chars_eq, splitDigits_append n.isDigit_whole (stops_fractionChars .nil)]
  dsimp only
  rw [splitFraction_fractionChars .nil, getD_fraction, decimal, hexponent]
  rfl

/-- A numeral without an exponent stands for its number. -/
theorem prints (hexponent : n.exponent? = none) :
    Prints .atom (.number (n.decimal.toBinary64 false)) n.chars 0 := by
  obtain ⟨first, tail, hchars, hfirst⟩ := n.exists_chars
  refine ⟨.number (n.decimal.toBinary64 false), rfl, Nat.le_refl 0, fun rest hrest => ?_⟩
  have htail : ∀ c ∈ tail, isNumeralChar c = true := fun c hc =>
    isNumeralChar_of_mem_chars hexponent (hchars ▸ List.mem_cons_of_mem _ hc)
  have hcut := Cut.number hfirst htail hrest.numeral
  rw [← hchars, numeralValue_chars hexponent] at hcut
  rw [hchars]
  exact hcut

end Numeral

/-- A number whose text has no exponent is the value of this text. -/
theorem evaluate_text {s : Bool} {m : Magnitude}
    (h : m.units = 0 ∨ Binary64.isPositional (.finite s m) = true) (context : Value) :
    evaluate (Binary64.finite s m).text context =
      .ok (.number (Binary64.finite s m).unsignedZero) := by
  obtain ⟨negative, n, hchars, hvalue, hexponent⟩ := Binary64.exists_numeral_textChars s m
  have hprints := Numeral.prints (hexponent h)
  rw [evaluate_eq, Binary64.text, hchars, ← hvalue]
  cases negative with
  | false =>
    rw [show Binary64.withSign false n.chars = n.chars from rfl,
      hprints.parse_cases.2 (Nat.zero_le _)]
    rfl
  | true =>
    have hsigned := hprints.unsigned.sign .minus
    rw [show Binary64.withSign true n.chars = Sign.minus.symbol :: n.chars from rfl,
      hsigned.parse_cases.2 (by decide), Decimal.toBinary64_true]
    rfl

/-- The numbers whose text has no exponent are zero and those between the two thresholds. -/
theorem Binary64.exists_of_plain {n : Binary64}
    (h : n.equals .zero = true ∨
      exponentBelow.le n.abs = true ∧ n.abs.lt exponentFrom = true) :
    ∃ s m, n = .finite s m ∧ (m.units = 0 ∨ isPositional (.finite s m) = true) := by
  cases n with
  | finite s m =>
    refine ⟨s, m, rfl, h.imp ?_ ?_⟩
    · intro hzero
      have horder : signed s m.units = 0 := of_decide_eq_true hzero
      cases s <;> simpa [signed] using horder
    · rintro ⟨hbelow, hfrom⟩
      rw [isPositional, hbelow, hfrom, Bool.and_self]
  | nan => rcases h with hzero | ⟨-, hfrom⟩ <;> contradiction
  | infinite s =>
    rcases h with hzero | ⟨-, hfrom⟩
    · have horder : signed s overflowUnits = 0 := of_decide_eq_true hzero
      have hpos := overflowUnits_pos
      unfold signed at horder
      split at horder <;> omega
    · rw [abs, not_infinite_lt] at hfrom
      cases hfrom

/-- The text of a number gives the number back: behind a plus sign always, and as an expression of
its own, in every data context, where the text has no exponent. -/
theorem number_reads_back (n : Binary64) :
    (∃ m, numberOfText n.text = .ok m ∧ Sign.plus.apply (.string n.text) = .ok (.number m) ∧
      (m.equals n = true ∨ n = .nan ∧ m = .nan)) ∧
    ((n.equals .zero = true ∨
        (Decimal.toBinary64 false ⟨1, -6⟩).le n.abs = true ∧
          n.abs.lt (Decimal.toBinary64 false ⟨1, 21⟩) = true) →
      ∀ context, ∃ m, evaluate n.text context = .ok (.number m) ∧ m.equals n = true) := by
  constructor
  · have hread := numberOfText_text n
    refine ⟨n.unsignedZero, hread, by rw [Sign.apply, hread], ?_⟩
    by_cases hnan : n = .nan
    · exact .inr ⟨hnan, by rw [hnan]; rfl⟩
    · exact .inl (Binary64.equals_unsignedZero hnan)
  · intro hrange context
    obtain ⟨s, m, rfl, hplain⟩ := Binary64.exists_of_plain hrange
    exact ⟨_, evaluate_text hplain context, Binary64.equals_unsignedZero nofun⟩

/-- The negative number at the lower threshold, in a data context that has other things in it. -/
theorem number_reads_back_threshold :
    let n := Decimal.toBinary64 true ⟨1, -6⟩
    let context := Value.object [("e", .number .zero)]
    ((Decimal.toBinary64 false ⟨1, -6⟩).le n.abs = true ∧
        n.abs.lt (Decimal.toBinary64 false ⟨1, 21⟩) = true) ∧
      n.text = "-0.000001" ∧
      ∃ m, evaluate n.text context = .ok (.number m) ∧ m.equals n = true := by
  intro n context
  have hrange : (Decimal.toBinary64 false ⟨1, -6⟩).le n.abs = true ∧
      n.abs.lt (Decimal.toBinary64 false ⟨1, 21⟩) = true := by decide +kernel
  exact ⟨hrange, by decide +kernel, (number_reads_back n).2 (.inr hrange) context⟩

end TextTemplate
