import TextTemplate.Binary64.Text
import TextTemplate.Proofs.Decimal.Digits
import TextTemplate.Proofs.Decimal.ReadBack
import TextTemplate.Value.Reader
/-!
# Numerals

The two layouts of a decimal are numerals of the strict grammar, and a numeral is read up to its end
if nothing stands behind it that could belong to it.

- `Numeral`: the parts of a numeral, with the conditions of the strict grammar.
- `Numeral.readNumber_chars`, `Numeral.readUnsigned?_chars`: a numeral is read as its decimal, behind
  a sign by the strict grammar, and as a whole text where the grammar is less strict.
- `Decimal.exists_numeral_positional`, `Decimal.exists_numeral_scientific`: the two layouts.
- `Binary64.readNumber_textChars`: the text of a number is read as that number, where
  `Binary64.equals_unsignedZero` says that the sign of a zero does not count.
-/

namespace TextTemplate

attribute [local instance] natPow

/-- A numeral as the strict grammar has it. A fraction without digits stands for no point. -/
structure Numeral where
  whole : List Char
  fraction : List Char
  exponent? : Option Int
  isDigit_whole : ∀ c ∈ whole, c.isDigit = true
  isWholePart_whole : isWholePart whole = true
  isDigit_fraction : ∀ c ∈ fraction, c.isDigit = true

/-- Whether a numeral could go on with a character. -/
def continuesNumeral (c : Char) : Bool := c.isDigit || c == '.' || c == 'e' || c == 'E'

namespace Numeral

/-- The point and the digits behind it. -/
def fractionChars (n : Numeral) : List Char := if n.fraction = [] then [] else '.' :: n.fraction

/-- The exponent with its mark. -/
def exponentChars (n : Numeral) : List Char := (n.exponent?.map Decimal.exponentText).getD []

/-- The characters of a numeral. -/
def chars (n : Numeral) : List Char := n.whole ++ (n.fractionChars ++ n.exponentChars)

/-- The decimal that a numeral stands for. -/
def decimal (n : Numeral) : Decimal := .ofNumeral n.whole n.fraction (n.exponent?.getD 0)

variable {n : Numeral} {rest : List Char}

/-! ## The exponent -/

theorem splitSign_exponent (e : Int) (cs : List Char) :
    splitSign ((if e < 0 then '-' else '+') :: cs) = (decide (e < 0), cs) := by
  split
  · next h => rw [decide_eq_true h]; rfl
  · next h => rw [decide_eq_false h]; rfl

theorem splitExponent_exponentText (e : Int) (hrest : Stops Char.isDigit rest) :
    splitExponent (Decimal.exponentText e ++ rest) = some (e, rest) := by
  rw [Decimal.exponentText, List.cons_append, List.cons_append, splitExponent, if_pos (.inl rfl),
    splitSign_exponent]
  dsimp only
  rw [splitDigits_append (fun c => isDigit_of_mem_toDigits) hrest]
  split
  · next heq => exact absurd (Prod.mk.inj heq).1 Nat.toDigits_ne_nil
  · next heq =>
    obtain ⟨rfl, rfl⟩ := Prod.mk.inj heq
    rw [Nat.ofDigitChars_ten_toDigits, signed_natAbs]

theorem splitExponent_of_stops (hrest : Stops continuesNumeral rest) :
    splitExponent rest = some (0, rest) := by
  cases rest with
  | nil => rfl
  | cons c cs =>
    have hc := Stops.cons_iff.1 hrest
    have hmark : ¬ (c = 'e' ∨ c = 'E') := by
      rintro (rfl | rfl) <;> exact absurd hc (by decide)
    rw [splitExponent, if_neg hmark]

theorem isDigit_continues {c : Char} (h : c.isDigit = true) : continuesNumeral c = true := by
  rw [continuesNumeral, h]
  rfl

theorem splitExponent_exponentChars (hrest : Stops continuesNumeral rest) :
    splitExponent (n.exponentChars ++ rest) = some (n.exponent?.getD 0, rest) := by
  rw [exponentChars]
  cases n.exponent? with
  | none => exact splitExponent_of_stops hrest
  | some e => exact splitExponent_exponentText e (hrest.mono fun _ => isDigit_continues)

/-- The digits before the exponent end there. -/
theorem stops_exponentChars (hrest : Stops continuesNumeral rest) :
    Stops Char.isDigit (n.exponentChars ++ rest) ∧ Stops (· == '.') (n.exponentChars ++ rest) := by
  rw [exponentChars]
  cases n.exponent? with
  | none =>
    refine ⟨hrest.mono fun _ => isDigit_continues, hrest.mono ?_⟩
    intro c hc
    rw [eq_of_beq hc]
    decide
  | some e => exact ⟨.cons (by decide), .cons (by decide)⟩

/-! ## Reading a numeral -/

theorem splitFraction_fractionChars (hrest : Stops continuesNumeral rest) :
    splitFraction (n.fractionChars ++ (n.exponentChars ++ rest))
      = (if n.fraction = [] then none else some n.fraction, n.exponentChars ++ rest) := by
  obtain ⟨hdigit, hpoint⟩ := stops_exponentChars (n := n) hrest
  rw [fractionChars]
  split
  · exact splitFraction_of_stops hpoint
  · exact splitFraction_append n.isDigit_fraction hdigit

theorem stops_fractionChars (hrest : Stops continuesNumeral rest) :
    Stops Char.isDigit (n.fractionChars ++ (n.exponentChars ++ rest)) := by
  rw [fractionChars]
  split
  · exact (stops_exponentChars hrest).1
  · exact .cons (by decide)

theorem chars_append :
    n.chars ++ rest = n.whole ++ (n.fractionChars ++ (n.exponentChars ++ rest)) := by
  rw [chars, List.append_assoc, List.append_assoc]

/-- The same with nothing behind the numeral, in the form in which the readers split it. -/
theorem chars_eq : n.chars = n.whole ++ (n.fractionChars ++ (n.exponentChars ++ [])) := by
  rw [← chars_append, List.append_nil]

/-- A numeral starts with a digit. -/
theorem exists_chars (n : Numeral) : ∃ c cs, n.chars = c :: cs ∧ c.isDigit = true := by
  cases hwhole : n.whole with
  | nil => exact absurd (hwhole ▸ n.isWholePart_whole) (by decide)
  | cons c cs =>
    refine ⟨c, cs ++ (n.fractionChars ++ n.exponentChars), ?_, ?_⟩
    · rw [chars, hwhole, List.cons_append]
    · exact n.isDigit_whole c (hwhole ▸ List.mem_cons_self)

theorem isDigit_or_mem_of_mem_exponentText {e : Int} {c : Char} (h : c ∈ Decimal.exponentText e) :
    c.isDigit = true ∨ c ∈ ['-', '+', '.', 'e'] := by
  rw [Decimal.exponentText, List.mem_cons, List.mem_cons] at h
  rcases h with rfl | rfl | hdigit
  · exact .inr (by decide)
  · split <;> exact .inr (by decide)
  · exact .inl (isDigit_of_mem_toDigits hdigit)

/-- What a numeral is made of. -/
theorem isDigit_or_mem_of_mem_chars {c : Char} (h : c ∈ n.chars) :
    c.isDigit = true ∨ c ∈ ['-', '+', '.', 'e'] := by
  rw [chars, List.mem_append, List.mem_append] at h
  rcases h with hwhole | hfraction | hexponent
  · exact .inl (n.isDigit_whole c hwhole)
  · rw [fractionChars] at hfraction
    split at hfraction
    · cases hfraction
    · rcases List.mem_cons.1 hfraction with rfl | hdigit
      · exact .inr (by decide)
      · exact .inl (n.isDigit_fraction c hdigit)
  · rw [exponentChars] at hexponent
    cases hexp : n.exponent? with
    | none =>
      rw [hexp] at hexponent
      cases hexponent
    | some e =>
      rw [hexp] at hexponent
      exact isDigit_or_mem_of_mem_exponentText hexponent

theorem splitMinus_withSign (negative : Bool) :
    splitMinus (Binary64.withSign negative n.chars ++ rest) = (negative, n.chars ++ rest) := by
  cases negative with
  | true => rfl
  | false =>
    obtain ⟨c, cs, hchars, hdigit⟩ := n.exists_chars
    rw [Binary64.withSign, if_neg Bool.false_ne_true, hchars, List.cons_append]
    unfold splitMinus
    split
    · next heq =>
      obtain ⟨rfl, -⟩ := List.cons.inj heq
      exact absurd hdigit (by decide)
    · rfl

/-- The digits behind the point, if there is one. -/
theorem getD_fraction (n : Numeral) :
    (if n.fraction = [] then none else some n.fraction).getD [] = n.fraction := by
  split
  · next h => exact h.symm
  · rfl

/-- A numeral behind a sign is read as its decimal. -/
theorem readNumber_chars (negative : Bool) (hrest : Stops continuesNumeral rest)
    (hfinite : (n.decimal.toBinary64 negative).isFinite = true) :
    readNumber (Binary64.withSign negative n.chars ++ rest)
      = some (n.decimal.toBinary64 negative, rest) := by
  have hfraction : ((if n.fraction = [] then none else some n.fraction) != some []) = true := by
    split
    · rfl
    · next h => exact bne_iff_ne.2 fun heq => h (Option.some.inj heq)
  rw [readNumber, splitMinus_withSign]
  dsimp only
  rw [chars_append, splitDigits_append n.isDigit_whole (stops_fractionChars hrest)]
  dsimp only
  rw [splitFraction_fractionChars hrest]
  dsimp only
  rw [n.isWholePart_whole, hfraction, Bool.and_self, if_pos rfl, splitExponent_exponentChars hrest]
  dsimp only
  rw [getD_fraction, ← decimal, if_pos hfinite]

/-- A whole text that is a numeral is read as its decimal, also where the grammar is less strict. -/
theorem readUnsigned?_chars (n : Numeral) : readUnsigned? n.chars = some n.decimal := by
  have hwhole : n.whole ≠ [] := by
    intro hnil
    exact absurd (hnil ▸ n.isWholePart_whole) (by decide)
  rw [readUnsigned?, chars_eq, splitDigits_append n.isDigit_whole (stops_fractionChars .nil)]
  dsimp only
  rw [splitFraction_fractionChars .nil]
  dsimp only
  rw [splitExponent_exponentChars .nil, getD_fraction, if_neg]
  · rfl
  · simp [hwhole]

end Numeral

/-! ## The layouts of a decimal -/

/-- The digits of a number other than zero do not start with a zero. -/
theorem exists_head_toDigits {n : Nat} (h : n ≠ 0) :
    ∃ c, (Nat.toDigits 10 n).head? = some c ∧ c ≠ '0' := by
  induction n using Nat.strongRecOn with
  | ind n ih =>
    rcases Nat.lt_or_ge n 10 with hsmall | hlarge
    · have hdigit : ∀ k < 10, k ≠ 0 → Nat.digitChar k ≠ '0' := by decide
      rw [Nat.toDigits_of_lt_base hsmall]
      exact ⟨_, rfl, hdigit n hsmall h⟩
    · obtain ⟨c, hhead, hc⟩ := ih (n / 10) (by omega) (by omega)
      refine ⟨c, ?_, hc⟩
      rw [Nat.toDigits_of_base_le (by decide) hlarge, List.head?_append, hhead, Option.some_or]

theorem isWholePart_of_head {cs : List Char} (h : ∃ c, cs.head? = some c ∧ c ≠ '0') :
    isWholePart cs = true := by
  obtain ⟨c, hhead, hc⟩ := h
  unfold isWholePart
  split
  · exact nomatch hhead
  · exact absurd (Option.some.inj hhead) (Ne.symm hc)
  · exact bne_iff_ne.2 (Option.some.inj hhead ▸ hc)

theorem isDigit_of_mem_zeros {k : Nat} {c : Char} (h : c ∈ List.replicate k '0') :
    c.isDigit = true := by
  rw [List.eq_of_mem_replicate h]
  rfl

namespace Decimal

variable {d : Decimal}

/-- A decimal is that of a numeral with its digits and as many places. -/
theorem ofNumeral_eq {whole fraction : List Char} {e : Int}
    (hdigits : Nat.ofDigitChars 10 (whole ++ fraction) 0 = d.digits)
    (hexponent : e - fraction.length = d.exponent) : ofNumeral whole fraction e = d := by
  rw [ofNumeral, hdigits, hexponent]

/-- The digits with zeros up to the point. They are a decimal with another exponent, and the same
value. -/
theorem exists_numeral_padded (h : d.digits ≠ 0) (hexponent : 0 ≤ d.exponent) :
    ∃ n : Numeral,
      n.chars = Nat.toDigits 10 d.digits ++ List.replicate d.exponent.toNat '0' ∧
      n.exponent? = none ∧ n.decimal.numerator = d.numerator ∧ n.decimal.scaleDown = d.scaleDown := by
  obtain ⟨c, hhead, hc⟩ := exists_head_toDigits h
  have hwhole : ∀ c ∈ Nat.toDigits 10 d.digits ++ List.replicate d.exponent.toNat '0',
      c.isDigit = true :=
    fun _ hmem => (List.mem_append.1 hmem).elim isDigit_of_mem_toDigits isDigit_of_mem_zeros
  have hpart : isWholePart (Nat.toDigits 10 d.digits ++ List.replicate d.exponent.toNat '0') :=
    isWholePart_of_head ⟨c, by rw [List.head?_append, hhead, Option.some_or], hc⟩
  -- the zeros count as digits here, so the decimal is another one
  have hdecimal : ofNumeral (Nat.toDigits 10 d.digits ++ List.replicate d.exponent.toNat '0') [] 0
      = ⟨10 ^ d.exponent.toNat * d.digits, 0⟩ := by
    refine ofNumeral_eq ?_ rfl
    rw [List.append_nil, Nat.ofDigitChars_append, Nat.ofDigitChars_ten_toDigits,
      Nat.ofDigitChars_replicate_zero]
  refine ⟨⟨_, [], none, hwhole, hpart, fun _ hmem => nomatch hmem⟩, List.append_nil _, rfl, ?_, ?_⟩
  · rw [Numeral.decimal, Option.getD_none, hdecimal, numerator, numerator, scaleUp, scaleUp,
      Int.toNat_zero, Nat.pow_zero, Nat.mul_one, Nat.mul_comm d.digits]
  · rw [Numeral.decimal, Option.getD_none, hdecimal, scaleDown, scaleDown,
      Int.toNat_of_nonpos (by omega : -d.exponent ≤ 0)]
    rfl

/-- The digits with a point among them. -/
theorem exists_numeral_pointed (h : d.digits ≠ 0) {places : Nat} (hexponent : d.exponent = -places)
    (hpos : 0 < places) (hplaces : places < (Nat.toDigits 10 d.digits).length) :
    ∃ n : Numeral, n.decimal = d ∧ n.exponent? = none ∧
      n.chars = (Nat.toDigits 10 d.digits).take ((Nat.toDigits 10 d.digits).length - places)
        ++ '.' :: (Nat.toDigits 10 d.digits).drop ((Nat.toDigits 10 d.digits).length - places) := by
  obtain ⟨c, hhead, hc⟩ := exists_head_toDigits h
  generalize hds : Nat.toDigits 10 d.digits = ds at *
  have hdigits : ∀ c ∈ ds, c.isDigit = true := fun _ hmem => isDigit_of_mem_toDigits (hds ▸ hmem)
  have hlength : (ds.drop (ds.length - places)).length = places := by
    rw [List.length_drop]
    omega
  have hpart : isWholePart (ds.take (ds.length - places)) :=
    isWholePart_of_head ⟨c, by rw [List.head?_take, if_neg (by omega), hhead], hc⟩
  refine ⟨⟨_, ds.drop (ds.length - places), none,
    fun _ hmem => hdigits _ (List.mem_of_mem_take hmem), hpart,
    fun _ hmem => hdigits _ (List.mem_of_mem_drop hmem)⟩, ofNumeral_eq ?_ ?_, rfl, ?_⟩
  · rw [List.take_append_drop, ← hds, Nat.ofDigitChars_ten_toDigits]
  · rw [hlength, hexponent]
    exact Int.zero_sub _
  · have hfraction : ds.drop (ds.length - places) ≠ [] :=
      List.ne_nil_of_length_pos (by rw [hlength]; exact hpos)
    rw [Numeral.chars, Numeral.fractionChars, if_neg hfraction]
    exact congrArg _ (List.append_nil _)

/-- A zero, a point, zeros and the digits. -/
theorem exists_numeral_below_one (zeros : Nat)
    (hexponent : d.exponent = -((zeros + (Nat.toDigits 10 d.digits).length : Nat) : Int)) :
    ∃ n : Numeral, n.decimal = d ∧ n.exponent? = none ∧
      n.chars = '0' :: '.' :: List.replicate zeros '0' ++ Nat.toDigits 10 d.digits := by
  have hwhole : ∀ c ∈ ['0'], c.isDigit = true := List.forall_mem_singleton.2 rfl
  have hfraction : ∀ c ∈ List.replicate zeros '0' ++ Nat.toDigits 10 d.digits, c.isDigit = true :=
    fun _ hmem => (List.mem_append.1 hmem).elim isDigit_of_mem_zeros isDigit_of_mem_toDigits
  refine ⟨⟨_, _, none, hwhole, rfl, hfraction⟩, ofNumeral_eq ?_ ?_, rfl, ?_⟩
  · have hzero : Nat.ofDigitChars 10 (List.replicate (zeros + 1) '0') 0 = 0 := by
      rw [Nat.ofDigitChars_replicate_zero, Nat.mul_zero]
    rw [List.singleton_append, ← List.cons_append, ← List.replicate_succ,
      Nat.ofDigitChars_append, hzero, Nat.ofDigitChars_ten_toDigits]
  · rw [List.length_append, List.length_replicate, hexponent]
    exact Int.zero_sub _
  · rw [Numeral.chars, Numeral.fractionChars,
      if_neg (List.append_ne_nil_of_right_ne_nil _ Nat.toDigits_ne_nil)]
    exact congrArg _ (List.append_nil _)

/-- The layout without an exponent is a numeral with the value of the decimal. -/
theorem exists_numeral_positional (h : d.digits ≠ 0) :
    ∃ n : Numeral, n.chars = d.positional ∧ n.exponent? = none ∧
      n.decimal.numerator = d.numerator ∧ n.decimal.scaleDown = d.scaleDown := by
  rw [positional]
  split
  · next hexponent => exact exists_numeral_padded h hexponent
  · next hexponent =>
    dsimp only
    split
    · next hplaces =>
      obtain ⟨n, hdecimal, hexponent, hchars⟩ :=
        exists_numeral_pointed h (by omega) (by omega) hplaces
      exact ⟨n, hchars, hexponent, by rw [hdecimal], by rw [hdecimal]⟩
    · next hplaces =>
      obtain ⟨n, hdecimal, hexponent, hchars⟩ := exists_numeral_below_one (d := d)
        ((-d.exponent).toNat - (Nat.toDigits 10 d.digits).length) (by omega)
      exact ⟨n, hchars, hexponent, by rw [hdecimal], by rw [hdecimal]⟩

/-- The layout with an exponent is a numeral of the decimal. -/
theorem exists_numeral_scientific (h : d.digits ≠ 0) :
    ∃ n : Numeral, n.chars = d.scientific ∧ n.decimal = d := by
  obtain ⟨c, hhead, hc⟩ := exists_head_toDigits h
  rw [scientific, leadingExponent]
  cases hds : Nat.toDigits 10 d.digits with
  | nil => exact absurd hds Nat.toDigits_ne_nil
  | cons lead more =>
    have hdigits : ∀ c ∈ lead :: more, c.isDigit = true :=
      fun _ hmem => isDigit_of_mem_toDigits (hds ▸ hmem)
    obtain rfl : lead = c := Option.some.inj ((congrArg List.head? hds).symm.trans hhead)
    have hwhole : ∀ c ∈ [lead], c.isDigit = true :=
      fun _ hmem => hdigits _ (List.mem_singleton.1 hmem ▸ List.mem_cons_self)
    refine ⟨⟨[lead], more, some (d.exponent + more.length), hwhole,
      isWholePart_of_head ⟨lead, rfl, hc⟩, fun _ hmem => hdigits _ (List.mem_cons_of_mem _ hmem)⟩,
      ?_, ofNumeral_eq ?_ (Int.add_sub_cancel _ _)⟩
    · cases more <;> rfl
    · rw [List.singleton_append, ← hds, Nat.ofDigitChars_ten_toDigits]

end Decimal

/-! ## The text of a number -/

namespace Binary64

/-- The number without the sign of a negative zero. -/
def unsignedZero : Binary64 → Binary64
  | .finite s m => if m.units = 0 then .zero else .finite s m
  | x => x

variable {s : Bool} {m : Magnitude} {rest : List Char}

/-- The text of a finite number is a numeral that is read as this number. -/
theorem exists_numeral_textChars (s : Bool) (m : Magnitude) :
    ∃ (negative : Bool) (n : Numeral),
      (Binary64.finite s m).textChars = withSign negative n.chars ∧
      n.decimal.toBinary64 negative = (Binary64.finite s m).unsignedZero ∧
      (m.units = 0 ∨ isPositional (.finite s m) = true → n.exponent? = none) := by
  rw [textChars, unsignedZero]
  split
  · have hwhole : ∀ c ∈ ['0'], c.isDigit = true := List.forall_mem_singleton.2 rfl
    exact ⟨false, ⟨['0'], [], none, hwhole, rfl, fun _ h => nomatch h⟩, rfl, rfl, fun _ => rfl⟩
  · next hunits =>
    have hpos := Nat.pos_of_ne_zero hunits
    have hnear := Magnitude.near_shortest hpos
    have hdigits := Magnitude.digits_shortest_ne_zero hpos
    split
    · obtain ⟨n, hchars, hexponent, hnumerator, hscale⟩ :=
        Decimal.exists_numeral_positional hdigits
      refine ⟨s, n, by rw [hchars], Decimal.toBinary64_of_near hpos ?_ s, fun _ => hexponent⟩
      rw [hnumerator, hscale]
      exact hnear
    · next hlayout =>
      obtain ⟨n, hchars, hdecimal⟩ := Decimal.exists_numeral_scientific hdigits
      refine ⟨s, n, by rw [hchars], Decimal.toBinary64_of_near hpos ?_ s, ?_⟩
      · rw [hdecimal]
        exact hnear
      · exact fun hplain => absurd hplain (not_or.2 ⟨hunits, hlayout⟩)

theorem exists_of_isFinite {x : Binary64} (h : x.isFinite = true) : ∃ s m, x = .finite s m := by
  cases x with
  | nan => cases h
  | infinite _ => cases h
  | finite s m => exact ⟨s, m, rfl⟩

theorem isFinite_unsignedZero (s : Bool) (m : Magnitude) :
    (Binary64.finite s m).unsignedZero.isFinite = true := by
  rw [unsignedZero]
  split <;> rfl

/-- A number is equal to itself without the sign of a zero. -/
theorem equals_unsignedZero {x : Binary64} (h : x ≠ .nan) : x.unsignedZero.equals x = true := by
  cases x with
  | nan => exact absurd rfl h
  | infinite s => exact decide_eq_true rfl
  | finite s m =>
    rw [unsignedZero]
    split
    · next hzero =>
      obtain rfl : m = .zero := Magnitude.ext hzero
      cases s <;> rfl
    · exact decide_eq_true rfl

/-- The text of a finite number is read as this number; negative zero has the text of zero. -/
theorem readNumber_textChars {x : Binary64} (h : x.isFinite = true)
    (hrest : Stops continuesNumeral rest) :
    readNumber (x.textChars ++ rest) = some (x.unsignedZero, rest) := by
  obtain ⟨s, m, rfl⟩ := exists_of_isFinite h
  obtain ⟨negative, n, hchars, hvalue, -⟩ := exists_numeral_textChars s m
  have hfinite : (n.decimal.toBinary64 negative).isFinite = true := by
    rw [hvalue]
    exact isFinite_unsignedZero s m
  rw [hchars, n.readNumber_chars negative hrest hfinite, hvalue]

/-- The text of a finite number starts with a minus sign or a digit. -/
theorem exists_textChars {x : Binary64} (h : x.isFinite = true) :
    ∃ c cs, x.textChars = c :: cs ∧ (c = '-' ∨ c.isDigit = true) := by
  obtain ⟨s, m, rfl⟩ := exists_of_isFinite h
  obtain ⟨negative, n, hchars, -⟩ := exists_numeral_textChars s m
  obtain ⟨c, cs, hn, hdigit⟩ := n.exists_chars
  rw [hchars, hn]
  cases negative with
  | true => exact ⟨'-', c :: cs, rfl, .inl rfl⟩
  | false => exact ⟨c, cs, rfl, .inr hdigit⟩

/-- What the text of a finite number is made of. -/
theorem isDigit_or_mem_of_mem_textChars {x : Binary64} (h : x.isFinite = true) {c : Char}
    (hc : c ∈ x.textChars) : c.isDigit = true ∨ c ∈ ['-', '+', '.', 'e'] := by
  obtain ⟨s, m, rfl⟩ := exists_of_isFinite h
  obtain ⟨negative, n, hchars, -⟩ := exists_numeral_textChars s m
  rw [hchars, withSign] at hc
  split at hc
  · rcases List.mem_cons.1 hc with rfl | hmem
    · exact .inr (by decide)
    · exact n.isDigit_or_mem_of_mem_chars hmem
  · exact n.isDigit_or_mem_of_mem_chars hc

end Binary64
end TextTemplate
