import TextTemplate.Decimal.Numeral
import TextTemplate.Value.Basic
/-!
# Reading values

Values are read from JSON text, by the strict grammar: no comments, no trailing commas, no raw
control characters in texts and no half of a surrogate pair. Of several entries with one key the
last one counts. Numbers are rounded to the nearest double; one that is too large for a double is
refused, and so is nesting beyond a limit.

* `readQuoted`: a text up to its closing quote.
* `readNumber`: a number.
* `Value.read`: one value at the head of a text, with the rest, which is shorter.
* `Value.ofJson?`: the value that a whole text stands for.
-/
namespace TextTemplate

/-- What is left of a text once something has been read from its head. -/
abbrev Rest (cs : List Char) := { rest : List Char // rest.length < cs.length }

/-- The rest of a shorter text is a rest of the longer one. -/
def Rest.within {short long : List Char} (rest : Rest short) (h : short.length < long.length) :
    Rest long :=
  ⟨rest.val, Nat.lt_trans rest.property h⟩

/-- The characters that may stand between the parts of a JSON text. -/
def isGap (c : Char) : Bool := c == ' ' || c == '\t' || c == '\n' || c == '\r'

/-- A text without the gap at its head. -/
def skipGap (cs : List Char) : List Char := cs.dropWhile isGap

theorem length_dropWhile_le {α : Type} (p : α → Bool) (xs : List α) :
    (xs.dropWhile p).length ≤ xs.length :=
  (List.dropWhile_suffix p).length_le

theorem length_skipGap_le (cs : List Char) : (skipGap cs).length ≤ cs.length :=
  length_dropWhile_le isGap cs

/-! ## Texts -/

/-- The value of a hexadecimal digit. -/
def hexValue? (c : Char) : Option Nat :=
  if c.isDigit then some (c.toNat - '0'.toNat)
  else if 'a' ≤ c ∧ c ≤ 'f' then some (c.toNat - 'a'.toNat + 10)
  else if 'A' ≤ c ∧ c ≤ 'F' then some (c.toNat - 'A'.toNat + 10)
  else none

/-- Four hexadecimal digits and the rest. -/
def readHexQuad : List Char → Option (Nat × List Char)
  | a :: b :: c :: d :: rest =>
    match hexValue? a, hexValue? b, hexValue? c, hexValue? d with
    | some a, some b, some c, some d => some (((a * 16 + b) * 16 + c) * 16 + d, rest)
    | _, _, _, _ => none
  | _ => none

/-- The character of an escape by code unit, behind its `u`. A code unit that is the first half of
a surrogate pair needs an escape of the second half behind it. -/
def readUnicodeEscape (cs : List Char) : Option (Char × List Char) :=
  match readHexQuad cs with
  | none => none
  | some (high, rest) =>
    if high < 0xd800 ∨ 0xdfff < high then some (Char.ofNat high, rest)
    else if 0xdbff < high then none
    else
      match rest with
      | '\\' :: 'u' :: more =>
        match readHexQuad more with
        | some (low, rest) =>
          if 0xdc00 ≤ low ∧ low ≤ 0xdfff then
            some (Char.ofNat (0x10000 + (high - 0xd800) * 0x400 + (low - 0xdc00)), rest)
          else none
        | none => none
      | _ => none

/-- The character of an escape, behind its backslash. -/
def readEscape : List Char → Option (Char × List Char)
  | '"' :: rest => some ('"', rest)
  | '\\' :: rest => some ('\\', rest)
  | '/' :: rest => some ('/', rest)
  | 'b' :: rest => some ('\x08', rest)
  | 'f' :: rest => some ('\x0c', rest)
  | 'n' :: rest => some ('\n', rest)
  | 'r' :: rest => some ('\r', rest)
  | 't' :: rest => some ('\t', rest)
  | 'u' :: rest => readUnicodeEscape rest
  | _ => none

theorem length_of_readHexQuad {cs rest : List Char} {n : Nat}
    (h : readHexQuad cs = some (n, rest)) : rest.length < cs.length := by
  unfold readHexQuad at h
  split at h
  · split at h
    · obtain ⟨-, rfl⟩ := h
      simp only [List.length_cons]; omega
    · cases h
  · cases h

theorem length_of_readUnicodeEscape {cs rest : List Char} {c : Char}
    (h : readUnicodeEscape cs = some (c, rest)) : rest.length < cs.length := by
  unfold readUnicodeEscape at h
  split at h
  · cases h
  · next high after heq =>
    have hafter := length_of_readHexQuad heq
    split at h
    · exact (Prod.mk.inj (Option.some.inj h)).2 ▸ hafter
    · split at h
      · cases h
      · split at h
        · split at h
          · next more low after' heq' =>
            have hmore := length_of_readHexQuad heq'
            simp only [List.length_cons] at hafter
            split at h
            · rw [← (Prod.mk.inj (Option.some.inj h)).2]
              omega
            · cases h
          · cases h
        · cases h

theorem length_of_readEscape {cs rest : List Char} {c : Char}
    (h : readEscape cs = some (c, rest)) : rest.length < cs.length := by
  unfold readEscape at h
  split at h
  case h_9 tail =>
    have := length_of_readUnicodeEscape h
    simp only [List.length_cons]; omega
  case h_10 => cases h
  all_goals
    obtain ⟨-, rfl⟩ := h
    simp only [List.length_cons]; omega

/-- The characters up to the closing quote, and the rest behind it. -/
def readQuoted (cs : List Char) : Option (List Char × List Char) :=
  match cs with
  | [] => none
  | c :: more =>
    if c = '"' then some ([], more)
    else if c = '\\' then
      match _h : readEscape more with
      | some (e, rest) => (readQuoted rest).map fun (text, rest) => (e :: text, rest)
      | none => none
    else if c.toNat < 0x20 then none
    else (readQuoted more).map fun (text, rest) => (c :: text, rest)
termination_by cs.length
decreasing_by
  · have := length_of_readEscape _h
    simp only [List.length_cons]; omega
  · simp only [List.length_cons]; omega

theorem length_of_readQuoted {cs text rest : List Char} (h : readQuoted cs = some (text, rest)) :
    rest.length < cs.length := by
  fun_induction readQuoted cs generalizing text rest with
  | case1 => cases h
  | case2 =>
    obtain ⟨-, rfl⟩ := h
    simp only [List.length_cons]; omega
  | case3 more e after heq _ ih =>
    obtain ⟨⟨text', rest'⟩, hread, hpair⟩ := Option.map_eq_some_iff.1 h
    obtain ⟨-, rfl⟩ := hpair
    have := length_of_readEscape heq
    have := ih hread
    simp only [List.length_cons]; omega
  | case4 => cases h
  | case5 => cases h
  | case6 c more _ _ _ ih =>
    obtain ⟨⟨text', rest'⟩, hread, hpair⟩ := Option.map_eq_some_iff.1 h
    obtain ⟨-, rfl⟩ := hpair
    have := ih hread
    simp only [List.length_cons]; omega

/-! ## Numbers -/

/-- Whether a run of digits may stand before the point: there is one, and a zero stands alone. -/
def isWholePart : List Char → Bool
  | [] => false
  | ['0'] => true
  | c :: _ => c != '0'

/-- A number, and the rest behind it. -/
def readNumber (cs : List Char) : Option (Binary64 × List Char) :=
  let (negative, body) := splitMinus cs
  let (whole, afterWhole) := splitDigits body
  let (fraction?, afterFraction) := splitFraction afterWhole
  if isWholePart whole && fraction? != some [] then
    match splitExponent afterFraction with
    | none => none
    | some (exponent, rest) =>
      let number := (Decimal.ofNumeral whole (fraction?.getD []) exponent).toBinary64 negative
      if number.isFinite then some (number, rest) else none
  else none

theorem length_splitMinus_le (cs : List Char) : (splitMinus cs).2.length ≤ cs.length := by
  unfold splitMinus
  split <;> simp

theorem length_splitSign_le (cs : List Char) : (splitSign cs).2.length ≤ cs.length := by
  unfold splitSign
  split
  · simp
  · exact length_splitMinus_le _

theorem length_splitDigits (cs : List Char) :
    (splitDigits cs).1.length + (splitDigits cs).2.length = cs.length := by
  unfold splitDigits
  rw [← List.length_append, List.takeWhile_append_dropWhile]

theorem length_splitFraction_le (cs : List Char) : (splitFraction cs).2.length ≤ cs.length := by
  unfold splitFraction
  split
  · have := length_splitDigits ‹List Char›
    simp only [List.length_cons]; omega
  · exact Nat.le_refl _

theorem length_of_splitExponent {cs rest : List Char} {e : Int}
    (h : splitExponent cs = some (e, rest)) : rest.length ≤ cs.length := by
  unfold splitExponent at h
  split at h
  · obtain ⟨-, rfl⟩ := h
    exact Nat.le_refl _
  · next c more =>
    have hsign := length_splitSign_le more
    have hdigits := length_splitDigits (splitSign more).2
    split at h
    · dsimp only at h
      split at h
      · cases h
      · next digits rest' _ heq =>
        obtain ⟨-, rfl⟩ := h
        rw [heq] at hdigits
        simp only [List.length_cons] at *; omega
    · obtain ⟨-, rfl⟩ := h
      exact Nat.le_refl _

theorem length_of_readNumber {cs rest : List Char} {n : Binary64}
    (h : readNumber cs = some (n, rest)) : rest.length < cs.length := by
  unfold readNumber at h
  have hminus := length_splitMinus_le cs
  have hdigits := length_splitDigits (splitMinus cs).2
  have hfraction := length_splitFraction_le (splitDigits (splitMinus cs).2).2
  dsimp only at h
  split at h
  · next hwhole =>
    have hpos : 0 < (splitDigits (splitMinus cs).2).1.length := by
      rw [Bool.and_eq_true] at hwhole
      cases hsplit : (splitDigits (splitMinus cs).2).1 with
      | nil => rw [hsplit] at hwhole; simp [isWholePart] at hwhole
      | cons => simp
    split at h
    · cases h
    · next e after heq =>
      have hexponent := length_of_splitExponent heq
      split at h
      · obtain ⟨-, rfl⟩ := h
        omega
      · cases h
  · cases h

/-! ## Values -/

namespace Value

/-- A value that has no parts, apart from a text: one of three words, or a number. -/
def readAtom : List Char → Option (Value × List Char)
  | 'n' :: 'u' :: 'l' :: 'l' :: rest => some (.null, rest)
  | 't' :: 'r' :: 'u' :: 'e' :: rest => some (.boolean true, rest)
  | 'f' :: 'a' :: 'l' :: 's' :: 'e' :: rest => some (.boolean false, rest)
  | cs => (readNumber cs).map fun (n, rest) => (.number n, rest)

theorem length_of_readAtom {cs rest : List Char} {v : Value}
    (h : readAtom cs = some (v, rest)) : rest.length < cs.length := by
  unfold readAtom at h
  split at h
  case h_4 =>
    obtain ⟨⟨n, rest'⟩, hread, hpair⟩ := Option.map_eq_some_iff.1 h
    obtain ⟨-, rfl⟩ := hpair
    exact length_of_readNumber hread
  all_goals
    obtain ⟨-, rfl⟩ := h
    simp only [List.length_cons]; omega

/-- The key of an entry with the colon behind it, and the rest. -/
def readKey (cs : List Char) : Option (String × List Char) :=
  match skipGap cs with
  | '"' :: more =>
    match readQuoted more with
    | some (key, rest) =>
      match skipGap rest with
      | ':' :: afterColon => some (String.ofList key, afterColon)
      | _ => none
    | none => none
  | _ => none

theorem length_of_readKey {cs rest : List Char} {key : String}
    (h : readKey cs = some (key, rest)) : rest.length < cs.length := by
  unfold readKey at h
  have hgap := length_skipGap_le cs
  split at h
  · next more hmore =>
    rw [hmore, List.length_cons] at hgap
    split at h
    · next text after hread =>
      have hquoted := length_of_readQuoted hread
      have hcolon := length_skipGap_le after
      split at h
      · next afterColon hafter =>
        obtain ⟨-, rfl⟩ := h
        rw [hafter, List.length_cons] at hcolon
        omega
      · cases h
    · cases h
  · cases h

mutual

/-- One value at the head of a text, and the rest behind it. Arrays and objects may be nested
`room` levels deep. -/
def read (room : Nat) (cs : List Char) : Option (Value × Rest cs) :=
  match hgap : skipGap cs with
  | [] => none
  | c :: more =>
    have hmore : more.length < cs.length := by
      have := length_skipGap_le cs
      rw [hgap, List.length_cons] at this; omega
    if c = '"' then
      match htext : readQuoted more with
      | some (text, rest) =>
        some (.string (String.ofList text), ⟨rest, by
          have := length_of_readQuoted htext; omega⟩)
      | none => none
    else if c = '[' then
      match room with
      | 0 => none
      | room + 1 =>
        (readItems room more).map fun (items, rest) => (.array items, rest.within hmore)
    else if c = '\x7b' then
      match room with
      | 0 => none
      | room + 1 =>
        (readEntries room more).map fun (entries, rest) => (ofEntries entries, rest.within hmore)
    else
      match hatom : readAtom (c :: more) with
      | some (v, rest) =>
        some (v, ⟨rest, by
          have := length_of_readAtom hatom
          rw [List.length_cons] at this; omega⟩)
      | none => none
termination_by 3 * cs.length + 0

/-- The items of an array up to its closing bracket, and the rest behind it. -/
def readItems (room : Nat) (cs : List Char) : Option (List Value × Rest cs) :=
  match hgap : skipGap cs with
  | ']' :: more => some ([], ⟨more, by
      have := length_skipGap_le cs
      rw [hgap, List.length_cons] at this; omega⟩)
  | _ => readMoreItems room cs
termination_by 3 * cs.length + 2

/-- At least one item of an array, and the following ones. -/
def readMoreItems (room : Nat) (cs : List Char) : Option (List Value × Rest cs) :=
  match read room cs with
  | none => none
  | some (item, rest) =>
    match hgap : skipGap rest.val with
    | ']' :: more => some ([item], ⟨more, by
        have := length_skipGap_le rest.val
        rw [hgap, List.length_cons] at this
        have := rest.property; omega⟩)
    | ',' :: more =>
      have hmore : more.length < cs.length := by
        have := length_skipGap_le rest.val
        rw [hgap, List.length_cons] at this
        have := rest.property; omega
      (readMoreItems room more).map fun (items, rest) => (item :: items, rest.within hmore)
    | _ => none
termination_by 3 * cs.length + 1

/-- The entries of an object up to its closing bracket, and the rest behind it. -/
def readEntries (room : Nat) (cs : List Char) : Option (List (String × Value) × Rest cs) :=
  match hgap : skipGap cs with
  | '\x7d' :: more => some ([], ⟨more, by
      have := length_skipGap_le cs
      rw [hgap, List.length_cons] at this; omega⟩)
  | _ => readMoreEntries room cs
termination_by 3 * cs.length + 2

/-- At least one entry of an object, and the following ones. -/
def readMoreEntries (room : Nat) (cs : List Char) : Option (List (String × Value) × Rest cs) :=
  match hkey : readKey cs with
  | none => none
  | some (key, afterKey) =>
    have hafter : afterKey.length < cs.length := length_of_readKey hkey
    match read room afterKey with
    | none => none
    | some (value, rest) =>
      match hgap : skipGap rest.val with
      | '\x7d' :: more => some ([(key, value)], ⟨more, by
          have := length_skipGap_le rest.val
          rw [hgap, List.length_cons] at this
          have := rest.property; omega⟩)
      | ',' :: more =>
        have hmore : more.length < cs.length := by
          have := length_skipGap_le rest.val
          rw [hgap, List.length_cons] at this
          have := rest.property; omega
        (readMoreEntries room more).map fun (entries, rest) =>
          ((key, value) :: entries, rest.within hmore)
      | _ => none
termination_by 3 * cs.length + 1

end

/-- How many levels of arrays and objects a text may nest. -/
def nestingLimit : Nat := 127

/-- The value that a whole text stands for, with at most `limit` levels of nesting. -/
def ofJsonWithin? (limit : Nat) (text : String) : Option Value :=
  match read limit text.toList with
  | some (v, rest) => if skipGap rest.val = [] then some v else none
  | none => none

/-- The value that a whole text stands for. -/
def ofJson? (text : String) : Option Value := ofJsonWithin? nestingLimit text

end Value
end TextTemplate
