import TextTemplate.Text.Quoted
import TextTemplate.Value.Reader
/-!
# Reading quoted text

What is written between quotes is read back, whatever stands behind the closing quote.

- `readHexQuad_hexQuad`: four hexadecimal digits.
- `readQuoted_escape`: one character, written in whichever way.
- `readQuoted_quote`: a whole text.
-/

namespace TextTemplate

theorem hexValue?_digitChar : ∀ n < 16, hexValue? (Nat.digitChar n) = some n := by decide

/-- The four digits hold every number below `16 ^ 4`. -/
theorem readHexQuad_hexQuad {n : Nat} (h : n < 65536) (rest : List Char) :
    readHexQuad (hexQuad n ++ rest) = some (n, rest) := by
  have hdigit : ∀ k, hexValue? (Nat.digitChar (k % 16)) = some (k % 16) :=
    fun k => hexValue?_digitChar _ (Nat.mod_lt _ (by decide))
  have hsum : ((n / 4096 % 16 * 16 + n / 256 % 16) * 16 + n / 16 % 16) * 16 + n % 16 = n := by
    omega
  simp only [hexQuad, List.cons_append, List.nil_append, readHexQuad, hdigit, hsum]

/-- Control characters are no halves of a surrogate pair. -/
theorem readUnicodeEscape_hexQuad {c : Char} (h : isControl c = true) (rest : List Char) :
    readUnicodeEscape (hexQuad c.toNat ++ rest) = some (c, rest) := by
  have hsmall : c.toNat < 0xd800 := by
    simp only [isControl, Bool.or_eq_true, Bool.and_eq_true, decide_eq_true_eq] at h
    omega
  rw [readUnicodeEscape, readHexQuad_hexQuad (Nat.lt_trans hsmall (by decide))]
  dsimp only
  rw [if_pos (.inl hsmall), Char.ofNat_toNat]

/-- An escape is read as the character that it stands for. -/
theorem readQuoted_backslash {more rest : List Char} {c : Char}
    (h : readEscape more = some (c, rest)) :
    readQuoted ('\\' :: more) = (readQuoted rest).map fun (text, rest) => (c :: text, rest) := by
  rw [readQuoted, if_neg (by decide), if_pos rfl]
  split
  · next heq =>
    obtain ⟨rfl, rfl⟩ := Prod.mk.inj (Option.some.inj (h.symm.trans heq))
    rfl
  · next heq => cases h.symm.trans heq

/-- A character as it stands between quotes is read as itself. -/
theorem readQuoted_escape (c : Char) (rest : List Char) :
    readQuoted (escape c ++ rest)
      = (readQuoted rest).map fun (text, rest) => (c :: text, rest) := by
  unfold escape
  split
  · subst c
    exact readQuoted_backslash rfl
  split
  · subst c
    exact readQuoted_backslash rfl
  split
  · subst c
    exact readQuoted_backslash rfl
  split
  · subst c
    exact readQuoted_backslash rfl
  split
  · subst c
    exact readQuoted_backslash rfl
  split
  · next hcontrol => exact readQuoted_backslash (readUnicodeEscape_hexQuad hcontrol rest)
  · next hquote hbackslash _ _ _ hcontrol =>
    -- all characters below the space are control characters
    have hprintable : ¬ c.toNat < 0x20 := by
      intro hlow
      exact hcontrol (by rw [isControl, decide_eq_true hlow, Bool.true_or])
    rw [List.singleton_append, readQuoted, if_neg hquote, if_neg hbackslash, if_neg hprintable]

/-- The characters of a text and its closing quote. -/
theorem readQuoted_flatMap_escape (cs rest : List Char) :
    readQuoted (cs.flatMap escape ++ '"' :: rest) = some (cs, rest) := by
  induction cs with
  | nil => rw [List.flatMap_nil, List.nil_append, readQuoted, if_pos rfl]
  | cons c cs ih =>
    rw [List.flatMap_cons, List.append_assoc, readQuoted_escape, ih]
    rfl

/-- A text in quotes starts with a quote, behind which it is read up to the other one. -/
theorem quote_append (cs rest : List Char) :
    quote cs ++ rest = '"' :: (cs.flatMap escape ++ '"' :: rest) := by
  rw [quote, List.cons_append, List.cons_append, List.append_assoc, List.singleton_append]

end TextTemplate
