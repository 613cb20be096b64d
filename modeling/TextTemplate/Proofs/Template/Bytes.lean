import Mathlib.Data.String.Basic
import TextTemplate.Template.Marker
/-!
# Byte offsets

Markers are found by counting characters, and their places are given in bytes of UTF-8.

- `byteSize_append`, `byteSize_take_eq`: sizes of the parts of a text.
- `isValid_byteSize_take`: the offset behind some characters of a text is not inside a character.
- `slice`: the part of a text between two byte offsets.
- `slice_byteSize`: the characters between two places are the text between their byte offsets.
-/

namespace TextTemplate

theorem byteSize_eq_utf8Len (cs : List Char) : byteSize cs = String.utf8Len cs := by
  induction cs with
  | nil => rfl
  | cons c cs ih =>
    rw [String.utf8Len_cons, ← ih, byteSize, Nat.add_comm]

/-- The size of a text. -/
theorem byteSize_eq (cs : List Char) : byteSize cs = (String.ofList cs).utf8ByteSize := by
  rw [byteSize_eq_utf8Len, String.utf8ByteSize_ofList]

@[simp] theorem byteSize_nil : byteSize [] = 0 := rfl

@[simp] theorem byteSize_append (cs ds : List Char) :
    byteSize (cs ++ ds) = byteSize cs + byteSize ds := by
  induction cs with
  | nil => exact (Nat.zero_add _).symm
  | cons c cs ih =>
    rw [List.cons_append, byteSize, byteSize, ih, Nat.add_assoc]

@[simp] theorem byteSize_cons (c : Char) (cs : List Char) :
    byteSize (c :: cs) = c.utf8Size + byteSize cs := rfl

/-- Every character takes at least one byte. -/
theorem length_le_byteSize (cs : List Char) : cs.length ≤ byteSize cs := by
  induction cs with
  | nil => exact Nat.le_refl 0
  | cons c cs ih =>
    have hpos := c.utf8Size_pos
    rw [byteSize_cons, List.length_cons]
    omega

/-- A longer first part is a shorter one and what follows it. -/
theorem take_eq_append {cs : List Char} {i j : Nat} (h : i ≤ j) :
    cs.take j = cs.take i ++ (cs.take j).drop i := by
  have htake : cs.take i = (cs.take j).take i := by rw [List.take_take, Nat.min_eq_left h]
  rw [htake, List.take_append_drop]

theorem byteSize_take_eq {cs : List Char} {i j : Nat} (h : i ≤ j) :
    byteSize (cs.take j) = byteSize (cs.take i) + byteSize ((cs.take j).drop i) := by
  rw [← byteSize_append, ← take_eq_append h]

theorem byteSize_take_le {cs : List Char} {i j : Nat} (h : i ≤ j) :
    byteSize (cs.take i) ≤ byteSize (cs.take j) := by
  rw [byteSize_take_eq h]
  exact Nat.le_add_right ..

/-- The characters that follow a place, and those behind them. -/
theorem drop_add_eq {cs mid rest : List Char} {i : Nat} (h : cs.drop i = mid ++ rest) :
    (cs.take (i + mid.length)).drop i = mid ∧ cs.drop (i + mid.length) = rest := by
  constructor
  · rw [List.drop_take, h, Nat.add_sub_cancel_left, List.take_left]
  · rw [← List.drop_drop, h, List.drop_left]

/-- The character at a place, and those behind it. -/
theorem parts_of_drop_eq_cons {cs more : List Char} {c : Char} {i : Nat}
    (h : cs.drop i = c :: more) :
    cs.take (i + 1) = cs.take i ++ [c] ∧ cs.drop (i + 1) = more ∧
      byteSize (cs.take (i + 1)) = byteSize (cs.take i) + c.utf8Size := by
  have hparts : cs.drop i = [c] ++ more := h
  obtain ⟨hchar, hmore⟩ := drop_add_eq hparts
  rw [List.length_singleton] at hchar hmore
  have htake : cs.take (i + 1) = cs.take i ++ [c] := by
    rw [take_eq_append (Nat.le_add_right i 1), hchar]
  refine ⟨htake, hmore, ?_⟩
  rw [htake, byteSize_append, byteSize_cons, byteSize_nil, Nat.add_zero]

/-- The offset behind some characters is not inside a character. -/
theorem isValid_byteSize_take (text : String) (i : Nat) :
    String.Pos.Raw.IsValid text ⟨byteSize (text.toList.take i)⟩ := by
  rw [String.Pos.Raw.isValid_iff_exists_take_toList]
  exact ⟨i, byteSize_eq _⟩

/-- The part of a text between two byte offsets. -/
def slice (text : String) (start stop : Nat) : String :=
  String.Pos.Raw.extract text ⟨start⟩ ⟨stop⟩

/-- The characters between two places are the text between their byte offsets. -/
theorem slice_byteSize (text : String) {i j : Nat} (h : i ≤ j) :
    slice text (byteSize (text.toList.take i)) (byteSize (text.toList.take j))
      = String.ofList ((text.toList.take j).drop i) := by
  have hparts : text.toList
      = text.toList.take i ++ (text.toList.take j).drop i ++ text.toList.drop j := by
    rw [← take_eq_append h, List.take_append_drop]
  have hextract := String.extract_of_valid (text.toList.take i) ((text.toList.take j).drop i)
    (text.toList.drop j)
  rw [← hparts, String.ofList_toList] at hextract
  rw [slice, byteSize_take_eq h, byteSize_eq_utf8Len, byteSize_eq_utf8Len, hextract]

end TextTemplate
