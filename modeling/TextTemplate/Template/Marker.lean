import TextTemplate.Text.Blank
/-!
# Markers

A template is text with markers, an expression between a pair of opening braces and a pair of
closing braces. A marker starts at the leftmost pair of opening braces that can be closed on the
same line with at least one character in between, and it ends at the first pair of closing braces
that leaves such a character. The text behind a marker is scanned in the same way; markers are not
nested.

* `splitBody`: the body of a marker behind its opening braces, and the rest of the template.
* `Piece`, `pieces`: a template, cut into characters that stand for themselves and markers.
* `Marker`, `markers`: the markers of a template and where they are, in bytes of UTF-8.
-/
namespace TextTemplate

/-- What follows a pair of opening braces. -/
def afterOpening? : List Char → Option (List Char)
  | '\x7b' :: '\x7b' :: rest => some rest
  | _ => none

/-- What follows a pair of closing braces. -/
def afterClosing? : List Char → Option (List Char)
  | '\x7d' :: '\x7d' :: rest => some rest
  | _ => none

/-- The text up to the first pair of closing braces behind its first character, and what follows
the pair; nothing if the line ends before that. -/
def splitBody : List Char → Option (List Char × List Char)
  | [] => none
  | c :: cs =>
    if c = '\n' then none
    else
      match afterClosing? cs with
      | some rest => some ([c], rest)
      | none => (splitBody cs).map fun (body, rest) => (c :: body, rest)

/-- The body of a marker at the head of a text, and what follows the marker. -/
def markerAtHead? (cs : List Char) : Option (List Char × List Char) :=
  (afterOpening? cs).bind splitBody

theorem eq_of_afterOpening? {cs rest : List Char} (h : afterOpening? cs = some rest) :
    cs = '\x7b' :: '\x7b' :: rest := by
  unfold afterOpening? at h
  split at h <;> cases h
  rfl

theorem eq_of_afterClosing? {cs rest : List Char} (h : afterClosing? cs = some rest) :
    cs = '\x7d' :: '\x7d' :: rest := by
  unfold afterClosing? at h
  split at h <;> cases h
  rfl

/-- The body, the closing braces and the rest make up the text. -/
theorem eq_of_splitBody {cs body rest : List Char} (h : splitBody cs = some (body, rest)) :
    cs = body ++ '\x7d' :: '\x7d' :: rest := by
  fun_induction splitBody cs generalizing body rest with
  | case1 => cases h
  | case2 => cases h
  | case3 c cs _ after hafter =>
    cases h
    rw [eq_of_afterClosing? hafter]
    rfl
  | case4 c cs _ _ ih =>
    obtain ⟨⟨body', rest'⟩, hsplit, hpair⟩ := Option.map_eq_some_iff.1 h
    cases hpair
    rw [ih hsplit]
    rfl

/-- A marker is made of the opening braces, its body and the closing braces. -/
theorem eq_of_markerAtHead? {cs body rest : List Char}
    (h : markerAtHead? cs = some (body, rest)) :
    cs = '\x7b' :: '\x7b' :: (body ++ '\x7d' :: '\x7d' :: rest) := by
  obtain ⟨after, hopen, hsplit⟩ := Option.bind_eq_some_iff.1 h
  rw [eq_of_afterOpening? hopen, eq_of_splitBody hsplit]

/-! ## Pieces -/

/-- A piece of a template. -/
inductive Piece where
  /-- A character outside all markers. -/
  | literal (c : Char)
  /-- A marker with the text between its braces. -/
  | marker (body : List Char)
deriving DecidableEq

/-- The text of a piece in its template. -/
def Piece.source : Piece → List Char
  | .literal c => [c]
  | .marker body => '\x7b' :: '\x7b' :: (body ++ ['\x7d', '\x7d'])

/-- Cuts a template into its pieces. -/
def pieces (cs : List Char) : List Piece :=
  match cs with
  | [] => []
  | c :: more =>
    match _h : markerAtHead? (c :: more) with
    | some (body, rest) => .marker body :: pieces rest
    | none => .literal c :: pieces more
termination_by cs.length
decreasing_by
  · have := congrArg List.length (eq_of_markerAtHead? _h)
    simp only [List.length_cons, List.length_append] at this ⊢
    omega
  · simp

/-- The pieces of a template make up its text. -/
theorem flatMap_source_pieces (cs : List Char) : (pieces cs).flatMap Piece.source = cs := by
  fun_induction pieces cs with
  | case1 => rfl
  | case2 c more body rest h ih =>
    rw [List.flatMap_cons, ih, eq_of_markerAtHead? h]
    simp [Piece.source]
  | case3 c more _ ih =>
    rw [List.flatMap_cons, ih]
    rfl

/-! ## Markers and their places -/

/-- The size of a text in bytes of UTF-8. -/
def byteSize : List Char → Nat
  | [] => 0
  | c :: cs => c.utf8Size + byteSize cs

/-- The expression of a marker: its body without the blanks at the ends. -/
def markerExpression (body : List Char) : String := String.ofList (trim body)

/-- A marker in a template. -/
structure Marker where
  /-- The offset of its first byte. -/
  start : Nat
  /-- The offset behind its last byte. -/
  stop : Nat
  /-- Its text, braces included. -/
  source : String
  /-- Its expression. -/
  expression : String
deriving DecidableEq

/-- The markers among pieces, the first of which starts at a byte offset. -/
def markersFrom (offset : Nat) : List Piece → List Marker
  | [] => []
  | .literal c :: more => markersFrom (offset + c.utf8Size) more
  | .marker body :: more =>
    let source := Piece.source (.marker body)
    ⟨offset, offset + byteSize source, String.ofList source, markerExpression body⟩
      :: markersFrom (offset + byteSize source) more

/-- The markers of a template, from left to right. -/
def markers (template : String) : List Marker := markersFrom 0 (pieces template.toList)

end TextTemplate
