import TextTemplate.Proofs.Template.Rescan
/-!
# Templates line by line

A marker does not go past the end of its line. An opening pair that is not closed there is text, and
neither it nor anything else on the line has an influence on the lines behind.

- `splitBody_line`, `markerAtHead?_line`: the end of a line closes nothing.
- `pieces_line`: the pieces of a text are those of its first lines, the line break and those of the
  other lines.
- `markersFrom_append`, `markersFrom_add`, `renderPiecesStrict_append`: pieces behind pieces.
- `lines_independent`: markers and renderings of a text that is cut at a line break.
-/

namespace TextTemplate

/-! ## The end of a line -/

/-- No pair of closing braces has a line break in it. -/
theorem afterClosing?_line {cs : List Char} (h : afterClosing? cs = none) (more : List Char) :
    afterClosing? (cs ++ '\n' :: more) = none := by
  match cs with
  | [] => rfl
  | [c] =>
    unfold afterClosing?
    split
    · next heq => cases heq
    · rfl
  | c :: d :: cs =>
    have hlength : 2 ≤ (c :: d :: cs).length := Nat.le_add_left 2 cs.length
    exact (afterClosing?_append_eq_none hlength _).2 h

/-- A body that does not end on its line does not end behind it. -/
theorem splitBody_line {cs : List Char} (h : splitBody cs = none) (more : List Char) :
    splitBody (cs ++ '\n' :: more) = none := by
  induction cs with
  | nil => exact splitBody_cons_eq_none_iff.2 (.inl rfl)
  | cons c cs ih =>
    rw [List.cons_append, splitBody_cons_eq_none_iff]
    obtain hline | ⟨hafter, hsplit⟩ := splitBody_cons_eq_none_iff.1 h
    · exact .inl hline
    · exact .inr ⟨afterClosing?_line hafter more, ih hsplit⟩

/-- No marker comes up at a character that starts none on its line. -/
theorem markerAtHead?_line {cs : List Char} (h : markerAtHead? cs = none) (more : List Char) :
    markerAtHead? (cs ++ '\n' :: more) = none := by
  cases hmarker : markerAtHead? (cs ++ '\n' :: more) with
  | none => rfl
  | some parts =>
    obtain ⟨after, hopen, hsplit⟩ := Option.bind_eq_some_iff.1 hmarker
    have htext := eq_of_afterOpening? hopen
    -- both opening braces stand before the line break
    match cs with
    | [] => cases htext
    | [c] => cases htext
    | c :: d :: cs =>
      cases htext
      have hnone : splitBody cs = none := h
      cases hsplit.symm.trans (splitBody_line hnone more)

/-- The lines before a line break and those behind it are cut into pieces on their own. -/
theorem pieces_line (cs more : List Char) :
    pieces (cs ++ '\n' :: more) = pieces cs ++ .literal '\n' :: pieces more := by
  fun_induction pieces cs with
  | case1 => exact pieces_cons_of_none (markerAtHead?_eq_none_of_ne (by decide))
  | case2 c cs body rest hhead ih =>
    have htext : c :: cs ++ '\n' :: more
        = (Piece.marker body).source ++ (rest ++ '\n' :: more) := by
      rw [eq_of_markerAtHead? hhead]
      simp [Piece.source]
    rw [htext, pieces_of_some (markerAtHead?_append hhead _), ih, List.cons_append]
  | case3 c cs hhead ih =>
    have hnone : markerAtHead? (c :: (cs ++ '\n' :: more)) = none := markerAtHead?_line hhead more
    rw [List.cons_append, pieces_cons_of_none hnone, ih, List.cons_append]

/-! ## Pieces behind pieces -/

/-- A marker that stands some bytes further behind. -/
def Marker.shift (n : Nat) (m : Marker) : Marker :=
  { m with start := m.start + n, stop := m.stop + n }

/-- The markers of the second pieces start behind the text of the first ones. -/
theorem markersFrom_append (offset : Nat) (ps qs : List Piece) :
    markersFrom offset (ps ++ qs)
      = markersFrom offset ps ++ markersFrom (offset + byteSize (ps.flatMap Piece.source)) qs := by
  induction ps generalizing offset with
  | nil => rfl
  | cons p ps ih =>
    cases p with
    | literal c =>
      rw [List.cons_append, markersFrom, markersFrom, ih, List.flatMap_cons, byteSize_append,
        Nat.add_assoc]
      rfl
    | marker body =>
      rw [List.cons_append, markersFrom_marker, markersFrom_marker, ih, List.flatMap_cons,
        byteSize_append, Nat.add_assoc, List.cons_append]

/-- Markers are moved by as much as stands in front of the text. -/
theorem markersFrom_add (offset n : Nat) (ps : List Piece) :
    markersFrom (offset + n) ps = (markersFrom offset ps).map (Marker.shift n) := by
  induction ps generalizing offset with
  | nil => rfl
  | cons p ps ih =>
    cases p with
    | literal c => rw [markersFrom, markersFrom, Nat.add_right_comm, ih]
    | marker body =>
      rw [markersFrom_marker, markersFrom_marker, List.map_cons, Nat.add_right_comm, ih,
        Marker.shift, Marker.ofBody, Marker.ofBody, Nat.add_right_comm]

/-- A refusal among the first pieces comes before all of the other ones. -/
theorem renderPiecesStrict_append (context : Value) (ps qs : List Piece) :
    renderPiecesStrict context (ps ++ qs) = (renderPiecesStrict context ps).bind fun output =>
      (renderPiecesStrict context qs).map (output ++ ·) := by
  induction ps with
  | nil =>
    rw [List.nil_append, renderPiecesStrict]
    cases renderPiecesStrict context qs <;> rfl
  | cons p ps ih =>
    cases p with
    | literal c =>
      rw [List.cons_append, renderPiecesStrict_literal, renderPiecesStrict_literal, ih]
      cases renderPiecesStrict context ps with
      | error e => rfl
      | ok output => cases renderPiecesStrict context qs <;> rfl
    | marker body =>
      cases hvalue : evaluateMarker context body with
      | error e =>
        rw [List.cons_append, renderPiecesStrict_refused hvalue, renderPiecesStrict_refused hvalue]
        rfl
      | ok v =>
        rw [List.cons_append, renderPiecesStrict_marker hvalue,
          renderPiecesStrict_marker hvalue, ih]
        cases renderPiecesStrict context ps with
        | error e => rfl
        | ok output =>
          cases renderPiecesStrict context qs with
          | error e => rfl
          | ok output' => simp [Except.map, Except.bind]

/-! ## Whole templates -/

theorem pieces_toList_line (first rest : String) : pieces (first ++ "\n" ++ rest).toList
    = pieces first.toList ++ .literal '\n' :: pieces rest.toList := by
  rw [String.toList_append, String.toList_append, List.append_assoc, ← pieces_line]
  rfl

theorem render_line (first rest : String) (context : Value) :
    render (first ++ "\n" ++ rest) context
      = render first context ++ "\n" ++ render rest context := by
  have hbreak : "\n" = String.ofList (renderPiece context (.literal '\n')) := rfl
  rw [render, pieces_toList_line, List.flatMap_append, List.flatMap_cons, String.ofList_append,
    String.ofList_append, ← hbreak, ← String.append_assoc]
  rfl

theorem render_intercalate (lines : List String) (context : Value) :
    render ("\n".intercalate lines) context
      = "\n".intercalate (lines.map fun line => render line context) := by
  induction lines with
  | nil =>
    rw [String.intercalate_nil, List.map_nil, String.intercalate_nil, render, String.toList_empty,
      pieces]
    rfl
  | cons line more ih =>
    cases more with
    | nil => rw [List.map_singleton, String.intercalate_singleton, String.intercalate_singleton]
    | cons next more =>
      rw [String.intercalate_cons_cons, render_line, ih]
      simp only [List.map_cons, String.intercalate_cons_cons]

theorem markers_line (first rest : String) : markers (first ++ "\n" ++ rest)
    = markers first ++ (markers rest).map (Marker.shift (first.utf8ByteSize + 1)) := by
  have hsize : byteSize ((pieces first.toList).flatMap Piece.source) = first.utf8ByteSize := by
    rw [flatMap_source_pieces, byteSize_eq, String.ofList_toList]
  have hrest : markersFrom first.utf8ByteSize (.literal '\n' :: pieces rest.toList)
      = (markers rest).map (Marker.shift (first.utf8ByteSize + 1)) := by
    rw [markers, ← markersFrom_add, Nat.zero_add]
    rfl
  rw [markers, pieces_toList_line, markersFrom_append, hsize, Nat.zero_add, hrest]
  rfl

theorem renderStrict_line (first rest : String) (context : Value) :
    renderStrict (first ++ "\n" ++ rest) context =
      match renderStrict first context, renderStrict rest context with
      | .ok output, .ok output' => .ok (output ++ "\n" ++ output')
      | .error e, _ => .error e
      | .ok _, .error e => .error e := by
  rw [renderStrict_eq_map, renderStrict_eq_map, renderStrict_eq_map, pieces_toList_line,
    renderPiecesStrict_append, renderPiecesStrict_literal]
  cases renderPiecesStrict context (pieces first.toList) with
  | error e => rfl
  | ok output =>
    cases renderPiecesStrict context (pieces rest.toList) with
    | error e => rfl
    | ok output' =>
      have htext : String.ofList (output ++ '\n' :: output')
          = String.ofList output ++ "\n" ++ String.ofList output' := by
        show _ = String.ofList output ++ String.ofList ['\n'] ++ String.ofList output'
        rw [← String.ofList_append, ← String.ofList_append, List.append_assoc]
        rfl
      exact congrArg Except.ok htext

/-- The two parts of a template before and behind a line break have nothing to do with each other.
Each is rendered on its own, so that a template is rendered line by line. The markers are those of
the two parts, and the ones of the second part start behind the first part and the line break; so
are the events. A strict rendering fails as the first part does, or else as the second one does. -/
theorem lines_independent (first rest : String) (context : Value) :
    render (first ++ "\n" ++ rest) context = render first context ++ "\n" ++ render rest context ∧
    (∀ lines : List String, render ("\n".intercalate lines) context
      = "\n".intercalate (lines.map fun line => render line context)) ∧
    markers (first ++ "\n" ++ rest)
      = markers first ++ (markers rest).map (Marker.shift (first.utf8ByteSize + 1)) ∧
    renderLog (first ++ "\n" ++ rest) context = renderLog first context ++ renderLog rest context ∧
    renderStrict (first ++ "\n" ++ rest) context =
      match renderStrict first context, renderStrict rest context with
      | .ok output, .ok output' => .ok (output ++ "\n" ++ output')
      | .error e, _ => .error e
      | .ok _, .error e => .error e := by
  refine ⟨render_line first rest context, fun lines => render_intercalate lines context,
    markers_line first rest, ?_, renderStrict_line first rest context⟩
  rw [renderLog, pieces_toList_line, List.filterMap_append]
  rfl

/-- An opening pair before the line break takes no part in the marker behind it. -/
example : markers "\x7b\x7ba\n\x7b\x7bb\x7d\x7d" = [⟨4, 9, "\x7b\x7bb\x7d\x7d", "b"⟩] := by
  decide +kernel

end TextTemplate
