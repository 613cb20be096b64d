import TextTemplate.Proofs.Template.Matches
import TextTemplate.Template.Render
/-!
# Rendered templates

A rendered template is its text between the markers, and something in the place of each marker that
depends on nothing but the marker and the data context.

- `splice`: a template with other texts in the place of its markers.
- `splice_markersFrom`: what the renderer puts together piece by piece is a splice.
- `replacement`, `Records`: what takes the place of a marker, and what is logged about it.
- `render_exact`: all output and the whole log of a rendering.
-/

namespace TextTemplate

/-- The text of a template from a byte offset on, with a text in the place of each marker. -/
def splice (template : String) (put : Marker → String) (last : Nat) : List Marker → String
  | [] => slice template last template.utf8ByteSize
  | m :: more =>
    slice template last m.start ++ put m ++ splice template put m.stop more

/-- The marker with a body that starts at a byte offset. -/
def Marker.ofBody (start : Nat) (body : List Char) : Marker :=
  ⟨start, start + byteSize (Piece.source (.marker body)),
    String.ofList (Piece.source (.marker body)), markerExpression body⟩

theorem Marker.expression_ofBody (start : Nat) (body : List Char) :
    (ofBody start body).expression = markerExpression body := rfl

theorem markersFrom_marker (start : Nat) (body : List Char) (more : List Piece) :
    markersFrom start (.marker body :: more) = .ofBody start body ::
      markersFrom (start + byteSize (Piece.source (.marker body))) more := rfl

/-- What is put together piece by piece is a splice, if the same takes the place of markers in both
cases. The text from `last` to `start` is the part of a gap that has already been passed over. -/
theorem splice_markersFrom {template : String} {put : Marker → String} {g : Piece → List Char}
    (hliteral : ∀ c, g (.literal c) = [c])
    (hmarker : ∀ start body, put (.ofBody start body) = String.ofList (g (.marker body)))
    {last start : Nat} {rest : List Char} (hle : last ≤ start)
    (h : template.toList.drop start = rest) :
    splice template put (byteSize (template.toList.take last))
        (markersFrom (byteSize (template.toList.take start)) (pieces rest))
      = String.ofList ((template.toList.take start).drop last ++ (pieces rest).flatMap g) := by
  fun_induction pieces rest generalizing last start with
  | case1 =>
    have hall : template.toList.take start = template.toList :=
      List.take_of_length_le (List.drop_eq_nil_iff.1 h)
    have hsize : template.utf8ByteSize = byteSize (template.toList.take start) := by
      rw [hall, byteSize_eq, String.ofList_toList]
    rw [markersFrom, splice, hsize, slice_byteSize template hle, List.flatMap_nil, List.append_nil]
  | case2 c more body rest hhead ih =>
    -- the gap ends before the marker, and the next one starts behind it
    obtain ⟨hsource, hrest, hsize⟩ := parts_of_markerAtHead? (h ▸ hhead)
    have hmore := ih (Nat.le_refl _) hrest
    rw [List.drop_eq_nil_iff.2 (List.length_take_le _ _), List.nil_append, hsize] at hmore
    rw [markersFrom_marker, splice, hmarker, Marker.ofBody, slice_byteSize template hle, hmore,
      List.flatMap_cons, ← String.ofList_append, ← String.ofList_append, List.append_assoc]
  | case3 c more hhead ih =>
    -- the character makes the gap longer
    obtain ⟨htake, hdrop, hsize⟩ := parts_of_drop_eq_cons h
    have hmore := ih (Nat.le_succ_of_le hle) hdrop
    have hlength : last ≤ (template.toList.take start).length := by
      have hlt : start < template.toList.length := by
        rw [← List.drop_eq_nil_iff.not.trans (Nat.not_le), h]
        simp
      rw [List.length_take, Nat.min_eq_left (Nat.le_of_lt hlt)]
      exact hle
    rw [hsize, htake, List.drop_append_of_le_length hlength, List.append_assoc] at hmore
    rw [markersFrom, hmore, List.flatMap_cons, hliteral]

/-- All of a template, put together piece by piece. -/
theorem splice_markers {template : String} {put : Marker → String} {g : Piece → List Char}
    (hliteral : ∀ c, g (.literal c) = [c])
    (hmarker : ∀ start body, put (.ofBody start body) = String.ofList (g (.marker body))) :
    splice template put 0 (markers template)
      = String.ofList ((pieces template.toList).flatMap g) := by
  have hdrop : template.toList.drop 0 = template.toList := rfl
  have hsplice := splice_markersFrom hliteral hmarker (Nat.le_refl 0) hdrop
  rw [List.take_zero, List.drop_nil, List.nil_append, byteSize_nil] at hsplice
  exact hsplice

/-! ## Rendering -/

/-- What takes the place of a marker: its value, or its own text if it has none. -/
def replacement (context : Value) (m : Marker) : String :=
  match evaluate m.expression context with
  | .ok v => v.display
  | .error _ => m.source

/-- The text that an event carries besides the expression. -/
def RenderEvent.detail : RenderEvent → String
  | .substituted _ value => value
  | .kept _ error => error.message

/-- What is logged about a marker: its value, or a warning with the reason why it has none. -/
def Records (context : Value) (m : Marker) (event : RenderEvent) : Prop :=
  match evaluate m.expression context with
  | .ok v =>
    event = .substituted m.expression v.display ∧ event.severity = .debug ∧
      event.detail = v.display
  | .error e =>
    event = .kept m.expression e ∧ event.severity = .warn ∧ event.detail = e.message

/-- Every marker has an event, which records it. -/
theorem exists_event (context : Value) (start : Nat) (body : List Char) :
    ∃ event, renderEvent? context (.marker body) = some event ∧
      Records context (.ofBody start body) event := by
  cases hvalue : evaluate (markerExpression body) context with
  | ok v =>
    refine ⟨.substituted (markerExpression body) v.display, ?_, ?_⟩
    · rw [renderEvent?, evaluateMarker, hvalue]
    · rw [Records, Marker.expression_ofBody, hvalue]
      exact ⟨rfl, rfl, rfl⟩
  | error e =>
    refine ⟨.kept (markerExpression body) e, ?_, ?_⟩
    · rw [renderEvent?, evaluateMarker, hvalue]
    · rw [Records, Marker.expression_ofBody, hvalue]
      exact ⟨rfl, rfl, rfl⟩

/-- The log of pieces has one event for each of their markers, in the same order. -/
theorem records_markersFrom (context : Value) (ps : List Piece) (offset : Nat) :
    List.Forall₂ (Records context) (markersFrom offset ps)
      (ps.filterMap (renderEvent? context)) := by
  induction ps generalizing offset with
  | nil => exact .nil
  | cons p ps ih =>
    cases p with
    | literal c => exact ih (offset + c.utf8Size)
    | marker body =>
      obtain ⟨event, hevent, hrecords⟩ := exists_event context offset body
      rw [markersFrom_marker, List.filterMap_cons_some hevent]
      exact .cons hrecords (ih _)

/-- The renderer puts the replacement of a marker in its place. -/
theorem replacement_ofBody (context : Value) (start : Nat) (body : List Char) :
    replacement context (.ofBody start body)
      = String.ofList (renderPiece context (.marker body)) := by
  rw [replacement, Marker.expression_ofBody, renderPiece, evaluateMarker]
  cases evaluate (markerExpression body) context with
  | ok v =>
    dsimp only
    rw [String.ofList_toList]
  | error e => rfl

/-- The output of a rendering is the template with the replacement of every marker in its place,
each of which depends on its own marker only, and the log has one event for every marker in the
same order. With the markers themselves in their places the splice is the template again. -/
theorem render_exact (template : String) (context : Value) :
    render template context = splice template (replacement context) 0 (markers template) ∧
      splice template Marker.source 0 (markers template) = template ∧
      List.Forall₂ (Records context) (markers template) (renderLog template context) := by
  have hrender : splice template (replacement context) 0 (markers template)
      = render template context := splice_markers (fun _ => rfl) (replacement_ofBody context)
  have hsource : splice template Marker.source 0 (markers template)
      = String.ofList ((pieces template.toList).flatMap Piece.source) :=
    splice_markers (fun _ => rfl) (fun _ _ => rfl)
  rw [flatMap_source_pieces, String.ofList_toList] at hsource
  exact ⟨hrender.symm, hsource, records_markersFrom context _ 0⟩

end TextTemplate
