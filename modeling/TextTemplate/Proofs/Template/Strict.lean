import TextTemplate.Command.Run
import TextTemplate.Proofs.Template.Splice
/-!
# Strict rendering

A strict rendering goes from marker to marker. It either stops at the first one without a value or
ends with the text that a lenient rendering gives.

- `spliceStrict`: the marker loop, which copies the text between two byte offsets and then looks at
  the next marker.
- `refusal?`: the error of a marker without a value.
- `renderStrict_eq`: a strict rendering gives the first refusal, or else the lenient output.
- `renderStrict_exact`: what a strict rendering gives, in terms of the markers of its template.
-/

namespace TextTemplate

/-- Why a marker has no value, if it has none. -/
def refusal? (context : Value) (m : Marker) : Option TemplateError :=
  match evaluate m.expression context with
  | .ok _ => none
  | .error e => some ⟨m.expression, e⟩

/-- The output of a template from a byte offset on, behind what is in the output already; the first
marker without a value ends it. -/
def spliceStrict (template : String) (context : Value) (last : Nat) (output : String) :
    List Marker → Except TemplateError String
  | [] => .ok (output ++ slice template last template.utf8ByteSize)
  | m :: more =>
    match evaluate m.expression context with
    | .error e => .error ⟨m.expression, e⟩
    | .ok v =>
      spliceStrict template context m.stop (output ++ slice template last m.start ++ v.display) more

variable {template : String} {context : Value}

theorem refusal?_eq_none_iff {m : Marker} :
    refusal? context m = none ↔ ∃ v, evaluate m.expression context = .ok v := by
  rw [refusal?]
  cases evaluate m.expression context with
  | ok v => simp
  | error e => simp

theorem refusal?_eq_some_iff {m : Marker} {e : TemplateError} :
    refusal? context m = some e ↔
      ∃ error, evaluate m.expression context = .error error ∧ e = ⟨m.expression, error⟩ := by
  rw [refusal?]
  cases evaluate m.expression context with
  | ok v => simp
  | error error => simp [eq_comm]

/-- The first refusal, or else the given output. -/
def firstRefusal {α : Type} (context : Value) (ms : List Marker) (output : α) :
    Except TemplateError α :=
  match ms.findSome? (refusal? context) with
  | some e => .error e
  | none => .ok output

theorem firstRefusal_cons_ok {α : Type} {m : Marker} {more : List Marker} {v : Value} (output : α)
    (h : evaluate m.expression context = .ok v) :
    firstRefusal context (m :: more) output = firstRefusal context more output := by
  have hnone : refusal? context m = none := refusal?_eq_none_iff.2 ⟨v, h⟩
  rw [firstRefusal, List.findSome?_cons, hnone]
  rfl

theorem firstRefusal_cons_error {α : Type} {m : Marker} {more : List Marker} {e : ExprError}
    (output : α) (h : evaluate m.expression context = .error e) :
    firstRefusal context (m :: more) output = .error ⟨m.expression, e⟩ := by
  have hsome : refusal? context m = some ⟨m.expression, e⟩ := refusal?_eq_some_iff.2 ⟨e, h, rfl⟩
  rw [firstRefusal, List.findSome?_cons, hsome]

/-- The first refusal stands behind markers that all have values. -/
theorem firstRefusal_eq_error_iff {α : Type} {ms : List Marker} {output : α} {e : TemplateError} :
    firstRefusal context ms output = .error e ↔ ∃ before m after error,
      ms = before ++ m :: after ∧ (∀ m' ∈ before, ∃ v, evaluate m'.expression context = .ok v) ∧
        evaluate m.expression context = .error error ∧ e = ⟨m.expression, error⟩ := by
  have hfirst : firstRefusal context ms output = .error e ↔
      ms.findSome? (refusal? context) = some e := by
    rw [firstRefusal]
    cases ms.findSome? (refusal? context) <;> simp
  rw [hfirst, List.findSome?_eq_some_iff]
  constructor
  · rintro ⟨before, m, after, hms, hsome, hbefore⟩
    obtain ⟨error, heval, he⟩ := refusal?_eq_some_iff.1 hsome
    exact ⟨before, m, after, error, hms, fun m' hm' => refusal?_eq_none_iff.1 (hbefore m' hm'),
      heval, he⟩
  · rintro ⟨before, m, after, error, hms, hbefore, heval, he⟩
    exact ⟨before, m, after, hms, refusal?_eq_some_iff.2 ⟨error, heval, he⟩,
      fun m' hm' => refusal?_eq_none_iff.2 (hbefore m' hm')⟩

/-- Without a refusal all markers have values. -/
theorem firstRefusal_eq_ok_iff {α : Type} {ms : List Marker} {output result : α} :
    firstRefusal context ms output = .ok result ↔
      (∀ m ∈ ms, ∃ v, evaluate m.expression context = .ok v) ∧ result = output := by
  have hfirst : firstRefusal context ms output = .ok result ↔
      ms.findSome? (refusal? context) = none ∧ result = output := by
    rw [firstRefusal]
    cases ms.findSome? (refusal? context) <;> simp [eq_comm]
  simp only [hfirst, List.findSome?_eq_none_iff, refusal?_eq_none_iff]

/-- Whether a marker refuses does not depend on the output. -/
theorem map_firstRefusal {α β : Type} (f : α → β) (ms : List Marker) (output : α) :
    (firstRefusal context ms output).map f = firstRefusal context ms (f output) := by
  rw [firstRefusal, firstRefusal]
  cases ms.findSome? (refusal? context) <;> rfl

/-! ## Two ways of rendering strictly -/

/-- The marker loop adds the lenient output to what is there already, unless a marker refuses. -/
theorem spliceStrict_eq (ms : List Marker) (last : Nat) (output : String) :
    spliceStrict template context last output ms
      = firstRefusal context ms (output ++ splice template (replacement context) last ms) := by
  induction ms generalizing last output with
  | nil => rfl
  | cons m more ih =>
    rw [spliceStrict]
    cases hvalue : evaluate m.expression context with
    | error e => rw [firstRefusal_cons_error _ hvalue]
    | ok v =>
      have hput : replacement context m = v.display := by rw [replacement, hvalue]
      dsimp only
      rw [ih, firstRefusal_cons_ok _ hvalue, splice, hput, String.append_assoc, String.append_assoc,
        String.append_assoc]

theorem renderPiecesStrict_literal (c : Char) (more : List Piece) :
    renderPiecesStrict context (.literal c :: more)
      = (renderPiecesStrict context more).map (c :: ·) := by
  rw [renderPiecesStrict]
  cases renderPiecesStrict context more <;> rfl

theorem renderPiecesStrict_refused {body : List Char} {more : List Piece} {e : ExprError}
    (h : evaluateMarker context body = .error e) :
    renderPiecesStrict context (.marker body :: more) = .error ⟨markerExpression body, e⟩ := by
  rw [renderPiecesStrict, h]

theorem renderPiecesStrict_marker {body : List Char} {more : List Piece} {v : Value}
    (h : evaluateMarker context body = .ok v) :
    renderPiecesStrict context (.marker body :: more)
      = (renderPiecesStrict context more).map (v.display.toList ++ ·) := by
  rw [renderPiecesStrict, h]
  cases renderPiecesStrict context more <;> rfl

/-- Pieces are put together up to the first refusal of a marker among them. -/
theorem renderPiecesStrict_eq (ps : List Piece) (offset : Nat) :
    renderPiecesStrict context ps
      = firstRefusal context (markersFrom offset ps) (ps.flatMap (renderPiece context)) := by
  induction ps generalizing offset with
  | nil => rfl
  | cons p ps ih =>
    cases p with
    | literal c =>
      rw [renderPiecesStrict_literal, ih (offset + c.utf8Size), map_firstRefusal]
      rfl
    | marker body =>
      rw [markersFrom_marker, List.flatMap_cons, renderPiece]
      cases hvalue : evaluateMarker context body with
      | error e =>
        have hfirst : evaluate (Marker.ofBody offset body).expression context = .error e := hvalue
        rw [renderPiecesStrict_refused hvalue, firstRefusal_cons_error _ hfirst,
          Marker.expression_ofBody]
      | ok v =>
        have hfirst : evaluate (Marker.ofBody offset body).expression context = .ok v := hvalue
        rw [renderPiecesStrict_marker hvalue, firstRefusal_cons_ok _ hfirst, ih, map_firstRefusal]

theorem renderStrict_eq_map (template : String) (context : Value) :
    renderStrict template context
      = (renderPiecesStrict context (pieces template.toList)).map String.ofList := by
  rw [renderStrict]
  cases renderPiecesStrict context (pieces template.toList) <;> rfl

/-- A strict rendering gives the first refusal, or else the lenient output. -/
theorem renderStrict_eq (template : String) (context : Value) :
    renderStrict template context
      = firstRefusal context (markers template) (render template context) := by
  rw [renderStrict_eq_map, renderPiecesStrict_eq _ 0, map_firstRefusal, markers, render]

/-- The marker loop gives the same. -/
theorem spliceStrict_markers (template : String) (context : Value) :
    spliceStrict template context 0 "" (markers template) = renderStrict template context := by
  have hrender : splice template (replacement context) 0 (markers template)
      = render template context := splice_markers (fun _ => rfl) (replacement_ofBody context)
  rw [spliceStrict_eq, hrender, String.empty_append, renderStrict_eq]

/-- A strict rendering succeeds iff every marker has a value, and then gives the lenient output;
otherwise it fails with the first marker that has none, whatever stands behind that. It is what the
marker loop gives, and a strict command that succeeds prints what a lenient one prints. -/
theorem renderStrict_exact (template : String) (context : Value) :
    (∀ output, renderStrict template context = .ok output ↔
      (∀ m ∈ markers template, ∃ v, evaluate m.expression context = .ok v) ∧
        output = render template context) ∧
    (∀ e, renderStrict template context = .error e ↔ ∃ before m after error,
      markers template = before ++ m :: after ∧
        (∀ m' ∈ before, ∃ v, evaluate m'.expression context = .ok v) ∧
        evaluate m.expression context = .error error ∧ e = ⟨m.expression, error⟩) ∧
    renderStrict template context = spliceStrict template context 0 "" (markers template) ∧
    ∀ input output, renderTemplate template input true = .ok output →
      renderTemplate template input false = .ok output := by
  refine ⟨?_, ?_, (spliceStrict_markers template context).symm, ?_⟩
  · intro output
    rw [renderStrict_eq, firstRefusal_eq_ok_iff]
  · intro e
    rw [renderStrict_eq, firstRefusal_eq_error_iff]
  · intro input output h
    rw [renderTemplate] at h ⊢
    cases hcontext : readContext input with
    | error e => rw [hcontext] at h; cases h
    | ok context' =>
      rw [hcontext] at h
      dsimp only at h ⊢
      rw [if_pos rfl, renderStrict_eq] at h
      cases hstrict : firstRefusal context' (markers template) (render template context') with
      | error e => rw [hstrict] at h; cases h
      | ok output' =>
        rw [hstrict] at h
        cases h
        rw [if_neg Bool.false_ne_true, (firstRefusal_eq_ok_iff.1 hstrict).2]

end TextTemplate
