import TextTemplate.Proofs.Expr.Reorder
import TextTemplate.Template.Render
/-!
# Rendering does not see the order of entries

Contexts that hold the same data give every template the same text, the same events and the same
error.

- `renderPiece_same`, `renderEvent?_same`, `renderPiecesStrict_same`: one piece, and pieces in a row.
- `render_same`, `renderStrict_same`, `renderLog_same`: whole templates.
- `reorder_unobservable`: all that can be asked of two such contexts.
-/

namespace TextTemplate

open Value

variable {context context' : Value}

/-- The expression of a marker has the same data as its value, or the same error. -/
theorem evaluateMarker_same (h : Same context context') (body : List Char) :
    Agree Same (evaluateMarker context body) (evaluateMarker context' body) :=
  evaluate_same h (markerExpression body)

/-- What takes the place of a marker is the text of its value, or the marker itself. -/
theorem renderPiece_same (h : Same context context') (piece : Piece) :
    renderPiece context piece = renderPiece context' piece := by
  cases piece with
  | literal c => rfl
  | marker body =>
    rw [renderPiece, renderPiece]
    obtain ⟨e, he, he'⟩ | ⟨v, w, hv, hw, hsame⟩ := evaluateMarker_same h body
    · rw [he, he']
    · rw [hv, hw]
      dsimp only
      rw [hsame.display_eq]

theorem renderEvent?_same (h : Same context context') (piece : Piece) :
    renderEvent? context piece = renderEvent? context' piece := by
  cases piece with
  | literal c => rfl
  | marker body =>
    rw [renderEvent?, renderEvent?]
    obtain ⟨e, he, he'⟩ | ⟨v, w, hv, hw, hsame⟩ := evaluateMarker_same h body
    · rw [he, he']
    · rw [hv, hw]
      dsimp only
      rw [hsame.display_eq]

/-- The first marker without a value is the same one, and has the same error. -/
theorem renderPiecesStrict_same (h : Same context context') (ps : List Piece) :
    renderPiecesStrict context ps = renderPiecesStrict context' ps := by
  induction ps with
  | nil => rfl
  | cons piece more ih =>
    cases piece with
    | literal c => rw [renderPiecesStrict, renderPiecesStrict, ih]
    | marker body =>
      rw [renderPiecesStrict, renderPiecesStrict, ih]
      obtain ⟨e, he, he'⟩ | ⟨v, w, hv, hw, hsame⟩ := evaluateMarker_same h body
      · rw [he, he']
      · rw [hv, hw]
        dsimp only
        rw [hsame.display_eq]

/-- The text of a template is the same in both contexts. -/
theorem render_same (h : Same context context') (template : String) :
    render template context = render template context' := by
  rw [render, render, funext (renderPiece_same h)]

/-- So is the text or the error of strict rendering. -/
theorem renderStrict_same (h : Same context context') (template : String) :
    renderStrict template context = renderStrict template context' := by
  rw [renderStrict, renderStrict, renderPiecesStrict_same h]

/-- So are the events. -/
theorem renderLog_same (h : Same context context') (template : String) :
    renderLog template context = renderLog template context' := by
  rw [renderLog, renderLog, funext (renderEvent?_same h)]

/-- The order in which the objects of a context store their entries cannot be observed. Every text
has the same error in both contexts, or values that again differ in the order of entries only and
have the same texts; every template gives the same text, the same events, and the same text or error
when it is rendered strictly. -/
theorem reorder_unobservable (context context' : Value) (hkeys : context.KeysUnique)
    (hreorders : context.Reorders context') :
    (∀ text,
      (∃ e, evaluate text context = .error e ∧ evaluate text context' = .error e) ∨
      ∃ v v', evaluate text context = .ok v ∧ evaluate text context' = .ok v' ∧
        v.Reorders v' ∧ v.display = v'.display ∧ v.compact = v'.compact ∧
        v.indented = v'.indented) ∧
    ∀ template,
      render template context = render template context' ∧
      renderStrict template context = renderStrict template context' ∧
      renderLog template context = renderLog template context' := by
  have h : Same context context' := ⟨hkeys, hreorders⟩
  constructor
  · intro text
    obtain herror | ⟨v, v', hv, hv', hsame⟩ := evaluate_same h text
    · exact .inl herror
    · exact .inr ⟨v, v', hv, hv', hsame.reorders, hsame.display_eq, hsame.compact_eq,
        hsame.indented_eq⟩
  · intro template
    exact ⟨render_same h template, renderStrict_same h template, renderLog_same h template⟩

/-- A context with two entries, one of which is an object with two entries itself. -/
def twoEntries : Value :=
  .object [("a", .object [("x", .boolean true), ("y", .null)]), ("b", .string "c")]

/-- The same context with both objects in the other order. -/
def twoEntriesMoved : Value :=
  .object [("b", .string "c"), ("a", .object [("y", .null), ("x", .boolean true)])]

/-- A value that is printed, and a message that lists keys. -/
theorem reorder_unobservable_two_entries :
    twoEntries.KeysUnique ∧ twoEntries.Reorders twoEntriesMoved ∧ twoEntries ≠ twoEntriesMoved ∧
      render "\x7b\x7ba\x7d\x7d" twoEntries = render "\x7b\x7ba\x7d\x7d" twoEntriesMoved ∧
      renderStrict "\x7b\x7ba.z\x7d\x7d" twoEntries =
        renderStrict "\x7b\x7ba.z\x7d\x7d" twoEntriesMoved := by
  have hkeys : twoEntries.KeysUnique :=
    ⟨by decide, ⟨by decide, trivial, trivial, trivial⟩, trivial, trivial⟩
  have hreorders : twoEntries.Reorders twoEntriesMoved :=
    ⟨_, .swap _ _ _, rfl, ⟨_, .swap _ _ _, EntriesReorder.refl _⟩, rfl, rfl, trivial⟩
  have hrender := (reorder_unobservable twoEntries twoEntriesMoved hkeys hreorders).2
  exact ⟨hkeys, hreorders, by simp [twoEntries, twoEntriesMoved], (hrender _).1, (hrender _).2.1⟩

end TextTemplate
