import TextTemplate.Proofs.Expr.Asked
import TextTemplate.Proofs.Template.Rescan
/-!
# What a template sees of its data context

A template sees no more of its data context than the variables of its markers.

- `evaluate_eq_of_agree`, `evaluateMarker_eq_of_agree`, `renderPiece_eq_of_agree`,
  `renderPiecesStrict_eq_of_agree`: two data contexts with the same variables, for a text, a marker,
  a piece and pieces in a row.
- `context_noninterference`: expressions and templates in two data contexts.
-/

namespace TextTemplate

variable {context context' : Value}

/-- Two data contexts agree on the variables of a text, if it is an expression. -/
def AgreeOn (context context' : Value) (text : String) : Prop :=
  ∀ e, Expr.parse text = .ok e → ∀ name ∈ e.varNames, context.get? name = context'.get? name

/-- A text has the same value or error. One that is no expression needs no data context. -/
theorem evaluate_eq_of_agree {text : String} (h : AgreeOn context context' text) :
    evaluate text context = evaluate text context' := by
  rw [evaluate, evaluate]
  cases hparse : Expr.parse text with
  | error x => rfl
  | ok e =>
    dsimp only
    rw [Expr.eval_eq_of_agree (h e hparse)]

section Pieces

variable {ps : List Piece}
  (h : ∀ body, .marker body ∈ ps → AgreeOn context context' (markerExpression body))

include h

theorem evaluateMarker_eq_of_agree {body : List Char} (hbody : .marker body ∈ ps) :
    evaluateMarker context body = evaluateMarker context' body :=
  evaluate_eq_of_agree (h body hbody)

/-- A marker is replaced in the same way. -/
theorem renderPiece_eq_of_agree {p : Piece} (hp : p ∈ ps) :
    renderPiece context p = renderPiece context' p := by
  cases p with
  | literal c => rfl
  | marker body => rw [renderPiece, renderPiece, evaluateMarker_eq_of_agree h hp]

theorem renderEvent?_eq_of_agree {p : Piece} (hp : p ∈ ps) :
    renderEvent? context p = renderEvent? context' p := by
  cases p with
  | literal c => rfl
  | marker body => rw [renderEvent?, renderEvent?, evaluateMarker_eq_of_agree h hp]

/-- The first marker without a value is the same one. -/
theorem renderPiecesStrict_eq_of_agree :
    renderPiecesStrict context ps = renderPiecesStrict context' ps := by
  induction ps with
  | nil => rfl
  | cons p more ih =>
    have hmore := ih fun body hbody => h body (List.mem_cons_of_mem p hbody)
    cases p with
    | literal c => rw [renderPiecesStrict, renderPiecesStrict, hmore]
    | marker body =>
      rw [renderPiecesStrict, renderPiecesStrict, hmore,
        evaluateMarker_eq_of_agree h List.mem_cons_self]

end Pieces

/-- Data contexts that agree on the variables of an expression give it the same value or the same
error. Nothing else is asked of a data context: the keys asked for are variables, from left to right
up to the first error, and function and property names are not among them. So further keys do not
change a value; and data contexts that agree on the variables of all markers of a template that are
expressions give it the same text, the same events, and the same text or error when it is rendered
strictly. -/
theorem context_noninterference (context context' : Value) :
    (∀ e : Expr, (∀ name ∈ e.varNames, context.get? name = context'.get? name) →
      e.eval context = e.eval context') ∧
    (∀ e : Expr, (e.evalAsking context.get?).result = e.eval context ∧
      (e.evalAsking context.get?).keys <+: e.varNames) ∧
    ((∀ key v, context.get? key = some v → context'.get? key = some v) →
      ∀ (e : Expr) (v : Value), e.eval context = .ok v → e.eval context' = .ok v) ∧
    ∀ template, (∀ m ∈ markers template, AgreeOn context context' m.expression) →
      render template context = render template context' ∧
      renderLog template context = renderLog template context' ∧
      renderStrict template context = renderStrict template context' := by
  refine ⟨fun e => Expr.eval_eq_of_agree,
    fun e => ⟨e.result_evalAsking context, (e.follows_varNames context.get?).starts⟩,
    fun h e v => Expr.eval_of_extends h, ?_⟩
  intro template h
  have hpieces : ∀ body, .marker body ∈ pieces template.toList →
      AgreeOn context context' (markerExpression body) := by
    intro body hbody
    obtain ⟨start, hmem⟩ := mem_markersFrom hbody 0
    have hagree := h (.ofBody start body) hmem
    rwa [Marker.expression_ofBody] at hagree
  refine ⟨?_, ?_, ?_⟩
  · rw [render, render, List.flatMap_congr fun _ => renderPiece_eq_of_agree hpieces]
  · rw [renderLog, renderLog, List.filterMap_congr fun _ => renderEvent?_eq_of_agree hpieces]
  · rw [renderStrict, renderStrict, renderPiecesStrict_eq_of_agree hpieces]

/-- A data context with further keys that are named like a function and a property: an expression
with both of them, and a template in which a marker is no expression. -/
theorem context_noninterference_further_keys :
    let context := Value.object [("a", .string "xy")]
    let context' := Value.object [("length", .number .zero), ("a", .string "xy"), ("abs", .null)]
    let e := Expr.call "abs" [.property (.var "a") "length"]
    let template := "\x7b\x7b a.length \x7d\x7d\x7b\x7b length + \x7d\x7d"
    (∀ name ∈ e.varNames, context.get? name = context'.get? name) ∧
      e.eval context = e.eval context' ∧
      (∀ key v, context.get? key = some v → context'.get? key = some v) ∧
      e.eval context = .ok (.number (Binary64.ofNat 2).abs) ∧
      e.eval context' = .ok (.number (Binary64.ofNat 2).abs) ∧
      (∀ m ∈ markers template, AgreeOn context context' m.expression) ∧
      render template context = render template context' := by
  intro context context' e template
  obtain ⟨hexpr, -, hextends, htemplate⟩ := context_noninterference context context'
  have hnames : ∀ name ∈ e.varNames, context.get? name = context'.get? name := by
    intro name hname
    obtain rfl := List.mem_singleton.1 hname
    rfl
  have hkeys : ∀ key v, context.get? key = some v → context'.get? key = some v := by
    intro key v hv
    obtain rfl : key = "a" := by
      by_contra hne
      have hnone : context.get? key = none := by
        show List.lookup key [("a", Value.string "xy")] = none
        rw [List.lookup_cons, beq_false_of_ne hne]
        rfl
      cases hnone.symm.trans hv
    exact hv
  have hvalue : e.eval context = .ok (.number (Binary64.ofNat 2).abs) := rfl
  have hmarkers : ∀ m ∈ markers template, AgreeOn context context' m.expression := by
    have hlist : (markers template).map Marker.expression = ["a.length", "length +"] := by
      decide +kernel
    intro m hm e' he'
    have hm' := List.mem_map_of_mem (f := Marker.expression) hm
    rw [hlist] at hm'
    have hfirst : Expr.parse "a.length" = .ok (.property (.var "a") "length") := by cbv
    have hsecond : (Expr.parse "length +").isOk = false := by cbv
    rcases List.mem_pair.1 hm' with hm' | hm'
    · rw [hm'] at he'
      cases hfirst.symm.trans he'
      exact hnames
    · rw [hm'] at he'
      rw [he'] at hsecond
      cases hsecond
  exact ⟨hnames, hexpr e hnames, hkeys, hvalue, hextends hkeys e _ hvalue, hmarkers,
    (htemplate template hmarkers).1⟩

end TextTemplate
