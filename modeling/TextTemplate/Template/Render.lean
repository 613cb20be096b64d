import TextTemplate.Evaluation
import TextTemplate.Template.Marker
/-!
# Rendering templates

Rendering puts the value of each marker in its place. Each marker is evaluated on its own in the
same data context.

* `render`: a marker without a value stays as it is.
* `renderLog`: what happened to each marker.
* `renderStrict`: the first marker without a value is an error.
-/
namespace TextTemplate

/-- The value of the expression of a marker. -/
def evaluateMarker (context : Value) (body : List Char) : Except ExprError Value :=
  evaluate (markerExpression body) context

/-- What stands for a piece in the output. -/
def renderPiece (context : Value) : Piece → List Char
  | .literal c => [c]
  | .marker body =>
    match evaluateMarker context body with
    | .ok v => v.display.toList
    | .error _ => (Piece.marker body).source

/-- The text of a template with the values of its markers; a marker without a value stays. -/
def render (template : String) (context : Value) : String :=
  String.ofList ((pieces template.toList).flatMap (renderPiece context))

/-! ## Events -/

/-- How much an event matters. -/
inductive Severity where
  | debug
  | warn
deriving DecidableEq, Repr

/-- The name of a severity. -/
def Severity.name : Severity → String
  | .debug => "DEBUG"
  | .warn => "WARN"

/-- What happened to a marker. -/
inductive RenderEvent where
  /-- The value of the expression took the place of the marker. -/
  | substituted (expression value : String)
  /-- The marker stayed, because its expression has no value. -/
  | kept (expression : String) (error : ExprError)
deriving DecidableEq

namespace RenderEvent

/-- How much an event matters. -/
def severity : RenderEvent → Severity
  | .substituted .. => .debug
  | .kept .. => .warn

/-- The message of an event. -/
def message : RenderEvent → String
  | .substituted .. => "substituted marker"
  | .kept .. => "failed to evaluate marker, keeping original text"

end RenderEvent

/-- What happens to a piece, if it is a marker. -/
def renderEvent? (context : Value) : Piece → Option RenderEvent
  | .literal _ => none
  | .marker body =>
    match evaluateMarker context body with
    | .ok v => some (.substituted (markerExpression body) v.display)
    | .error e => some (.kept (markerExpression body) e)

/-- What happens to the markers of a template, from left to right. -/
def renderLog (template : String) (context : Value) : List RenderEvent :=
  (pieces template.toList).filterMap (renderEvent? context)

/-! ## Strict rendering -/

/-- A marker without a value, and why it has none. -/
structure TemplateError where
  expression : String
  error : ExprError
deriving DecidableEq

namespace TemplateError

/-- The message of an error in a template. -/
def message (e : TemplateError) : String :=
  e.error.message ++ " in expression '" ++ e.expression ++ "'"

/-- The messages of the errors behind an error, the outermost first. -/
def causes (e : TemplateError) : List String := e.error.message :: e.error.causes

end TemplateError

/-- The output of pieces, or the error of the first marker that has no value. -/
def renderPiecesStrict (context : Value) : List Piece → Except TemplateError (List Char)
  | [] => .ok []
  | .literal c :: more =>
    match renderPiecesStrict context more with
    | .ok output => .ok (c :: output)
    | .error e => .error e
  | .marker body :: more =>
    match evaluateMarker context body with
    | .error e => .error ⟨markerExpression body, e⟩
    | .ok v =>
      match renderPiecesStrict context more with
      | .ok output => .ok (v.display.toList ++ output)
      | .error e => .error e

/-- The text of a template with the values of all its markers. -/
def renderStrict (template : String) (context : Value) : Except TemplateError String :=
  match renderPiecesStrict context (pieces template.toList) with
  | .ok output => .ok (String.ofList output)
  | .error e => .error e

end TextTemplate
