import TextTemplate.Proofs.Expr.Eval
import TextTemplate.Proofs.Parser.Printed
import TextTemplate.Proofs.Template.Rescan
import TextTemplate.Proofs.Template.Strict
/-!
# The two commands agree

An expression can be checked, or it can be put between braces and rendered. Both take the blanks off
its ends, and both evaluate what is left; they differ in when they read the data context.

- `singleMarker`: the template that is one marker.
- `pieces_singleMarker`: a body without a newline and a closing brace is all that its marker holds.
- `checkExpression_eq`, `renderTemplate_singleMarker`: both commands, in terms of `evaluate`.
- `checkExpression_grammar`, `checkExpression_eq_parse_iff`: the verdict on the grammar.
- `check_agrees_render`: what each command says about the other.
-/

namespace TextTemplate

/-- The template that is one marker around an expression. -/
def singleMarker (e : String) : String := "\x7b\x7b" ++ e ++ "\x7d\x7d"

/-! ## One marker -/

/-- A body without a newline and a closing brace ends at the first pair of closing braces. -/
theorem splitBody_of_not_mem {cs : List Char} (hne : cs ≠ []) (hline : '\n' ∉ cs)
    (hbrace : '\x7d' ∉ cs) : splitBody (cs ++ ['\x7d', '\x7d']) = some (cs, []) := by
  induction cs with
  | nil => exact absurd rfl hne
  | cons c more ih =>
    rw [List.mem_cons, not_or] at hline hbrace
    rw [List.cons_append, splitBody, if_neg (Ne.symm hline.1)]
    cases more with
    | nil => rfl
    | cons d ds =>
      have hafter : afterClosing? (d :: ds ++ ['\x7d', '\x7d']) = none := by
        rw [Option.eq_none_iff_forall_not_mem]
        intro rest hrest
        have heq := eq_of_afterClosing? hrest
        rw [List.cons_append, List.cons.injEq] at heq
        exact hbrace.2 (heq.1 ▸ List.mem_cons_self)
      rw [hafter]
      dsimp only
      rw [ih (List.cons_ne_nil d ds) hline.2 hbrace.2]
      rfl

variable {e : String} {context : Value} {input : Option String}

theorem pieces_singleMarker (hne : e ≠ "") (hline : '\n' ∉ e.toList) (hbrace : '\x7d' ∉ e.toList) :
    pieces (singleMarker e).toList = [.marker e.toList] := by
  have htext : (singleMarker e).toList = '\x7b' :: '\x7b' :: (e.toList ++ ['\x7d', '\x7d']) := by
    rw [singleMarker, String.toList_append, String.toList_append]
    rfl
  have hhead : markerAtHead? (singleMarker e).toList = some (e.toList, []) := by
    rw [htext]
    exact splitBody_of_not_mem (fun hnil => hne (String.toList_eq_nil_iff.1 hnil)) hline hbrace
  rw [pieces_of_some hhead, pieces]

/-- Rendering one marker strictly evaluates its expression. -/
theorem renderStrict_singleMarker (hne : e ≠ "") (hline : '\n' ∉ e.toList)
    (hbrace : '\x7d' ∉ e.toList) :
    renderStrict (singleMarker e) context =
      ((evaluate (trimText e) context).map Value.display).mapError (TemplateError.mk (trimText e)) := by
  rw [renderStrict, pieces_singleMarker hne hline hbrace]
  cases hvalue : evaluate (trimText e) context with
  | error x => rw [renderPiecesStrict_refused hvalue]; rfl
  | ok v =>
    rw [renderPiecesStrict_marker hvalue]
    show Except.ok (String.ofList (v.display.toList ++ [])) = .ok v.display
    rw [List.append_nil, String.ofList_toList]

/-! ## Both commands -/

theorem renderTemplate_strict (template : String) (h : readContext input = .ok context) :
    renderTemplate template input true = (renderStrict template context).mapError .template := by
  rw [renderTemplate, h]
  dsimp only
  rw [if_pos rfl]
  cases renderStrict template context <;> rfl

/-- A full check evaluates the expression. -/
theorem checkExpression_eq (e : String) (h : readContext input = .ok context) :
    checkExpression e input false =
      ((evaluate (trimText e) context).map .value).mapError .expression := by
  rw [checkExpression, evaluate, h]
  cases Expr.parse (trimText e) with
  | error x => rfl
  | ok expr =>
    dsimp only
    rw [if_neg Bool.false_ne_true]
    cases expr.eval context <;> rfl

/-- A check of the grammar is about the grammar alone. -/
theorem checkExpression_grammar (e : String) (input : Option String) :
    checkExpression e input true =
      ((Expr.parse (trimText e)).map fun _ => .wellFormed).mapError (.expression ∘ .parse) := by
  rw [checkExpression]
  cases Expr.parse (trimText e) <;> rfl

theorem readContext_eq_error {x : CommandError} (h : readContext input = .error x) :
    x = .invalidJson := by
  unfold readContext at h
  split at h
  · cases h
  · split at h <;> cases h
    rfl

/-- The grammar comes first: a full check fails with an error of the grammar iff there is one, whatever
the input is. -/
theorem checkExpression_eq_parse_iff {x : ParseError} :
    checkExpression e input false = .error (.expression (.parse x)) ↔
      Expr.parse (trimText e) = .error x := by
  rw [checkExpression]
  cases Expr.parse (trimText e) with
  | error y => simp
  | ok expr =>
    refine ⟨fun h => ?_, nofun⟩
    dsimp only at h
    rw [if_neg Bool.false_ne_true] at h
    split at h
    · next y hread =>
      cases readContext_eq_error hread
      cases h
    · split at h <;> cases h

theorem exists_readContext (h : ∀ text ∈ input, (Value.ofJson? text).isSome) :
    ∃ context, readContext input = .ok context := by
  cases input with
  | none => exact ⟨.emptyObject, rfl⟩
  | some text =>
    obtain ⟨v, hv⟩ := Option.isSome_iff_exists.1 (h text rfl)
    exact ⟨v, by rw [readContext, hv]⟩

/-- For an expression without a newline and a closing brace, rendering it strictly as the only marker
of a template gives the text of its value, and fails with the error that a check fails with, as long
as there is a data context. A check of the grammar alone tells the expressions for which no full
check fails for the grammar, and needs no data context. -/
theorem check_agrees_render {e : String} (hne : e ≠ "") (hline : '\n' ∉ e.toList)
    (hbrace : '\x7d' ∉ e.toList) :
    (∀ input : Option String, (∀ text ∈ input, (Value.ofJson? text).isSome) →
      (∀ output, renderTemplate (singleMarker e) input true = .ok output ↔
        ∃ v, checkExpression e input false = .ok (.value v) ∧ v.display = output) ∧
      ∀ x, checkExpression e input false = .error (.expression x) ↔
        renderTemplate (singleMarker e) input true = .error (.template ⟨trimText e, x⟩)) ∧
    (checkExpression e none true = .ok .wellFormed ↔
      ∀ input x, checkExpression e input false ≠ .error (.expression (.parse x))) ∧
    ∀ input, checkExpression e input true = checkExpression e none true := by
  refine ⟨?_, ?_, fun input => ?_⟩
  · intro input hinput
    obtain ⟨context, hcontext⟩ := exists_readContext hinput
    rw [renderTemplate_strict _ hcontext, renderStrict_singleMarker hne hline hbrace,
      checkExpression_eq e hcontext]
    cases evaluate (trimText e) context with
    | error x => simp [Except.map, Except.mapError]
    | ok v => simp [Except.map, Except.mapError]
  · simp only [ne_eq, checkExpression_eq_parse_iff]
    rw [checkExpression_grammar]
    cases Expr.parse (trimText e) with
    | error x => simp [Except.map, Except.mapError]
    | ok expr => simp [Except.map, Except.mapError]
  · rw [checkExpression_grammar, checkExpression_grammar]

/-- A third opening brace belongs to the expression, and the lexer refuses it in both commands. -/
theorem check_agrees_render_third_brace :
    checkExpression "\x7ba " none false =
        .error (.expression (.parse (.lex (.unexpectedChar '\x7b' 0)))) ∧
      renderTemplate "\x7b\x7b\x7ba \x7d\x7d" none true =
        .error (.template ⟨"\x7ba", .parse (.lex (.unexpectedChar '\x7b' 0))⟩) := by
  have hcheck : checkExpression "\x7ba " none false =
      .error (.expression (.parse (.lex (.unexpectedChar '\x7b' 0)))) := rfl
  obtain ⟨hinput, -⟩ := check_agrees_render (e := "\x7ba ") (by decide) (by decide) (by decide)
  exact ⟨hcheck, ((hinput none nofun).2 _).1 hcheck⟩

/-- Rendering does not tell the value itself: the number zero and the text "0" look alike. -/
theorem render_eq_display_not_value :
    "0" ≠ "" ∧ '\n' ∉ "0".toList ∧ '\x7d' ∉ "0".toList ∧
      ¬ (∀ v, checkExpression "0" none false = .ok (.value v) ↔
        renderTemplate "\x7b\x7b0\x7d\x7d" none true = .ok v.display) := by
  refine ⟨by decide, by decide, by decide, ?_⟩
  intro h
  have hparse : Expr.parse "0" = .ok (.number .zero) := by
    have hprints := Prints.number (n := .zero) ⟨.zero, rfl⟩
    have hchars : Binary64.zero.expansion = ['0'] := by decide +kernel
    rw [hchars] at hprints
    exact hprints.parse_cases.2 (Nat.zero_le _)
  have hread : readContext none = .ok .emptyObject := rfl
  have htrim : trimText "0" = "0" := rfl
  have hcheck : checkExpression "0" none false = .ok (.value (.number .zero)) := by
    rw [checkExpression_eq "0" hread, htrim, evaluate_eq, hparse]
    rfl
  have hrender := (h (.number .zero)).1 hcheck
  have hother := (h (.string "0")).2 hrender
  rw [hcheck] at hother
  cases hother

end TextTemplate
