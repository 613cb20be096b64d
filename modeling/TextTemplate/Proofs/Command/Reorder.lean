import TextTemplate.Command.Report
import TextTemplate.Proofs.Template.Reorder
import TextTemplate.Proofs.Value.FromText
/-!
# The program does not see the order of entries

The data context of a command is given as JSON text. Whatever order the objects of this text list
their entries in, a command has the same exit code, output and events. No assumption on the keys is
needed: a key that is listed twice is stored once when the text is read.

- `SameData`: two texts that hold the same data.
- `Verdict.Same`: two verdicts of a check that are the same up to the order of entries.
- `renderTemplate_sameData`, `checkExpression_sameData`: the two commands.
- `report_sameData`: what the program writes.
-/

namespace TextTemplate

open Value

/-- Two JSON texts hold the same data: what they stand for differs only in the order of entries. -/
def SameData (text text' : String) : Prop :=
  ∃ v v', ofJson? text = some v ∧ ofJson? text' = some v' ∧ v.Reorders v'

/-- Two verdicts are the same up to the order of entries. -/
inductive Verdict.Same : Verdict → Verdict → Prop where
  | wellFormed : Verdict.Same .wellFormed .wellFormed
  | value {v v' : Value} (h : Value.Same v v') : Verdict.Same (.value v) (.value v')

variable {text text' : String}

/-- Texts with the same data give data contexts with the same data, which store no key twice. -/
theorem SameData.exists_contexts (h : SameData text text') :
    ∃ context context', readContext (some text) = .ok context ∧
      readContext (some text') = .ok context' ∧ Value.Same context context' := by
  obtain ⟨v, v', hv, hv', hreorders⟩ := h
  refine ⟨v, v', ?_, ?_, (fromText_ofJson? hv).keysUnique, hreorders⟩
  · rw [readContext, hv]
  · rw [readContext, hv']

/-- Rendering has the same text or the same error. -/
theorem renderTemplate_sameData (h : SameData text text') (template : String) (strict : Bool) :
    renderTemplate template (some text) strict = renderTemplate template (some text') strict := by
  obtain ⟨context, context', hread, hread', hsame⟩ := h.exists_contexts
  rw [renderTemplate, renderTemplate, hread, hread']
  dsimp only
  rw [render_same hsame, renderStrict_same hsame]

/-- A check has the same verdict or the same error. -/
theorem checkExpression_sameData (h : SameData text text') (expression : String)
    (syntaxOnly : Bool) :
    Agree Verdict.Same (checkExpression expression (some text) syntaxOnly)
      (checkExpression expression (some text') syntaxOnly) := by
  obtain ⟨context, context', hread, hread', hsame⟩ := h.exists_contexts
  rw [checkExpression, checkExpression]
  cases Expr.parse (trimText expression) with
  | error e => exact .error _
  | ok expr =>
    cases syntaxOnly with
    | true => exact .ok .wellFormed
    | false =>
      dsimp only
      rw [if_neg Bool.false_ne_true, if_neg Bool.false_ne_true, hread, hread']
      dsimp only
      obtain ⟨e, he, he'⟩ | ⟨v, v', hv, hv', hvalues⟩ := expr.eval_same hsame
      · rw [he, he']
        exact .error _
      · rw [hv, hv']
        exact .ok (.value hvalues)

/-- The program writes the same for data contexts with the same data, given as an option or on the
standard input. -/
theorem report_sameData {stdin stdin' : String} {input input' : Option String}
    (h : SameData (input.getD stdin) (input'.getD stdin')) :
    (∀ template strict,
      (Command.render template input strict).report stdin =
        (Command.render template input' strict).report stdin' ∧
      (Command.render template input strict).log stdin =
        (Command.render template input' strict).log stdin') ∧
    ∀ expression pretty syntaxOnly,
      (Command.eval expression input pretty syntaxOnly).report stdin =
        (Command.eval expression input' pretty syntaxOnly).report stdin' := by
  constructor
  · intro template strict
    constructor
    · rw [Command.report, Command.report, renderTemplate_sameData h]
    · obtain ⟨context, context', hread, hread', hsame⟩ := h.exists_contexts
      cases strict with
      | true => rfl
      | false =>
        rw [Command.log, Command.log, hread, hread']
        exact renderLog_same hsame template
  · intro expression pretty syntaxOnly
    rw [Command.report, Command.report]
    obtain ⟨e, he, he'⟩ | ⟨verdict, verdict', hok, hok', hsame⟩ :=
      checkExpression_sameData h expression syntaxOnly
    · rw [he, he']
    · rw [hok, hok']
      cases hsame with
      | wellFormed => rfl
      | value hvalues =>
        dsimp only
        rw [hvalues.indented_eq, hvalues.compact_eq]

end TextTemplate
