import TextTemplate.Proofs.Decimal.TextLength
import TextTemplate.Proofs.Expr.FirstError
/-!
# How long the descriptions in errors are

An error about a property or a position describes a value by its summary. A summary is short
whatever the value holds, but for one thing: the keys that it lists are written in full.

- `Value.listedKeys`: the keys that the summary of an object lists.
- `Value.length_summary_le`, `Value.length_le_summary`: a summary is as long as these keys make it.
- `EvalError.description?`, `Expr.exists_of_description?`: what describes a value in an error is the
  summary of the value of a subexpression.
- `summary_bounded_iff`: when summaries are bounded; `summary_unbounded`: they are not in general.
-/

namespace TextTemplate

/-! ## Texts with separators -/

theorem length_intercalate_le (sep : String) {texts : List String} {k : Nat}
    (h : ∀ s ∈ texts, s.length ≤ k) :
    (sep.intercalate texts).length ≤ texts.length * (k + sep.length) := by
  induction texts with
  | nil => rw [String.intercalate_nil]; exact Nat.zero_le _
  | cons s more ih =>
    obtain ⟨hs, hmore⟩ := List.forall_mem_cons.1 h
    have hlength := ih hmore
    rw [List.length_cons, Nat.add_one_mul more.length]
    cases more with
    | nil =>
      rw [String.intercalate_singleton]
      omega
    | cons t more =>
      rw [String.intercalate_cons_cons, String.length_append, String.length_append]
      omega

theorem length_le_intercalate (sep : String) {s : String} {texts : List String} (h : s ∈ texts) :
    s.length ≤ (sep.intercalate texts).length := by
  induction texts with
  | nil => cases h
  | cons t more ih =>
    cases more with
    | nil =>
      rw [List.mem_singleton.1 h, String.intercalate_singleton]
    | cons u more =>
      rw [String.intercalate_cons_cons, String.length_append, String.length_append]
      rcases List.mem_cons.1 h with rfl | hmore
      · omega
      · have hlength := ih hmore
        omega

/-! ## Summaries -/

namespace Value

/-- The keys that the summary of an object lists. -/
def listedKeys : Value → List String
  | .object entries => ((sortByKey entries).map (·.1)).take summaryKeys
  | _ => []

/-- How many items or characters a value has, not counting those of its parts. -/
def count : Value → Nat
  | .array items => items.length
  | .string s => s.length
  | _ => 0

variable {v : Value}

/-- A count that fits into 64 bits has at most 20 digits. -/
theorem length_toString_le {n : Nat} (h : n < 2 ^ 64) : (toString n).length ≤ 20 := by
  refine (Nat.length_repr_le_iff (by decide)).2 (Nat.lt_trans h ?_)
  decide

theorem length_display_le (h : v.kind = .null ∨ v.kind = .boolean ∨ v.kind = .number) :
    v.display.length ≤ 27 := by
  cases v with
  | null => decide
  | boolean b => cases b <;> decide
  | number n =>
    rw [display, Binary64.text, String.length_ofList]
    exact n.length_textChars_le
  | string | array | object => simp [kind] at h

/-- Dots stand for the keys that are not listed. -/
theorem length_summary_object (entries : List (String × Value)) :
    (object entries).summary.length = (", ".intercalate (object entries).listedKeys).length
      + (if summaryKeys < entries.length then 5 else 0) + 9 := by
  have hkeys : ((sortByKey entries).map (·.1)).length = entries.length := by
    rw [List.length_map, sortByKey, List.length_mergeSort]
  have hmore : (if summaryKeys < entries.length then ", ..." else "").length
      = if summaryKeys < entries.length then 5 else 0 := by
    split <;> rfl
  have hopen : "object \x7b".length = 8 := rfl
  have hclose : "\x7d".length = 1 := rfl
  rw [summary, listedKeys, hkeys, String.length_append, String.length_append, String.length_append,
    hmore]
  omega

/-- A summary is short, but for the keys that it lists. -/
theorem length_summary_le {k : Nat} (hcount : v.count < 2 ^ 64)
    (hkeys : ∀ key ∈ v.listedKeys, key.length ≤ k) : v.summary.length ≤ 8 * k + 36 := by
  cases v with
  | object entries =>
    have hlength := length_summary_object entries
    have hlisted : (object entries).listedKeys.length ≤ 8 := List.length_take_le ..
    have hkeysLength : _ ≤ _ * (k + 2) := length_intercalate_le ", " hkeys
    have hseparated := Nat.mul_le_mul_right (k + 2) hlisted
    split at hlength <;> omega
  | array items =>
    have hlength : (toString items.length).length ≤ 20 := length_toString_le hcount
    have htext : "array of ".length = 9 := rfl
    show ("array of " ++ toString items.length).length ≤ 8 * k + 36
    rw [String.length_append]
    omega
  | string s =>
    have hlength : (toString s.length).length ≤ 20 := length_toString_le hcount
    have htext : "string of ".length = 10 := rfl
    have hunit : " chars".length = 6 := rfl
    rw [summary]
    split
    · rw [String.length_append, String.length_append, htext, hunit]
      omega
    · next hshort =>
      rw [summaryChars] at hshort
      omega
  | null => exact Nat.le_trans (length_display_le (.inl rfl)) (by omega)
  | boolean b => exact Nat.le_trans (length_display_le (.inr (.inl rfl))) (by omega)
  | number n => exact Nat.le_trans (length_display_le (.inr (.inr rfl))) (by omega)

/-- A key that a summary lists is written in full. -/
theorem length_le_summary {key : String} (h : key ∈ v.listedKeys) :
    key.length + 9 ≤ v.summary.length := by
  cases v with
  | object entries =>
    have hlength := length_summary_object entries
    have hkey := length_le_intercalate ", " h
    omega
  | null | boolean | number | string | array => cases h

end Value

/-! ## Descriptions in errors -/

/-- What describes a value in an error: a receiver without the property, or a position that is no
whole number. -/
def EvalError.description? : EvalError → Option String
  | .missingProperty _ receiver => some receiver
  | .invalidIndex position => some position
  | _ => none

variable {x : EvalError} {text : String}

theorem Role.description?_of_number {role : Role} {v : Value} (h : role.number v = .error x) :
    x.description? = none := by
  cases v with
  | number n => cases h
  | null | boolean | string | array | object =>
    cases h
    rfl

theorem BinaryOp.description?_of_apply {op : BinaryOp} {v w : Value}
    (h : op.apply v w = .error x) : x.description? = none := by
  unfold apply at h
  split at h
  · cases h
  · split at h
    · next hleft =>
      cases h
      exact Role.description?_of_number hleft
    · split at h
      · next hright =>
        cases h
        exact Role.description?_of_number hright
      · cases h

theorem Sign.description?_of_apply {sign : Sign} {v : Value} (h : sign.apply v = .error x) :
    x.description? = none := by
  unfold apply at h
  split at h
  · cases h
  · next s =>
    unfold numberOfText at h
    split at h
    · cases h
    · next herror =>
      split at herror
      · cases herror
      · split at herror
        · cases herror
        · cases herror
          cases h
          rfl
  · cases h
  · cases h
    rfl

theorem callBuiltin_description? {name : String} {args : List Value}
    (h : callBuiltin name args = .error x) : x.description? = none := by
  cases callBuiltin_eq_error_iff.1 h <;> rfl

theorem Value.summary_of_item {collection position : Value}
    (h : collection.item position = .error x) (htext : x.description? = some text) :
    text = position.summary := by
  by_cases harray : collection.kind = .array
  · obtain ⟨items, rfl⟩ := eq_array_of_kind harray
    rw [item_array] at h
    split at h
    · cases h
      exact (Option.some.inj htext).symm
    · split at h
      · split at h
        · cases h
          cases htext
        · next n _ _ _ =>
          cases hitem : items[n.toNat]? with
          | some v =>
            rw [hitem] at h
            cases h
          | none =>
            rw [hitem] at h
            cases h
            cases htext
      · cases h
        exact (Option.some.inj htext).symm
  · rw [item_eq_error harray] at h
    cases h
    cases htext

theorem Value.summary_of_property {name : String} {v : Value}
    (h : v.property name = .error x) (htext : x.description? = some text) : text = v.summary := by
  rw [property_eq] at h
  cases hfound : v.property? name with
  | some w =>
    rw [hfound] at h
    cases h
  | none =>
    rw [hfound] at h
    cases h
    exact (Option.some.inj htext).symm

namespace Expr

variable {context : Value} {e : Expr}

/-- The children of a subexpression are subexpressions. -/
theorem mem_postorder_of_mem_children {e s c : Expr} (hs : s ∈ e.postorder) (hc : c ∈ s.children) :
    c ∈ e.postorder := by
  induction e using Expr.induction with
  | step e ih =>
    rw [postorder_eq, List.mem_append, parts] at hs ⊢
    refine .inl ?_
    rcases hs with hpart | hself
    · obtain ⟨child, hchild, hmem⟩ := List.mem_flatMap.1 hpart
      exact List.mem_flatMap.2 ⟨child, hchild, ih child hchild hmem⟩
    · rw [List.mem_singleton.1 hself] at hc
      refine List.mem_flatMap.2 ⟨c, hc, ?_⟩
      rw [postorder_eq]
      exact List.mem_append_right _ List.mem_cons_self

theorem Values.exists_of_mem {es : List Expr} {vs : List Value} {v : Value}
    (h : Values context es vs) (hv : v ∈ vs) : ∃ c ∈ es, c.eval context = .ok v := by
  induction h with
  | nil => cases hv
  | cons heval _ ih =>
    rcases List.mem_cons.1 hv with rfl | hmore
    · exact ⟨_, List.mem_cons_self, heval⟩
    · obtain ⟨c, hc, hvalue⟩ := ih hmore
      exact ⟨c, List.mem_cons_of_mem _ hc, hvalue⟩

/-- An operation that fails describes one of its operands, if it describes a value. -/
theorem Operation.exists_of_description? {vs : List Value}
    (h : e.Operation context vs (.error x)) (htext : x.description? = some text) :
    ∃ v ∈ vs, text = v.summary := by
  generalize hresult : Except.error x = result at h
  cases h with
  | number | found => cases hresult
  | missing =>
    cases hresult
    cases htext
  | binary op left right a b =>
    rw [BinaryOp.description?_of_apply hresult.symm] at htext
    cases htext
  | signed sign operand v =>
    rw [Sign.description?_of_apply hresult.symm] at htext
    cases htext
  | call name args vs =>
    rw [callBuiltin_description? hresult.symm] at htext
    cases htext
  | index collection position c p =>
    exact ⟨p, by simp, Value.summary_of_item hresult.symm htext⟩
  | property object name v =>
    exact ⟨v, by simp, Value.summary_of_property hresult.symm htext⟩

/-- Where an evaluation fails with the description of a value, this is the summary of the value of a
subexpression. -/
theorem exists_of_description? (h : e.eval context = .error x)
    (htext : x.description? = some text) :
    ∃ s ∈ e.postorder, ∃ v, s.eval context = .ok v ∧ text = v.summary := by
  obtain ⟨before, s, after, horder, ⟨vs, hvalues, hoperation⟩, -⟩ := eval_eq_error_iff.1 h
  obtain ⟨v, hv, hsummary⟩ := hoperation.exists_of_description? htext
  obtain ⟨c, hc, heval⟩ := hvalues.exists_of_mem hv
  have hs : s ∈ e.postorder := by
    rw [horder]
    exact List.mem_append_right _ List.mem_cons_self
  exact ⟨c, mem_postorder_of_mem_children hs hc, v, heval, hsummary⟩

end Expr
/-- Summaries of values whose counts fit into 64 bits are bounded iff the keys that they list are;
and what describes a value in an error is the summary of the value of a subexpression, and so
bounded just where that is. -/
theorem summary_bounded_iff (among : Value → Prop) (hcount : ∀ v, among v → v.count < 2 ^ 64) :
    ((∃ bound, ∀ v, among v → v.summary.length ≤ bound) ↔
      ∃ k, ∀ v, among v → ∀ key ∈ v.listedKeys, key.length ≤ k) ∧
    (∀ v, among v →
      (∀ k, (∀ key ∈ v.listedKeys, key.length ≤ k) → v.summary.length ≤ 8 * k + 36) ∧
      ∀ key ∈ v.listedKeys, key.length + 9 ≤ v.summary.length) ∧
    ∀ (e : Expr) (context : Value) (x : EvalError) (text : String),
      e.eval context = .error x → x.description? = some text →
        ∃ s ∈ e.postorder, ∃ v, s.eval context = .ok v ∧ text = v.summary := by
  refine ⟨?_, ?_, fun e context x text => Expr.exists_of_description?⟩
  · constructor
    · rintro ⟨bound, hbound⟩
      refine ⟨bound, fun v hv key hkey => ?_⟩
      have hkeyLength := Value.length_le_summary hkey
      have hsummary := hbound v hv
      omega
    · rintro ⟨k, hk⟩
      exact ⟨8 * k + 36, fun v hv => Value.length_summary_le (hcount v hv) (hk v hv)⟩
  · intro v hv
    exact ⟨fun k => Value.length_summary_le (hcount v hv), fun key => Value.length_le_summary⟩

/-- A receiver with a short key, and the error that describes it. -/
theorem summary_bounded_iff_short_key :
    let v := Value.object [("a", .null)]
    let e := Expr.property (.var "o") "c"
    let context := Value.object [("o", v)]
    (∀ w, w = v → w.count < 2 ^ 64) ∧ (∃ bound, ∀ w, w = v → w.summary.length ≤ bound) ∧
      v.summary.length ≤ 8 * 1 + 36 ∧
      e.eval context = .error (.missingProperty "c" "object \x7ba\x7d") ∧
      ∃ s ∈ e.postorder, ∃ w, s.eval context = .ok w ∧ "object \x7ba\x7d" = w.summary := by
  intro v e context
  have hcount : ∀ w, w = v → w.count < 2 ^ 64 := by
    rintro w rfl
    decide
  have hkeys : ∀ key ∈ v.listedKeys, key.length ≤ 1 := by
    have hlisted : v.listedKeys = ["a"] := by
      simp [v, Value.listedKeys, Value.sortByKey, Value.summaryKeys]
    rw [hlisted]
    decide
  have hsummary : v.summary = "object \x7ba\x7d" := by
    simp [v, Value.summary, Value.sortByKey, Value.summaryKeys]
  have herror : e.eval context = .error (.missingProperty "c" "object \x7ba\x7d") := by
    rw [← hsummary]
    rfl
  obtain ⟨hbounded, hlength, hdescribed⟩ := summary_bounded_iff (· = v) hcount
  exact ⟨hcount, hbounded.2 ⟨1, fun w hw => hw ▸ hkeys⟩, (hlength v rfl).1 1 hkeys, herror,
    hdescribed e context _ _ herror rfl⟩

/-- A single long key makes a summary as long as it is. -/
theorem summary_unbounded : ¬ ∃ bound, ∀ v : Value, v.summary.length ≤ bound := by
  rintro ⟨bound, h⟩
  let key := String.ofList (List.replicate bound 'k')
  have hlisted : key ∈ (Value.object [(key, .null)]).listedKeys := by
    simp [Value.listedKeys, Value.sortByKey, Value.summaryKeys]
  have hlength := Value.length_le_summary hlisted
  have hkey : key.length = bound := by rw [String.length_ofList, List.length_replicate]
  have hle := h (.object [(key, .null)])
  omega

end TextTemplate
