import Mathlib
import TextTemplate.Proofs.Template.Strict
/-!
# Scanning a rendered template again

Values without an opening brace form no marker, alone or together with the text around them. What is
left to see is that the text around them forms no new one either: where a pair of opening braces
starts no marker, no closing braces follow it on its line, so that no marker and no value stands
there.

- `splitBody_unchanged`: a line without closing braces keeps none, whatever takes the place of the
  markers on the lines behind it.
- `settle`: the pieces that the output has in the place of a piece.
- `pieces_render`: scanning the output finds these pieces.
- `render_stable`: the markers of the output are those without a value, and rendering it changes
  nothing.
-/

namespace TextTemplate

/-! ## Heads of texts -/

theorem markerAtHead?_eq_none_of_ne {c : Char} {cs : List Char} (h : c ≠ '\x7b') :
    markerAtHead? (c :: cs) = none := by
  have hopen : afterOpening? (c :: cs) = none := by
    rw [afterOpening?]
    rintro rest heq
    exact h (List.cons.inj heq).1
  rw [markerAtHead?, hopen, Option.bind_none]

theorem pieces_cons_of_none {c : Char} {more : List Char} (h : markerAtHead? (c :: more) = none) :
    pieces (c :: more) = .literal c :: pieces more := by
  rw [pieces]
  split
  · next hsome => cases h.symm.trans hsome
  · rfl

theorem pieces_of_some {cs body rest : List Char} (h : markerAtHead? cs = some (body, rest)) :
    pieces cs = .marker body :: pieces rest := by
  cases cs with
  | nil => cases h
  | cons c more =>
    rw [pieces]
    split
    · next hsome =>
      cases h.symm.trans hsome
      rfl
    · next hnone => cases h.symm.trans hnone

/-- No marker starts in a text without an opening brace. -/
theorem pieces_append_of_not_mem {text : List Char} (rest : List Char) (h : '\x7b' ∉ text) :
    pieces (text ++ rest) = text.map .literal ++ pieces rest := by
  induction text with
  | nil => rfl
  | cons c text ih =>
    rw [List.mem_cons, not_or] at h
    rw [List.cons_append, pieces_cons_of_none (markerAtHead?_eq_none_of_ne (Ne.symm h.1)), ih h.2,
      List.map_cons, List.cons_append]

/-! ## Bodies of markers -/

/-- Closing braces are seen in the first two characters. -/
theorem afterClosing?_append_eq_none {cs : List Char} (hlength : 2 ≤ cs.length) (more : List Char) :
    afterClosing? (cs ++ more) = none ↔ afterClosing? cs = none := by
  match cs with
  | [] | [_] => simp at hlength
  | c :: d :: cs =>
    rw [List.cons_append, List.cons_append]
    unfold afterClosing?
    split <;> split <;> simp_all

theorem splitBody_cons_eq_none_iff {c : Char} {cs : List Char} :
    splitBody (c :: cs) = none ↔ c = '\n' ∨ afterClosing? cs = none ∧ splitBody cs = none := by
  rw [splitBody]
  by_cases hc : c = '\n'
  · simp [hc]
  · rw [if_neg hc]
    cases afterClosing? cs with
    | some rest => simp [hc]
    | none => simp [hc]

/-- What follows the closing braces has no influence on a body. -/
theorem splitBody_append {cs body rest : List Char} (h : splitBody cs = some (body, rest))
    (rest' : List Char) : splitBody (body ++ '\x7d' :: '\x7d' :: rest') = some (body, rest') := by
  fun_induction splitBody cs generalizing body rest with
  | case1 => cases h
  | case2 => cases h
  | case3 c cs hc after hafter =>
    cases h
    rw [List.singleton_append, splitBody, if_neg hc]
    rfl
  | case4 c cs hc hafter ih =>
    obtain ⟨⟨body', rest₁⟩, hsplit, hpair⟩ := Option.map_eq_some_iff.1 h
    cases hpair
    -- the first two characters behind `c` are the same with either rest
    have hends : ∀ more,
        body' ++ '\x7d' :: '\x7d' :: more = (body' ++ ['\x7d', '\x7d']) ++ more := by
      simp
    have hlength : 2 ≤ (body' ++ ['\x7d', '\x7d']).length := by simp
    have hopen : afterClosing? (body' ++ '\x7d' :: '\x7d' :: rest') = none := by
      rw [eq_of_splitBody hsplit, hends, afterClosing?_append_eq_none hlength] at hafter
      rw [hends, afterClosing?_append_eq_none hlength, hafter]
    rw [List.cons_append, splitBody, if_neg hc, hopen]
    dsimp only
    rw [ih hsplit, Option.map_some]

/-- What follows a marker has no influence on it. -/
theorem markerAtHead?_append {cs body rest : List Char}
    (h : markerAtHead? cs = some (body, rest)) (rest' : List Char) :
    markerAtHead? ((Piece.marker body).source ++ rest') = some (body, rest') := by
  obtain ⟨after, -, hsplit⟩ := Option.bind_eq_some_iff.1 h
  have htext : (Piece.marker body).source ++ rest'
      = '\x7b' :: '\x7b' :: (body ++ '\x7d' :: '\x7d' :: rest') := by simp [Piece.source]
  rw [htext, markerAtHead?, afterOpening?, Option.bind_some, splitBody_append hsplit]

/-- No marker starts on a line without closing braces. -/
theorem markerAtHead?_eq_none_of_splitBody {cs : List Char} (h : splitBody cs = none) :
    markerAtHead? cs = none := by
  cases hmarker : markerAtHead? cs with
  | none => rfl
  | some parts =>
    obtain ⟨after, hopen, hsplit⟩ := Option.bind_eq_some_iff.1 hmarker
    rw [eq_of_afterOpening? hopen, splitBody_cons_eq_none_iff] at h
    obtain hline | ⟨-, h⟩ := h
    · exact absurd hline (by decide)
    rw [splitBody_cons_eq_none_iff] at h
    obtain hline | ⟨-, h⟩ := h
    · exact absurd hline (by decide)
    · cases hsplit.symm.trans h

/-- Nor does one start with the second of the opening braces before such a line. -/
theorem markerAtHead?_cons_eq_none_of_splitBody {cs : List Char} (h : splitBody cs = none) :
    markerAtHead? ('\x7b' :: cs) = none := by
  cases hmarker : markerAtHead? ('\x7b' :: cs) with
  | none => rfl
  | some parts =>
    obtain ⟨after, hopen, hsplit⟩ := Option.bind_eq_some_iff.1 hmarker
    obtain rfl : cs = '\x7b' :: after := (List.cons.inj (eq_of_afterOpening? hopen)).2
    obtain hline | ⟨-, h⟩ := splitBody_cons_eq_none_iff.1 h
    · exact absurd hline (by decide)
    · cases hsplit.symm.trans h

/-! ## Lines without closing braces -/

section Unchanged

variable {g : Piece → List Char} (hliteral : ∀ c, g (.literal c) = [c])

include hliteral

/-- A character that starts no marker stays where it is. -/
theorem flatMap_pieces_cons {c : Char} {more : List Char} (h : markerAtHead? (c :: more) = none) :
    (pieces (c :: more)).flatMap g = c :: (pieces more).flatMap g := by
  rw [pieces_cons_of_none h, List.flatMap_cons, hliteral, List.singleton_append]

/-- No closing braces come up at the head of a line that has none. -/
theorem afterClosing?_unchanged {cs : List Char} (hafter : afterClosing? cs = none)
    (hsplit : splitBody cs = none) : afterClosing? ((pieces cs).flatMap g) = none := by
  cases cs with
  | nil => simp [pieces, afterClosing?]
  | cons c more =>
    rw [flatMap_pieces_cons hliteral (markerAtHead?_eq_none_of_splitBody hsplit)]
    by_cases hc : c = '\x7d'
    · subst hc
      -- behind a first closing brace stands neither a second one nor a marker
      obtain hline | ⟨-, hsplit'⟩ := splitBody_cons_eq_none_iff.1 hsplit
      · exact absurd hline (by decide)
      cases more with
      | nil => simp [pieces, afterClosing?]
      | cons d more =>
        rw [flatMap_pieces_cons hliteral (markerAtHead?_eq_none_of_splitBody hsplit')]
        have hd : d ≠ '\x7d' := by
          rintro rfl
          cases hafter
        simp [afterClosing?, hd]
    · simp [afterClosing?, hc]

/-- A line without closing braces keeps none, whatever takes the place of the markers behind it. -/
theorem splitBody_unchanged {cs : List Char} (h : splitBody cs = none) :
    splitBody ((pieces cs).flatMap g) = none := by
  induction cs with
  | nil => rw [pieces, List.flatMap_nil, splitBody]
  | cons c more ih =>
    rw [flatMap_pieces_cons hliteral (markerAtHead?_eq_none_of_splitBody h),
      splitBody_cons_eq_none_iff]
    obtain hline | ⟨hafter, hsplit⟩ := splitBody_cons_eq_none_iff.1 h
    · exact .inl hline
    · exact .inr ⟨afterClosing?_unchanged hliteral hafter hsplit, ih hsplit⟩

/-- No marker comes up at a character that starts none. -/
theorem markerAtHead?_unchanged {c : Char} {more : List Char}
    (h : markerAtHead? (c :: more) = none) :
    markerAtHead? (c :: (pieces more).flatMap g) = none := by
  by_cases hc : c = '\x7b'
  · subst hc
    cases more with
    | nil => simp [pieces, markerAtHead?, afterOpening?]
    | cons d more =>
      by_cases hd : d = '\x7b'
      · subst hd
        have hsplit : splitBody more = none := h
        rw [flatMap_pieces_cons hliteral (markerAtHead?_cons_eq_none_of_splitBody hsplit)]
        exact splitBody_unchanged hliteral hsplit
      · rw [flatMap_pieces_cons hliteral (markerAtHead?_eq_none_of_ne hd)]
        simp [markerAtHead?, afterOpening?, hd]
  · exact markerAtHead?_eq_none_of_ne hc

end Unchanged

/-! ## The pieces of the output -/

/-- The pieces that the output has in the place of a piece, if values are free of opening braces. -/
def settle (context : Value) : Piece → List Piece
  | .literal c => [.literal c]
  | .marker body =>
    match evaluateMarker context body with
    | .ok v => v.display.toList.map .literal
    | .error _ => [.marker body]

variable {context : Value}

/-- What the rendering puts in the place of a piece is left as it is by another rendering. -/
theorem flatMap_renderPiece_settle (p : Piece) :
    (settle context p).flatMap (renderPiece context) = renderPiece context p := by
  cases p with
  | literal c => rfl
  | marker body =>
    rw [settle, renderPiece]
    cases hvalue : evaluateMarker context body with
    | ok v =>
      dsimp only
      induction v.display.toList with
      | nil => rfl
      | cons c cs ih =>
        rw [List.map_cons, List.flatMap_cons, ih, renderPiece, List.singleton_append]
    | error e =>
      dsimp only
      rw [List.flatMap_singleton, renderPiece, hvalue]

/-- The values of the markers among pieces are free of opening braces. -/
def Braceless (context : Value) (ps : List Piece) : Prop :=
  ∀ body v, .marker body ∈ ps → evaluateMarker context body = .ok v → '\x7b' ∉ v.display.toList

/-- Scanning the output finds the literals of the template, the characters of the values and the
markers without a value. -/
theorem pieces_render {cs : List Char} (h : Braceless context (pieces cs)) :
    pieces ((pieces cs).flatMap (renderPiece context)) = (pieces cs).flatMap (settle context) := by
  fun_induction pieces cs with
  | case1 => rw [List.flatMap_nil, List.flatMap_nil, pieces]
  | case2 c more body rest hhead ih =>
    have hrest : Braceless context (pieces rest) :=
      fun body' v hmem => h body' v (List.mem_cons_of_mem _ hmem)
    rw [List.flatMap_cons, List.flatMap_cons, ← ih hrest, renderPiece, settle]
    cases hvalue : evaluateMarker context body with
    | ok v => exact pieces_append_of_not_mem _ (h body v List.mem_cons_self hvalue)
    | error e => exact pieces_of_some (markerAtHead?_append hhead _)
  | case3 c more hhead ih =>
    have hmore : Braceless context (pieces more) :=
      fun body' v hmem => h body' v (List.mem_cons_of_mem _ hmem)
    have hunchanged : markerAtHead? (c :: (pieces more).flatMap (renderPiece context)) = none :=
      markerAtHead?_unchanged (fun _ => rfl) hhead
    rw [List.flatMap_cons, List.flatMap_cons, ← ih hmore, renderPiece, List.singleton_append,
      pieces_cons_of_none hunchanged]
    rfl

/-! ## The markers of the output -/

/-- A marker without its place: its text and its expression. -/
def Marker.content (m : Marker) : String × String := (m.source, m.expression)

theorem markersFrom_literals (cs : List Char) (ps : List Piece) (offset : Nat) :
    ∃ offset', markersFrom offset (cs.map .literal ++ ps) = markersFrom offset' ps := by
  induction cs generalizing offset with
  | nil => exact ⟨offset, rfl⟩
  | cons c cs ih => exact ih (offset + c.utf8Size)

/-- Of the markers of pieces those without a value are left. -/
theorem map_content_settle (ps : List Piece) (offset offset' : Nat) :
    (markersFrom offset (ps.flatMap (settle context))).map Marker.content
      = ((markersFrom offset' ps).filter
          fun m => !(evaluate m.expression context).isOk).map Marker.content := by
  induction ps generalizing offset offset' with
  | nil => rfl
  | cons p ps ih =>
    cases p with
    | literal c => exact ih _ _
    | marker body =>
      rw [List.flatMap_cons, settle, markersFrom_marker, List.filter_cons,
        Marker.expression_ofBody, ← evaluateMarker]
      cases hvalue : evaluateMarker context body with
      | ok v =>
        obtain ⟨offset'', hskip⟩ := markersFrom_literals v.display.toList
          (ps.flatMap (settle context)) offset
        dsimp only
        rw [hskip, ih _ (offset' + byteSize (Piece.source (.marker body)))]
        rfl
      | error e =>
        dsimp only
        rw [List.singleton_append, markersFrom_marker, List.map_cons,
          ih _ (offset' + byteSize (Piece.source (.marker body)))]
        rfl

theorem mem_markersFrom {body : List Char} {ps : List Piece} (h : .marker body ∈ ps)
    (offset : Nat) : ∃ start, .ofBody start body ∈ markersFrom offset ps := by
  induction ps generalizing offset with
  | nil => exact absurd h List.not_mem_nil
  | cons p ps ih =>
    rcases List.mem_cons.1 h with rfl | hps
    · exact ⟨offset, List.mem_cons_self⟩
    · cases p with
      | literal c => exact ih hps _
      | marker body' =>
        obtain ⟨start, hmem⟩ := ih hps (offset + byteSize (Piece.source (.marker body')))
        exact ⟨start, List.mem_cons_of_mem _ hmem⟩

/-- If no value that a rendering puts into a template has an opening brace, the markers of the
output are the markers of the template that have no value, in the same order, and rendering the
output again changes nothing. -/
theorem render_stable (template : String) (context : Value)
    (h : ∀ m ∈ markers template, ∀ v, evaluate m.expression context = .ok v →
      '\x7b' ∉ v.display.toList) :
    (markers (render template context)).map Marker.content
        = ((markers template).filter
            fun m => !(evaluate m.expression context).isOk).map Marker.content ∧
      render (render template context) context = render template context := by
  have hbraceless : Braceless context (pieces template.toList) := by
    intro body v hmem hvalue
    obtain ⟨start, hmarker⟩ := mem_markersFrom hmem 0
    exact h _ hmarker v hvalue
  have hpieces : pieces (render template context).toList
      = (pieces template.toList).flatMap (settle context) := by
    rw [render, String.toList_ofList, pieces_render hbraceless]
  constructor
  · rw [markers, hpieces, map_content_settle _ _ 0, ← markers]
  · rw [render, hpieces, List.flatMap_assoc]
    simp only [flatMap_renderPiece_settle]
    rw [render]

/-- A closing brace as a value, behind which another one and a marker without a value stand. -/
theorem render_stable_closing_brace :
    let template := "\x7b\x7bx\x7d\x7d\x7d\x7b\x7by\x7d\x7d"
    let context := Value.object [("x", .string "\x7d")]
    (∀ m ∈ markers template, ∀ v, evaluate m.expression context = .ok v →
      '\x7b' ∉ v.display.toList) ∧
    (markers (render template context)).map Marker.content
        = ((markers template).filter
            fun m => !(evaluate m.expression context).isOk).map Marker.content ∧
      render (render template context) context = render template context := by
  intro template context
  have hmarkers : markers template = [⟨0, 5, "\x7b\x7bx\x7d\x7d", "x"⟩,
      ⟨6, 11, "\x7b\x7by\x7d\x7d", "y"⟩] := by decide +kernel
  have hfirst : evaluate "x" context = .ok (.string "\x7d") := by cbv
  have hsecond : evaluate "y" context = .error (.eval (.undefinedVariable "y")) := by cbv
  have hbraceless : ∀ m ∈ markers template, ∀ v, evaluate m.expression context = .ok v →
      '\x7b' ∉ v.display.toList := by
    rw [hmarkers]
    intro m hm v hv
    rcases List.mem_pair.1 hm with rfl | rfl
    · cases hfirst.symm.trans hv
      decide
    · cases hsecond.symm.trans hv
  exact ⟨hbraceless, render_stable template context hbraceless⟩

end TextTemplate
