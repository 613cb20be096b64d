import TextTemplate.Proofs.Value.Printed
/-!
# The two layouts of JSON text

- `Place`: whether a character of a JSON text stands in a literal.
- `withoutLayout`, `openBrackets`, `IsLine`: a text without the spaces and line breaks outside of
  literals, the brackets that are open behind a text, and the lines of a text.
- `Aligned`: a text with two spaces behind each line break for every bracket that is open there.
- `LaysOut`: what a part of an indented text and the same part of a compact text have to do with
  each other; `LaysOut.append` puts parts together.
- `Value.laysOut_jsonChars`: the induction over values.
- `layouts_agree`: the two texts of a value.
-/

namespace TextTemplate

/-! ## Places, brackets and lines -/

/-- Where a character of a JSON text stands: outside of all literals, in a literal, or behind a
backslash in one. -/
inductive Place where
  | outside
  | literal
  | escaped
deriving DecidableEq

namespace Place

/-- The place behind a character. -/
def next : Place → Char → Place
  | .outside, c => if c = '"' then .literal else .outside
  | .literal, c => if c = '"' then .outside else if c = '\\' then .escaped else .literal
  | .escaped, _ => .literal

/-- The place behind a text. -/
def after (p : Place) (cs : List Char) : Place := cs.foldl next p

end Place

/-- The text without the spaces and line breaks that stand outside of literals. -/
def withoutLayout : Place → List Char → List Char
  | _, [] => []
  | p, c :: cs =>
    if p = .outside ∧ (c = ' ' ∨ c = '\n') then withoutLayout p cs
    else c :: withoutLayout (p.next c) cs

/-- What a character adds to the number of open brackets. Brackets in literals do not count. -/
def bracketStep (p : Place) (c : Char) : Int :=
  if p ≠ .outside then 0
  else if c = '[' ∨ c = '\x7b' then 1
  else if c = ']' ∨ c = '\x7d' then -1
  else 0

/-- The number of brackets of a text that are open behind it. -/
def openBrackets : Place → List Char → Int
  | _, [] => 0
  | p, c :: cs => bracketStep p c + openBrackets (p.next c) cs

/-- One for a closing bracket. -/
def closing (c : Char) : Int := if c = ']' ∨ c = '\x7d' then 1 else 0

/-- Whether a character outside of literals is neither a quote nor a bracket nor layout. -/
def isPlain (c : Char) : Bool := !(['"', '[', ']', '\x7b', '\x7d', ' ', '\n'].contains c)

/-- A line of a text, and what stands before it and behind it. -/
structure IsLine (text before line after : List Char) : Prop where
  text_eq : text = before ++ (line ++ after)
  noBreak : '\n' ∉ line
  start : before = [] ∨ ∃ b, before = b ++ ['\n']
  stop : after = [] ∨ ∃ a, after = '\n' :: a

theorem Place.after_append (p : Place) (a b : List Char) :
    p.after (a ++ b) = (p.after a).after b :=
  List.foldl_append ..

/-- Spaces and line breaks outside of literals start none. -/
theorem Place.next_eq_self {p : Place} {c : Char} (h : p = .outside ∧ (c = ' ' ∨ c = '\n')) :
    p.next c = p := by
  obtain ⟨rfl, rfl | rfl⟩ := h <;> rfl

theorem withoutLayout_append (p : Place) (a b : List Char) :
    withoutLayout p (a ++ b) = withoutLayout p a ++ withoutLayout (p.after a) b := by
  induction a generalizing p with
  | nil => rfl
  | cons c a ih =>
    rw [List.cons_append, withoutLayout, withoutLayout]
    split
    · next hlayout =>
      rw [ih, Place.after, Place.after, List.foldl_cons, Place.next_eq_self hlayout]
    · rw [ih, List.cons_append]
      rfl

theorem openBrackets_append (p : Place) (a b : List Char) :
    openBrackets p (a ++ b) = openBrackets p a + openBrackets (p.after a) b := by
  induction a generalizing p with
  | nil => exact (Int.zero_add _).symm
  | cons c a ih =>
    rw [List.cons_append, openBrackets, openBrackets, ih, Int.add_assoc]
    rfl

/-! ## Aligned texts -/

/-- A text starts with two spaces for each open bracket. A closing bracket behind the spaces is not
open any more. -/
def Indents (depth : Int) (cs : List Char) : Prop :=
  ∃ n c rest, cs = List.replicate n ' ' ++ c :: rest ∧ c ≠ ' ' ∧ c ≠ '\n' ∧
    (n : Int) = 2 * (depth - closing c)

theorem Indents.append {depth : Int} {a : List Char} (h : Indents depth a) (b : List Char) :
    Indents depth (a ++ b) := by
  obtain ⟨n, c, rest, rfl, hspace, hbreak, hn⟩ := h
  exact ⟨n, c, rest ++ b, by rw [List.append_assoc, List.cons_append], hspace, hbreak, hn⟩

/-- Line breaks stand outside of literals, and behind each stand the spaces for the brackets that
are open there. -/
def Aligned : Place → Int → List Char → Prop
  | _, _, [] => True
  | p, depth, c :: cs =>
    (c = '\n' → p = .outside ∧ Indents depth cs) ∧ Aligned (p.next c) (depth + bracketStep p c) cs

theorem Aligned.append {p : Place} {depth : Int} {a b : List Char} (ha : Aligned p depth a)
    (hb : Aligned (p.after a) (depth + openBrackets p a) b) : Aligned p depth (a ++ b) := by
  induction a generalizing p depth with
  | nil => rwa [openBrackets, Int.add_zero] at hb
  | cons c a ih =>
    obtain ⟨hbreak, hmore⟩ := ha
    rw [openBrackets, ← Int.add_assoc] at hb
    exact ⟨fun hc => ⟨(hbreak hc).1, (hbreak hc).2.append b⟩, ih hmore hb⟩

/-- What follows a line break of an aligned text. -/
theorem Aligned.indents {p : Place} {depth : Int} {a b : List Char}
    (h : Aligned p depth (a ++ '\n' :: b)) : Indents (depth + openBrackets p a) b := by
  induction a generalizing p depth with
  | nil =>
    rw [openBrackets, Int.add_zero]
    exact (h.1 rfl).2
  | cons c a ih =>
    rw [openBrackets, ← Int.add_assoc]
    exact ih h.2

/-- Without its layout an aligned text has no line break. -/
theorem Aligned.not_mem {p : Place} {depth : Int} {cs : List Char} (h : Aligned p depth cs) :
    '\n' ∉ withoutLayout p cs := by
  induction cs generalizing p depth with
  | nil => exact List.not_mem_nil
  | cons c cs ih =>
    obtain ⟨hbreak, hmore⟩ := h
    rw [withoutLayout]
    split
    · next hlayout => exact Place.next_eq_self hlayout ▸ ih hmore
    · next hlayout =>
      rw [List.mem_cons, not_or]
      refine ⟨?_, ih hmore⟩
      intro hc
      exact hlayout ⟨(hbreak hc.symm).1, .inr hc.symm⟩

/-! ## Parts of the two texts -/

/-- A part of an indented text, and the same part without its layout. It leads from one place to
another, and from a number of open brackets to a number that is larger by `change`. -/
structure LaysOut (p q : Place) (depth change : Int) (cs ds : List Char) : Prop where
  after_eq : p.after cs = q
  openBrackets_eq : openBrackets p cs = change
  aligned : Aligned p depth cs
  withoutLayout_eq : withoutLayout p cs = ds

namespace LaysOut

variable {p q r : Place} {depth change step : Int} {a a' b b' cs ds : List Char} {c : Char}

theorem nil : LaysOut p p depth 0 [] [] := ⟨rfl, rfl, trivial, rfl⟩

/-- A part that closes the brackets that it opens, in front of another part. -/
theorem append (ha : LaysOut p q depth 0 a a') (hb : LaysOut q r depth change b b') :
    LaysOut p r depth change (a ++ b) (a' ++ b') := by
  obtain ⟨rfl, hclosed, haligned, rfl⟩ := ha
  obtain ⟨rfl, rfl, hbaligned, rfl⟩ := hb
  refine ⟨p.after_append a b, ?_, haligned.append ?_, withoutLayout_append p a b⟩
  · rw [openBrackets_append, hclosed, Int.zero_add]
  · rwa [hclosed, Int.add_zero]

/-- A character that is no layout, in front of a part. -/
theorem cons (hstep : bracketStep p c = step) (hspace : p = .outside → c ≠ ' ') (hbreak : c ≠ '\n')
    (h : LaysOut (p.next c) q (depth + step) change cs ds) :
    LaysOut p q depth (step + change) (c :: cs) (c :: ds) := by
  obtain ⟨rfl, rfl, haligned, rfl⟩ := h
  subst hstep
  refine ⟨rfl, rfl, ⟨fun hc => absurd hc hbreak, haligned⟩, ?_⟩
  rw [withoutLayout, if_neg]
  rintro ⟨hp, hc | hc⟩
  · exact hspace hp hc
  · exact hbreak hc

/-- A character that is neither layout nor a bracket, in front of a part. -/
theorem cons_zero (hstep : bracketStep p c = 0) (hspace : p = .outside → c ≠ ' ')
    (hbreak : c ≠ '\n') (h : LaysOut (p.next c) q depth change cs ds) :
    LaysOut p q depth change (c :: cs) (c :: ds) := by
  have hcons := cons hstep hspace hbreak ((Int.add_zero depth).symm ▸ h)
  rwa [Int.zero_add] at hcons

/-- An opening bracket, in front of a part. -/
theorem openingBracket (hc : c = '[' ∨ c = '\x7b')
    (h : LaysOut .outside q (depth + 1) change cs ds) :
    LaysOut .outside q depth (1 + change) (c :: cs) (c :: ds) := by
  rcases hc with rfl | rfl
  · exact cons rfl (by decide) (by decide) h
  · exact cons rfl (by decide) (by decide) h

theorem closingBracket (hc : c = ']' ∨ c = '\x7d') :
    LaysOut .outside .outside depth (-1) [c] [c] := by
  show LaysOut .outside .outside depth (-1 + 0) [c] [c]
  rcases hc with rfl | rfl
  · exact cons rfl (by decide) (by decide) nil
  · exact cons rfl (by decide) (by decide) nil

/-- Characters that do not change the place and are neither layout nor brackets. -/
theorem plain (h : ∀ c ∈ cs,
    p.next c = p ∧ bracketStep p c = 0 ∧ (p = .outside → c ≠ ' ') ∧ c ≠ '\n') :
    LaysOut p p depth 0 cs cs := by
  induction cs with
  | nil => exact nil
  | cons c cs ih =>
    obtain ⟨⟨hnext, hstep, hspace, hbreak⟩, hmore⟩ := List.forall_mem_cons.1 h
    exact cons_zero hstep hspace hbreak (hnext.symm ▸ ih hmore)

/-- A space outside of literals, in front of a part. -/
theorem space (h : LaysOut .outside q depth change cs ds) :
    LaysOut .outside q depth change (' ' :: cs) ds := by
  obtain ⟨rfl, rfl, haligned, rfl⟩ := h
  refine ⟨rfl, Int.zero_add _, ⟨fun hc => absurd hc (by decide), ?_⟩, rfl⟩
  exact (Int.add_zero depth).symm ▸ haligned

/-- A line break and the spaces behind it, in front of a part that starts with something else. -/
theorem lineBreak {level : Nat} (hspace : c ≠ ' ') (hbreak : c ≠ '\n')
    (hlevel : (level : Int) = depth - closing c)
    (h : LaysOut .outside q depth change (c :: cs) ds) :
    LaysOut .outside q depth change (Value.Layout.indented.lineBreak level ++ c :: cs) ds := by
  have hspaces : ∀ n, LaysOut .outside q depth change (List.replicate n ' ' ++ c :: cs) ds := by
    intro n
    induction n with
    | zero => exact h
    | succ n ih => exact ih.space
  have hindents : Indents depth (List.replicate (2 * level) ' ' ++ c :: cs) :=
    ⟨2 * level, c, cs, rfl, hspace, hbreak, by omega⟩
  obtain ⟨rfl, rfl, haligned, rfl⟩ := hspaces (2 * level)
  exact ⟨rfl, Int.zero_add _, ⟨fun _ => ⟨rfl, hindents⟩, (Int.add_zero depth).symm ▸ haligned⟩, rfl⟩

/-- Plain characters, outside of literals. -/
theorem word (h : cs.all isPlain = true) : LaysOut .outside .outside depth 0 cs cs := by
  refine plain ?_
  intro c hc
  have hother : ∀ d, isPlain d = false → c ≠ d := by
    rintro d hd rfl
    cases hd.symm.trans (List.all_eq_true.1 h c hc)
  refine ⟨?_, ?_, fun _ => hother ' ' rfl, hother '\n' rfl⟩
  · rw [Place.next, if_neg (hother '"' rfl)]
  · rw [bracketStep, if_neg (not_not_intro rfl), if_neg, if_neg]
    · rintro (hc | hc)
      · exact hother ']' rfl hc
      · exact hother '\x7d' rfl hc
    · rintro (hc | hc)
      · exact hother '[' rfl hc
      · exact hother '\x7b' rfl hc

/-! ### Literals -/

/-- A backslash and the character behind it. -/
theorem backslash (hbreak : c ≠ '\n') : LaysOut .literal .literal depth 0 ['\\', c] ['\\', c] :=
  cons_zero rfl nofun (by decide) (cons_zero rfl nofun hbreak nil)

theorem hexQuad (n : Nat) :
    LaysOut .literal .literal depth 0 (hexQuad n) (hexQuad n) := by
  have hdigit : ∀ k < 16, Place.literal.next (Nat.digitChar k) = .literal ∧
      bracketStep .literal (Nat.digitChar k) = 0 ∧
      (Place.literal = .outside → Nat.digitChar k ≠ ' ') ∧ Nat.digitChar k ≠ '\n' := by decide
  refine plain ?_
  simp only [TextTemplate.hexQuad, List.forall_mem_cons]
  exact ⟨hdigit _ (Nat.mod_lt _ (by decide)), hdigit _ (Nat.mod_lt _ (by decide)),
    hdigit _ (Nat.mod_lt _ (by decide)), hdigit _ (Nat.mod_lt _ (by decide)),
    List.forall_mem_nil _⟩

/-- A character as it stands in a literal. -/
theorem escape (c : Char) : LaysOut .literal .literal depth 0 (escape c) (escape c) := by
  unfold TextTemplate.escape
  split
  · exact backslash (by decide)
  split
  · exact backslash (by decide)
  split
  · exact backslash (by decide)
  split
  · exact backslash (by decide)
  split
  · exact backslash (by decide)
  split
  · exact (backslash (by decide)).append (hexQuad c.toNat)
  · next hquote hbackslash hbreak _ _ _ =>
    have hnext : Place.literal.next c = .literal := by
      rw [Place.next, if_neg hquote, if_neg hbackslash]
    exact plain (List.forall_mem_singleton.2 ⟨hnext, rfl, nofun, hbreak⟩)

/-- A text in quotes. -/
theorem quote (cs : List Char) : LaysOut .outside .outside depth 0 (quote cs) (quote cs) := by
  have hliteral : LaysOut .literal .literal depth 0 (cs.flatMap TextTemplate.escape)
      (cs.flatMap TextTemplate.escape) := by
    induction cs with
    | nil => exact nil
    | cons c cs ih => exact (escape c).append ih
  exact cons_zero rfl (by decide) (by decide)
    (hliteral.append (cons_zero rfl nofun (by decide) nil))

end LaysOut

/-! ## The texts of values -/

namespace Value

variable {level level' : Nat} {depth : Int} {right : Char}

theorem isPlain_of_isDigit {c : Char} (h : c.isDigit = true) : isPlain c = true := by
  have hother : ∀ d : Char, d.isDigit = false → c ≠ d := by
    rintro d hd rfl
    cases hd.symm.trans h
  simp [isPlain, hother]

/-- The text of a number. -/
theorem laysOut_textChars {x : Binary64} (h : x.isFinite = true) :
    LaysOut .outside .outside depth 0 x.textChars x.textChars := by
  refine .word (List.all_eq_true.2 ?_)
  intro c hc
  rcases Binary64.isDigit_or_mem_of_mem_textChars h hc with hdigit | hmark
  · exact isPlain_of_isDigit hdigit
  · have hmarks : ['-', '+', '.', 'e'].all isPlain = true := rfl
    exact List.all_eq_true.1 hmarks c hmark

/-- The text of a member of an array or object: it closes the brackets that it opens, and starts
with neither layout nor a closing bracket. -/
structure LaysOutMember (depth : Int) (cs ds : List Char) : Prop where
  laysOut : LaysOut .outside .outside depth 0 cs ds
  starts : ∃ c more, cs = c :: more ∧ c ≠ ' ' ∧ c ≠ '\n' ∧ closing c = 0

/-- A member on a line of its own, with what stands behind it. -/
theorem LaysOutMember.lineBreak {cs ds rest rest' : List Char}
    (h : LaysOutMember (level + 1 : Nat) cs ds)
    (hrest : LaysOut .outside .outside (level + 1 : Nat) (-1) rest rest') :
    LaysOut .outside .outside (level + 1 : Nat) (-1)
      (Layout.indented.lineBreak (level + 1) ++ (cs ++ rest)) (ds ++ rest') := by
  obtain ⟨c, more, rfl, hspace, hbreak, hopen⟩ := h.starts
  exact .lineBreak hspace hbreak (by rw [hopen, Int.sub_zero]) (h.laysOut.append hrest)

variable {α : Type} {f g : α → List Char} {items : List α}

/-- The closing bracket on a line of its own. -/
theorem laysOut_right (hright : right = ']' ∨ right = '\x7d') :
    LaysOut .outside .outside (level + 1 : Nat) (-1) (Layout.indented.lineBreak level ++ [right])
      [right] := by
  have hplain : right ≠ ' ' ∧ right ≠ '\n' := by
    rcases hright with rfl | rfl <;> decide
  have hclosing : (level : Int) = (level + 1 : Nat) - closing right := by
    rw [closing, if_pos hright]
    omega
  exact .lineBreak hplain.1 hplain.2 hclosing (.closingBracket hright)

/-- The members behind a member, and the closing bracket. -/
theorem laysOut_following (hright : right = ']' ∨ right = '\x7d')
    (h : ∀ a ∈ items, LaysOutMember (level + 1 : Nat) (f a) (g a)) :
    LaysOut .outside .outside (level + 1 : Nat) (-1) (following .indented level right (items.map f))
      (following .compact level' right (items.map g)) := by
  induction items with
  | nil => exact laysOut_right hright
  | cons a more ih =>
    obtain ⟨ha, hmore⟩ := List.forall_mem_cons.1 h
    rw [List.map_cons, List.map_cons, following_cons, following_cons]
    exact .cons_zero rfl (by decide) (by decide) (ha.lineBreak (ih hmore))

/-- Members between brackets. -/
theorem laysOut_bracketed {left : Char} (hleft : left = '[' ∨ left = '\x7b')
    (hright : right = ']' ∨ right = '\x7d')
    (h : ∀ a ∈ items, LaysOutMember (level + 1 : Nat) (f a) (g a)) :
    LaysOut .outside .outside level 0 (bracketed .indented level left right (items.map f))
      (bracketed .compact level' left right (items.map g)) := by
  show LaysOut .outside .outside level (1 + -1) _ _
  cases items with
  | nil => exact .openingBracket hleft (.closingBracket hright)
  | cons a more =>
    obtain ⟨ha, hmore⟩ := List.forall_mem_cons.1 h
    rw [List.map_cons, List.map_cons, bracketed_cons, bracketed_cons]
    exact .openingBracket hleft (ha.lineBreak (laysOut_following hright hmore))

/-- The text of a value starts with neither layout nor a closing bracket. -/
theorem laysOutMember_jsonChars {v : Value}
    (h : LaysOut .outside .outside depth 0 (jsonChars .indented level v)
      (jsonChars .compact level' v)) :
    LaysOutMember depth (jsonChars .indented level v) (jsonChars .compact level' v) := by
  obtain ⟨c, more, hchars, hgap, hclosing⟩ := exists_jsonChars .indented level v
  refine ⟨h, c, more, hchars, ?_, ?_, ?_⟩
  · rintro rfl
    exact absurd hgap (by decide)
  · rintro rfl
    exact absurd hgap (by decide)
  · refine if_neg ?_
    rintro (rfl | rfl) <;> exact absurd hclosing (by decide)

/-- The text of an entry starts with a quote. -/
theorem laysOutMember_entryText {e : String × Value}
    (h : LaysOut .outside .outside depth 0 (jsonChars .indented level e.2)
      (jsonChars .compact level' e.2)) :
    LaysOutMember depth (entryText .indented level e) (entryText .compact level' e) := by
  refine ⟨?_, '"', _, rfl, by decide, by decide, rfl⟩
  have hcolon : LaysOut .outside .outside depth 0 (':' :: ' ' :: jsonChars .indented level e.2)
      (':' :: jsonChars .compact level' e.2) := .cons_zero rfl (by decide) (by decide) h.space
  exact (LaysOut.quote e.1.toList).append hcolon

/-- The texts of a value in the two layouts. -/
theorem laysOut_jsonChars (v : Value) : ∀ level level' : Nat,
    LaysOut .outside .outside level 0 (jsonChars .indented level v)
      (jsonChars .compact level' v) := by
  induction v using Value.induction with
  | null =>
    intro level level'
    rw [jsonChars, jsonChars]
    exact .word rfl
  | boolean b =>
    intro level level'
    cases b with
    | true => rw [jsonChars, jsonChars]; exact .word rfl
    | false => rw [jsonChars, jsonChars]; exact .word rfl
  | number n =>
    intro level level'
    rw [jsonChars, jsonChars]
    split
    · next hfinite => exact laysOut_textChars hfinite
    · exact .word rfl
  | string s => exact fun _ _ => .quote s.toList
  | array items ih =>
    intro level level'
    rw [jsonChars, jsonChars, itemChars_eq, itemChars_eq]
    exact laysOut_bracketed (.inl rfl) (.inl rfl)
      fun v hv => laysOutMember_jsonChars (ih v hv (level + 1) (level' + 1))
  | object entries ih =>
    intro level level'
    rw [jsonChars, jsonChars, sorted_entryChars, sorted_entryChars]
    refine laysOut_bracketed (.inr rfl) (.inr rfl) ?_
    intro e he
    have hmem : e ∈ entries := (sortByKey_perm entries).mem_iff.1 he
    exact laysOutMember_entryText (ih e hmem (level + 1) (level' + 1))

end Value

/-! ## The lines of a text -/

theorem openBrackets_append_break (p : Place) (cs : List Char) :
    openBrackets p (cs ++ ['\n']) = openBrackets p cs := by
  rw [openBrackets_append]
  cases p.after cs <;> exact Int.add_zero _

/-- What a text starts with stands on its first line. -/
theorem Indents.of_append {depth : Int} {line after : List Char}
    (hstop : after = [] ∨ ∃ a, after = '\n' :: a) (h : Indents depth (line ++ after)) :
    Indents depth line := by
  obtain ⟨n, c, rest, heq, hspace, hc, hn⟩ := h
  rcases hstop with rfl | ⟨a, rfl⟩
  · rw [List.append_nil] at heq
    exact ⟨n, c, rest, heq, hspace, hc, hn⟩
  · rcases List.append_eq_append_iff.1 heq with ⟨spaces, hspaces, hmore⟩ | ⟨more, hline, hmore⟩
    · -- the line would be nothing but spaces
      cases spaces with
      | nil => exact absurd (List.cons.inj hmore).1.symm hc
      | cons d spaces =>
        obtain ⟨rfl, -⟩ := List.cons.inj hmore
        have hmem : '\n' ∈ List.replicate n ' ' := by
          rw [hspaces]
          exact List.mem_append_right _ List.mem_cons_self
        exact absurd (List.eq_of_mem_replicate hmem) (by decide)
    · cases more with
      | nil => exact absurd (List.cons.inj hmore).1 hc
      | cons d more =>
        obtain ⟨rfl, -⟩ := List.cons.inj hmore
        exact ⟨n, c, more, hline, hspace, hc, hn⟩

namespace Value

/-- Each line of the indented text of a value is indented by the brackets that are open there. -/
theorem indents_of_isLine {v : Value} {before line after : List Char}
    (h : IsLine (jsonChars .indented 0 v) before line after) :
    Indents (openBrackets .outside before) line := by
  have hlaysOut := laysOut_jsonChars v 0 0
  refine Indents.of_append h.stop ?_
  rcases h.start with rfl | ⟨b, rfl⟩
  · -- the first line
    obtain ⟨c, more, hchars, hspace, hbreak, hopen⟩ := (laysOutMember_jsonChars hlaysOut).starts
    have hfirst : line ++ after = c :: more := h.text_eq.symm.trans hchars
    exact ⟨0, c, more, hfirst, hspace, hbreak, by rw [hopen]; rfl⟩
  · have haligned := hlaysOut.aligned
    rw [h.text_eq, List.append_assoc, List.singleton_append] at haligned
    have hindents := haligned.indents
    rw [Int.natCast_zero, Int.zero_add] at hindents
    rwa [openBrackets_append_break]

end Value

/-- The indented text of a value without the spaces and line breaks outside of literals is the
compact text, which is a single line, and each line of the indented text starts with two spaces for
every bracket that is open there. -/
theorem layouts_agree (v : Value) :
    withoutLayout .outside v.indented.toList = v.compact.toList ∧ '\n' ∉ v.compact.toList ∧
      ∀ before line after, IsLine v.indented.toList before line after →
        Indents (openBrackets .outside before) line := by
  have hlaysOut := Value.laysOut_jsonChars v 0 0
  rw [Value.indented, Value.compact, String.toList_ofList, String.toList_ofList]
  refine ⟨hlaysOut.withoutLayout_eq, ?_, fun _ _ _ => Value.indents_of_isLine⟩
  rw [← hlaysOut.withoutLayout_eq]
  exact hlaysOut.aligned.not_mem

/-- The line of the closing bracket of an array in an array, behind a text with a bracket. -/
theorem layouts_agree_closing_bracket :
    IsLine (Value.array [.string "a [", .array [.null]]).indented.toList
      "[\n  \"a [\",\n  [\n    null\n".toList "  ]".toList "\n]".toList ∧
    Indents (openBrackets .outside "[\n  \"a [\",\n  [\n    null\n".toList) "  ]".toList := by
  have hline : IsLine (Value.array [.string "a [", .array [.null]]).indented.toList
      "[\n  \"a [\",\n  [\n    null\n".toList "  ]".toList "\n]".toList :=
    ⟨rfl, by decide, .inr ⟨"[\n  \"a [\",\n  [\n    null".toList, rfl⟩, .inr ⟨[']'], rfl⟩⟩
  exact ⟨hline, (layouts_agree (.array [.string "a [", .array [.null]])).2.2 _ _ _ hline⟩

end TextTemplate
