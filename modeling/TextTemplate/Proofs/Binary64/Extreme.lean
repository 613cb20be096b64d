import TextTemplate.Proofs.Binary64.WholeNumber
/-!
# The smallest and the largest of several doubles

`Binary64.minimum` and `Binary64.maximum` go through a list from the left and keep one of two
numbers at each step. A not-a-number would be dropped there, as it compares with nothing, and so
they look for one before they start.

- `le_iff`, `equals_iff`: comparisons by the places on the number line, with what follows from them.
- `Picks`: what one step guarantees, with `picks_min` and `picks_max`.
- `Picks.foldl`: the whole run over numbers, by induction over the list.
- `IsExtreme`, `Picks.isExtreme`: the result for all doubles, not-a-number among them.
- `IsExtreme.sameNumber`: the result depends on which members there are, not on their order.
-/

namespace TextTemplate

namespace Binary64

variable {x y z : Binary64}

/-! ## Comparisons -/

/-- Every number has a place on the number line, infinities included. -/
theorem exists_order (h : x.isNan = false) : ∃ a, x.order = some a := by
  cases x with
  | nan => cases h
  | infinite | finite => exact ⟨_, rfl⟩

/-- A double comes before another if both are numbers and their places are in this order. -/
theorem le_iff : x.le y = true ↔ ∃ a b, x.order = some a ∧ y.order = some b ∧ a ≤ b := by
  rw [le, compareWith]
  cases x.order <;> cases y.order <;> simp

theorem equals_iff : x.equals y = true ↔ ∃ a, x.order = some a ∧ y.order = some a := by
  rw [equals, compareWith]
  cases x.order <;> cases y.order <;> simp [eq_comm]

theorem equals_refl (h : x.isNan = false) : x.equals x = true := by
  obtain ⟨a, ha⟩ := exists_order h
  exact equals_iff.2 ⟨a, ha, ha⟩

theorem le_of_equals (h : x.equals y = true) : x.le y = true ∧ y.le x = true := by
  obtain ⟨a, hx, hy⟩ := equals_iff.1 h
  exact ⟨le_iff.2 ⟨a, a, hx, hy, Int.le_refl a⟩, le_iff.2 ⟨a, a, hy, hx, Int.le_refl a⟩⟩

theorem le_refl (h : x.isNan = false) : x.le x = true := (le_of_equals (equals_refl h)).1

theorem le_trans (hxy : x.le y = true) (hyz : y.le z = true) : x.le z = true := by
  obtain ⟨a, b, ha, hb, hab⟩ := le_iff.1 hxy
  obtain ⟨b', c, hb', hc, hbc⟩ := le_iff.1 hyz
  obtain rfl : b = b' := Option.some.inj (hb.symm.trans hb')
  exact le_iff.2 ⟨a, c, ha, hc, Int.le_trans hab hbc⟩

/-- Doubles that come before each other have one place, but may be zeros of both signs. -/
theorem equals_of_le (hxy : x.le y = true) (hyx : y.le x = true) : x.equals y = true := by
  obtain ⟨a, b, ha, hb, hab⟩ := le_iff.1 hxy
  obtain ⟨b', a', hb', ha', hba⟩ := le_iff.1 hyx
  obtain rfl : b = b' := Option.some.inj (hb.symm.trans hb')
  obtain rfl : a = a' := Option.some.inj (ha.symm.trans ha')
  exact equals_iff.2 ⟨a, ha, Int.le_antisymm hab hba ▸ hb⟩

/-- Two numbers that are not comparable as smaller are comparable the other way round. -/
theorem le_of_not_lt (hx : x.isNan = false) (hy : y.isNan = false) (h : ¬ x.lt y = true) :
    y.le x = true := by
  obtain ⟨a, ha⟩ := exists_order hx
  obtain ⟨b, hb⟩ := exists_order hy
  rw [lt_eq_decide ha hb, decide_eq_true_iff] at h
  exact le_iff.2 ⟨b, a, hb, ha, Int.not_lt.1 h⟩

theorem le_of_lt (h : x.lt y = true) : x.le y = true := by
  rw [lt, compareWith] at h
  split at h
  · next a b ha hb => exact le_iff.2 ⟨a, b, ha, hb, Int.le_of_lt (of_decide_eq_true h)⟩
  · cases h

/-! ## One step -/

/-- A choice between two numbers that takes the one which comes first in an order, among numbers. -/
structure Picks (pick : Binary64 → Binary64 → Binary64) (before : Binary64 → Binary64 → Bool) :
    Prop where
  cases : ∀ x y, pick x y = x ∨ pick x y = y
  left : ∀ {x y}, x.isNan = false → y.isNan = false → before (pick x y) x = true
  right : ∀ {x y}, x.isNan = false → y.isNan = false → before (pick x y) y = true
  of_equals : ∀ {x y}, x.equals y = true → before x y = true ∧ before y x = true
  trans : ∀ {x y z}, before x y = true → before y z = true → before x z = true
  antisymm : ∀ {x y}, before x y = true → before y x = true → x.equals y = true

/-- The smaller one is picked, and the second of two equal ones. -/
theorem picks_min : Picks min fun x y => x.le y where
  cases x y := by
    unfold min
    split
    · exact .inl rfl
    · exact .inr rfl
  left {x y} hx hy := by
    unfold min
    split
    · exact le_refl hx
    · next hnot => exact le_of_not_lt hx hy hnot
  right {x y} hx hy := by
    unfold min
    split
    · next hlt => exact le_of_lt hlt
    · exact le_refl hy
  of_equals := le_of_equals
  trans := le_trans
  antisymm := equals_of_le

/-- The larger one is picked, and the second of two equal ones. -/
theorem picks_max : Picks max fun x y => y.le x where
  cases x y := by
    unfold max
    split
    · exact .inl rfl
    · exact .inr rfl
  left {x y} hx hy := by
    unfold max
    split
    · exact le_refl hx
    · next hnot => exact le_of_not_lt hy hx hnot
  right {x y} hx hy := by
    unfold max
    split
    · next hlt => exact le_of_lt hlt
    · exact le_refl hy
  of_equals h := (le_of_equals h).symm
  trans hxy hyz := le_trans hyz hxy
  antisymm hxy hyx := equals_of_le hyx hxy

/-! ## The whole run -/

variable {pick : Binary64 → Binary64 → Binary64} {before : Binary64 → Binary64 → Bool}
  {first : Binary64} {rest : List Binary64}

/-- A run that starts with a number goes on with numbers. -/
theorem Picks.isNan_pick (h : Picks pick before) (hx : x.isNan = false) (hy : y.isNan = false) :
    (pick x y).isNan = false := by
  obtain heq | heq := h.cases x y <;> rwa [heq]

/-- A run over numbers ends with one of them, which comes before all of them. -/
theorem Picks.foldl (h : Picks pick before) (hfirst : first.isNan = false)
    (hrest : ∀ x ∈ rest, x.isNan = false) :
    rest.foldl pick first ∈ first :: rest ∧
      ∀ x ∈ first :: rest, before (rest.foldl pick first) x = true := by
  induction rest generalizing first with
  | nil => exact ⟨List.mem_singleton.2 rfl, by simpa using (h.of_equals (equals_refl hfirst)).1⟩
  | cons next rest ih =>
    obtain ⟨hnext, hrest⟩ := List.forall_mem_cons.1 hrest
    obtain ⟨hmem, hbefore⟩ := ih (h.isNan_pick hfirst hnext) hrest
    rw [List.foldl_cons]
    obtain ⟨hpick, hothers⟩ := List.forall_mem_cons.1 hbefore
    refine ⟨?_, List.forall_mem_cons.2 ⟨h.trans hpick (h.left hfirst hnext),
      List.forall_mem_cons.2 ⟨h.trans hpick (h.right hfirst hnext), hothers⟩⟩⟩
    rcases List.mem_cons.1 hmem with heq | hlater
    · rw [heq]
      obtain hleft | hright := h.cases first next
      · simp [hleft]
      · simp [hright]
    · exact List.mem_cons_of_mem _ (List.mem_cons_of_mem _ hlater)

/-- The extreme member of a list of doubles in an order. It is not a number iff some member is not,
and otherwise it is equal to a member and comes before all members. -/
structure IsExtreme (before : Binary64 → Binary64 → Bool) (xs : List Binary64) (r : Binary64) :
    Prop where
  isNan_iff : r.isNan = true ↔ ∃ x ∈ xs, x.isNan = true
  exists_equals : r.isNan = false → ∃ x ∈ xs, r.equals x = true
  before_all : r.isNan = false → ∀ x ∈ xs, before r x = true

/-- Not-a-number is looked for first, and the run is over numbers only. -/
theorem Picks.isExtreme (h : Picks pick before) :
    IsExtreme before (first :: rest) (extreme pick first rest) := by
  unfold extreme
  split
  · next hnan =>
    rw [List.any_eq_true] at hnan
    exact ⟨iff_of_true rfl hnan, nofun, nofun⟩
  · next hnumbers =>
    have hall : ∀ x ∈ first :: rest, x.isNan = false := by simpa using hnumbers
    obtain ⟨hfirst, hrest⟩ := List.forall_mem_cons.1 hall
    obtain ⟨hmem, hbefore⟩ := h.foldl hfirst hrest
    refine ⟨?_, fun hr => ⟨_, hmem, equals_refl hr⟩, fun _ => hbefore⟩
    rw [hall _ hmem]
    refine iff_of_false Bool.false_ne_true ?_
    rintro ⟨x, hx, hnan⟩
    exact Bool.false_ne_true ((hall x hx).symm.trans hnan)

/-- Two doubles are equal as numbers, or both are not numbers. -/
def SameNumber (x y : Binary64) : Prop := x.isNan = true ∧ y.isNan = true ∨ x.equals y = true

/-- The extreme member depends only on which members there are. -/
theorem IsExtreme.sameNumber (h : Picks pick before) {xs ys : List Binary64} {r r' : Binary64}
    (hxs : IsExtreme before xs r) (hys : IsExtreme before ys r') (hsame : ∀ x, x ∈ xs ↔ x ∈ ys) :
    SameNumber r r' := by
  have hnan : r.isNan = r'.isNan := by
    rw [Bool.eq_iff_iff, hxs.isNan_iff, hys.isNan_iff]
    simp only [hsame]
  cases hr : r.isNan with
  | true => exact .inl ⟨hr, hnan ▸ hr⟩
  | false =>
    have hr' : r'.isNan = false := hnan ▸ hr
    obtain ⟨x, hx, hequal⟩ := hxs.exists_equals hr
    obtain ⟨y, hy, hequal'⟩ := hys.exists_equals hr'
    have hforth := h.trans (hxs.before_all hr y ((hsame y).2 hy)) (h.of_equals hequal').2
    have hback := h.trans (hys.before_all hr' x ((hsame x).1 hx)) (h.of_equals hequal).2
    exact .inr (h.antisymm hforth hback)

end Binary64
end TextTemplate
