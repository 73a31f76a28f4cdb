import ContainerInit.Proofs.Cron.Parse

/-! # Bounds of what is written

A field looks at the values that an element comes by. The end of a range is one of them only if a step lands on
it: a step that leads from within the field past an end beyond the field leaves that end unseen.

## Two readings of out of range

The bounds of a field can be asked of the numbers that are written in an element or of the values for which it stands.
The program asks the second.  The two come apart at one place only, which is `Element.Overruns`: a range begins within
the field, its end is beyond it, and one step of the walk leads over everything in between.  `sound_iff` is the
comparison, element by element.

## What such a range means

A range that overruns its field stands for the same values as the range with the part beyond the field cut off
(`Overruns.visits_cut_iff`).  So the accepted set is larger than that of the numbers within bounds, and the additional
expressions are other ways to write expressions of that set. -/

namespace ContainerInit.Cron

namespace Element

variable {f : Field} {e : Element} {v : Nat}

/-- The values that stand in the element: a single one, or the two ends of a range. -/
def written : Element → List Nat
  | .star _ => []
  | .value v => [v]
  | .range a b _ => [a, b]

/-- The range begins in the field and ends beyond it, and one step leads from within the field past that end. -/
structure Overruns (f : Field) (e : Element) : Prop where
  first_mem : e.first f ∈ f.values
  high_lt_last : f.high < e.last f
  leaps : ∃ k, e.first f + k * e.step ≤ f.high ∧ e.last f < e.first f + (k + 1) * e.step

/-- The element with the part of its range beyond the field cut off. -/
def cut (f : Field) : Element → Element
  | .range a b n => .range a (min b f.high) n
  | e => e

/-- What is written lies in the field if the two ends of the walk do. -/
theorem written_subset_iff (h : e.first f ≤ e.last f) :
    e.written ⊆ f.values ↔ f.low ≤ e.first f ∧ e.last f ≤ f.high := by
  cases e with
  | star n => simp [written, first, last]
  | value v => simp [written, first, last, Field.mem_values]
  | range a b n =>
    have hab : a ≤ b := h
    simp only [written, first, last, List.cons_subset, List.nil_subset, Field.mem_values]
    constructor
    · rintro ⟨⟨hlow, -⟩, ⟨-, hhigh⟩, -⟩
      exact ⟨hlow, hhigh⟩
    · rintro ⟨hlow, hhigh⟩
      exact ⟨⟨hlow, by omega⟩, ⟨by omega, hhigh⟩, trivial⟩

/-! ## Leaps over the bound -/

/-- No step of the walk lands between the bound and the end of the range. -/
theorem Overruns.le_high (h : e.Overruns f) (hv : e.Visits f v) : v ≤ f.high := by
  obtain ⟨k, hk, hlast⟩ := h.leaps
  obtain ⟨j, rfl, hj⟩ := hv
  have hlt : j * e.step < (k + 1) * e.step := by omega
  have hle : j ≤ k := Nat.lt_succ_iff.mp (Nat.lt_of_mul_lt_mul_right hlt)
  calc e.first f + j * e.step
      ≤ e.first f + k * e.step := Nat.add_le_add_left (Nat.mul_le_mul_right _ hle) _
    _ ≤ f.high := hk

/-- A sound walk towards an end beyond the field leaps over the bound with its last step. -/
theorem Sound.overruns (h : e.Sound f) (hlast : f.high < e.last f) : e.Overruns f := by
  refine ⟨Field.mem_values.mpr (h.within _ (visits_first h.first_le_last)), hlast, ?_⟩
  refine ⟨(e.last f - e.first f) / e.step, (h.within _ (visits_greatest h.first_le_last)).2, ?_⟩
  have hspan := Nat.lt_mul_div_succ (e.last f - e.first f) (Nat.pos_of_ne_zero h.step_ne_zero)
  rw [Nat.mul_comm] at hspan
  omega

/-- An element is sound if it gets on, begins before it ends, and has all that is written in the field unless it
overruns it. -/
theorem sound_iff :
    e.Sound f ↔ e.step ≠ 0 ∧ e.first f ≤ e.last f ∧ (e.written ⊆ f.values ∨ e.Overruns f) := by
  constructor
  · intro h
    refine ⟨h.step_ne_zero, h.first_le_last, ?_⟩
    rcases Nat.lt_or_ge f.high (e.last f) with hlast | hlast
    · exact .inr (h.overruns hlast)
    · exact .inl ((written_subset_iff h.first_le_last).mpr
        ⟨(h.within _ (visits_first h.first_le_last)).1, hlast⟩)
  · rintro ⟨hstep, hle, hbounds⟩
    have hlow : f.low ≤ e.first f := hbounds.elim (fun h => ((written_subset_iff hle).mp h).1)
      fun h => (Field.mem_values.mp h.first_mem).1
    refine ⟨hstep, hle, fun v hv => ⟨?_, ?_⟩⟩
    · obtain ⟨k, rfl, -⟩ := hv
      omega
    · rcases hbounds with h | h
      · obtain ⟨-, -, hlast⟩ := hv
        exact Nat.le_trans hlast ((written_subset_iff hle).mp h).2
      · exact h.le_high hv

/-- Only a range can end beyond the field. -/
theorem Overruns.exists_range (h : e.Overruns f) : ∃ a b n, e = .range a b n := by
  obtain ⟨hfirst, hlast, -⟩ := h
  rw [Field.mem_values] at hfirst
  cases e with
  | star n => exact absurd hlast (Nat.lt_irrefl _)
  | value v => exact absurd hlast (Nat.not_lt.mpr hfirst.2)
  | range a b n => exact ⟨a, b, n, rfl⟩

/-- What is cut off of a range that overruns the field makes no difference. -/
theorem Overruns.visits_cut_iff (h : e.Overruns f) : (e.cut f).Visits f v ↔ e.Visits f v := by
  obtain ⟨a, b, n, rfl⟩ := h.exists_range
  constructor
  · rintro ⟨k, hk, hlast⟩
    exact ⟨k, hk, Nat.le_trans hlast (Nat.min_le_left ..)⟩
  · intro hv
    have hhigh := h.le_high hv
    obtain ⟨k, hk, hlast⟩ := hv
    exact ⟨k, hk, Nat.le_min.mpr ⟨hlast, hhigh⟩⟩

/-- After the cut, what is written lies in the field. -/
theorem Overruns.written_cut_subset (h : e.Overruns f) : (e.cut f).written ⊆ f.values := by
  obtain ⟨a, b, n, rfl⟩ := h.exists_range
  have hfirst := Field.mem_values.mp h.first_mem
  refine (written_subset_iff ?_).mpr ⟨hfirst.1, Nat.min_le_right ..⟩
  exact Nat.le_min.mpr ⟨Nat.le_trans hfirst.2 h.high_lt_last.le, hfirst.2⟩

end Element

/-! ## Fields and expressions -/

/-- The text is a list of elements whose walks get on and begin before they end, with all that is written
within the bounds, save for the ends of ranges that overrun the field. -/
def Field.Bounds (f : Field) (s : List Char) : Prop :=
  ∃ es, f.Derives s es ∧ ∀ e ∈ es,
    e.step ≠ 0 ∧ e.first f ≤ e.last f ∧ (e.written ⊆ f.values ∨ e.Overruns f)

/-- A field accepts the texts that are within its bounds in this sense. -/
theorem Field.accepts_iff_bounds {f : Field} {s : List Char} : f.Accepts s ↔ f.Bounds s := by
  simp only [Accepts, Bounds, Element.sound_iff]

namespace Expression

/-- An expression is read if its words fit the fields. -/
theorem parse_ok_iff_fit {source : String} (h : (Text.trim source.toList).head? ≠ some '@') :
    (∃ e, parse source = .ok e) ↔ Field.Fit Field.inOrder (Text.fields source.toList) := by
  rw [parse_eq_ofFields h]
  constructor
  · rintro ⟨e, he⟩
    refine (Field.fit_or_blamed Field.inOrder _).resolve_right ?_
    rintro ⟨f, hf⟩
    rw [ofFields_eq_error hf] at he
    cases he
  · intro hfit
    obtain ⟨e, he, -⟩ := exists_ofFields_eq_ok hfit source
    exact ⟨e, by rw [he]; rfl⟩

/-- An expression is read if its words are within the bounds of their fields, save for ends that are overrun; such
an end stands for the bound itself. -/
theorem parse_ok_iff_bounds (source : String) (h : (Text.trim source.toList).head? ≠ some '@') :
    ((∃ e, parse source = .ok e) ↔
      ∃ ws, Text.Separated source.toList ws ∧ List.Forall₂ Field.Bounds Field.inOrder ws) ∧
    ∀ (f : Field) (e : Element), e.Overruns f →
      (e.cut f).written ⊆ f.values ∧ ∀ v, (e.cut f).Visits f v ↔ e.Visits f v := by
  refine ⟨?_, fun f e he => ⟨he.written_cut_subset, fun v => he.visits_cut_iff⟩⟩
  have hbounds : Field.Accepts = Field.Bounds := by
    funext f s
    exact propext Field.accepts_iff_bounds
  rw [parse_ok_iff_fit h, Field.Fit, hbounds]
  simp only [Text.separated_iff, exists_eq_left']

/-- An expression with names, a list and steps, of which the minutes overrun their field. -/
theorem parse_ok_iff_bounds_overrun :
    (Text.trim "5-100/99 9-17 * jan,JUL mon-5/2".toList).head? ≠ some '@' ∧
      (∃ ws, Text.Separated "5-100/99 9-17 * jan,JUL mon-5/2".toList ws ∧
        List.Forall₂ Field.Bounds Field.inOrder ws) ∧
      (Element.range 5 100 (some 99)).Overruns .minute ∧
      ∀ v, (Element.range 5 59 (some 99)).Visits .minute v ↔ (Element.range 5 100 (some 99)).Visits .minute v :=
  have h : (Text.trim "5-100/99 9-17 * jan,JUL mon-5/2".toList).head? ≠ some '@' := by decide
  have hover : (Element.range 5 100 (some 99)).Overruns .minute := ⟨by decide, by decide, 0, by decide, by decide⟩
  ⟨h, (parse_ok_iff_bounds _ h).1.mp ⟨_, rfl⟩, hover, ((parse_ok_iff_bounds _ h).2 .minute _ hover).2⟩

/-- No minute is 100, yet it is accepted as the end of a range. -/
theorem parse_accepts_overrun :
    (Text.trim "5-100/99 * * * *".toList).head? ≠ some '@' ∧
      (∃ e, parse "5-100/99 * * * *" = .ok e) ∧
      Text.Separated "5-100/99 * * * *".toList ["5-100/99".toList, ['*'], ['*'], ['*'], ['*']] ∧
      Field.minute.Derives "5-100/99".toList [.range 5 100 (some 99)] ∧
      100 ∈ (Element.range 5 100 (some 99)).written ∧ 100 ∉ Field.minute.values := by
  refine ⟨by decide, ⟨_, rfl⟩, Text.separated_iff.mpr (by decide), ?_, by decide, by decide⟩
  exact Field.elements?_eq_some_iff.mp (by decide)

end Expression

end ContainerInit.Cron
