import ContainerInit.Cron.Expression
import ContainerInit.Proofs.Cron.Grammar

/-! # What a cron field means

An element is walked from its first value by its step up to its last.  A field is accepted if no step is zero,
no range is empty and no walk leaves the bounds, and it allows the values that its elements come by.

`Element.Visits` is the walk, as a multiple of the step that has been made.  The reader of a field does not walk: it asks
of each value of the field whether an element covers it, by a division, and compares the two ends of the walk with the
bounds.  `covers_iff_visits` and `valid_iff_sound` say that this is the same.  The second is where the greatest value of
the walk comes in, which is the last one only if a step lands there.

A field is then read as an ascending list (`Enumerates`), which is determined by the property that its members have.
Days of the week have two numbers for Sunday, and a list with one of them is closed by the other. -/

namespace ContainerInit.Cron

/-- The list has exactly the values with that property, ascending. -/
structure Enumerates (P : Nat → Prop) (vs : List Nat) : Prop where
  ascending : vs.Pairwise (· < ·)
  mem_iff : ∀ v, v ∈ vs ↔ P v

variable {f : Field} {s : List Char} {v : Nat} {e : Element} {es : List Element} {vs : List Nat}

namespace Element

/-- The walk from the first value by the step comes by `v` before it is past the last value. -/
def Visits (f : Field) (e : Element) (v : Nat) : Prop :=
  ∃ k, v = e.first f + k * e.step ∧ v ≤ e.last f

/-- The walk gets on, begins before it ends and stays in the field. -/
structure Sound (f : Field) (e : Element) : Prop where
  step_ne_zero : e.step ≠ 0
  first_le_last : e.first f ≤ e.last f
  within : ∀ v, e.Visits f v → f.low ≤ v ∧ v ≤ f.high

/-- The values that an element covers are those that the walk comes by. -/
theorem covers_iff_visits : e.Covers f v ↔ e.Visits f v := by
  constructor
  · rintro ⟨hfirst, hlast, hmod⟩
    obtain ⟨k, hk⟩ := Nat.dvd_of_mod_eq_zero hmod
    refine ⟨k, ?_, hlast⟩
    rw [Nat.mul_comm, ← hk]
    omega
  · rintro ⟨k, rfl, hlast⟩
    refine ⟨Nat.le_add_right .., hlast, ?_⟩
    rw [Nat.add_sub_cancel_left, Nat.mul_mod_left]

theorem visits_first (h : e.first f ≤ e.last f) : e.Visits f (e.first f) :=
  ⟨0, by simp, h⟩

/-- The walk comes to its greatest value. -/
theorem visits_greatest (h : e.first f ≤ e.last f) : e.Visits f (e.greatest f) := by
  refine ⟨(e.last f - e.first f) / e.step, rfl, ?_⟩
  have := Nat.div_mul_le_self (e.last f - e.first f) e.step
  rw [greatest]
  omega

/-- The walk comes by nothing greater. -/
theorem Visits.le_greatest (h : e.Visits f v) (hstep : e.step ≠ 0) : v ≤ e.greatest f := by
  obtain ⟨k, rfl, hlast⟩ := h
  have hk : k ≤ (e.last f - e.first f) / e.step := by
    rw [Nat.le_div_iff_mul_le (Nat.pos_of_ne_zero hstep)]
    omega
  exact Nat.add_le_add_left (Nat.mul_le_mul_right e.step hk) _

/-- It is enough to look at the first value and at the greatest. -/
theorem valid_iff_sound : e.Valid f ↔ e.Sound f := by
  constructor
  · rintro ⟨hstep, hle, hlow, hhigh⟩
    refine ⟨hstep, hle, fun v hv => ⟨?_, Nat.le_trans (hv.le_greatest hstep) hhigh⟩⟩
    obtain ⟨k, rfl, -⟩ := hv
    exact Nat.le_trans hlow (Nat.le_add_right ..)
  · rintro ⟨hstep, hle, hwithin⟩
    exact ⟨hstep, hle, (hwithin _ (visits_first hle)).1, (hwithin _ (visits_greatest hle)).2⟩

end Element

namespace Field

/-- The text is a list of sound elements. -/
def Accepts (f : Field) (s : List Char) : Prop := ∃ es, f.Derives s es ∧ ∀ e ∈ es, e.Sound f

/-- An element in the text comes by `v`. -/
def Allows (f : Field) (s : List Char) (v : Nat) : Prop := ∃ es, f.Derives s es ∧ ∃ e ∈ es, e.Visits f v

/-- A text that is not accepted is not read. -/
theorem read?_eq_none_of_not_accepts (h : ¬ f.Accepts s) : f.read? s = none := by
  rw [read?]
  cases hes : f.elements? s with
  | none => rfl
  | some es =>
    apply if_neg
    intro hvalid
    exact h ⟨es, elements?_eq_some_iff.mp hes, fun e he => Element.valid_iff_sound.mp (hvalid e he)⟩

/-- A text has one list of elements. -/
theorem Derives.unique {es' : List Element} (h : f.Derives s es) (h' : f.Derives s es') : es = es' :=
  Option.some.inj (h.elements?_eq.symm.trans h'.elements?_eq)

/-- What an accepted text allows lies in the field. -/
theorem Accepts.within (h : f.Accepts s) (hv : f.Allows s v) : f.low ≤ v ∧ v ≤ f.high := by
  obtain ⟨es, hes, hsound⟩ := h
  obtain ⟨es', hes', e, he, hv⟩ := hv
  obtain rfl := hes.unique hes'
  exact (hsound e he).within v hv

theorem pairwise_values (f : Field) : f.values.Pairwise (· < ·) :=
  List.pairwise_lt_range' ..

/-- A text that is accepted is read as the values that it allows. -/
theorem Accepts.exists_read?_eq (h : f.Accepts s) :
    ∃ vs, f.read? s = some vs ∧ Enumerates (f.Allows s) vs := by
  obtain ⟨es, hes, hsound⟩ := id h
  refine ⟨f.values.filter fun v => es.any fun e => e.Covers f v, ?_, f.pairwise_values.filter _, fun v => ?_⟩
  · rw [read?, hes.elements?_eq]
    exact if_pos fun e he => Element.valid_iff_sound.mpr (hsound e he)
  · simp only [List.mem_filter, mem_values, List.any_eq_true, decide_eq_true_eq, Element.covers_iff_visits]
    constructor
    · rintro ⟨-, hv⟩
      exact ⟨es, hes, hv⟩
    · intro hv
      obtain ⟨es', hes', hv'⟩ := id hv
      obtain rfl := hes.unique hes'
      exact ⟨h.within hv, hv'⟩

/-! ## Sunday -/

/-- The text allows `v`, or it is about days of the week and allows one of the two Sundays, and `v` is one too. -/
def Includes (f : Field) (s : List Char) (v : Nat) : Prop :=
  f.Allows s v ∨ f = .weekday ∧ (v = 0 ∨ v = 7) ∧ (f.Allows s 0 ∨ f.Allows s 7)

/-- Apart from the days of the week, nothing is added to what is allowed. -/
theorem enumerates_includes (hf : f ≠ .weekday) (h : Enumerates (f.Allows s) vs) :
    Enumerates (f.Includes s) vs :=
  ⟨h.ascending, fun v => by simp [h.mem_iff, Includes, hf]⟩

/-- Both Sundays lie within the bounds, so closing a list of days adds what is missing and loses nothing. -/
theorem enumerates_closeSunday (hs : weekday.Accepts s) (h : Enumerates (weekday.Allows s) vs) :
    Enumerates (weekday.Includes s) (Expression.closeSunday vs) := by
  rw [Expression.closeSunday]
  split
  next hsunday =>
    refine ⟨weekday.pairwise_values.filter _, fun v => ?_⟩
    rw [h.mem_iff, h.mem_iff] at hsunday
    have hwithin : weekday.Allows s v → v ≤ 7 := fun hv => (hs.within hv).2
    have hbounds : v ∈ weekday.values ↔ v ≤ 7 := by simp [mem_values, low, high]
    simp only [List.mem_filter, hbounds, decide_eq_true_eq, h.mem_iff, Includes, hsunday, true_and, and_true]
    by_cases hv : weekday.Allows s v
    · simp [hv, hwithin hv]
    · simp only [hv, or_false, false_or]
      omega
  next hsunday =>
    rw [h.mem_iff, h.mem_iff] at hsunday
    exact ⟨h.ascending, fun v => by simp [h.mem_iff, Includes, hsunday]⟩

end Field

end ContainerInit.Cron
