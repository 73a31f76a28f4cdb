import ContainerInit.Text.Decimal
import Mathlib.Data.List.Induction

/-! # Numerals

What a text of digits stands for, one digit after the other, and that `natBelow?` reads the numerals below
its bound and no other text.

`Numeral` is the relation between a text and its value, built from the left: another digit makes ten times the value
with the digit added.  The reader goes through the same text with an accumulator.  The two meet in `digitsValue`, of
which `digitsValue_concat` is the recursion by the last digit, so that each induction here is on the way in which a
numeral has been built. -/

namespace ContainerInit.Text

/-- The text is a decimal numeral of that value. -/
inductive Numeral : List Char → Nat → Prop
  | digit {d : Char} : d.isDigit → Numeral [d] (d.toNat - '0'.toNat)
  | next {ds : List Char} {d : Char} {n : Nat} :
      Numeral ds n → d.isDigit → Numeral (ds ++ [d]) (10 * n + (d.toNat - '0'.toNat))

variable {ds : List Char} {n bound : Nat}

theorem digitsValue_concat (ds : List Char) (d : Char) :
    digitsValue (ds ++ [d]) = 10 * digitsValue ds + (d.toNat - '0'.toNat) := by
  simp [digitsValue]

namespace Numeral

/-- There is no empty numeral. -/
theorem ne_nil (h : Numeral ds n) : ds ≠ [] := by
  cases h <;> simp

/-- A numeral is made of digits. -/
theorem isDigit (h : Numeral ds n) : ∀ d ∈ ds, d.isDigit := by
  induction h with
  | digit hd => simpa using hd
  | next _ hd ih =>
    intro d h
    rcases List.mem_append.mp h with h | h
    · exact ih d h
    · exact List.mem_singleton.mp h ▸ hd

/-- A numeral has one value, which is what the text is read as. -/
theorem digitsValue_eq (h : Numeral ds n) : digitsValue ds = n := by
  induction h with
  | digit => simp [digitsValue]
  | next _ _ ih => rw [digitsValue_concat, ih]

/-- Every text of digits is a numeral; the induction is on its last digit, as the numeral is built. -/
theorem of_isDigit (hne : ds ≠ []) (hd : ∀ d ∈ ds, d.isDigit) : Numeral ds (digitsValue ds) := by
  induction ds using List.reverseRecOn with
  | nil => exact absurd rfl hne
  | append_singleton ds d ih =>
    have hlast : d.isDigit := hd d (by simp)
    rw [digitsValue_concat]
    by_cases hds : ds = []
    · subst hds
      simpa [digitsValue] using digit hlast
    · exact next (ih hds fun c hc => hd c (List.mem_append_left _ hc)) hlast

end Numeral

/-- What is read as a number are the numerals below the bound, with their values. -/
theorem natBelow?_eq_some_iff : natBelow? bound ds = some n ↔ Numeral ds n ∧ n < bound := by
  rw [natBelow?]
  constructor
  · intro h
    split at h
    next hs =>
      obtain ⟨hne, hall, hlt⟩ := hs
      obtain rfl := Option.some.inj h
      exact ⟨.of_isDigit hne (List.all_eq_true.mp hall), hlt⟩
    next => cases h
  · rintro ⟨h, hlt⟩
    obtain rfl := h.digitsValue_eq
    exact if_pos ⟨h.ne_nil, List.all_eq_true.mpr h.isDigit, hlt⟩

end ContainerInit.Text
