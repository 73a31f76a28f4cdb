import ContainerInit.Text.Split
import Mathlib.Data.List.Basic

/-! # Texts around a separator

A text that was cut is put together again with its separator, and a text that is put together with separators is
split into its pieces.

`cut` divides a text at the first separator, if there is one, and `pieces` at all of them.  The elements of a list in a
schedule, the bounds of a range, and the components of a path are read in this way. -/

namespace ContainerInit.Text

variable {sep : Char} {s a : List Char}

/-- What was cut off goes back behind the separator. -/
theorem eq_append_of_cut_eq {b : Option (List Char)} (h : cut sep s = (a, b)) :
    s = a ++ (b.map (sep :: ·)).getD [] := by
  by_cases hs : sep ∈ s
  · obtain ⟨x, y, rfl, hx⟩ := List.eq_append_cons_of_mem hs
    rw [cut_append_sep hx, Prod.mk.injEq] at h
    obtain ⟨rfl, rfl⟩ := h
    rfl
  · rw [cut_of_notMem hs, Prod.mk.injEq] at h
    obtain ⟨rfl, rfl⟩ := h
    simp

/-- Without a separator, the text is its only piece. -/
theorem pieces_of_notMem (h : sep ∉ s) : pieces sep s = [s] := by
  induction s with
  | nil => rfl
  | cons c s ih =>
    simp only [List.mem_cons, not_or] at h
    rw [pieces, if_neg (Ne.symm h.1), ih h.2]

/-- What is in front of the first separator is the first piece. -/
theorem pieces_append_sep (h : sep ∉ s) (t : List Char) :
    pieces sep (s ++ sep :: t) = s :: pieces sep t := by
  induction s with
  | nil => simp [pieces]
  | cons c s ih =>
    simp only [List.mem_cons, not_or] at h
    rw [List.cons_append, pieces, if_neg (Ne.symm h.1), ih h.2]

end ContainerInit.Text
