import ContainerInit.Text.Blank
import Mathlib.Data.List.TakeWhile

/-! # Words between white space

A text has one decomposition into words with white space between and around them, which is what `fields`
finds; trimming the text first changes nothing.

`Separated` is the decomposition as a relation.  It is given by the first word, what is in front of it and what comes
after it, so that a proof about a text goes from word to word.  `fields` goes from character to character instead, and
is described by what another character in front does: nothing if it is blank (`fields_cons_blank`), and otherwise it
is a word of its own or lengthens the first one (`fields_cons_last`, `fields_cons_word`).  That every text has a
decomposition follows by going along characters, and that there is only one by going along words. -/

namespace ContainerInit.Text

/-- The text consists of these words, with white space between them and at will around them. -/
inductive Separated : List Char → List (List Char) → Prop
  | blank {b : List Char} : (∀ c ∈ b, isBlank c) → Separated b []
  | word {b w t : List Char} {ws : List (List Char)} :
      (∀ c ∈ b, isBlank c) → w ≠ [] → (∀ c ∈ w, ¬ isBlank c) → (∀ c ∈ t.head?, isBlank c) →
        Separated t ws → Separated (b ++ (w ++ t)) (w :: ws)

variable {b w s t : List Char} {ws : List (List Char)}

/-- White space in front does not count. -/
theorem fields_cons_blank {c : Char} (hc : isBlank c) (s : List Char) : fields (c :: s) = fields s := by
  rw [fields.eq_def]
  exact if_pos hc

/-- A character before the end or before white space is a word of its own. -/
theorem fields_cons_last {c : Char} (hc : ¬ isBlank c) (ht : ∀ d ∈ t.head?, isBlank d) :
    fields (c :: t) = [c] :: fields t := by
  rw [fields.eq_def]
  simp only [if_neg hc]
  split
  next d _ _ _ h => rw [h, if_pos (ht d rfl)]
  next => rfl

/-- A character before a word lengthens it. -/
theorem fields_cons_word {c d : Char} (hc : ¬ isBlank c) (hd : ¬ isBlank d)
    (h : fields (d :: s) = w :: ws) : fields (c :: d :: s) = (c :: w) :: ws := by
  rw [fields.eq_def]
  simp only [if_neg hc, h]
  exact if_neg hd

theorem fields_blank_append (hb : ∀ c ∈ b, isBlank c) (s : List Char) : fields (b ++ s) = fields s := by
  induction b with
  | nil => rfl
  | cons c b ih =>
    rw [List.cons_append, fields_cons_blank (hb c List.mem_cons_self)]
    exact ih fun d hd => hb d (List.mem_cons_of_mem c hd)

/-- A word before the end or before white space is the first one. -/
theorem fields_word_append (hne : w ≠ []) (hw : ∀ c ∈ w, ¬ isBlank c) (ht : ∀ c ∈ t.head?, isBlank c) :
    fields (w ++ t) = w :: fields t := by
  induction w with
  | nil => exact absurd rfl hne
  | cons c w ih =>
    have hc : ¬ isBlank c := hw c List.mem_cons_self
    cases w with
    | nil => exact fields_cons_last hc ht
    | cons d w =>
      have hd : ¬ isBlank d := hw d (by simp)
      exact fields_cons_word hc hd
        (ih (List.cons_ne_nil d w) fun e he => hw e (List.mem_cons_of_mem c he))

namespace Separated

/-- A decomposition into words is what `fields` finds. -/
theorem fields_eq (h : Separated s ws) : fields s = ws := by
  induction h with
  | @blank b hb => rw [← List.append_nil b, fields_blank_append hb, fields]
  | word hb hne hw ht _ ih => rw [fields_blank_append hb, fields_word_append hne hw ht, ih]

theorem blank_append (hb : ∀ c ∈ b, isBlank c) (h : Separated s ws) : Separated (b ++ s) ws := by
  cases h with
  | blank hs => exact blank fun c hc => (List.mem_append.mp hc).elim (hb c) (hs c)
  | @word b' w t ws hb' hne hw ht h =>
    rw [← List.append_assoc]
    exact word (fun c hc => (List.mem_append.mp hc).elim (hb c) (hb' c)) hne hw ht h

/-- White space may be put at the end. -/
theorem append_blank (h : Separated s ws) (hb : ∀ c ∈ b, isBlank c) : Separated (s ++ b) ws := by
  induction h with
  | blank hs => exact blank fun c hc => (List.mem_append.mp hc).elim (hs c) (hb c)
  | @word b' w t ws hb' hne hw ht _ ih =>
    rw [List.append_assoc, List.append_assoc]
    refine word hb' hne hw (fun c hc => ?_) ih
    rw [List.head?_append] at hc
    cases t with
    | nil => exact hb c (List.mem_of_mem_head? (by simpa using hc))
    | cons d t => exact ht c (by simpa using hc)

/-- A character in front of the words is a word of its own or lengthens the first. -/
theorem cons {c : Char} (hc : ¬ isBlank c) (h : Separated s ws) : ∃ ws, Separated (c :: s) ws := by
  have hw : ∀ d ∈ [c], ¬ isBlank d := by simpa using hc
  cases h with
  | @blank b hb =>
    exact ⟨_, word (b := []) nofun (List.cons_ne_nil c []) hw (fun d hd => hb d (List.mem_of_mem_head? hd))
      (blank hb)⟩
  | @word b w t ws hb hne hw' ht h =>
    cases b with
    | nil =>
      refine ⟨_, word (b := []) (w := c :: w) nofun (List.cons_ne_nil c w) (fun d hd => ?_) ht h⟩
      rcases List.mem_cons.mp hd with rfl | hd
      · exact hc
      · exact hw' d hd
    | cons d b =>
      refine ⟨_, word (b := []) nofun (List.cons_ne_nil c []) hw (fun e he => ?_)
        (word (b := d :: b) hb hne hw' ht h)⟩
      obtain rfl : d = e := by simpa using he
      exact hb d List.mem_cons_self

end Separated

/-- Every text can be decomposed into words. -/
theorem exists_separated (s : List Char) : ∃ ws, Separated s ws := by
  induction s with
  | nil => exact ⟨[], .blank nofun⟩
  | cons c s ih =>
    obtain ⟨ws, h⟩ := ih
    by_cases hc : isBlank c
    · exact ⟨ws, h.blank_append (b := [c]) (by simpa using hc)⟩
    · exact h.cons hc

/-- The words that `fields` finds are the only decomposition. -/
theorem separated_iff : Separated s ws ↔ fields s = ws := by
  constructor
  · exact Separated.fields_eq
  · rintro rfl
    obtain ⟨ws, h⟩ := exists_separated s
    rwa [h.fields_eq]

/-- The text with its two ends of white space. -/
theorem exists_eq_append_trim (s : List Char) :
    ∃ a b, (∀ c ∈ a, isBlank c) ∧ (∀ c ∈ b, isBlank c) ∧ s = a ++ (trim s ++ b) := by
  refine ⟨s.takeWhile isBlank, ((s.dropWhile isBlank).reverse.takeWhile isBlank).reverse,
    fun c hc => List.mem_takeWhile_imp hc, fun c hc => List.mem_takeWhile_imp (List.mem_reverse.mp hc), ?_⟩
  rw [trim, ← List.reverse_append, List.takeWhile_append_dropWhile, List.reverse_reverse,
    List.takeWhile_append_dropWhile]

/-- Trimming takes away no word and no part of one. -/
theorem fields_trim (s : List Char) : fields (trim s) = fields s := by
  obtain ⟨a, b, ha, hb, hs⟩ := exists_eq_append_trim s
  have h : Separated (trim s) (fields (trim s)) := separated_iff.mpr rfl
  have h' := (h.append_blank hb).blank_append ha
  rw [← hs] at h'
  exact h'.fields_eq.symm

theorem dropWhile_word_append (hne : w ≠ []) (hw : ∀ c ∈ w, ¬ isBlank c) (t : List Char) :
    (w ++ t).dropWhile isBlank = w ++ t := by
  obtain ⟨c, w, rfl⟩ := List.exists_cons_of_ne_nil hne
  exact List.dropWhile_cons_of_neg (hw c List.mem_cons_self)

/-- Trimming in front of a word at the end leaves that word where it is. -/
theorem dropWhile_append_word (hne : w ≠ []) (hw : ∀ c ∈ w, ¬ isBlank c) (t : List Char) :
    (t ++ w).dropWhile isBlank = t.dropWhile isBlank ++ w := by
  rw [List.dropWhile_append]
  split
  next h =>
    rw [List.isEmpty_iff.mp h, List.nil_append]
    simpa using dropWhile_word_append hne hw []
  next => rfl

/-- A trimmed text begins with its first word, and ends with it if that is the only one. -/
theorem Separated.exists_trim_eq (h : Separated s (w :: ws)) : ∃ t, trim s = w ++ t ∧ (ws = [] → t = []) := by
  cases h with
  | @word b _ t _ hb hne hw _ ht =>
    have hne' : w.reverse ≠ [] := List.reverse_ne_nil_iff.mpr hne
    have hw' : ∀ c ∈ w.reverse, ¬ isBlank c := fun c hc => hw c (List.mem_reverse.mp hc)
    refine ⟨(t.reverse.dropWhile isBlank).reverse, ?_, ?_⟩
    · rw [trim, List.dropWhile_append_of_pos hb, dropWhile_word_append hne hw, List.reverse_append,
        dropWhile_append_word hne' hw', List.reverse_append, List.reverse_reverse]
    · rintro rfl
      cases ht with
      | blank ht => simpa using ht

end ContainerInit.Text
