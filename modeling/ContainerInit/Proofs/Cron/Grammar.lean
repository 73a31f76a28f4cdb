import ContainerInit.Cron.Field
import ContainerInit.Proofs.Text.Numeral
import ContainerInit.Proofs.Text.Separator
import Mathlib.Data.Option.Basic

/-! # The grammar of a cron field

A value is a numeral or a name, an element is a star, a value or a range, and a field is a list of elements.
The readers cut a text at its separators, the grammar builds it up; they agree since no value contains a
separator or a star.

## The grammar

`Field.Denotes`, `Element.Derives` and `Field.Derives` are the three levels, each a relation between a text and what it
stands for.  No level mentions how a text is cut.

## The readers

On each level there is an equivalence with a reader: `value?_eq_some_iff`, `read?_eq_some_iff` and
`elements?_eq_some_iff`.  From the left to the right, what has been cut off is put together again.  From the right to the
left, a text that was put together has to be cut where it was joined, and this is what the four `marks` are for: none of
them is in a value, since values are made of digits and letters only.  The characters of a name are letters in lower
case after they have been lowered, and so they were letters before (`isAlpha_of_name`). -/

namespace ContainerInit.Cron

open Text (Numeral)

/-- The text stands for a value: a numeral below the bound of 32 bits, or a name in any ASCII case. -/
inductive Field.Denotes (f : Field) : List Char → Nat → Prop
  | numeral {s : List Char} {v : Nat} : Numeral s v → v < Nat.pow 2 32 → f.Denotes s v
  | name {s : List Char} {i : Nat} {n : String} :
      f.names[i]? = some n → s.map Char.toLower = n.toList → f.Denotes s (f.low + i)

/-- The text that gives a step, or leaves it out. -/
inductive StepText : List Char → Option Nat → Prop
  | absent : StepText [] none
  | given {s : List Char} {n : Nat} : Numeral s n → n < Nat.pow 2 32 → StepText ('/' :: s) (some n)

/-- The text is that element of the field. -/
inductive Element.Derives (f : Field) : List Char → Element → Prop
  | star {u : List Char} {n : Option Nat} : StepText u n → Derives f ('*' :: u) (.star n)
  | value {s : List Char} {v : Nat} : f.Denotes s v → Derives f s (.value v)
  | range {s t u : List Char} {a b : Nat} {n : Option Nat} :
      f.Denotes s a → f.Denotes t b → StepText u n → Derives f (s ++ '-' :: (t ++ u)) (.range a b n)

/-- The text is a list of those elements, with a comma between one and the next. -/
inductive Field.Derives (f : Field) : List Char → List Element → Prop
  | last {s : List Char} {e : Element} : e.Derives f s → f.Derives s [e]
  | more {s t : List Char} {e : Element} {es : List Element} :
      e.Derives f s → f.Derives t es → f.Derives (s ++ ',' :: t) (e :: es)

variable {f : Field} {s t : List Char} {c : Char} {v : Nat} {n : Option Nat} {e : Element}

/-! ## Values -/

/-- The characters that are no part of a value. -/
def marks : List Char := ['*', ',', '-', '/']

/-- A mark is neither a digit nor a letter. -/
theorem of_mem_marks (hc : c ∈ marks) : c.isDigit = false ∧ c.isAlpha = false := by
  simp only [marks, List.mem_cons, List.not_mem_nil, or_false] at hc
  rcases hc with rfl | rfl | rfl | rfl <;> exact ⟨rfl, rfl⟩

/-- A letter is no digit. -/
theorem not_isDigit_of_isAlpha (hc : c.isAlpha) : ¬ c.isDigit := by
  intro hd
  have hletter : (decide (c.val ≥ 'A'.val ∧ c.val ≤ 'Z'.val) || (c.val ≥ 'a'.val && c.val ≤ 'z'.val)) = true := hc
  have hdigit : (c.val ≥ '0'.val && c.val ≤ '9'.val) = true := hd
  have hbounds : 'A'.val.toNat = 65 ∧ 'a'.val.toNat = 97 ∧ '9'.val.toNat = 57 := ⟨rfl, rfl, rfl⟩
  simp only [Bool.or_eq_true, Bool.and_eq_true, decide_eq_true_eq, ge_iff_le, UInt32.le_iff_toNat_le] at hletter hdigit
  omega

/-- What is a letter in lower case is a letter. -/
theorem isAlpha_of_isLower_toLower (hc : c.toLower.isLower) : c.isAlpha := by
  unfold Char.toLower at hc
  split at hc
  · exact Bool.or_eq_true_iff.mpr (.inl (decide_eq_true ‹_ ∧ _›))
  · exact Bool.or_eq_true_iff.mpr (.inr hc)

namespace Field

/-- Names are written in letters, whatever their case. -/
theorem isAlpha_of_name {n : String} (hn : n ∈ f.names) (h : s.map Char.toLower = n.toList) (hc : c ∈ s) :
    c.isAlpha := by
  have hall : f.names.all (fun n => n.toList.all Char.isLower) = true := by cases f <;> decide
  have hlow : c.toLower.isLower :=
    List.all_eq_true.mp (List.all_eq_true.mp hall n hn) _ (h ▸ List.mem_map_of_mem hc)
  exact isAlpha_of_isLower_toLower hlow

/-- No two values of a field have the same name. -/
theorem names_pairwise (f : Field) : f.names.Pairwise (·.toList ≠ ·.toList) := by
  cases f <;> decide

namespace Denotes

/-- There is no mark in a value. -/
theorem notMem_of_mem_marks (h : f.Denotes s v) (hc : c ∈ marks) : c ∉ s := by
  intro hs
  cases h with
  | numeral h _ => exact absurd (h.isDigit c hs) (by simp [of_mem_marks hc])
  | name hn h => exact absurd (isAlpha_of_name (List.mem_of_getElem? hn) h hs) (by simp [of_mem_marks hc])

theorem comma_notMem (h : f.Denotes s v) : ',' ∉ s :=
  h.notMem_of_mem_marks (by simp [marks])

theorem dash_notMem (h : f.Denotes s v) : '-' ∉ s :=
  h.notMem_of_mem_marks (by simp [marks])

theorem slash_notMem (h : f.Denotes s v) : '/' ∉ s :=
  h.notMem_of_mem_marks (by simp [marks])

/-- A star is no value. -/
theorem ne_star (h : f.Denotes s v) : s ≠ ['*'] := by
  rintro rfl
  exact h.notMem_of_mem_marks (by simp [marks]) List.mem_cons_self

end Denotes

/-- A name is no numeral. -/
theorem natBelow?_of_name {n : String} (hn : n ∈ f.names) (h : s.map Char.toLower = n.toList) (bound : Nat) :
    Text.natBelow? bound s = none := by
  rw [Text.natBelow?, if_neg]
  rintro ⟨hne, hd, -⟩
  obtain ⟨c, s, rfl⟩ := List.exists_cons_of_ne_nil hne
  have hc : c ∈ c :: s := List.mem_cons_self
  exact not_isDigit_of_isAlpha (isAlpha_of_name hn h hc) (List.all_eq_true.mp hd c hc)

/-- A name is found at the place where it stands among the names of the field. -/
theorem findIdx?_names_eq_some_iff {i : Nat} :
    f.names.findIdx? (fun n => n.toList = s.map Char.toLower) = some i ↔
      ∃ n, f.names[i]? = some n ∧ s.map Char.toLower = n.toList := by
  rw [List.findIdx?_eq_some_iff_getElem]
  constructor
  · rintro ⟨hi, h, -⟩
    exact ⟨_, List.getElem?_eq_getElem hi, (of_decide_eq_true h).symm⟩
  · rintro ⟨n, hn, h⟩
    obtain ⟨hi, rfl⟩ := List.getElem?_eq_some_iff.mp hn
    refine ⟨hi, decide_eq_true h.symm, fun j hj hs => ?_⟩
    exact List.pairwise_iff_getElem.mp f.names_pairwise j i _ hi hj ((of_decide_eq_true hs).trans h)

/-- What is read as a value is what denotes it. -/
theorem value?_eq_some_iff : f.value? s = some v ↔ f.Denotes s v := by
  constructor
  · intro h
    rcases (Option.orElse_eq_some ..).mp h with h | ⟨-, h⟩
    · obtain ⟨hs, hv⟩ := Text.natBelow?_eq_some_iff.mp h
      exact .numeral hs hv
    · obtain ⟨i, hi, rfl⟩ := Option.map_eq_some_iff.mp h
      obtain ⟨n, hn, hs⟩ := findIdx?_names_eq_some_iff.mp hi
      exact .name hn hs
  · intro h
    apply (Option.orElse_eq_some ..).mpr
    cases h with
    | numeral hs hv => exact .inl (Text.natBelow?_eq_some_iff.mpr ⟨hs, hv⟩)
    | @name i n hn hs =>
      refine .inr ⟨natBelow?_of_name (List.mem_of_getElem? hn) hs _, ?_⟩
      rw [findIdx?_names_eq_some_iff.mpr ⟨n, hn, hs⟩, Option.map_some]

end Field

/-! ## Elements -/

namespace Element

/-- Reads what was cut off behind a slash, if there was one. -/
def step? : Option (List Char) → Option (Option Nat)
  | none => some none
  | some ds => (Text.natBelow? (Nat.pow 2 32) ds).map some

/-- Reads what stands before the step; a single value has none. -/
def span? (f : Field) (s : List Char) (n : Option Nat) : Option Element :=
  if s = ['*'] then some (.star n)
  else match Text.cut '-' s with
    | (a, some b) => do return .range (← f.value? a) (← f.value? b) n
    | (a, none) => if n = none then (f.value? a).map .value else none

/-- An element is read in two parts, the step and what stands before it. -/
theorem read?_eq (f : Field) (s : List Char) :
    read? f s = (step? (Text.cut '/' s).2).bind (span? f (Text.cut '/' s).1) := by
  obtain ⟨⟨a, st⟩, hcut⟩ : ∃ x, Text.cut '/' s = x := ⟨_, rfl⟩
  obtain ⟨⟨x, y⟩, hspan⟩ : ∃ x, Text.cut '-' a = x := ⟨_, rfl⟩
  rw [read?, hcut]
  cases st with
  | none => by_cases hstar : a = ['*'] <;> cases y <;> simp [step?, span?, hstar, hspan]
  | some ds =>
    cases hk : Text.natBelow? (Nat.pow 2 32) ds with
    | none => simp [step?, hk]
    | some k => by_cases hstar : a = ['*'] <;> cases y <;> simp [step?, span?, hstar, hspan, hk]

/-- What is read as a step is the text of one, with its slash. -/
theorem stepText_of_step? {st : Option (List Char)} (h : step? st = some n) :
    StepText ((st.map ('/' :: ·)).getD []) n := by
  cases st with
  | none =>
    obtain rfl := Option.some.inj h
    exact .absent
  | some ds =>
    obtain ⟨k, hk, rfl⟩ := Option.map_eq_some_iff.mp h
    obtain ⟨hds, hlt⟩ := Text.natBelow?_eq_some_iff.mp hk
    exact .given hds hlt

/-- A text with a step is cut where the step begins. -/
theorem exists_cut_append_eq {u : List Char} (hs : '/' ∉ s) (hu : StepText u n) :
    ∃ st, Text.cut '/' (s ++ u) = (s, st) ∧ step? st = some n := by
  cases hu with
  | absent => exact ⟨none, by rw [List.append_nil, Text.cut_of_notMem hs], rfl⟩
  | given hds hlt =>
    refine ⟨some _, Text.cut_append_sep hs _, ?_⟩
    rw [step?, Text.natBelow?_eq_some_iff.mpr ⟨hds, hlt⟩, Option.map_some]

/-- What is read before the step is put together with it. -/
theorem derives_of_span? {u : List Char} (h : span? f s n = some e) (hu : StepText u n) :
    Derives f (s ++ u) e := by
  obtain ⟨⟨a, b⟩, hcut⟩ : ∃ x, Text.cut '-' s = x := ⟨_, rfl⟩
  have hs := Text.eq_append_of_cut_eq hcut
  rw [span?] at h
  split at h
  next hstar =>
    obtain rfl := Option.some.inj h
    rw [hstar]
    exact .star hu
  rw [hcut] at h
  cases b with
  | some b =>
    obtain ⟨x, hx, y, hy, rfl⟩ : ∃ x, f.value? a = some x ∧ ∃ y, f.value? b = some y ∧ range x y n = e := by
      simpa [Option.bind_eq_some_iff] using h
    simpa [hs] using Derives.range (Field.value?_eq_some_iff.mp hx) (Field.value?_eq_some_iff.mp hy) hu
  | none =>
    cases hu with
    | absent =>
      obtain ⟨v, hv, rfl⟩ := Option.map_eq_some_iff.mp h
      simpa [hs] using Derives.value (Field.value?_eq_some_iff.mp hv)
    | given => simp at h

/-- Where the step begins, no slash stands before it. -/
theorem Derives.exists_span?_eq (h : Derives f s e) :
    ∃ a u n, s = a ++ u ∧ StepText u n ∧ '/' ∉ a ∧ span? f a n = some e := by
  cases h with
  | @star u n hu => exact ⟨['*'], u, n, rfl, hu, by decide, rfl⟩
  | value hs =>
    refine ⟨s, [], none, (List.append_nil s).symm, .absent, hs.slash_notMem, ?_⟩
    simp [span?, hs.ne_star, Text.cut_of_notMem hs.dash_notMem, Field.value?_eq_some_iff.mpr hs]
  | @range a b u x y n ha hb hu =>
    have hslash : '/' ∉ a ++ '-' :: b := by simp [ha.slash_notMem, hb.slash_notMem]
    have hne : a ++ '-' :: b ≠ ['*'] := by
      intro h
      have hdash : '-' ∈ a ++ '-' :: b := by simp
      simp [h] at hdash
    refine ⟨a ++ '-' :: b, u, n, by simp, hu, hslash, ?_⟩
    rw [span?, if_neg hne, Text.cut_append_sep ha.dash_notMem]
    simp [Field.value?_eq_some_iff.mpr ha, Field.value?_eq_some_iff.mpr hb]

/-- What is read as an element derives it. -/
theorem read?_eq_some_iff : read? f s = some e ↔ Derives f s e := by
  rw [read?_eq, Option.bind_eq_some_iff]
  constructor
  · rintro ⟨n, hn, he⟩
    rw [Text.eq_append_of_cut_eq (s := s) rfl]
    exact derives_of_span? he (stepText_of_step? hn)
  · intro h
    obtain ⟨a, u, n, rfl, hu, ha, he⟩ := h.exists_span?_eq
    obtain ⟨st, hcut, hst⟩ := exists_cut_append_eq ha hu
    rw [hcut]
    exact ⟨n, hst, he⟩

end Element

/-! ## Lists of elements -/

/-- There is no comma in a step. -/
theorem StepText.comma_notMem (h : StepText s n) : ',' ∉ s := by
  cases h with
  | absent => exact List.not_mem_nil
  | given hds _ =>
    intro hc
    rcases List.mem_cons.mp hc with hc | hc
    · exact absurd hc (by decide)
    · exact absurd (hds.isDigit _ hc) (by decide)

/-- There is no comma in an element. -/
theorem Element.Derives.comma_notMem (h : Element.Derives f s e) : ',' ∉ s := by
  cases h with
  | star hu => simpa using hu.comma_notMem
  | value hs => exact hs.comma_notMem
  | range ha hb hu => simp [ha.comma_notMem, hb.comma_notMem, hu.comma_notMem]

namespace Field

variable {es : List Element}

/-- A text without a comma is read as one element. -/
theorem elements?_eq_some_iff_of_notMem (h : ',' ∉ s) :
    f.elements? s = some es ↔ ∃ e, Element.read? f s = some e ∧ [e] = es := by
  simp [elements?, Text.pieces_of_notMem h, Option.bind_eq_some_iff]

/-- A text is read up to its first comma and behind it. -/
theorem elements?_append_eq_some_iff (h : ',' ∉ s) :
    f.elements? (s ++ ',' :: t) = some es ↔
      ∃ e, Element.read? f s = some e ∧ ∃ es', f.elements? t = some es' ∧ e :: es' = es := by
  simp [elements?, Text.pieces_append_sep h, Option.bind_eq_some_iff]

/-- A list of elements is read as what it derives. -/
theorem Derives.elements?_eq (h : f.Derives s es) : f.elements? s = some es := by
  induction h with
  | last h => exact (elements?_eq_some_iff_of_notMem h.comma_notMem).mpr ⟨_, Element.read?_eq_some_iff.mpr h, rfl⟩
  | more h _ ih => exact (elements?_append_eq_some_iff h.comma_notMem).mpr ⟨_, Element.read?_eq_some_iff.mpr h, _, ih, rfl⟩

/-- A list that was read is its last element, or goes on behind its first comma. -/
theorem elements?_cases (h : f.elements? s = some es) :
    (∃ e, e.Derives f s ∧ es = [e]) ∨
      ∃ a t e es', s = a ++ ',' :: t ∧ e.Derives f a ∧ f.elements? t = some es' ∧ es = e :: es' := by
  by_cases hs : ',' ∈ s
  · obtain ⟨a, t, rfl, ha⟩ := List.eq_append_cons_of_mem hs
    obtain ⟨e, he, es', ht, rfl⟩ := (elements?_append_eq_some_iff ha).mp h
    exact .inr ⟨a, t, e, es', rfl, Element.read?_eq_some_iff.mp he, ht, rfl⟩
  · obtain ⟨e, he, rfl⟩ := (elements?_eq_some_iff_of_notMem hs).mp h
    exact .inl ⟨e, Element.read?_eq_some_iff.mp he, rfl⟩

/-- What is read as a list of elements derives it. The induction is on the list that has been read. -/
theorem derives_of_elements? (h : f.elements? s = some es) : f.Derives s es := by
  induction es generalizing s with
  | nil => rcases elements?_cases h with ⟨_, _, h⟩ | ⟨_, _, _, _, _, _, _, h⟩ <;> cases h
  | cons e es ih =>
    rcases elements?_cases h with ⟨_, he, h⟩ | ⟨a, t, _, _, rfl, he, ht, h⟩
    · cases h
      exact .last he
    · cases h
      exact .more he (ih ht)

theorem elements?_eq_some_iff : f.elements? s = some es ↔ f.Derives s es :=
  ⟨derives_of_elements?, Derives.elements?_eq⟩

end Field

end ContainerInit.Cron
