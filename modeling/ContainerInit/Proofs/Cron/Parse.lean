import ContainerInit.Proofs.Cron.Meaning
import ContainerInit.Proofs.Text.Separated

/-! # What parsing an expression decides

The words of a text are read one for each field, and the first field that has no word or does not accept it
is the one that is blamed.

There are three things that can be wrong with the words of an expression: there are too few of them, one is not
accepted, or there are too many.  Each of them is blamed on a field, and `Field.Blamed` says on which.  Of any words, they
`Fit` the fields or one field is to blame, and not both; so the two relations decide about parsing together
(`exists_ofFields_eq_ok`, `ofFields_eq_error`).

What has been parsed `Means` what its words say: the values that each field allows, and which fields have a star.  The
stars are kept since they decide how a day is matched.  `Follows` gathers all this for a text and a result. -/

namespace ContainerInit.Cron

namespace Field

/-- The fields in the order of their words. -/
def inOrder : List Field := [.minute, .hour, .day, .month, .weekday]

/-- The fields take one word each, all of them and no more. -/
def Fit (fs : List Field) (ws : List (List Char)) : Prop := List.Forall₂ Accepts fs ws

/-- The field is to blame: the first whose word is missing or not accepted, or the day of the week if all words
are accepted and there are more of them. -/
inductive Blamed : List Field → List (List Char) → Field → Prop
  | missing {f : Field} {fs : List Field} : Blamed (f :: fs) [] f
  | invalid {f : Field} {fs : List Field} {w : List Char} {ws : List (List Char)} :
      ¬ f.Accepts w → Blamed (f :: fs) (w :: ws) f
  | later {f g : Field} {fs : List Field} {w : List Char} {ws : List (List Char)} :
      f.Accepts w → Blamed fs ws g → Blamed (f :: fs) (w :: ws) g
  | surplus {w : List Char} {ws : List (List Char)} : Blamed [] (w :: ws) .weekday

variable {f : Field} {fs : List Field} {w : List Char} {ws : List (List Char)}

/-- Words fit the fields, or some field is to blame. -/
theorem fit_or_blamed (fs : List Field) (ws : List (List Char)) : Fit fs ws ∨ ∃ f, Blamed fs ws f := by
  induction fs generalizing ws with
  | nil =>
    cases ws with
    | nil => exact .inl .nil
    | cons w ws => exact .inr ⟨_, .surplus⟩
  | cons f fs ih =>
    cases ws with
    | nil => exact .inr ⟨f, .missing⟩
    | cons w ws =>
      by_cases hw : f.Accepts w
      · rcases ih ws with h | ⟨g, h⟩
        · exact .inl (.cons hw h)
        · exact .inr ⟨g, .later hw h⟩
      · exact .inr ⟨f, .invalid hw⟩

/-- Words for which a field is to blame do not fit. -/
theorem Blamed.not_fit (h : Blamed fs ws f) : ¬ Fit fs ws := by
  intro hfit
  induction h with
  | missing => cases hfit
  | invalid hw => exact hw (List.forall₂_cons.mp hfit).1
  | later _ _ ih => exact ih (List.forall₂_cons.mp hfit).2
  | surplus => cases hfit

end Field

namespace Expression

variable {f g : Field} {fs : List Field} {w : List Char} {ws : List (List Char)}

/-- The values of a field. -/
def allowed (e : Expression) : Field → List Nat
  | .minute => e.minutes
  | .hour => e.hours
  | .day => e.days
  | .month => e.months
  | .weekday => e.weekdays

/-- The expression means what the words say. The stars are the fields whose words begin with one, months apart. -/
structure Means (ws : List (List Char)) (e : Expression) : Prop where
  allowed : ∀ f w, (f, w) ∈ Field.inOrder.zip ws → Enumerates (f.Includes w) (e.allowed f)
  stars : ∀ f, f ∈ e.stars ↔ f ≠ .month ∧ ∃ w, (f, w) ∈ Field.inOrder.zip ws ∧ w.head? = some '*'
  reboot : e.reboot = false

/-- A field has a star if its word begins with one, months apart. -/
theorem mem_starred_iff :
    f ∈ starred ws ↔ f ≠ .month ∧ ∃ w, (f, w) ∈ Field.inOrder.zip ws ∧ w.head? = some '*' := by
  rw [starred, List.mem_filterMap]
  constructor
  · rintro ⟨⟨g, w⟩, h, hf⟩
    obtain ⟨⟨hm, hs⟩, rfl⟩ : (g ≠ .month ∧ w.head? = some '*') ∧ g = f := by simpa using hf
    exact ⟨hm, w, h, hs⟩
  · rintro ⟨hm, w, h, hs⟩
    exact ⟨(f, w), h, if_pos ⟨hm, hs⟩⟩

/-- A word that is read leaves the words behind it. -/
theorem nextField_bind_eq {α : Type} {vs : List Nat} (h : f.read? w = some vs)
    (k : List Nat × List (List Char) → Except Cause α) : (nextField f (w :: ws) >>= k) = k (vs, ws) := by
  rw [nextField, h]
  rfl

/-- A field that is blamed at the next word or later keeps the blame. -/
theorem nextField_bind_eq_error {α : Type} {k : List Nat × List (List Char) → Except Cause α}
    (h : Field.Blamed (f :: fs) ws g)
    (hk : ∀ vs ws, Field.Blamed fs ws g → k (vs, ws) = .error (.badField g)) :
    (nextField f ws >>= k) = .error (.badField g) := by
  cases h with
  | missing => rfl
  | invalid hw =>
    rw [nextField, Field.read?_eq_none_of_not_accepts hw]
    rfl
  | later hw h =>
    obtain ⟨vs, hvs, -⟩ := hw.exists_read?_eq
    rw [nextField_bind_eq hvs]
    exact hk vs _ h

/-- The error names the field that is to blame. -/
theorem ofFields_eq_error (h : Field.Blamed Field.inOrder ws f) (source : String) :
    ofFields source ws = .error (.badField f) := by
  refine nextField_bind_eq_error h fun minutes ws h => ?_
  refine nextField_bind_eq_error h fun hours ws h => ?_
  refine nextField_bind_eq_error h fun days ws h => ?_
  refine nextField_bind_eq_error h fun months ws h => ?_
  refine nextField_bind_eq_error h fun weekdays ws h => ?_
  cases h with
  | surplus => rfl

/-- Words that fit make an expression which means what they say. -/
theorem exists_ofFields_eq_ok (h : Field.Fit Field.inOrder ws) (source : String) :
    ∃ e, ofFields source ws = .ok e ∧ e.source = source ∧ e.Means ws := by
  obtain _ | ⟨hm, _ | ⟨hh, _ | ⟨hd, _ | ⟨ho, _ | ⟨hw, _ | -⟩⟩⟩⟩⟩ := h
  obtain ⟨minutes, hm, hminutes⟩ := hm.exists_read?_eq
  obtain ⟨hours, hh, hhours⟩ := hh.exists_read?_eq
  obtain ⟨days, hd, hdays⟩ := hd.exists_read?_eq
  obtain ⟨months, ho, hmonths⟩ := ho.exists_read?_eq
  obtain ⟨weekdays, hr, hweekdays⟩ := hw.exists_read?_eq
  refine ⟨{ source, minutes, hours, days, months, weekdays := closeSunday weekdays, stars := starred _ },
    ?_, rfl, ⟨fun f w h => ?_, fun _ => mem_starred_iff, rfl⟩⟩
  · simp only [ofFields, nextField_bind_eq hm, nextField_bind_eq hh, nextField_bind_eq hd, nextField_bind_eq ho,
      nextField_bind_eq hr]
    rfl
  · simp only [Field.inOrder, List.zip_cons_cons, List.zip_nil_left, List.mem_cons, List.not_mem_nil, or_false,
      Prod.mk.injEq] at h
    rcases h with ⟨rfl, rfl⟩ | ⟨rfl, rfl⟩ | ⟨rfl, rfl⟩ | ⟨rfl, rfl⟩ | ⟨rfl, rfl⟩
    · exact Field.enumerates_includes (by decide) hminutes
    · exact Field.enumerates_includes (by decide) hhours
    · exact Field.enumerates_includes (by decide) hdays
    · exact Field.enumerates_includes (by decide) hmonths
    · exact Field.enumerates_closeSunday hw hweekdays

/-- An expression that is no shortcut is parsed as its words. -/
theorem parse_eq_ofFields {source : String} (h : (Text.trim source.toList).head? ≠ some '@') :
    parse source = (ofFields source (Text.fields source.toList)).mapError fun cause => ⟨source, cause⟩ := by
  rw [parse, ← Text.fields_trim]
  split
  next word hs => simp [hs] at h
  next => rfl

/-- The result follows from the words of the text: an expression that means what they say if they fit the fields,
and else an error that quotes the text and names the field that is to blame. -/
structure Follows (source : String) (ws : List (List Char)) (result : Except ParseError Expression) : Prop where
  words : ∀ ws', Text.Separated source.toList ws' ↔ ws' = ws
  ok_iff : (∃ e, result = .ok e) ↔ Field.Fit Field.inOrder ws
  means : ∀ e, result = .ok e → e.source = source ∧ e.Means ws
  blames : ∀ err, result = .error err → err.text = source ∧
    ∃ f, err.cause = .badField f ∧ Field.Blamed Field.inOrder ws f

/-- A text that does not begin with an at sign has one decomposition into words, and the result of parsing it
follows from these: an expression that means them if they fit, and an error that quotes the text and names the field
to blame if they do not. -/
theorem parse_follows_words (source : String) (h : (Text.trim source.toList).head? ≠ some '@') :
    ∃ ws, Follows source ws (parse source) := by
  have hwords (ws : List (List Char)) :
      Text.Separated source.toList ws ↔ ws = Text.fields source.toList :=
    Text.separated_iff.trans eq_comm
  refine ⟨Text.fields source.toList, ?_⟩
  rw [parse_eq_ofFields h]
  rcases Field.fit_or_blamed Field.inOrder (Text.fields source.toList) with hfit | ⟨f, hf⟩
  · obtain ⟨e, he, hsource, hmeans⟩ := exists_ofFields_eq_ok hfit source
    rw [he]
    refine ⟨hwords, ⟨fun _ => hfit, fun _ => ⟨e, rfl⟩⟩, ?_, nofun⟩
    rintro _ ⟨rfl⟩
    exact ⟨hsource, hmeans⟩
  · rw [ofFields_eq_error hf]
    refine ⟨hwords, ⟨nofun, fun hfit => absurd hfit hf.not_fit⟩, nofun, ?_⟩
    rintro _ ⟨rfl⟩
    exact ⟨rfl, f, rfl, hf⟩

/-- Every quarter of an hour at work, on some days of two months. -/
theorem parse_follows_words_officeHours :
    (Text.trim "*/15 9-17 * jan,JUL mon-5/2".toList).head? ≠ some '@' ∧
      ∃ ws, Follows "*/15 9-17 * jan,JUL mon-5/2" ws (parse "*/15 9-17 * jan,JUL mon-5/2") :=
  ⟨by decide, parse_follows_words _ (by decide)⟩

end Expression

end ContainerInit.Cron
