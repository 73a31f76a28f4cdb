import ContainerInit.Proofs.Calendar.Stepping
import ContainerInit.Proofs.Cron.Parse

/-! # Shortcuts

A shortcut stands for five fields. It is not read through them: it fills in the values itself, and three of
the shortcuts leave out the stars that decide how days are matched. They allow every day, and so match the same
instants all the same.

Whether a day has to match one of the two day fields or both is decided by stars: both, as soon as one of the fields has
a star (`AsksBothDays`).  In an expansion one of them always has.  Of the shortcuts `daily`, `midnight` and `hourly` none
has, so that by their own rule one of the fields is enough.  The rule makes no difference where every day is allowed
(`Abbreviates.matchesDay_iff`), provided that the instant has a day of the month and a day of the week at all, which is
where its soundness is needed.

`reboot` stands for no instant, and any other word after the at sign is an error, also a known one with something behind
it. -/

namespace ContainerInit.Calendar.Instant

variable {t : Instant}

/-! ## Days that fields allow -/

/-- The day of an instant is a value of the field. -/
theorem Sound.day_mem_values (h : t.Sound) : t.day ∈ Cron.Field.day.values :=
  Cron.Field.mem_values.mpr ⟨h.date.one_le_day, h.date.day_le.trans (daysInMonth_bounds ..).2⟩

theorem Sound.weekday_mem_values (h : t.Sound) : t.weekday ∈ Cron.Field.weekday.values := by
  refine Cron.Field.mem_values.mpr ⟨Nat.zero_le _, ?_⟩
  rw [h.weekday_eq]
  exact (weekdayOf_lt _).le

end ContainerInit.Calendar.Instant

namespace ContainerInit.Cron.Expression

open Calendar (Instant)

variable {source expansion : String} {word : List Char} {ws : List (List Char)} {e e' : Expression} {t : Instant}

/-- The shortcuts that stand for instants, each with the fields that it stands for. -/
def shortcuts : List (String × String) :=
  [("yearly", "0 0 1 1 *"), ("annually", "0 0 1 1 *"), ("monthly", "0 0 1 * *"), ("weekly", "0 0 * * 0"),
    ("daily", "0 0 * * *"), ("midnight", "0 0 * * *"), ("hourly", "0 * * * *")]

/-- Days are matched by both day fields, for one of them has a star. -/
def AsksBothDays (e : Expression) : Prop := .day ∈ e.stars ∨ .weekday ∈ e.stars

instance (e : Expression) : Decidable e.AsksBothDays :=
  inferInstanceAs (Decidable (_ ∨ _))

/-- With a star in one of the day fields, a day has to match both. -/
theorem matchesDay_of_both (h : e.AsksBothDays) : e.MatchesDay t ↔ t.day ∈ e.days ∧ t.weekday ∈ e.weekdays :=
  iff_of_eq (if_pos h)

/-- Without any star in them, one is enough. -/
theorem matchesDay_of_either (h : ¬ e.AsksBothDays) :
    e.MatchesDay t ↔ t.day ∈ e.days ∨ t.weekday ∈ e.weekdays :=
  iff_of_eq (if_neg h)

/-! ## Expansions -/

/-- The first allows the values of the second, which asks for both days; the first does as well, or it allows
every day. -/
structure Abbreviates (e e' : Expression) : Prop where
  allowed : ∀ f, e.allowed f = e'.allowed f
  reboot : e.reboot = e'.reboot
  asksBothDays : e'.AsksBothDays
  everyDay : ¬ e.AsksBothDays → e.days = Field.day.values ∧ e.weekdays = Field.weekday.values

/-- Where every day is allowed, it is the same whether one day field has to match or both. -/
theorem Abbreviates.matchesDay_iff (h : Abbreviates e e') (ht : t.Sound) : e.MatchesDay t ↔ e'.MatchesDay t := by
  have hdays : e.days = e'.days := h.allowed .day
  have hweekdays : e.weekdays = e'.weekdays := h.allowed .weekday
  rw [matchesDay_of_both h.asksBothDays, ← hdays, ← hweekdays]
  by_cases he : e.AsksBothDays
  · exact matchesDay_of_both he
  · obtain ⟨hday, hweekday⟩ := h.everyDay he
    rw [matchesDay_of_either he, hday, hweekday]
    exact iff_of_true (.inl ht.day_mem_values) ⟨ht.day_mem_values, ht.weekday_mem_values⟩

/-- What abbreviates an expression matches the same instants. -/
theorem Abbreviates.matches_iff (h : Abbreviates e e') (ht : t.Sound) : e.Matches t ↔ e'.Matches t := by
  have hminutes : e.minutes = e'.minutes := h.allowed .minute
  have hhours : e.hours = e'.hours := h.allowed .hour
  have hmonths : e.months = e'.months := h.allowed .month
  rw [Matches, Matches, h.reboot, hminutes, hhours, hmonths, h.matchesDay_iff ht]

/-- Every shortcut of the table is known and allows what its expansion says. -/
theorem exists_abbreviates {name : String} (h : (name, expansion) ∈ shortcuts) (source : String) :
    ∃ e e', ofShortcut source name.toList = .ok e ∧ parse expansion = .ok e' ∧ Abbreviates e e' ∧
      (e.AsksBothDays ↔ name ∉ ["daily", "midnight", "hourly"]) := by
  simp only [shortcuts, List.mem_cons, List.not_mem_nil, or_false, Prod.mk.injEq] at h
  rcases h with ⟨rfl, rfl⟩ | ⟨rfl, rfl⟩ | ⟨rfl, rfl⟩ | ⟨rfl, rfl⟩ | ⟨rfl, rfl⟩ | ⟨rfl, rfl⟩ | ⟨rfl, rfl⟩
  all_goals
    refine ⟨_, _, rfl, rfl, ⟨fun f => ?_, rfl, ?_, ?_⟩, ?_⟩
    · cases f <;> rfl
    · decide
    all_goals simp [AsksBothDays]

/-! ## Texts that begin with an at sign -/

/-- The words that are known after an at sign. -/
def shortcutNames : List String := "reboot" :: shortcuts.map (·.1)

/-- A word that is not known is rejected. -/
theorem ofShortcut_eq_error (h : String.ofList word ∉ shortcutNames) (source : String) :
    ofShortcut source word = .error .badShortcut := by
  unfold ofShortcut
  split
  all_goals first
    | rfl
    | next hw => exact absurd (by rw [hw]; decide) h

/-- A text that begins with an at sign is parsed as a shortcut. -/
theorem parse_eq_ofShortcut (h : Text.trim source.toList = '@' :: word) :
    parse source = (ofShortcut source word).mapError fun cause => ⟨source, cause⟩ := by
  simp only [parse, h]

/-- A known word with more behind it is not known. -/
theorem append_notMem_shortcutNames {t : List Char} (h : Text.fields ('@' :: (word ++ t)) = ('@' :: word) :: ws)
    (hws : ws ≠ []) : String.ofList (word ++ t) ∉ shortcutNames := by
  have hsingle : ∀ name ∈ shortcutNames, Text.fields ('@' :: name.toList) = ['@' :: name.toList] := by decide
  intro hmem
  have hfields := hsingle _ hmem
  rw [String.toList_ofList, h] at hfields
  exact hws (List.cons.inj hfields).2

/-- A shortcut alone matches the instants that its expansion matches, and `reboot` none; three shortcuts decide days
by another rule than their expansions. Any other word is rejected, and so is any word with another behind it. -/
theorem parse_shortcut (source : String) (word : List Char) (ws : List (List Char))
    (h : Text.Separated source.toList (('@' :: word) :: ws)) :
    (∀ expansion, (String.ofList word, expansion) ∈ shortcuts → ws = [] →
      ∃ e e', parse source = .ok e ∧ parse expansion = .ok e' ∧
        (∀ t : Instant, t.Sound → (e.Matches t ↔ e'.Matches t)) ∧
        e'.AsksBothDays ∧ (e.AsksBothDays ↔ String.ofList word ∉ ["daily", "midnight", "hourly"])) ∧
    (String.ofList word = "reboot" → ws = [] → ∃ e, parse source = .ok e ∧ ∀ t, ¬ e.Matches t) ∧
    (String.ofList word ∉ shortcutNames ∨ ws ≠ [] → parse source = .error ⟨source, .badShortcut⟩) := by
  obtain ⟨t, htrim, ht⟩ := h.exists_trim_eq
  rw [List.cons_append] at htrim
  have hparse := parse_eq_ofShortcut htrim
  refine ⟨?expansion, ?reboot, ?rejected⟩
  case expansion =>
    rintro expansion hmem hws
    obtain ⟨e, e', he, he', habbreviates, hrule⟩ := exists_abbreviates hmem source
    rw [ht hws, List.append_nil] at hparse
    rw [String.toList_ofList] at he
    refine ⟨e, e', ?_, he', fun t hsound => habbreviates.matches_iff hsound, habbreviates.asksBothDays, hrule⟩
    rw [hparse, he]
    rfl
  case reboot =>
    intro hreboot hws
    refine ⟨{ source, reboot := true }, ?_, fun t hmatches => nomatch hmatches.1⟩
    rw [hparse, ht hws, List.append_nil, ofShortcut, hreboot]
    rfl
  case rejected =>
    intro hother
    have hunknown : String.ofList (word ++ t) ∉ shortcutNames := by
      by_cases hws : ws = []
      · rw [ht hws, List.append_nil]
        exact hother.resolve_right (not_not_intro hws)
      · refine append_notMem_shortcutNames ?_ hws
        rw [← htrim, Text.fields_trim, h.fields_eq]
    rw [hparse, ofShortcut_eq_error hunknown]
    rfl

/-- The shortcut for every hour, with white space around it. -/
theorem parse_shortcut_hourly :
    Text.Separated "  @hourly\t".toList ["@hourly".toList] ∧
      ∃ e e', parse "  @hourly\t" = .ok e ∧ parse "0 * * * *" = .ok e' ∧
        (∀ t : Instant, t.Sound → (e.Matches t ↔ e'.Matches t)) ∧ ¬ e.AsksBothDays ∧ e'.AsksBothDays := by
  have h : Text.Separated "  @hourly\t".toList ["@hourly".toList] := Text.separated_iff.mpr (by decide)
  obtain ⟨e, e', he, he', hmatches, hboth, hrule⟩ :=
    (parse_shortcut "  @hourly\t" "hourly".toList [] h).1 "0 * * * *" (by decide) rfl
  exact ⟨h, e, e', he, he', hmatches, by rw [hrule]; decide, hboth⟩

end ContainerInit.Cron.Expression
