import ContainerInit.Calendar.Clock
import ContainerInit.Proofs.Calendar.Date
import Mathlib.Order.Lattice

/-! # Stepping through the calendar

The minutes since the epoch tell instants apart and put them in their order.  `next` goes from each minute
to the one after it, over the ends of hours, days, months and years, and what is read off the clock is the
minute that holds the time read.

## Sound instants

An instant is a record of six fields, and nothing keeps anybody from writing down the thirtieth of February.
`Sound` is what makes it a minute of the calendar: its date is one, its time of day is one, and the day of
the week is that of the date.  The instants that come about are `Reached`: made of fields that have been
checked, or read off the clock, and then moved on.  All of these are sound.

## Counting

`Instant.minutes` is the number of a minute.  A sound instant is determined by it (`Sound.eq_of_minutes_eq`),
and `next` adds one to it (`Sound.next`).  So whatever is said about several steps, about the order of
instants or about the clock is a statement about integers. -/

namespace ContainerInit.Calendar.Instant

variable {s t : Instant}

/-- The fields are those of a minute of the calendar, with the day of the week on which its date falls. -/
structure Sound (t : Instant) : Prop where
  date : IsDate t.year t.month t.day
  hour_lt : t.hour < 24
  minute_lt : t.minute < 60
  weekday_eq : t.weekday = weekdayOf (dayNumber t.year t.month t.day)

/-! ## The order of instants -/

/-- Comparing by one field first and then by the others comes to comparing the numbers. -/
theorem compare_then {α : Type} [LinearOrder α] {x y : α} {m n : Int} {rest : Ordering} (hlt : x < y → m < n)
    (hgt : y < x → n < m) (heq : x = y → rest = compare m n) : (compare x y).then rest = compare m n := by
  rcases lt_trichotomy x y with h | h | h
  · rw [compare_lt_iff_lt.mpr h, compare_lt_iff_lt.mpr (hlt h)]
    rfl
  · rw [compare_eq_iff_eq.mpr h]
    exact heq h
  · rw [compare_gt_iff_gt.mpr h, compare_gt_iff_gt.mpr (hgt h)]
    rfl

/-- The minutes of a day come before those of a later day. -/
theorem minutes_lt_of_dayNumber (hs : s.Sound)
    (h : dayNumber s.year s.month s.day < dayNumber t.year t.month t.day) : s.minutes < t.minutes := by
  have hhour := hs.hour_lt
  have hminute := hs.minute_lt
  unfold minutes
  omega

/-- The order by fields is that by minutes since the epoch. -/
theorem order_eq_compare (hs : s.Sound) (ht : t.Sound) : s.order t = compare s.minutes t.minutes := by
  obtain ⟨year, month, day, hour, minute, weekday⟩ := s
  obtain ⟨year', month', day', hour', minute', weekday'⟩ := t
  refine compare_then (fun h => ?_) (fun h => ?_) ?_
  · exact minutes_lt_of_dayNumber hs (hs.date.dayNumber_lt_of_year ht.date h)
  · exact minutes_lt_of_dayNumber ht (ht.date.dayNumber_lt_of_year hs.date h)
  rintro ⟨⟩
  refine compare_then (fun h => ?_) (fun h => ?_) ?_
  · exact minutes_lt_of_dayNumber hs (hs.date.dayNumber_lt_of_month ht.date h)
  · exact minutes_lt_of_dayNumber ht (ht.date.dayNumber_lt_of_month hs.date h)
  rintro ⟨⟩
  refine compare_then (fun h => ?_) (fun h => ?_) ?_
  · exact minutes_lt_of_dayNumber hs (dayNumber_lt_of_day _ _ h)
  · exact minutes_lt_of_dayNumber ht (dayNumber_lt_of_day _ _ h)
  rintro ⟨⟩
  have hsm : minute < 60 := hs.minute_lt
  have htm : minute' < 60 := ht.minute_lt
  refine compare_then (fun (h : hour < hour') => ?_) (fun (h : hour' < hour) => ?_) ?_
  · simp only [minutes]
    omega
  · simp only [minutes]
    omega
  rintro ⟨⟩
  change compare minute minute' = _
  rw [← Ordering.then_eq (o := compare minute minute')]
  refine compare_then (fun (h : minute < minute') => ?_) (fun (h : minute' < minute) => ?_) ?_
  · simp only [minutes]
    omega
  · simp only [minutes]
    omega
  rintro ⟨⟩
  exact (compare_eq_iff_eq.mpr rfl).symm

/-- No two instants have the same minute. -/
theorem Sound.eq_of_minutes_eq (hs : s.Sound) (ht : t.Sound) (h : s.minutes = t.minutes) : s = t := by
  have horder : s.order t = .eq := by
    rw [order_eq_compare hs ht, h]
    exact compare_eq_iff_eq.mpr rfl
  simp only [order, Ordering.then_eq_eq, compare_eq_iff_eq] at horder
  obtain ⟨hyear, hmonth, hday, hhour, hminute⟩ := horder
  have hweekday : s.weekday = t.weekday := by
    rw [hs.weekday_eq, ht.weekday_eq, hyear, hmonth, hday]
  obtain ⟨year, month, day, hour, minute, weekday⟩ := s
  rw [Instant.mk.injEq]
  exact ⟨hyear, hmonth, hday, hhour, hminute, hweekday⟩

/-! ## The next minute -/

/-- Fields that pass the check make a minute of the calendar. -/
theorem sound_ofFields {year : Int} {month day hour minute : Nat}
    (h : ofFields year month day hour minute = .ok t) : t.Sound := by
  unfold ofFields at h
  split at h
  · rename_i hdate
    obtain ⟨-, -, hm, hm', hd, hd'⟩ := hdate
    split at h
    · rename_i hclock
      cases h
      exact ⟨⟨hm, hm', hd, hd'⟩, hclock.1, hclock.2, rfl⟩
    · cases h
  · cases h

/-- A midnight on the day after, however that day is written. -/
theorem Sound.nextDay (ht : t.Sound) {year : Int} {month day : Nat} (hdate : IsDate year month day)
    (hnext : dayNumber year month day = dayNumber t.year t.month t.day + 1) (hour : t.hour = 23)
    (hminute : t.minute = 59) : Sound ⟨year, month, day, 0, 0, (t.weekday + 1) % 7⟩ ∧
      minutes ⟨year, month, day, 0, 0, (t.weekday + 1) % 7⟩ = t.minutes + 1 := by
  refine ⟨⟨hdate, Nat.zero_lt_succ 23, Nat.zero_lt_succ 59, ?_⟩, ?_⟩
  · change (t.weekday + 1) % 7 = weekdayOf (dayNumber year month day)
    rw [hnext, weekdayOf_succ, ht.weekday_eq]
  · simp only [minutes, hnext]
    omega

/-- One minute on, over all the ends that there are. -/
theorem Sound.next (ht : t.Sound) : t.next.Sound ∧ t.next.minutes = t.minutes + 1 := by
  have hdate := ht.date
  have hhour := ht.hour_lt
  have hminute := ht.minute_lt
  unfold Instant.next
  split
  case isTrue hm =>
    refine ⟨⟨hdate, hhour, hm, ht.weekday_eq⟩, ?_⟩
    simp only [minutes]
    omega
  case isFalse hm =>
    split
    case isTrue hh =>
      refine ⟨⟨hdate, hh, Nat.zero_lt_succ 59, ht.weekday_eq⟩, ?_⟩
      simp only [minutes]
      omega
    case isFalse hh =>
      have hh : t.hour = 23 := by omega
      have hm : t.minute = 59 := by omega
      dsimp only
      split
      case isTrue hd =>
        exact ht.nextDay ⟨hdate.one_le_month, hdate.month_le, Nat.succ_pos _, hd⟩ (dayNumber_nextDay ..) hh hm
      case isFalse hd =>
        have hlast : t.day = daysInMonth t.year t.month := by
          have hday := hdate.day_le
          omega
        split
        case isTrue hm' =>
          refine ht.nextDay ⟨Nat.succ_pos _, hm', Nat.le_refl 1, (daysInMonth_bounds ..).1⟩ ?_ hh hm
          rw [dayNumber_nextMonth _ hdate.one_le_month, hlast]
        case isFalse hm' =>
          have htwelve : t.month = 12 := by
            have hmonth := hdate.month_le
            omega
          refine ht.nextDay ⟨Nat.le_refl 1, by decide, Nat.le_refl 1, (daysInMonth_bounds ..).1⟩ ?_ hh hm
          rw [dayNumber_nextYear, hlast, htwelve]

/-! ## The minute of a time -/

/-- Every day number is that of a date, with the minutes that the time of day adds to it. -/
theorem sound_ofDayNumber (day : Int) {hour minute : Nat} (hh : hour < 24) (hm : minute < 60) :
    (ofDayNumber day hour minute).Sound ∧
      (ofDayNumber day hour minute).minutes = 1440 * day + 60 * hour + minute := by
  obtain ⟨hlow, hhigh⟩ := yearOf_bounds day
  rw [yearStart_succ] at hhigh
  have hrest : daysBefore (yearOf day) 1 + (day - yearStart (yearOf day)).toNat < yearLength (yearOf day) := by
    rw [show daysBefore (yearOf day) 1 = 0 from rfl]
    omega
  obtain ⟨month, dayOfMonth, he, hdate, hsum⟩ := exists_monthAndDay_eq (yearOf day) 11 (Nat.le_refl 1) rfl hrest
  have hnumber : dayNumber (yearOf day) month dayOfMonth = day := by
    rw [show daysBefore (yearOf day) 1 = 0 from rfl] at hsum
    unfold dayNumber
    omega
  have hof : ofDayNumber day hour minute = ⟨yearOf day, month, dayOfMonth, hour, minute, weekdayOf day⟩ := by
    have hmonths : [1, 2, 3, 4, 5, 6, 7, 8, 9, 10, 11] = List.range' 1 11 := rfl
    unfold ofDayNumber
    dsimp only
    rw [hmonths, he]
  rw [hof]
  refine ⟨⟨hdate, hh, hm, ?_⟩, ?_⟩
  · change weekdayOf day = weekdayOf (dayNumber (yearOf day) month dayOfMonth)
    rw [hnumber]
  · simp only [minutes, hnumber]

/-- The minute that is read off the clock is the one in which the second lies, rounded down before the epoch too. -/
theorem sound_ofEpochSeconds (s : Int) : (ofEpochSeconds s).Sound ∧ (ofEpochSeconds s).minutes = s / 60 := by
  have hhour : (s / 60 % 1440 / 60).toNat < 24 := by omega
  have hminute : (s / 60 % 60).toNat < 60 := by omega
  obtain ⟨hsound, hminutes⟩ := sound_ofDayNumber (s / 60 / 1440) hhour hminute
  refine ⟨hsound, hminutes.trans ?_⟩
  omega

/-- The nanoseconds that are left over do not count. -/
theorem ofEpochNanos_eq (s : Int) {n : Nat} (hn : n < nanosPerSecond) :
    ofEpochNanos (s * nanosPerSecond + n) = ofEpochSeconds s := by
  have hs : (s * nanosPerSecond + n) / 1000000000 = s := by
    unfold nanosPerSecond at hn ⊢
    omega
  rw [ofEpochNanos, hs]

/-! ## All instants that come about -/

/-- The instants that are made from their fields or read off the clock, moved on any number of times. -/
inductive Reached : Instant → Prop where
  | ofFields {year : Int} {month day hour minute : Nat} {t : Instant}
      (h : ofFields year month day hour minute = .ok t) : Reached t
  | ofEpochNanos (ns : Int) : Reached (ofEpochNanos ns)
  | next {t : Instant} (h : Reached t) : Reached t.next

/-- Whatever instant comes about is a minute of the calendar. -/
theorem Reached.sound (h : Reached t) : t.Sound := by
  induction h with
  | ofFields h => exact sound_ofFields h
  | ofEpochNanos ns => exact (sound_ofEpochSeconds _).1
  | next _ ih => exact ih.next.1

/-- Days are counted from the first of January 1970, a Thursday, by the lengths of the years.  Every instant
that comes about is a minute of the calendar with its day of the week, and the next one is that of which the
number is greater by one, and no other.  A time is within the minute that is read off it, before the epoch as
well, and a time that is a minute later within the next one. -/
theorem stepping_exact :
    (yearStart 1970 = 0 ∧ ∀ year, yearStart (year + 1) = yearStart year + yearLength year) ∧
    (weekdayOf 0 = 4 ∧ ∀ day, weekdayOf (day + 1) = (weekdayOf day + 1) % 7) ∧
    (∀ t, Reached t → t.Sound ∧ t.next.Sound ∧ t.next.minutes = t.minutes + 1 ∧
      ∀ u : Instant, u.Sound → u.minutes = t.minutes + 1 → u = t.next) ∧
    ∀ (s : Int) (n : Nat), n < nanosPerSecond →
      (ofEpochNanos (s * nanosPerSecond + n)).Sound ∧
      (ofEpochNanos (s * nanosPerSecond + n)).minutes = s / 60 ∧
      ofEpochNanos ((s + 60) * nanosPerSecond + n) = (ofEpochNanos (s * nanosPerSecond + n)).next := by
  refine ⟨⟨rfl, yearStart_succ⟩, ⟨rfl, weekdayOf_succ⟩, fun t h => ?_, fun s n hn => ?_⟩
  · obtain ⟨hsound, hminutes⟩ := h.sound.next
    exact ⟨h.sound, hsound, hminutes, fun u hu he => hu.eq_of_minutes_eq hsound (he.trans hminutes.symm)⟩
  · obtain ⟨hs, hm⟩ := sound_ofEpochSeconds s
    obtain ⟨hs', hm'⟩ := sound_ofEpochSeconds (s + 60)
    rw [ofEpochNanos_eq _ hn, ofEpochNanos_eq _ hn]
    refine ⟨hs, hm, hs'.eq_of_minutes_eq hs.next.1 ?_⟩
    rw [hs.next.2, hm, hm']
    omega

/-- The step over the end of the year 2023, and the last nanosecond before the epoch. -/
theorem stepping_exact_newYear :
    ofFields 2023 12 31 23 59 = .ok ⟨2023, 12, 31, 23, 59, 0⟩ ∧
    (∀ u : Instant, u.Sound → u.minutes = minutes ⟨2023, 12, 31, 23, 59, 0⟩ + 1 → u = ⟨2024, 1, 1, 0, 0, 1⟩) ∧
    999999999 < nanosPerSecond ∧ (ofEpochNanos (-1 * nanosPerSecond + (999999999 : Nat))).minutes = -1 / 60 := by
  have h : ofFields 2023 12 31 23 59 = .ok ⟨2023, 12, 31, 23, 59, 0⟩ := by decide
  have hn : 999999999 < nanosPerSecond := by decide
  exact ⟨h, (stepping_exact.2.2.1 _ (.ofFields h)).2.2.2, hn, (stepping_exact.2.2.2 (-1) _ hn).2.1⟩

/-! ## Chronological order -/

/-- Stepping on counts the minutes. -/
theorem Sound.iterate_next (hs : s.Sound) (n : Nat) :
    (Instant.next^[n] s).Sound ∧ (Instant.next^[n] s).minutes = s.minutes + n := by
  induction n with
  | zero => exact ⟨hs, (Int.add_zero _).symm⟩
  | succ n ih =>
    obtain ⟨hsound, hminutes⟩ := ih
    rw [Function.iterate_succ_apply']
    refine ⟨hsound.next.1, ?_⟩
    rw [hsound.next.2, hminutes]
    push_cast
    omega

/-- As many steps lead from one minute to another as there are minutes between them. -/
theorem Sound.iterate_next_eq_iff (hs : s.Sound) (ht : t.Sound) (n : Nat) :
    Instant.next^[n] s = t ↔ t.minutes = s.minutes + n := by
  obtain ⟨hsound, hminutes⟩ := hs.iterate_next n
  constructor
  · rintro rfl
    exact hminutes
  · exact fun h => hsound.eq_of_minutes_eq ht (hminutes.trans h.symm)

/-- Instants are in the order of their minutes since the epoch, of which there are as many between two of them as
there are steps from the one to the other.  They are only equal in order if they are the same, the days of the week
as well, though the order does not look at these. -/
theorem order_chronological (hs : Reached s) (ht : Reached t) :
    s.order t = compare s.minutes t.minutes ∧ (s.order t = .eq ↔ s = t) ∧
      (∀ n : Nat, next^[n] s = t ↔ t.minutes = s.minutes + n) ∧ (ofEpochNanos 0).minutes = 0 := by
  have horder := order_eq_compare hs.sound ht.sound
  refine ⟨horder, ?_, hs.sound.iterate_next_eq_iff ht.sound, by decide⟩
  rw [horder, compare_eq_iff_eq]
  constructor
  · exact hs.sound.eq_of_minutes_eq ht.sound
  · exact congrArg minutes

/-- The minutes before and after the beginning of the year 0, one made of fields and one read off the clock. -/
theorem order_chronological_yearZero :
    ofFields (-1) 12 31 23 59 = .ok ⟨-1, 12, 31, 23, 59, 5⟩ ∧
    ofEpochNanos (-62167219200000000000) = ⟨0, 1, 1, 0, 0, 6⟩ ∧
    order ⟨-1, 12, 31, 23, 59, 5⟩ ⟨0, 1, 1, 0, 0, 6⟩ = compare (-1036120321 : Int) (-1036120320) ∧
    next^[1] ⟨-1, 12, 31, 23, 59, 5⟩ = (⟨0, 1, 1, 0, 0, 6⟩ : Instant) := by
  have hs : ofFields (-1) 12 31 23 59 = .ok ⟨-1, 12, 31, 23, 59, 5⟩ := by decide
  have ht : ofEpochNanos (-62167219200000000000) = ⟨0, 1, 1, 0, 0, 6⟩ := by decide
  have hreached : Reached ⟨0, 1, 1, 0, 0, 6⟩ := ht ▸ Reached.ofEpochNanos _
  obtain ⟨horder, -, hsteps, -⟩ := order_chronological (.ofFields hs) hreached
  exact ⟨hs, ht, horder, (hsteps 1).mpr (by decide)⟩

end ContainerInit.Calendar.Instant
