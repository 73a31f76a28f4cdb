import ContainerInit.Text.Decimal

/-! # Calendar instants

Minutes of the proleptic Gregorian calendar in universal time. `Instant.minutes` counts them from the first of January
1970; `Instant.next` moves by one and `Instant.ofEpochSeconds` inverts the count.

An instant has the fields that a schedule is compared with, the day of the week among them. That one follows from the
date, and is carried along all the same: `Instant.next` does not compute it anew but moves it by one with each day. Two
instants are compared by the other fields only. -/

namespace ContainerInit.Calendar

def isLeap (year : Int) : Bool := year % 4 = 0 && (year % 100 ≠ 0 || year % 400 = 0)

def daysInMonth (year : Int) : Nat → Nat
  | 2 => if isLeap year then 29 else 28
  | 4 | 6 | 9 | 11 => 30
  | _ => 31

/-- The day number of the first of January, counted from the first of January 1970. -/
def yearStart (year : Int) : Int :=
  365 * (year - 1970) + (year - 1) / 4 - (year - 1) / 100 + (year - 1) / 400 - 477

example : yearStart 1970 = 0 ∧ yearStart 2001 = 11323 := by decide

/-- The number of days of the months before `month`. -/
def daysBefore (year : Int) : Nat → Nat
  | 0 | 1 => 0
  | m + 2 => daysBefore year (m + 1) + daysInMonth year (m + 1)

def dayNumber (year : Int) (month day : Nat) : Int :=
  yearStart year + daysBefore year month + day - 1

/-- The day of the week of a day number, Sunday being 0; day 0 was a Thursday. -/
def weekdayOf (day : Int) : Nat := ((day + 4) % 7).toNat

/-- A minute of the calendar with the weekday of its date. -/
structure Instant where
  year : Int
  month : Nat
  day : Nat
  hour : Nat
  minute : Nat
  weekday : Nat
deriving DecidableEq, Repr

/-- Why calendar fields name no instant. -/
inductive Invalid where
  | date (year : Int) (month day : Nat)
  | timeOfDay (hour minute : Nat)
deriving DecidableEq, Repr

/-- The years that the calendar covers. -/
def minYear : Int := -262143

@[inherit_doc minYear]
def maxYear : Int := 262142

namespace Instant

def ofFields (year : Int) (month day hour minute : Nat) : Except Invalid Instant :=
  if minYear ≤ year ∧ year ≤ maxYear ∧ 1 ≤ month ∧ month ≤ 12 ∧ 1 ≤ day ∧ day ≤ daysInMonth year month then
    if hour < 24 ∧ minute < 60 then
      .ok ⟨year, month, day, hour, minute, weekdayOf (dayNumber year month day)⟩
    else .error (.timeOfDay hour minute)
  else .error (.date year month day)

/-- Minutes since the epoch. -/
def minutes (t : Instant) : Int :=
  1440 * dayNumber t.year t.month t.day + 60 * t.hour + t.minute

/-- The minute after `t`. -/
def next (t : Instant) : Instant :=
  if t.minute + 1 < 60 then { t with minute := t.minute + 1 }
  else if t.hour + 1 < 24 then { t with minute := 0, hour := t.hour + 1 }
  else
    let t := { t with minute := 0, hour := 0, weekday := (t.weekday + 1) % 7 }
    if t.day + 1 ≤ daysInMonth t.year t.month then { t with day := t.day + 1 }
    else if t.month + 1 ≤ 12 then { t with day := 1, month := t.month + 1 }
    else { t with day := 1, month := 1, year := t.year + 1 }

/-- The year of a day number. -/
def yearOf (day : Int) : Int :=
  let guess := 1970 + 400 * day / 146097
  if day < yearStart guess then guess - 1
  else if yearStart (guess + 1) ≤ day then guess + 1
  else guess

/-- Month and day of month, from the months `months` and the days left over before them. -/
def monthAndDay (year : Int) (rest : Nat) : List Nat → Nat × Nat
  | [] => (12, rest + 1)
  | m :: ms =>
    if rest < daysInMonth year m then (m, rest + 1)
    else monthAndDay year (rest - daysInMonth year m) ms

def ofDayNumber (day : Int) (hour minute : Nat) : Instant :=
  let year := yearOf day
  let (month, dayOfMonth) := monthAndDay year (day - yearStart year).toNat [1, 2, 3, 4, 5, 6, 7, 8, 9, 10, 11]
  ⟨year, month, dayOfMonth, hour, minute, weekdayOf day⟩

/-- The minute that holds the second `s` since the epoch. -/
def ofEpochSeconds (s : Int) : Instant :=
  let m := s / 60
  ofDayNumber (m / 1440) (m % 1440 / 60).toNat (m % 60).toNat

/-- The minute that holds the nanosecond `ns` since the epoch. -/
def ofEpochNanos (ns : Int) : Instant := ofEpochSeconds (ns / 1000000000)

/-- Earlier year first, then earlier month, day, hour and minute; the weekday plays no part. -/
def order (s t : Instant) : Ordering :=
  compare s.year t.year |>.then <| compare s.month t.month |>.then <| compare s.day t.day |>.then <|
    compare s.hour t.hour |>.then <| compare s.minute t.minute

def dateText (year : Int) (month day : Nat) : String :=
  Text.padded 4 year ++ "-" ++ Text.padded 2 month ++ "-" ++ Text.padded 2 day

def clockText (hour minute : Nat) : String := Text.padded 2 hour ++ ":" ++ Text.padded 2 minute

/-- The instant as `YYYY-MM-DD HH:MM`. -/
def text (t : Instant) : String := dateText t.year t.month t.day ++ " " ++ clockText t.hour t.minute

end Instant

def Invalid.message : Invalid → String
  | .date y m d => "Invalid calendar time: " ++ Instant.dateText y m d ++ "."
  | .timeOfDay h m => "Invalid calendar time: " ++ Instant.clockText h m ++ "."

end ContainerInit.Calendar
