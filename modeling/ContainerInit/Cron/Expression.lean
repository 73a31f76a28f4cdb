import ContainerInit.Calendar.Instant
import ContainerInit.Cron.Field
import ContainerInit.Text.Blank

/-! # Cron expressions

An expression is five fields separated by white space, or one of the shortcuts that begin with an at sign.
`Expression.parse` reads one and `Expression.Matches` tests an instant against it.

The days are matched by two fields, the day of the month and the day of the week. If one of them begins with a star, an
instant has to match both; if neither does, one is enough. So an expression keeps the fields that begin with a star. A
shortcut has such fields of its own, which are not always those of the expression that it abbreviates. -/

namespace ContainerInit.Cron

structure Expression where
  /-- The text as it was written. -/
  source : String
  minutes : List Nat := []
  hours : List Nat := []
  days : List Nat := []
  months : List Nat := []
  weekdays : List Nat := []
  /-- The fields whose text begins with a star, months apart. -/
  stars : List Field := []
  /-- The expression stands for the start of the system and for no instant. -/
  reboot : Bool := false
deriving DecidableEq, Repr

/-- Why a text is no expression. -/
inductive Cause where
  | badField (f : Field)
  | badShortcut
deriving DecidableEq, Repr

def Cause.message : Cause → String
  | .badField .minute => "bad minute"
  | .badField .hour => "bad hour"
  | .badField .day => "bad day-of-month"
  | .badField .month => "bad month"
  | .badField .weekday => "bad day-of-week"
  | .badShortcut => "bad time specifier"

structure ParseError where
  text : String
  cause : Cause
deriving DecidableEq, Repr

def ParseError.message (e : ParseError) : String :=
  "Failed to parse cron expression '" ++ e.text ++ "': " ++ e.cause.message ++ "."

namespace Expression

/-- Sunday is both 0 and 7: where one is allowed, so is the other. -/
def closeSunday (ds : List Nat) : List Nat :=
  if 0 ∈ ds ∨ 7 ∈ ds then Field.weekday.values.filter fun d => d = 0 ∨ d = 7 ∨ d ∈ ds else ds

/-- Reads the next field from the fields that are left. -/
def nextField (f : Field) : List (List Char) → Except Cause (List Nat × List (List Char))
  | [] => .error (.badField f)
  | w :: ws => match f.read? w with
    | none => .error (.badField f)
    | some vs => .ok (vs, ws)

/-- The fields that decide how days are matched, or that are shown as written with a star. -/
def starred (words : List (List Char)) : List Field :=
  ([Field.minute, .hour, .day, .month, .weekday].zip words).filterMap fun (f, w) =>
    if f ≠ .month ∧ w.head? = some '*' then some f else none

def ofFields (source : String) (words : List (List Char)) : Except Cause Expression := do
  let (minutes, ws) ← nextField .minute words
  let (hours, ws) ← nextField .hour ws
  let (days, ws) ← nextField .day ws
  let (months, ws) ← nextField .month ws
  let (weekdays, ws) ← nextField .weekday ws
  if ws = [] then
    return { source, minutes, hours, days, months, weekdays := closeSunday weekdays, stars := starred words }
  else .error (.badField .weekday)

/-- The meaning of a word after the at sign. -/
def ofShortcut (source : String) (word : List Char) : Except Cause Expression :=
  let allDays := Field.day.values
  let allMonths := Field.month.values
  let allWeekdays := Field.weekday.values
  match String.ofList word with
  | "reboot" => .ok { source, reboot := true }
  | "yearly" | "annually" =>
    .ok { source, minutes := [0], hours := [0], days := [1], months := [1], weekdays := allWeekdays,
          stars := [.weekday] }
  | "monthly" =>
    .ok { source, minutes := [0], hours := [0], days := [1], months := allMonths, weekdays := allWeekdays,
          stars := [.weekday] }
  | "weekly" =>
    .ok { source, minutes := [0], hours := [0], days := allDays, months := allMonths,
          weekdays := closeSunday [0], stars := [.weekday] }
  | "daily" | "midnight" =>
    .ok { source, minutes := [0], hours := [0], days := allDays, months := allMonths, weekdays := allWeekdays }
  | "hourly" =>
    .ok { source, minutes := [0], hours := Field.hour.values, days := allDays, months := allMonths,
          weekdays := allWeekdays, stars := [.hour] }
  | _ => .error .badShortcut

/-- Reads an expression; white space around it and between its fields plays no part. -/
def parse (source : String) : Except ParseError Expression :=
  let result := match Text.trim source.toList with
    | '@' :: word => ofShortcut source word
    | text => ofFields source (Text.fields text)
  result.mapError fun cause => ⟨source, cause⟩

/-- The day fields agree when both match; without a star in either of them one match is enough. -/
def MatchesDay (e : Expression) (t : Calendar.Instant) : Prop :=
  if .day ∈ e.stars ∨ .weekday ∈ e.stars then t.day ∈ e.days ∧ t.weekday ∈ e.weekdays
  else t.day ∈ e.days ∨ t.weekday ∈ e.weekdays

instance (e : Expression) (t : Calendar.Instant) : Decidable (e.MatchesDay t) := by
  unfold MatchesDay; infer_instance

def Matches (e : Expression) (t : Calendar.Instant) : Prop :=
  e.reboot = false ∧ t.minute ∈ e.minutes ∧ t.hour ∈ e.hours ∧ t.month ∈ e.months ∧ e.MatchesDay t

instance (e : Expression) (t : Calendar.Instant) : Decidable (e.Matches t) := by
  unfold Matches; infer_instance

end Expression

end ContainerInit.Cron
