import ContainerInit.Text.Decimal
import ContainerInit.Text.Split

/-! # Cron fields

A field is a comma separated list of elements. An element is a star, a value or a range; a star and a range may carry a
step. `Element.read?` reads one element, `Field.read?` a whole field, as the ascending list of the values that the field
allows.

Which values lie in a field is decided for each element as a whole. The first value has to lie within the bounds of the
field, and so has the greatest one that the element comes to by its steps; the end of a range that is not reached by
them may lie outside. A value may be a name where the field has names, and a number is read as such. -/

namespace ContainerInit.Cron

/-- The fields of an expression, in the order in which they are written. -/
inductive Field where
  | minute | hour | day | month | weekday
deriving DecidableEq, Repr

namespace Field

def low : Field → Nat
  | .minute | .hour | .weekday => 0
  | .day | .month => 1

/-- The greatest value; both 0 and 7 are Sunday. -/
def high : Field → Nat
  | .minute => 59
  | .hour => 23
  | .day => 31
  | .month => 12
  | .weekday => 7

/-- The names that stand for the values from `low` on, in any ASCII case. -/
def names : Field → List String
  | .month => ["jan", "feb", "mar", "apr", "may", "jun", "jul", "aug", "sep", "oct", "nov", "dec"]
  | .weekday => ["sun", "mon", "tue", "wed", "thu", "fri", "sat"]
  | _ => []

/-- All values of the field. -/
def values (f : Field) : List Nat := List.range' f.low (f.high + 1 - f.low)

/-- The values of a field are those within its bounds. -/
theorem mem_values {f : Field} {v : Nat} : v ∈ f.values ↔ f.low ≤ v ∧ v ≤ f.high := by
  rw [values, List.mem_range'_1]
  have : f.low ≤ f.high := by cases f <;> decide
  omega

/-- A name or an unsigned 32 bit number; a number need not lie within the bounds. -/
def value? (f : Field) (s : List Char) : Option Nat :=
  Text.natBelow? (Nat.pow 2 32) s <|>
    (f.names.findIdx? (fun n => n.toList = s.map Char.toLower)).map (f.low + ·)

end Field

/-- An element of a field as it is written. -/
inductive Element where
  | star (step : Option Nat)
  | value (v : Nat)
  | range (first last : Nat) (step : Option Nat)
deriving DecidableEq, Repr

namespace Element

def first (f : Field) : Element → Nat
  | .star _ => f.low
  | .value v => v
  | .range a _ _ => a

def last (f : Field) : Element → Nat
  | .star _ => f.high
  | .value v => v
  | .range _ b _ => b

def step : Element → Nat
  | .star s | .range _ _ s => s.getD 1
  | .value _ => 1

/-- The element stands for the values from its first on by its step, up to its last. -/
def Covers (f : Field) (e : Element) (v : Nat) : Prop :=
  e.first f ≤ v ∧ v ≤ e.last f ∧ (v - e.first f) % e.step = 0

instance (f : Field) (e : Element) (v : Nat) : Decidable (e.Covers f v) :=
  inferInstanceAs (Decidable (_ ∧ _ ∧ _))

/-- The greatest value that the element covers when it covers one. -/
def greatest (f : Field) (e : Element) : Nat :=
  e.first f + (e.last f - e.first f) / e.step * e.step

/-- The step is not zero, the range is not empty, and all values covered are values of the field. -/
def Valid (f : Field) (e : Element) : Prop :=
  e.step ≠ 0 ∧ e.first f ≤ e.last f ∧ f.low ≤ e.first f ∧ e.greatest f ≤ f.high

instance (f : Field) (e : Element) : Decidable (e.Valid f) :=
  inferInstanceAs (Decidable (_ ∧ _ ∧ _ ∧ _))

/-- Reads `*`, `*/n`, `v`, `v-v` or `v-v/n`. -/
def read? (f : Field) (s : List Char) : Option Element :=
  let (span, stepText) := Text.cut '/' s
  match stepText with
  | none =>
    if span = ['*'] then some (.star none)
    else match Text.cut '-' span with
      | (a, none) => (f.value? a).map .value
      | (a, some b) => do return .range (← f.value? a) (← f.value? b) none
  | some ds => do
    let n ← Text.natBelow? (Nat.pow 2 32) ds
    if span = ['*'] then some (.star (some n))
    else match Text.cut '-' span with
      | (_, none) => none
      | (a, some b) => return .range (← f.value? a) (← f.value? b) (some n)

end Element

namespace Field

def elements? (f : Field) (s : List Char) : Option (List Element) :=
  (Text.pieces ',' s).mapM (Element.read? f)

/-- The values that a field's text allows, ascending. -/
def read? (f : Field) (s : List Char) : Option (List Nat) := do
  let es ← f.elements? s
  if ∀ e ∈ es, e.Valid f then return f.values.filter fun v => es.any fun e => e.Covers f v
  else none

example : minute.read? "10-20/5,3".toList = some [3, 10, 15, 20] := by decide
example : weekday.read? "5-100/99".toList = some [5] := by decide
example : hour.read? "1/2".toList = none := by decide

end Field

end ContainerInit.Cron
