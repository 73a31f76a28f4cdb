/-! # Decimal numbers

Unsigned decimal numerals of ASCII digits, read with a bound, and padded decimal output. -/

namespace ContainerInit.Text

/-- The value of a digit string, most significant digit first. -/
def digitsValue (ds : List Char) : Nat :=
  ds.foldl (fun n d => 10 * n + (d.toNat - '0'.toNat)) 0

/-- Reads a non-empty string of ASCII digits whose value lies below `bound`. -/
def natBelow? (bound : Nat) (ds : List Char) : Option Nat :=
  if ds ≠ [] ∧ ds.all Char.isDigit ∧ digitsValue ds < bound then some (digitsValue ds) else none

/-- What is read lies below the bound. -/
theorem natBelow?_lt {bound n : Nat} {ds : List Char} (h : natBelow? bound ds = some n) : n < bound := by
  unfold natBelow? at h
  split at h <;> simp_all

/-- Fills a text up to `width` characters by repeating `fill` in front of it. -/
def padLeft (width : Nat) (fill : Char) (s : String) : String :=
  String.ofList (List.replicate (width - s.length) fill) ++ s

/-- Fills a text up to `width` characters by blanks after it. -/
def padRight (width : Nat) (s : String) : String :=
  s ++ String.ofList (List.replicate (width - s.length) ' ')

/-- An integer in decimal, filled with zeros to `width` characters, of which a sign takes one. -/
def padded (width : Nat) (n : Int) : String :=
  if n < 0 then "-" ++ padLeft (width - 1) '0' (toString n.natAbs) else padLeft width '0' (toString n)

end ContainerInit.Text
