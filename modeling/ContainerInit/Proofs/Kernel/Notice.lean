import ContainerInit.Kernel.Notice
import Mathlib.Data.Nat.Digits.Defs

/-! # Room for the notice

The digits of a 32 bit number fit into their buffer, and what is kept of the leading text leaves room in the line for
them, for a sign and for the line end.  So no write goes beyond the end of a buffer, and the whole line is there.

The notice is written by a signal handler, where there is nothing but two buffers of a fixed size.  A write past the
end of one of them has no result in the model, and that there is a result for each number and each text is the
first half of `line_fits`; the other half says what it is.

## Digits

The digits come out from the least significant one, in a loop over quotients, and are turned round afterwards.  The
library has the decimal numeral of a number as a string.  So the lemmas on `encoded` say what the bytes of such a
numeral are, one digit after the other, and `exists_digits?_eq` follows the loop along them. -/

namespace ContainerInit.Notice

namespace Buffer

variable {capacity : Nat} {b : Buffer capacity} {x : UInt8} {xs : List UInt8}

/-- A byte is written behind the others as long as there is room. -/
theorem exists_push?_eq (h : b.bytes.length < capacity) : ∃ b', b.push? x = some b' ∧ b'.bytes = b.bytes ++ [x] := by
  rw [push?, dif_pos h]
  exact ⟨_, rfl, rfl⟩

/-- The induction is on the bytes, over whatever is in the buffer already. -/
theorem exists_pushAll?_eq (h : b.bytes.length + xs.length ≤ capacity) :
    ∃ b', b.pushAll? xs = some b' ∧ b'.bytes = b.bytes ++ xs := by
  induction xs generalizing b with
  | nil => exact ⟨b, rfl, (List.append_nil _).symm⟩
  | cons x xs ih =>
    rw [List.length_cons] at h
    obtain ⟨b₁, hpush, hbytes₁⟩ := exists_push?_eq (b := b) (x := x) (by omega)
    obtain ⟨b₂, hrest, hbytes₂⟩ := ih (b := b₁) (by rw [hbytes₁, List.length_append, List.length_singleton]; omega)
    refine ⟨b₂, ?_, by rw [hbytes₂, hbytes₁, List.append_assoc, List.singleton_append]⟩
    rw [pushAll?, List.foldlM_cons, hpush]
    exact hrest

/-- To write one byte is to write a list with nothing else. -/
theorem pushAll?_singleton (b : Buffer capacity) (x : UInt8) : b.pushAll? [x] = b.push? x := by
  rw [pushAll?, List.foldlM_cons]
  exact bind_pure _

theorem pushAll?_append (b : Buffer capacity) (xs ys : List UInt8) :
    b.pushAll? (xs ++ ys) = (b.pushAll? xs >>= fun b => b.pushAll? ys) := List.foldlM_append ..

end Buffer

/-! ## Decimal digits -/

/-- A text in bytes. -/
def encoded (s : String) : List UInt8 := s.toUTF8.data.toList

theorem encoded_append (s t : String) : encoded (s ++ t) = encoded s ++ encoded t := by
  simp [encoded, String.toByteArray_append]

variable {n : Nat}

/-- A digit is a single byte. -/
theorem encoded_digitChar (h : n < 10) : encoded (String.ofList [n.digitChar]) = [digit n] := by
  decide +revert

/-- A number below ten has one digit. -/
theorem encoded_repr_of_lt (h : n < 10) : encoded n.repr = [digit n] := by
  rw [Nat.repr_eq_ofList_toDigits, Nat.toDigits_of_lt_base h, encoded_digitChar h]

/-- Any other number has its last digit after those of the quotient. -/
theorem encoded_repr_of_le (h : 10 ≤ n) : encoded n.repr = encoded (n / 10).repr ++ [digit n] := by
  have hdigit : digit (n % 10) = digit n := by rw [digit, digit, Nat.mod_mod]
  rw [Nat.repr_eq_ofList_toDigits, Nat.repr_eq_ofList_toDigits, Nat.toDigits_of_base_le (by decide) h, String.ofList_append,
    encoded_append, encoded_digitChar (Nat.mod_lt _ (by decide)), hdigit]

/-- A number takes as much room as it has digits.  The induction follows the digits from the least significant one, and
so they are there in reverse. -/
theorem exists_digits?_eq {b : Buffer digitsSize} (h : b.bytes.length + (encoded n.repr).length ≤ digitsSize) :
    ∃ b', digits? b n = some b' ∧ b'.bytes = b.bytes ++ (encoded n.repr).reverse := by
  induction n using Nat.strong_induction_on generalizing b with
  | _ n ih =>
    rw [digits?]
    by_cases hlast : n < 10
    · rw [if_pos (Nat.div_eq_of_lt hlast)]
      rw [encoded_repr_of_lt hlast] at h ⊢
      exact Buffer.exists_push?_eq h
    · rw [if_neg (by omega)]
      rw [encoded_repr_of_le (by omega)] at h ⊢
      rw [List.length_append, List.length_singleton] at h
      obtain ⟨b₁, hpush, hbytes₁⟩ := Buffer.exists_push?_eq (b := b) (x := digit n) (by omega)
      obtain ⟨b₂, hrest, hbytes₂⟩ := ih (n / 10) (by omega) (b := b₁)
        (by rw [hbytes₁, List.length_append, List.length_singleton]; omega)
      refine ⟨b₂, by rw [hpush]; exact hrest, ?_⟩
      rw [hbytes₂, hbytes₁, List.reverse_append, List.reverse_singleton, List.append_assoc]

/-- A numeral has as many bytes as digits. -/
theorem length_encoded_repr : (encoded n.repr).length = (Nat.toDigits 10 n).length := by
  induction n using Nat.strong_induction_on with
  | _ n ih =>
    by_cases hlast : n < 10
    · rw [encoded_repr_of_lt hlast, Nat.toDigits_of_lt_base hlast]
      rfl
    · rw [encoded_repr_of_le (by omega), Nat.toDigits_of_base_le (by decide) (by omega), List.length_append,
        List.length_append, ih (n / 10) (by omega)]
      rfl

/-- The magnitude of the least number is one more than that of the greatest, and still has ten digits. -/
theorem length_encoded_natAbs_le (signal : Int32) : (encoded signal.toInt.natAbs.repr).length ≤ 10 := by
  have hlow := signal.le_toInt
  have hhigh := signal.toInt_lt
  rw [length_encoded_repr, Nat.length_toDigits_le_iff (by decide) (by decide)]
  omega

/-! ## The line -/

/-- The sign of a number. -/
def sign (signal : Int32) : List UInt8 := if signal < 0 then [0x2d] else []

/-- An integer is written as its sign and the digits of its magnitude. -/
theorem encoded_toString (signal : Int32) :
    encoded (toString signal.toInt) = sign signal ++ encoded signal.toInt.natAbs.repr := by
  have hsign : signal < 0 ↔ signal.toInt < 0 := Int32.lt_iff_toInt_lt
  rw [sign]
  cases hn : signal.toInt with
  | ofNat n =>
    rw [if_neg (fun h => absurd (hn ▸ hsign.mp h) (by simp))]
    rfl
  | negSucc n =>
    rw [if_pos (hsign.mpr (hn ▸ Int.negSucc_lt_zero n))]
    exact encoded_append "-" (n + 1).repr

/-- After the digits, the line is written in one go. -/
theorem line?_eq (lead : List UInt8) (signal : Int32) : line? lead signal =
    (digits? .empty signal.toInt.natAbs).bind fun number =>
      Buffer.empty.pushAll? (lead.take leadSize ++ (sign signal ++ (number.bytes.reverse ++ [0x0a]))) := by
  simp only [line?, sign, Buffer.pushAll?_append, Buffer.pushAll?_singleton]
  split
  · simp only [Buffer.pushAll?_singleton]
    rfl
  · rfl

/-- Whatever the leading text and the number are, both buffers have room for all that is written to them.  What is
written are the first 112 bytes of the text, the number in decimal and a line end. -/
theorem line_fits (lead : List UInt8) (signal : Int32) : ∃ line, line? lead signal = some line ∧
    bytes lead signal = line.bytes ∧
    line.bytes = lead.take 112 ++ encoded (toString signal.toInt) ++ encoded "\n" := by
  have hnumber := length_encoded_natAbs_le signal
  obtain ⟨number, hdigits, hreverse⟩ : ∃ number, digits? .empty signal.toInt.natAbs = some number ∧
      number.bytes = (encoded signal.toInt.natAbs.repr).reverse :=
    exists_digits?_eq (b := .empty) (Nat.le_trans (Nat.le_of_eq (Nat.zero_add _)) (Nat.le_trans hnumber (by decide)))
  have hlead : (lead.take leadSize).length ≤ leadSize := List.length_take_le ..
  have hsign : (sign signal).length ≤ 1 := by
    rw [sign]
    split <;> decide
  obtain ⟨line, hline, hbytes⟩ : ∃ line, line? lead signal = some line ∧
      line.bytes = lead.take leadSize ++ (sign signal ++ (number.bytes.reverse ++ [0x0a])) := by
    rw [line?_eq, hdigits]
    refine Buffer.exists_pushAll?_eq (b := .empty) ?_
    have hempty : (Buffer.empty : Buffer lineSize).bytes.length = 0 := rfl
    rw [hreverse, List.reverse_reverse, List.length_append, List.length_append, List.length_append,
      List.length_singleton, hempty]
    have hsize : leadSize + 16 = lineSize := rfl
    omega
  refine ⟨line, hline, by rw [bytes, hline]; rfl, ?_⟩
  rw [hbytes, hreverse, List.reverse_reverse, encoded_toString, List.append_assoc, List.append_assoc]
  rfl

example : bytes (encoded "signal ") (-2147483648) = encoded "signal -2147483648\n" := by decide +kernel

end ContainerInit.Notice
