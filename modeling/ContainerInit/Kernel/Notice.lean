/-! # The notice of an unexpected signal

A line composed in buffers of fixed size, so that it can be written from within a signal handler. `Buffer.push?` fails
rather than write beyond the end.

The line has a text first, which is cut to the room that there is for it, and then the number of the signal in decimal.
The digits are put down from the last to the first in a buffer of their own, as they come out of the division by ten,
and taken over in the opposite order. -/

namespace ContainerInit.Notice

/-- The bytes written so far into a buffer of fixed size. -/
structure Buffer (capacity : Nat) where
  bytes : List UInt8
  length_le : bytes.length ≤ capacity

namespace Buffer

variable {capacity : Nat}

def empty : Buffer capacity := ⟨[], Nat.zero_le _⟩

theorem length_append_le {bs : List UInt8} (h : bs.length < capacity) (x : UInt8) :
    (bs ++ [x]).length ≤ capacity := by rwa [List.length_append]

def push? (b : Buffer capacity) (x : UInt8) : Option (Buffer capacity) :=
  if h : b.bytes.length < capacity then some ⟨b.bytes ++ [x], length_append_le h x⟩ else none

def pushAll? (b : Buffer capacity) (xs : List UInt8) : Option (Buffer capacity) :=
  xs.foldlM push? b

end Buffer

/-- Room for the whole line. -/
def lineSize : Nat := 128

/-- Room for the digits of a 32 bit number. -/
def digitsSize : Nat := 12

/-- How much of the leading text is kept: the line without the number, its sign and the line end. -/
def leadSize : Nat := lineSize - 16

def digit (n : Nat) : UInt8 := (0x30 + n % 10).toUInt8

/-- Writes the decimal digits of `n`, least significant first. -/
def digits? (b : Buffer digitsSize) (n : Nat) : Option (Buffer digitsSize) :=
  if n / 10 = 0 then b.push? (digit n)
  else (b.push? (digit n)).bind fun b => digits? b (n / 10)
termination_by n

/-- The leading text, the number in decimal and a line end. -/
def line? (lead : List UInt8) (signal : Int32) : Option (Buffer lineSize) := do
  let number ← digits? .empty signal.toInt.natAbs
  let b ← Buffer.empty.pushAll? (lead.take leadSize)
  let b ← if signal < 0 then b.push? 0x2d else some b
  let b ← b.pushAll? number.bytes.reverse
  b.push? 0x0a

/-- The bytes of the line; none where it does not fit. -/
def bytes (lead : List UInt8) (signal : Int32) : List UInt8 := ((line? lead signal).map (·.bytes)).getD []

end ContainerInit.Notice
