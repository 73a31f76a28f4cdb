/-! # Wall clock durations

Times and durations are counted in nanoseconds. -/

namespace ContainerInit.Calendar

def nanosPerSecond : Nat := 1000000000

def nanosPerMinute : Nat := 60 * nanosPerSecond

/-- The time from `now`, in nanoseconds since the epoch, to the start of the next minute. A clock
before the epoch counts as the epoch. -/
def untilNextMinute (now : Int) : Nat := nanosPerMinute - now.toNat % nanosPerMinute

theorem untilNextMinute_pos (now : Int) : 0 < untilNextMinute now :=
  Nat.sub_pos_of_lt (Nat.mod_lt _ (by decide))

theorem untilNextMinute_le (now : Int) : untilNextMinute now ≤ nanosPerMinute := Nat.sub_le _ _

/-- A duration as the kernel takes it: seconds in a signed 64 bit word, and nanoseconds. -/
structure TimeSpec where
  seconds : Int64
  nanos : Nat
deriving DecidableEq

/-- Seconds beyond the signed range wrap around. -/
def TimeSpec.ofSeconds (seconds : UInt64) (nanos : Nat) : TimeSpec := ⟨seconds.toInt64, nanos⟩

end ContainerInit.Calendar
