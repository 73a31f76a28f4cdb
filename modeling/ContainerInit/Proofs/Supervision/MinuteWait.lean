import ContainerInit.Proofs.Dialogue.Triple
import ContainerInit.Proofs.Kernel.Steady
import ContainerInit.Proofs.Supervision.ElapsedMinutes
import ContainerInit.Proofs.Supervision.Session

/-! # Waiting for the next minute

What is left of the minute of a time takes the clock to the beginning of the next minute, over whatever ends there are,
and anything less leaves it where it is.  The loop waits for signals until then, so that a wait in which none comes
ends with the next minute, neither before it nor in a later one.

The deadline is set by the wall clock and kept by the other one, and something happens in between.  `Aims` is what
connects the two: as long as the deadline has not passed, the wall clock will reach the end of the minute just when
the other one reaches the deadline.  A wait that is cut short by a signal leaves that as it is (`Aims.wait`), and so
does anything else that takes no time. -/

namespace ContainerInit.Supervision

open ContainerInit.Action ContainerInit.Calendar Kernel

variable {r : Registry} {n : Nat} {h : History (Board r)} {k : Steady} {b : Board r} {t deadline : Nat}

/-! ## What is left of a minute -/

/-- Two times are in the same minute if the number of the minute is the same. -/
theorem ofEpochNanos_eq_iff {ns ns' : Int} :
    Instant.ofEpochNanos ns = Instant.ofEpochNanos ns' ↔ ns / nanosPerMinute = ns' / nanosPerMinute := by
  rw [← minutes_ofEpochNanos, ← minutes_ofEpochNanos]
  constructor
  · exact congrArg Instant.minutes
  · exact (sound_ofEpochNanos ns).eq_of_minutes_eq (sound_ofEpochNanos ns')

/-- The next minute has the next number. -/
theorem ofEpochNanos_eq_next_iff {ns ns' : Int} : Instant.ofEpochNanos ns = (Instant.ofEpochNanos ns').next ↔
    ns / nanosPerMinute = ns' / nanosPerMinute + 1 := by
  obtain ⟨hsound, hminutes⟩ := (sound_ofEpochNanos ns').next
  rw [← minutes_ofEpochNanos, ← minutes_ofEpochNanos, ← hminutes]
  constructor
  · exact congrArg Instant.minutes
  · exact (sound_ofEpochNanos ns).eq_of_minutes_eq hsound

/-- It is what the seconds and nanoseconds that have gone of the minute leave of it. -/
theorem untilNextMinute_add (t : Nat) :
    untilNextMinute t + (t / nanosPerSecond % 60 * nanosPerSecond + t % nanosPerSecond) = nanosPerMinute := by
  simp only [untilNextMinute, nanosPerMinute, nanosPerSecond, Int.toNat_natCast]
  omega

/-- The clock shows the same minute until what is left of it is over. -/
theorem ofEpochNanos_add_eq_iff (t e : Nat) :
    Instant.ofEpochNanos (t + e) = Instant.ofEpochNanos t ↔ e < untilNextMinute t := by
  rw [ofEpochNanos_eq_iff]
  simp only [untilNextMinute, nanosPerMinute, nanosPerSecond, Int.toNat_natCast]
  omega

/-- Then it shows the next one, for a whole minute. -/
theorem ofEpochNanos_add_eq_next_iff (t e : Nat) : Instant.ofEpochNanos (t + e) = (Instant.ofEpochNanos t).next ↔
    untilNextMinute t ≤ e ∧ e < untilNextMinute t + nanosPerMinute := by
  rw [ofEpochNanos_eq_next_iff]
  simp only [untilNextMinute, nanosPerMinute, nanosPerSecond, Int.toNat_natCast]
  omega

/-! ## Readings of the wall clock -/

/-- What the wall clock showed when it was last looked at. -/
def lastReading (h : History (Board r)) : Option Int :=
  (h.filterMap fun
    | ⟨(.wallClock, _), now⟩ => some now
    | _ => none).getLast?

/-- A look at the wall clock is the last one. -/
theorem lastReading_concat_wallClock (h : History (Board r)) (b : Board r) (now : Int) :
    lastReading (h ++ [⟨(.wallClock, b), now⟩]) = some now := by
  simp [lastReading]

theorem lastReading_concat_monotonic (h : History (Board r)) (b : Board r) (now : Nat) :
    lastReading (h ++ [⟨(.monotonic, b), now⟩]) = lastReading h := by
  simp [lastReading]

theorem lastReading_concat_awaitSignal (h : History (Board r)) (b : Board r) (timeout : Option Nat)
    (answer : Except Errno SignalInfo) :
    lastReading (h ++ [⟨(.awaitSignal timeout, b), answer⟩]) = lastReading h := by
  simp [lastReading]

/-! ## Waits of the loop -/

/-- With this timeout, a wait in which no signal comes ends with the minute after that of the last reading of the
wall clock. -/
def EndsOnMinute (h : History (Board r)) (k : Steady) (timeout : Option Nat) : Prop :=
  ∃ t left : Nat, lastReading h = some (t : Int) ∧ timeout = some left ∧
    Instant.ofEpochNanos (k.wall + left : Nat) = (Instant.ofEpochNanos t).next ∧
    ∀ e < left, Instant.ofEpochNanos (k.wall + e : Nat) = Instant.ofEpochNanos t

/-- Waits for signals end with the minute, or at any time if there is nothing to do at times of day. -/
def onMinute (r : Registry) : Asks Steady.world (Board r) := fun h k c _ => ∀ timeout, c = .awaitSignal timeout →
  (timeout = none ∧ r.hasTimed = false) ∨ EndsOnMinute h k timeout

/-- The deadline is the end of the minute that the wall clock showed when it was last looked at, and has not
passed. -/
structure Aims (deadline t : Nat) (h : History (Board r)) (k : Steady) : Prop where
  reading : lastReading h = some (t : Int)
  le_wall : t ≤ k.wall
  monotonic_le : k.monotonic ≤ deadline
  wall_add : k.wall + deadline = k.monotonic + (t + untilNextMinute t)

namespace Aims

variable (ha : Aims deadline t h k)

include ha

/-- A wait until the deadline ends with the minute. -/
theorem endsOnMinute : EndsOnMinute h k (some (deadline - k.monotonic)) := by
  obtain ⟨hreading, hwall, hdeadline, hsum⟩ := ha
  refine ⟨t, _, hreading, rfl, ?_, fun e he => ?_⟩
  · have hend : k.wall + (deadline - k.monotonic) = t + untilNextMinute t := by omega
    rw [hend, Int.natCast_add, ofEpochNanos_add_eq_next_iff]
    exact ⟨Nat.le_refl _, Nat.lt_add_of_pos_right (by decide)⟩
  · have hsame : k.wall + e = t + (k.wall - t + e) := by omega
    rw [hsame, Int.natCast_add, ofEpochNanos_add_eq_iff]
    omega

/-- Part of the time has been waited. -/
theorem wait {timeout nanos : Nat} {answer : Except Errno SignalInfo} (hn : nanos ≤ deadline - k.monotonic) :
    Aims deadline t (h ++ [⟨(.awaitSignal timeout, b), answer⟩]) (k.after nanos) := by
  obtain ⟨hreading, hwall, hdeadline, hsum⟩ := ha
  refine ⟨(lastReading_concat_awaitSignal ..).trans hreading, ?_, ?_, ?_⟩
  all_goals
    simp only [Steady.after_wall, Steady.after_monotonic]
    omega

/-- However often it is interrupted, such a wait ends with the minute. -/
theorem assures_awaitSignal : Assures Steady.world (onMinute r) (Supervisor.awaitSignal (some deadline))
    (fun _ _ _ _ => True) n h k b := by
  refine assures_repeatUntil (fun h k _ => Aims deadline t h k) ha fun h k b ha => ?_
  refine assures_bind.mpr (assures_bind.mpr (Steady.assures_ask nofun ?_))
  rintro now k₁ ⟨rfl, rfl⟩
  have ha : Aims deadline t (h ++ [⟨(.monotonic, b), k₁.monotonic⟩]) k₁ :=
    ⟨(lastReading_concat_monotonic ..).trans ha.reading, ha.le_wall, ha.monotonic_le, ha.wall_add⟩
  refine assures_pure.mpr (assures_bind.mpr (Steady.assures_ask ?_ ?_))
  · rintro _ ⟨⟩
    exact .inr ha.endsOnMinute
  rintro answer k₂ ⟨nanos, hn, rfl, -⟩
  cases answer with
  | ok info => trivial
  | error e =>
    dsimp only
    split
    · trivial
    split
    · exact ha.wait hn
    · trivial

end Aims

/-- The deadline is set for the end of the minute. -/
theorem assures_nextMinute : Assures Steady.world (onMinute r) (nextMinute : Operation r Nat)
    (yields fun h k deadline _ => ∃ t, Aims deadline t h k) n h k b := by
  refine assures_bind.mpr (Steady.assures_ask nofun ?_)
  rintro now k₁ ⟨rfl, rfl⟩
  refine assures_bind.mpr (Steady.assures_ask nofun ?_)
  rintro wall k₂ ⟨rfl, rfl⟩
  refine assures_pure.mpr ⟨k₂.wall, lastReading_concat_wallClock .., Nat.le_refl _, Nat.le_add_right .., ?_⟩
  omega

/-- Nobody waits for a signal. -/
abbrev busy (r : Registry) : Regime Steady.world (Board r) :=
  .ofWorld (fun _ c => ∀ timeout, c ≠ .awaitSignal timeout) (fun _ => True) (Board r)

theorem servesLoop_busy (sup : Supervisor) : ServesLoop (busy r) sup :=
  ((Endures.of_asks (fun _ => trivial) (fun _ _ _ _ => id)
    (fun _ hc _ _ _ _ _ _ => assures_ask.mpr fun _ _ => ⟨hc, fun _ _ _ => ⟨trivial, trivial⟩⟩)
    sup).serves fun _ _ => trivial).loop

/-- What waits for no signal is all right. -/
theorem assures_of_busy {α : Type} {x : Operation r α} (hx : Keeps (busy r) x) :
    Assures Steady.world (onMinute r) x (fun _ _ _ _ => True) n h k b :=
  ((hx (h := h) (k := k) (s := b) trivial).imp fun _ _ _ _ _ => trivial).imp_asks
    fun _ _ _ _ hc timeout e => absurd e (hc timeout)

theorem assures_awaitSignal_of_untimed (ht : r.hasTimed = false) : Assures Steady.world (onMinute r)
    (Supervisor.awaitSignal none) (fun _ _ _ _ => True) n h k b := by
  refine assures_repeatUntil (fun _ _ _ => True) trivial fun h k b _ => ?_
  refine assures_bind.mpr (assures_pure.mpr (assures_bind.mpr (Steady.assures_ask ?_ ?_)))
  · rintro _ ⟨⟩
    exact .inl ⟨rfl, ht⟩
  rintro answer k₁ -
  cases answer with
  | ok info => trivial
  | error e =>
    dsimp only
    split
    · trivial
    split <;> trivial

theorem assures_awaitEvent_onMinute (sup : Supervisor) (last : Instant) {deadline : Option Nat}
    (hwait : Assures Steady.world (onMinute r) (Supervisor.awaitSignal deadline) (fun _ _ _ _ => True) n h k b) :
    Assures Steady.world (onMinute r) (awaitEvent sup last deadline) (fun _ _ _ _ => True) n h k b := by
  refine hwait.bind (fun h k info b _ => ?_) fun _ _ _ _ _ => trivial
  cases info with
  | none => exact assures_pure.mpr trivial
  | some info =>
    refine (assures_of_busy ((servesLoop_busy sup).handleSignal info)).bind (fun h k exit b _ => ?_)
      fun _ _ _ _ _ => trivial
    cases exit <;> exact assures_pure.mpr trivial

/-- A round waits once, after it has set the deadline. -/
theorem assures_loopOnce_onMinute (sup : Supervisor) (last : Instant) :
    Assures Steady.world (onMinute r) (loopOnce sup last) (fun _ _ _ _ => True) n h k b := by
  unfold loopOnce
  split
  · refine (assures_of_busy ((servesLoop_busy sup).checkElapsed last)).bind (fun h k last b _ => ?_)
      fun _ _ _ _ _ => trivial
    refine (assures_nextMinute.bind (fun h k deadline b ha => ?_) fun _ _ _ _ _ => trivial)
    obtain ⟨t, ha⟩ := ha
    exact assures_awaitEvent_onMinute sup last ha.assures_awaitSignal
  · rename_i ht
    exact assures_awaitEvent_onMinute sup last (assures_awaitSignal_of_untimed (Bool.eq_false_iff.mpr ht))

/-- The rounds of the loop have nothing to pass on. -/
theorem assures_mainLoop_onMinute (sup : Supervisor) :
    Assures Steady.world (onMinute r) (mainLoop sup : Operation r LoopExit) (fun _ _ _ _ => True) n h k b := by
  refine (assures_of_busy (servesLoop_busy sup).currentMinute).bind (fun h k last b _ => ?_) fun _ _ _ _ _ => trivial
  refine assures_iterate (fun _ _ _ _ => True) trivial fun h k last b _ => ?_
  refine (assures_loopOnce_onMinute sup last).imp fun h k round b _ => ?_
  rcases round with e | last | exit <;> trivial

/-- What is left of the minute of a time is no more than a minute; it takes the clock to the next minute, and
nothing less does.  Over clocks that go on together, the loop waits for signals, if it has anything to do at times
of day, until the end of the minute of its last look at the wall clock: when such a wait is given up, the clock
shows the next minute, and it has not done so before. -/
theorem waits_end_on_minute (sup : Supervisor) (b : Board r) (k : Steady) :
    (∀ t : Nat, 0 < untilNextMinute t ∧ untilNextMinute t ≤ nanosPerMinute ∧
      untilNextMinute t + (t / nanosPerSecond % 60 * nanosPerSecond + t % nanosPerSecond) = nanosPerMinute ∧
      Instant.ofEpochNanos (t + untilNextMinute t) = (Instant.ofEpochNanos t).next ∧
      ∀ e : Nat, Instant.ofEpochNanos (t + e) = Instant.ofEpochNanos t ↔ e < untilNextMinute t) ∧
    Always Steady.world (mainLoop sup) b k fun h k moment _ => ∀ timeout,
      moment = .asking (.awaitSignal timeout) → (timeout = none ∧ r.hasTimed = false) ∨ EndsOnMinute h k timeout := by
  refine ⟨fun t => ⟨untilNextMinute_pos _, untilNextMinute_le _, untilNextMinute_add t, ?_,
    ofEpochNanos_add_eq_iff t⟩, ?_⟩
  · rw [ofEpochNanos_add_eq_next_iff]
    exact ⟨Nat.le_refl _, Nat.lt_add_of_pos_right (by decide)⟩
  · refine always_of_assures (fun n => assures_mainLoop_onMinute sup) ?_ ?_
    · exact fun h k c b hc timeout e => hc timeout (Moment.asking.inj e)
    · exact fun _ _ _ _ _ _ _ _ => nofun

end ContainerInit.Supervision
