import ContainerInit.Proofs.Calendar.Stepping
import ContainerInit.Proofs.Dialogue.Beginning
import ContainerInit.Supervision.Program

/-! # Elapsed minutes

Each round of the loop reads the wall clock and checks the schedule for the minutes that have gone by since the last
check.  The clock may stand still, run on by any amount or go back.

## Rounds

What the loop has asked at some moment falls into rounds, each of which begins with a reading of the wall clock
(`Rounds`).  What a round hands to the check is a function of its reading and of the last minute that has been
checked (`window?`), so that the readings settle the windows.  A loop over services none of which waits for times of
day reads no clock, and has no windows.

## Windows

`Covers` is what the windows come to: each of them is sound and not empty, they come one after the other, and together
they hold the minutes after the start up to the greatest reading.  It is shown by induction on the rounds, where the
next reading either is no later than what has been checked, or adds the minutes from there on (`window?_cases`). -/

namespace ContainerInit.Supervision

open ContainerInit.Action ContainerInit.Calendar

variable {r : Registry} {sup : Supervisor} {n : Nat} {b b' : Board r} {h : History (Board r)}
  {last last' : Instant} {now : Int} {readings : List Int}

/-- The first and the last minute of a check. -/
abbrev Window := Instant × Instant

variable {windows : List Window}

/-- What is checked where the wall clock shows `now`, after the minutes up to `last`. -/
def window? (last : Instant) (now : Int) : Option Window :=
  if (Instant.ofEpochNanos now).order last = .gt then some (last.next, .ofEpochNanos now) else none

/-- The last minute that has been checked then. -/
def checkedUpTo (last : Instant) (now : Int) : Instant := (window? last now).elim last Prod.snd

/-! ## Rounds of the loop -/

/-- Waits for a signal until the next minute begins, and acts on it. -/
def awaitMinute (sup : Supervisor) (last : Instant) : Operation r (Round Instant LoopExit) := do
  awaitEvent sup last (some (← nextMinute))

/-- A round of the loop from its reading of the wall clock on. -/
def roundAt (sup : Supervisor) (last : Instant) (now : Int) : Operation r (Round Instant LoopExit) :=
  match window? last now with
  | none => awaitMinute sup last
  | some (first, last) => do
    let started ← checkSchedule sup first last
    if !started.isEmpty then
      logProgram .info ("Scheduled services started at " ++ last.text ++ ": " ++ Text.quoteList started)
    awaitMinute sup last

/-- A round reads the wall clock first, if any service waits for times of day. -/
theorem loopOnce_eq_of_hasTimed (ht : r.hasTimed = true) (last : Instant) :
    loopOnce (r := r) sup last = Action.ask .wallClock >>= roundAt sup last := by
  rw [loopOnce, if_pos ht, checkElapsed, currentMinute, bind_assoc, bind_assoc]
  congr 1
  funext now
  rw [pure_bind, roundAt, window?]
  by_cases hlate : (Instant.ofEpochNanos now).order last = .gt
  · rw [if_neg (not_not.mpr hlate), if_pos hlate]
    simp only [bind_assoc, awaitMinute]
    congr 1
    funext started
    split <;> simp
  · rw [if_pos hlate, if_neg hlate]
    simp [awaitMinute]

/-- Otherwise it waits for a signal, however long that takes. -/
theorem loopOnce_eq_of_not_hasTimed (ht : r.hasTimed = false) :
    loopOnce (r := r) sup = fun last => awaitEvent sup last none := by
  funext last
  rw [loopOnce, if_neg (Bool.eq_false_iff.mp ht)]

/-- The loop goes on with the minute that it was given. -/
theorem again_of_awaitEvent {deadline : Option Nat}
    (hr : Runs (awaitEvent (r := r) sup last deadline) n b h (.ok (.again last')) b') : last' = last := by
  obtain ⟨h₁, h₂, info, b₁, rfl, -, hr⟩ := runs_bind_ok_iff.mp hr
  cases info with
  | none =>
    cases (runs_pure_iff.mp hr).2.1
    rfl
  | some info =>
    obtain ⟨h₃, h₄, exit, b₂, rfl, -, hr⟩ := runs_bind_ok_iff.mp hr
    cases exit with
    | none =>
      cases (runs_pure_iff.mp hr).2.1
      rfl
    | some exit => cases (runs_pure_iff.mp hr).2.1

/-- Waiting changes nothing about what has been checked. -/
theorem again_of_awaitMinute (hr : Runs (awaitMinute (r := r) sup last) n b h (.ok (.again last')) b') :
    last' = last := by
  obtain ⟨h₁, h₂, deadline, b₁, rfl, -, hr⟩ := runs_bind_ok_iff.mp hr
  exact again_of_awaitEvent hr

/-- The next round goes on from what has been checked by this one. -/
theorem again_of_roundAt (hr : Runs (roundAt (r := r) sup last now) n b h (.ok (.again last')) b') :
    last' = checkedUpTo last now := by
  unfold roundAt at hr
  unfold checkedUpTo
  cases hw : window? last now with
  | none =>
    rw [hw] at hr
    exact again_of_awaitMinute hr
  | some w =>
    rw [hw] at hr
    obtain ⟨h₁, h₂, started, b₁, rfl, -, hr⟩ := runs_bind_ok_iff.mp hr
    split at hr
    · obtain ⟨h₃, h₄, _, b₂, rfl, -, hr⟩ := runs_bind_ok_iff.mp hr
      exact again_of_awaitMinute hr
    · exact again_of_awaitMinute hr

/-- Rounds of the loop from the state `b` on, after the minutes up to `last` have been checked: what has been
asked in them so far, the readings of the wall clock that they began with, and the windows that they have handed
to `checkSchedule`.  Without timed schedules, the loop neither looks at the clock nor at the schedules. -/
inductive Rounds (sup : Supervisor) (n : Nat) :
    Instant → Board r → History (Board r) → List Int → List Window → Prop where
  | none {last : Instant} {b : Board r} : Rounds sup n last b [] [] []
  | untimed {last : Instant} {b : Board r} {h : History (Board r)} (timed : r.hasTimed = false)
      (loop : Begins (iterate (fun last => awaitEvent sup last .none) last) n b h) : Rounds sup n last b h [] []
  | begun {last : Instant} {b : Board r} {now : Int} {h : History (Board r)} (timed : r.hasTimed = true)
      (round : Begins (roundAt sup last now) n b h) :
      Rounds sup n last b (⟨(.wallClock, b), now⟩ :: h) [now] (window? last now).toList
  | done {last last' : Instant} {b b' : Board r} {now : Int} {h h' : History (Board r)} {readings : List Int}
      {windows : List Window} (timed : r.hasTimed = true)
      (round : Runs (roundAt sup last now) n b h (.ok (.again last')) b')
      (rest : Rounds sup n last' b' h' readings windows) :
      Rounds sup n last b (⟨(.wallClock, b), now⟩ :: h ++ h') (now :: readings)
        ((window? last now).toList ++ windows)

/-- By induction on the number of rounds. -/
theorem rounds_of_begins_iterateFor (ht : r.hasTimed = true) (m : Nat)
    (hb : Begins (iterateFor (loopOnce (r := r) sup) m last) n b h) :
    ∃ readings windows, Rounds sup n last b h readings windows := by
  induction m generalizing last b h with
  | zero =>
    cases hb
    exact ⟨_, _, .none⟩
  | succ m ih =>
    rcases hb.of_iterateFor with hround | ⟨h₁, h₂, last', b₁, rfl, hround, hrest⟩
    · rw [loopOnce_eq_of_hasTimed ht] at hround
      rcases begins_ask_bind hround with rfl | ⟨now, es, rfl, hes⟩
      · exact ⟨_, _, .none⟩
      · exact ⟨_, _, .begun ht hes⟩
    · rw [loopOnce_eq_of_hasTimed ht] at hround
      obtain ⟨_, es, now, _, rfl, hask, hes⟩ := runs_bind_ok_iff.mp hround
      obtain ⟨_, rfl, e, rfl⟩ := runs_ask_iff.mp hask
      cases e
      obtain ⟨readings, windows, hrounds⟩ := ih hrest
      exact ⟨_, _, .done ht hes hrounds⟩

/-- Whatever has been asked in the loop was asked in its rounds. -/
theorem rounds_of_begins (hb : Begins (iterate (loopOnce (r := r) sup) last) n b h) :
    ∃ readings windows, Rounds sup n last b h readings windows := by
  cases ht : r.hasTimed with
  | false =>
    rw [loopOnce_eq_of_not_hasTimed ht] at hb
    exact ⟨_, _, .untimed ht hb⟩
  | true => exact rounds_of_begins_iterateFor ht n hb

/-! ## The minutes of the windows -/

/-- The windows follow one another, and hold each minute after `start` up to the greatest reading, and no
others. -/
structure Covers (start : Int) (readings : List Int) (windows : List Window) : Prop where
  sound : ∀ w ∈ windows, w.1.Sound ∧ w.2.Sound
  nonempty : ∀ w ∈ windows, w.1.minutes ≤ w.2.minutes
  inOrder : windows.Pairwise fun v w => v.2.minutes < w.1.minutes
  covered : ∀ m, (∃ w ∈ windows, w.1.minutes ≤ m ∧ m ≤ w.2.minutes) ↔
    start < m ∧ ∃ reading ∈ readings, m ≤ reading / nanosPerMinute

theorem covers_nil (start : Int) : Covers start [] [] := ⟨nofun, nofun, .nil, fun m => by simp⟩

/-- The windows come after the start. -/
theorem Covers.start_lt {start : Int} (hc : Covers start readings windows) {w : Window} (hw : w ∈ windows) :
    start < w.1.minutes :=
  ((hc.covered _).mp ⟨w, hw, le_rfl, hc.nonempty w hw⟩).1

theorem sound_ofEpochNanos (ns : Int) : (Instant.ofEpochNanos ns).Sound := (Instant.sound_ofEpochSeconds _).1

theorem minutes_ofEpochNanos (ns : Int) : (Instant.ofEpochNanos ns).minutes = ns / nanosPerMinute := by
  refine (Instant.sound_ofEpochSeconds _).2.trans ?_
  simp only [nanosPerMinute, nanosPerSecond]
  omega

/-- There is something to check as soon as the minute is over, from the next minute to that of the reading. -/
theorem window?_cases (hs : last.Sound) (now : Int) :
    (window? last now = none ∧ now / nanosPerMinute ≤ last.minutes) ∨
      window? last now = some (last.next, .ofEpochNanos now) ∧ last.minutes < now / nanosPerMinute := by
  have horder := Instant.order_eq_compare (sound_ofEpochNanos now) hs
  rw [minutes_ofEpochNanos] at horder
  unfold window?
  rw [horder]
  split
  case isTrue hlate => exact .inr ⟨rfl, compare_gt_iff_gt.mp hlate⟩
  case isFalse hlate => exact .inl ⟨rfl, not_lt.mp (mt compare_gt_iff_gt.mpr hlate)⟩

/-- What has been checked last is a minute of the calendar. -/
theorem sound_checkedUpTo (hs : last.Sound) (now : Int) : (checkedUpTo last now).Sound := by
  unfold checkedUpTo
  rcases window?_cases hs now with ⟨hw, -⟩ | ⟨hw, -⟩
  · rwa [hw]
  · rw [hw]
    exact sound_ofEpochNanos now

/-- One reading more, before the others. -/
theorem Covers.cons (hs : last.Sound) (hc : Covers (checkedUpTo last now).minutes readings windows) :
    Covers last.minutes (now :: readings) ((window? last now).toList ++ windows) := by
  unfold checkedUpTo at hc
  rcases window?_cases hs now with ⟨hw, hle⟩ | ⟨hw, hlt⟩
  · rw [hw] at hc ⊢
    refine ⟨hc.sound, hc.nonempty, hc.inOrder, fun m => (hc.covered m).trans (and_congr_right fun hm => ?_)⟩
    have hnow : ¬ m ≤ now / nanosPerMinute := by
      change last.minutes < m at hm
      omega
    simp only [List.mem_cons, exists_eq_or_imp, hnow, false_or]
  · rw [hw] at hc ⊢
    obtain ⟨hnext, hminutes⟩ := hs.next
    have hlast := minutes_ofEpochNanos now
    refine ⟨List.forall_mem_cons.mpr ⟨⟨hnext, sound_ofEpochNanos now⟩, hc.sound⟩,
      List.forall_mem_cons.mpr ⟨?_, hc.nonempty⟩, List.pairwise_cons.mpr ⟨fun w => hc.start_lt, hc.inOrder⟩,
      fun m => ?_⟩
    · dsimp only
      omega
    simp only [Option.toList_some, List.singleton_append, List.mem_cons, exists_eq_or_imp, hc.covered,
      Option.elim_some, hminutes, hlast]
    by_cases hm : m ≤ now / nanosPerMinute
    · simp only [hm, and_true, true_or, not_lt.mpr hm, false_and, or_false]
      omega
    · have hm' : now / nanosPerMinute < m := not_le.mp hm
      simp only [hm, and_false, false_or, hm', hlt.trans hm', true_and]

/-- By induction on the rounds, from the first to the last. -/
theorem Rounds.covers (hrounds : Rounds sup n last b h readings windows) (hs : last.Sound) :
    Covers last.minutes readings windows := by
  induction hrounds with
  | none => exact covers_nil _
  | untimed => exact covers_nil _
  | begun => simpa using (covers_nil _).cons hs
  | done _ round _ ih =>
    cases again_of_roundAt round
    exact (ih (sound_checkedUpTo hs _)).cons hs

/-- At every moment of the loop, all that has been asked after the first reading of the wall clock was asked in
rounds of which the windows hold each minute after that of the first reading up to the greatest later one.  No
minute is left out, and none is in two windows. -/
theorem minutes_checked_once (sup : Supervisor) (b : Board r) :
    Always (.anything _) (mainLoop sup) b () fun h _ _ _ =>
      h = [] ∨ ∃ n first es readings windows, h = ⟨(.wallClock, b), first⟩ :: es ∧
        Rounds sup n (.ofEpochNanos first) b es readings windows ∧
        Covers (first / nanosPerMinute) readings windows := by
  refine always_of_begins fun n h hb => ?_
  rw [mainLoop, currentMinute, bind_assoc] at hb
  rcases begins_ask_bind hb with rfl | ⟨first, es, rfl, hes⟩
  · exact .inl rfl
  rw [pure_bind] at hes
  obtain ⟨readings, windows, hrounds⟩ := rounds_of_begins hes
  refine .inr ⟨n, first, es, readings, windows, rfl, hrounds, ?_⟩
  rw [← minutes_ofEpochNanos]
  exact hrounds.covers (sound_ofEpochNanos first)

end ContainerInit.Supervision
