import ContainerInit.Proofs.Dialogue.Interpretation
import ContainerInit.Proofs.Dialogue.Runs
import ContainerInit.Proofs.Dialogue.Triple
import ContainerInit.Proofs.Supervision.Stopping

/-! # The shutdown

The shutdown stops the services until a deadline, and then ends every process that is left.  Where all
processes descend from the supervisor nobody is left behind, and the outcome says whether all of them have
ended when asked to.

The outcome is read off two flags, `graceful` and `killed`, which the two parts compute as they go.  What they
stand for is said about the history of the exchanges: a process was killed (`Killed`), the graceful part has
run out of time (`TimedOut`), no service had a process at its end (`StoppedInTime`).  `Verdict` ties the flags
to the history, and is kept by everything in between; `Verdict.outcome` is the propositional rest.

## Numbers that are left

That nobody is there does not mean that no service holds the number of a process.  A wait that meets an end
which cannot be reported fails after it has collected the child.  The failure is passed over when the services
are stopped, and from then on nobody is left of whom the end could be recorded.  So a service may come out of
the shutdown with the number of a process (`shutdown_leaves_unnamedEnd`), and this is the only way in which it
does (`shutdown_outcome`). -/

namespace ContainerInit.Supervision

open ContainerInit.Action Kernel Relation

variable {r : Registry} {n : Nat} {h h' : History (Board r)} {H : History (Board r) → Prop} {b b₀ b₁ : Board r}
  {k : Family} {p : Plan} {start : Nat} {stopped killed : Bool}

/-! ## What the history shows -/

/-- Some process was killed. -/
def Killed (h : History (Board r)) : Prop := ∃ target b, ⟨(.kill target .kill, b), .ok ()⟩ ∈ h

/-- All processes were asked to end, from this board; with that the graceful part is over. -/
def AllAsked (h : History (Board r)) (b : Board r) : Prop := ∃ a, ⟨(.kill (-1) .terminate, b), a⟩ ∈ h

/-- No service had a process when the graceful part was over. -/
def StoppedInTime (h : History (Board r)) : Prop := ∃ b, AllAsked h b ∧ ∀ i : r.Id, b[i].pid = none

/-- The time by which everything should have ended, if it was asked to at `start`. -/
def Plan.deadline (p : Plan) (start : Nat) : Nat :=
  start + p.settings.shutdownTimeout * Calendar.nanosPerSecond

/-- A wait for a signal has run out of time at the deadline, in the graceful part of a shutdown, and some
service had a process then. -/
def TimedOut (p : Plan) (h : History (Board r)) : Prop :=
  ∃ (start now : Nat) (b₀ b : Board r) (h₁ h₂ : History (Board r)),
    h = ⟨(.monotonic, b₀), start⟩ :: h₁ ++ [⟨(.monotonic, b), now⟩,
      ⟨(.awaitSignal (some (p.deadline start - now)), b), .error .tryAgain⟩] ++ h₂ ∧
    (∀ b', ¬ AllAsked h₁ b') ∧ ∃ (i : r.Id) (q : Pid), b[i].pid = some q

/-- The exchange is a wait for a signal that has run out of time while a service had a process. -/
def Expired : Dialogue.Exchange (Kernel.signature.inState (Board r)) → Prop
  | ⟨(.awaitSignal _, b), a⟩ => a = .error .tryAgain ∧ ∃ (i : r.Id) (q : Pid), b[i].pid = some q
  | _ => False

/-- Running out of time shows in the history. -/
theorem TimedOut.exists_expired (ht : TimedOut p h) : ∃ e ∈ h, Expired e := by
  obtain ⟨start, now, b₀, b, h₁, h₂, rfl, -, hb⟩ := ht
  refine ⟨⟨(.awaitSignal (some (p.deadline start - now)), b), .error .tryAgain⟩, ?_, rfl, hb⟩
  exact List.mem_append_left _ (List.mem_append_right _ (List.mem_cons_of_mem _ (List.mem_singleton_self _)))

theorem TimedOut.append (ht : TimedOut p h) (h' : History (Board r)) : TimedOut p (h ++ h') := by
  obtain ⟨start, now, b₀, b, h₁, h₂, rfl, hrest⟩ := ht
  exact ⟨start, now, b₀, b, h₁, h₂ ++ h', by simp, hrest⟩

theorem Uneventful.not_expired {e : Dialogue.Exchange (Kernel.signature.inState (Board r))}
    (he : Uneventful e) : ¬ Expired e := by
  obtain ⟨⟨c, b⟩, a⟩ := e
  cases c with
  | awaitSignal timeout => exact fun hx => he hx.1
  | _ => exact id

/-- Nothing of note has happened since the first look at the clock. -/
def Underway (start : Nat) (h : History (Board r)) : Prop :=
  ∃ b₀ h₁, h = ⟨(.monotonic, b₀), start⟩ :: h₁ ∧ ∀ e ∈ h₁, Uneventful e

namespace Underway

theorem unmoved : Unmoved (Underway (r := r) start) := by
  rintro h e ⟨b₀, h₁, rfl, hh⟩ he
  refine ⟨b₀, h₁ ++ [e], by simp, fun e' he' => ?_⟩
  rcases List.mem_append.mp he' with he' | he'
  · exact hh e' he'
  · rwa [List.mem_singleton.mp he']

theorem uneventful (hu : Underway start h) {e : Dialogue.Exchange (Kernel.signature.inState (Board r))}
    (he : e ∈ h) : Uneventful e := by
  obtain ⟨b₀, h₁, rfl, hh⟩ := hu
  rcases List.mem_cons.mp he with rfl | he
  · trivial
  · exact hh e he

theorem not_killed (hu : Underway start h) : ¬ Killed h := fun ⟨_, _, he⟩ =>
  absurd (hu.uneventful he).2 (by decide)

theorem not_allAsked (hu : Underway start h) : ¬ AllAsked h b := fun ⟨_, he⟩ =>
  absurd (hu.uneventful he).1 (by decide)

theorem timedOut (hu : Underway start h) {now : Nat} (hb : ∃ (i : r.Id) (q : Pid), b[i].pid = some q) :
    TimedOut p (h ++ [⟨(.monotonic, b), now⟩,
      ⟨(.awaitSignal (some (p.deadline start - now)), b), .error .tryAgain⟩]) := by
  have hn : ∀ b', ¬ AllAsked h b' := fun b' => hu.not_allAsked
  obtain ⟨b₀, h₁, rfl, -⟩ := hu
  refine ⟨start, now, b₀, b, h₁, [], by simp, fun b' ⟨a, ha⟩ => ?_, hb⟩
  exact hn b' ⟨a, List.mem_cons_of_mem _ ha⟩

end Underway

theorem killed_concat {e : Dialogue.Exchange (Kernel.signature.inState (Board r))} :
    Killed (h ++ [e]) ↔ Killed h ∨ ∃ target b, ⟨(.kill target .kill, b), .ok ()⟩ = e := by
  simp only [Killed, List.mem_append, List.mem_singleton, exists_or]

theorem allAsked_concat {e : Dialogue.Exchange (Kernel.signature.inState (Board r))} :
    AllAsked (h ++ [e]) b ↔ AllAsked h b ∨ ∃ a, ⟨(.kill (-1) .terminate, b), a⟩ = e := by
  simp only [AllAsked, List.mem_append, List.mem_singleton, exists_or]

/-- What the history shows after the graceful part: whether the services were stopped in it, whether some
process was killed, and from which boards all processes were asked to end. -/
structure Verdict (p : Plan) (stopped killed : Bool) (asked : Board r → Prop) (h : History (Board r)) :
    Prop where
  killed : Killed h ↔ killed = true
  asked : ∀ b, AllAsked h b ↔ asked b
  inTime : stopped = true → ∀ e ∈ h, ¬ Expired e
  late : stopped = false → TimedOut p h

namespace Verdict

variable {asked : Board r → Prop} {e : Dialogue.Exchange (Kernel.signature.inState (Board r))}

theorem inTime_concat (hv : Verdict p stopped killed asked h) (hx : stopped = true → ¬ Expired e)
    (hs : stopped = true) : ∀ e' ∈ h ++ [e], ¬ Expired e' :=
  List.forall_mem_append.mpr ⟨hv.inTime hs, List.forall_mem_singleton.mpr (hx hs)⟩

theorem concat (hv : Verdict p stopped killed asked h)
    (hk : ∀ target b, ⟨(.kill target .kill, b), .ok ()⟩ ≠ e) (ha : ∀ b a, ⟨(.kill (-1) .terminate, b), a⟩ ≠ e)
    (hx : stopped = true → ¬ Expired e) : Verdict p stopped killed asked (h ++ [e]) where
  killed := by
    rw [killed_concat, hv.killed]
    exact or_iff_left fun ⟨target, b, he⟩ => hk target b he
  asked b := by
    rw [allAsked_concat, hv.asked]
    exact or_iff_left fun ⟨a, he⟩ => ha b a he
  inTime := hv.inTime_concat hx
  late hs := (hv.late hs).append _

theorem unmoved : Unmoved (Verdict p stopped killed asked) := by
  refine fun h e hv he => hv.concat ?_ ?_ fun _ => he.not_expired
  · rintro target b rfl
    exact absurd he.2 (by decide)
  · rintro b a rfl
    exact absurd he.1 (by decide)

/-- A wait for a signal runs out of time, where no service has a process if they were stopped. -/
theorem timeout (hv : Verdict p stopped killed asked h) (now : Nat) (left : Option Nat)
    (hb : stopped = true → ∀ i : r.Id, b[i].pid = none) : Verdict p stopped killed asked
      (h ++ [⟨(.monotonic, b), now⟩, ⟨(.awaitSignal left, b), .error .tryAgain⟩]) := by
  have hclock : Verdict p stopped killed asked (h ++ [⟨(.monotonic, b), now⟩]) := hv.unmoved trivial
  rw [List.append_cons]
  refine hclock.concat nofun nofun fun hs => ?_
  rintro ⟨-, i, q, hq⟩
  cases (hb hs i).symm.trans hq

/-- All processes are asked to end, for the first time. -/
theorem ask (hv : Verdict p stopped killed (fun _ => False) h) (b : Board r) (a : Except Errno Unit) :
    Verdict p stopped killed (b = ·) (h ++ [⟨(.kill (-1) .terminate, b), a⟩]) where
  killed := by
    rw [killed_concat, hv.killed]
    exact or_iff_left fun ⟨target, b, he⟩ => nomatch he
  asked b' := by
    rw [allAsked_concat, hv.asked, false_or]
    constructor
    · rintro ⟨a', he⟩
      cases he
      rfl
    · rintro rfl
      exact ⟨a, rfl⟩
  inTime := hv.inTime_concat fun _ => id
  late hs := (hv.late hs).append _

/-- A process is killed. -/
theorem kill (hv : Verdict p stopped killed asked h) (target : Pid) (b : Board r) :
    Verdict p stopped true asked (h ++ [⟨(.kill target .kill, b), .ok ()⟩]) where
  killed := by
    rw [killed_concat]
    exact iff_of_true (.inr ⟨target, b, rfl⟩) rfl
  asked b' := by
    rw [allAsked_concat, hv.asked]
    exact or_iff_left fun ⟨a, he⟩ => nomatch he
  inTime := hv.inTime_concat fun _ => id
  late hs := (hv.late hs).append _

/-- The flag tells whether the graceful part has run out of time. -/
theorem timedOut_iff (hv : Verdict p stopped killed asked h) : TimedOut p h ↔ stopped = false := by
  refine ⟨fun ht => ?_, hv.late⟩
  cases stopped with
  | false => rfl
  | true =>
    obtain ⟨e, he, hx⟩ := ht.exists_expired
    exact absurd hx (hv.inTime rfl e he)

/-- The flag tells whether all services were stopped in time. -/
theorem stoppedInTime_iff (hv : Verdict p stopped killed (b = ·) h)
    (hb : stopped = true ↔ ∀ i : r.Id, b[i].pid = none) : StoppedInTime h ↔ stopped = true := by
  rw [hb]
  constructor
  · rintro ⟨b', hasked, hnone⟩
    obtain rfl := (hv.asked b').mp hasked
    exact hnone
  · exact fun hnone => ⟨b, (hv.asked b).mpr rfl, hnone⟩

/-- The outcome says what the history shows. -/
theorem outcome (hv : Verdict p stopped killed (b = ·) h)
    (hb : stopped = true ↔ ∀ i : r.Id, b[i].pid = none) :
    let outcome := if stopped && !killed then Outcome.graceful else Outcome.forced
    (outcome = .graceful ↔ StoppedInTime h ∧ ¬ Killed h) ∧ (outcome = .forced ↔ TimedOut p h ∨ Killed h) := by
  rw [hv.stoppedInTime_iff hb, hv.timedOut_iff, hv.killed]
  cases stopped <;> cases killed <;> decide

end Verdict

/-! ## Calls within the family -/

section Calls

variable (hb : Owned True h k.children b)

include hb

theorem Owned.assures_ask {c : Kernel.Call} (hf : ∀ child, c ≠ .fork child) (hw : ∀ target, c ≠ .wait target) :
    Assures Family.world (fun _ _ _ _ => True) (Action.ask c) (yields fun h' k' a b' =>
      b' = b ∧ h' = h ++ [⟨(c, b), a⟩] ∧ Owned True h' k'.children b ∧
        ∃ k₁, ReflTransGen Family.Drifts k k₁ ∧ Family.world.Answers k₁ c a k') n h k b := by
  refine Action.assures_ask.mpr fun k₁ d => ⟨trivial, fun a k₂ ha => ⟨rfl, rfl, ?_, k₁, d, ha⟩⟩
  rw [Children.eq_of_answers hf hw ha.1]
  exact (hb.drifts (Family.drifts_children d)).call_of_ne hw fun _ => id

/-- A signal to all processes finds nobody only if nobody is there. -/
theorem Owned.assures_send (s : Signal) : Assures Family.world (fun _ _ _ _ => True) (Supervisor.send (-1) s)
    (yields fun h' k' sent b' => b' = b ∧ ∃ a, h' = h ++ [⟨(.kill (-1) s, b), a⟩] ∧ Owned True h' k'.children b ∧
      (sent = true ∧ a = .ok () ∨ sent = false ∧ a ≠ .ok () ∧ k'.Nobody)) n h k b := by
  refine (hb.assures_ask (c := .kill (-1) s) nofun nofun).bind_yields ?_
  rintro h k a b ⟨rfl, rfl, hb, k₁, -, ha⟩
  cases a with
  | ok _ => exact ⟨rfl, _, rfl, hb, .inl ⟨rfl, rfl⟩⟩
  | error e =>
    dsimp only
    split
    case isTrue he =>
      refine ⟨rfl, _, rfl, hb, .inr ⟨rfl, nofun, Family.Nobody.answers (ha.2.2 rfl he) ?_ ha⟩⟩
      nofun
    case isFalse => trivial

end Calls

theorem Remaining.assures_log {l : Log.Level} {text : String} (hb : Remaining H b₀ h k b) (hH : Unmoved H) :
    Assures Family.world (fun _ _ _ _ => True) (logProgram l text)
      (yields fun h' k' _ b' => Remaining H b₀ h' k' b' ∧ (k.Nobody → k'.Nobody)) n h k b := by
  refine (hb.owned.assures_ask (c := .log _) nofun nofun).yields ?_
  rintro h' k' a b' ⟨rfl, rfl, howned, k₁, d, ha⟩
  refine ⟨⟨howned, hb.within, hH hb.shown trivial⟩, fun hk => ?_⟩
  refine Family.Nobody.answers (Family.world.of_drifts Family.Nobody.drift hk d) ?_ ha
  nofun

/-- A wait for a signal is either uneventful, or runs out of time at the deadline. -/
theorem Remaining.assures_awaitSignal (hb : Remaining H b₀ h k b) (hH : Unmoved H) (deadline : Nat) :
    Assures Family.world (fun _ _ _ _ => True) (Supervisor.awaitSignal (some deadline))
      (yields fun h' k' info b' => b' = b ∧ Owned True h' k'.children b ∧ (info.isSome → H h') ∧
        (info = none → ∃ (h₁ : History (Board r)) (now : Nat), H h₁ ∧ h' = h₁ ++ [⟨(.monotonic, b), now⟩,
          ⟨(.awaitSignal (some (deadline - now)), b), .error .tryAgain⟩])) n h k b := by
  refine assures_repeatUntil_yields (fun h (k : Family) b' => b' = b ∧ Owned True h k.children b ∧ H h)
    ⟨rfl, hb.owned, hb.shown⟩ ?_
  rintro h k b' ⟨rfl, hb, hh⟩
  refine Assures.bind_yields (Q := fun h' (k' : Family) left b => b = b' ∧ Owned True h' k'.children b' ∧
    ∃ now : Nat, left = some (deadline - now) ∧ h' = h ++ [⟨(.monotonic, b'), now⟩]) ?_ ?_
  · refine (hb.assures_ask (c := .monotonic) nofun nofun).bind_yields ?_
    rintro h' k now b ⟨rfl, rfl, hb, -⟩
    exact ⟨rfl, hb, now, rfl, rfl⟩
  rintro h' k _ b ⟨rfl, hb, now, rfl, rfl⟩
  refine (hb.assures_ask (c := .awaitSignal (some (deadline - now))) nofun nofun).bind_yields ?_
  rintro h' k a b ⟨rfl, rfl, hb, -⟩
  have hclock : H (h ++ [⟨(.monotonic, b), now⟩]) := hH hh trivial
  cases a with
  | ok info => exact ⟨rfl, hb, fun _ => hH hclock nofun, nofun⟩
  | error e =>
    dsimp only
    split
    case isTrue he =>
      subst he
      exact ⟨rfl, hb, nofun, fun _ => ⟨h, now, hh, by simp⟩⟩
    case isFalse he =>
      split
      · exact ⟨rfl, hb, hH hclock fun e' => he (Except.error.inj e')⟩
      · trivial

/-! ## The graceful part -/

theorem Underway.verdict_stopped (hu : Underway start h) : Verdict p true false (fun _ => False) h where
  killed := iff_of_false hu.not_killed nofun
  asked _ := iff_of_false hu.not_allAsked id
  inTime _ _ he := (hu.uneventful he).not_expired
  late := nofun

theorem Underway.verdict_timedOut (hu : Underway start h) {now : Nat}
    (hb : ∃ (i : r.Id) (q : Pid), b[i].pid = some q) :
    Verdict p false false (fun _ => False) (h ++ [⟨(.monotonic, b), now⟩,
      ⟨(.awaitSignal (some (p.deadline start - now)), b), .error .tryAgain⟩]) where
  killed := by
    refine iff_of_false (fun ⟨target, b', he⟩ => ?_) nofun
    rcases List.mem_append.mp he with he | he
    · exact hu.not_killed ⟨target, b', he⟩
    · simp at he
  asked b' := by
    refine iff_of_false (fun ⟨a, he⟩ => ?_) id
    rcases List.mem_append.mp he with he | he
    · exact hu.not_allAsked ⟨a, he⟩
    · simp at he
  inTime := nofun
  late _ := hu.timedOut hb

/-- Services are stopped until none has a process, unless the deadline is reached before that. -/
theorem Remaining.assures_stopServices (hb : Remaining (Underway start) b₀ h k b) (p : Plan) :
    Assures Family.world (fun _ _ _ _ => True) (stopServices (p.deadline start)) (yields fun h k stopped b =>
      Owned True h k.children b ∧ (stopped = true ↔ ∀ i : r.Id, b[i].pid = none) ∧
        Verdict p stopped false (fun _ => False) h) n h k b := by
  have hH : Unmoved (Underway (r := r) start) := Underway.unmoved
  refine (hb.assures_stops hH fun R hR => hR.logProgram _ _).bind_yields fun h k _ b hb => ?_
  refine (hb.assures_stopAll hH _).bind_yields ?_
  rintro h k stopped b ⟨hb, hnone⟩
  cases stopped with
  | true => exact ⟨hb.owned, iff_of_true rfl (hnone rfl), hb.shown.verdict_stopped⟩
  | false =>
    refine (hb.assures_stops hH fun R hR => hR.logProgram _ _).bind_yields fun h k _ b hb => ?_
    refine assures_repeatUntil_yields (fun h k b => Remaining (Underway start) b₀ h k b) hb ?_
    rintro h k b hb
    refine assures_bind.mpr (assures_get.mpr ?_)
    dsimp only
    split
    case isTrue hrun =>
      have hnone := Board.anyRunning_eq_false_iff.mp (by simpa using hrun)
      exact ⟨hb.owned, iff_of_true rfl hnone, hb.shown.verdict_stopped⟩
    case isFalse hrun =>
      obtain ⟨i, q, hq⟩ := Board.exists_pid_of_anyRunning (b := b) (by simpa using hrun)
      refine (hb.assures_awaitSignal hH _).bind_yields ?_
      rintro h' k info b ⟨rfl, howned, hsome, hnone⟩
      cases info with
      | none =>
        obtain ⟨h₁, now, hu, rfl⟩ := hnone rfl
        refine (howned.assures_ask (c := .log _) nofun nofun).bind_yields ?_
        rintro h k _ b ⟨rfl, rfl, howned, -⟩
        refine ⟨howned, iff_of_false nofun fun hn => ?_, (hu.verdict_timedOut ⟨i, q, hq⟩).unmoved trivial⟩
        cases hq.symm.trans (hn i)
      | some info =>
        have hb : Remaining (Underway start) b₀ h' k b := ⟨howned, hb.within, hsome rfl⟩
        refine (hb.assures_stops hH fun R hR => hR.logProgram _ _).bind_yields fun h k _ b hb => ?_
        split
        · exact (hb.assures_stops hH fun R hR => hR.reapEnded).bind_yields fun h k _ b hb => hb
        · exact hb

/-! ## The forceful part -/

/-- Unless it fails, the action leaves a family with `Q`. -/
abbrev Leaves {α : Type} (x : Operation r α) (Q : α → Family → Prop) : Prop :=
  Triple (W := Family.world) (fun _ _ => True) (fun _ => True) x Q

/-- A look at all children finds none only if nobody is there. -/
theorem leaves_peek : Leaves (Supervisor.peek (-1) : Operation r _)
    fun state k => state = .noChildren → k.Nobody := by
  refine .repeatUntil (Triple.bind (Q := fun a (k : Family) => a = .error .noChild → k.Nobody)
    (triple_ask (fun _ _ => trivial) (fun _ => trivial) fun _ ha e => ?_) fun answer => ?_)
  · obtain ⟨⟨⟨found, hf⟩, hc⟩, -⟩ := ha
    rw [e] at hf
    exact Family.nobody_of_no_child fun p hp => (Family.nobody_of_finds hf).no_child p (hc ▸ hp)
  · cases answer with
    | ok status => exact triple_pure fun k _ => by cases status <;> nofun
    | error e =>
      refine .ite (fun he => ?_) fun _ => .ite (fun _ => ?_) fun _ => triple_throw
      · exact triple_pure fun k hk _ => hk (congrArg _ he)
      · exact triple_pure fun _ _ => trivial

/-- Nobody is there when no child is left to be collected. -/
theorem leaves_reapEnded : Leaves (reapEnded : Operation r Bool) fun none k => none = true → k.Nobody := by
  have hexit : Leaves (Supervisor.awaitExit (-1) none : Operation r _)
      fun state k => state = .noChildren → k.Nobody :=
    .repeatUntil (leaves_peek.bind fun _ => triple_pure fun _ => id)
  refine .repeatUntil (hexit.bind fun state => ?_)
  cases state with
  | noChildren => exact triple_pure fun k hk _ => hk rfl
  | running => exact triple_pure fun _ _ => nofun
  | exited p => exact triple_true.bind fun _ => triple_pure fun _ => id

/-- A round ends only if nobody is left, and then with whether somebody was killed. -/
theorem Remaining.assures_killOnce {asked : Board r → Prop}
    (hb : Remaining (Verdict p stopped killed asked) b₁ h k b)
    (hstopped : stopped = true → ∀ i : r.Id, b₁[i].pid = none) (deadline : Nat) :
    Assures Family.world (fun _ _ _ _ => True) (killOnce (-1) (deadline, killed))
      (yields fun h k v b => match v with
        | .again (_, killed) => Remaining (Verdict p stopped killed asked) b₁ h k b
        | .finish killed => Remaining (Verdict p stopped killed asked) b₁ h k b ∧ k.Nobody) n h k b := by
  have hreap : ∀ {killed h k b}, Remaining (Verdict p stopped killed asked) b₁ h k b →
      Assures Family.world (fun _ _ _ _ => True) reapEnded (yields fun h k none b =>
        Remaining (Verdict p stopped killed asked) b₁ h k b ∧ (none = true → k.Nobody)) n h k b := fun hb =>
    ((hb.assures_stops Verdict.unmoved fun R hR => hR.reapEnded).and (leaves_reapEnded trivial)).yields
      fun _ _ _ _ => id
  refine (hb.assures_awaitSignal Verdict.unmoved deadline).bind_yields ?_
  rintro h' k info b ⟨rfl, howned, hsome, hnone⟩
  cases info with
  | none =>
    obtain ⟨h₁, now, hv, rfl⟩ := hnone rfl
    have hb : Remaining (Verdict p stopped killed asked) b₁ _ k b :=
      ⟨howned, hb.within, hv.timeout _ _ fun hs i => hb.within.eq_none (hstopped hs i)⟩
    refine (hb.assures_stops Verdict.unmoved fun R hR => hR.logProgram _ _).bind_yields fun h k _ b hb => ?_
    refine (hb.owned.assures_send .kill).bind_yields ?_
    rintro h' k sent b' ⟨rfl, a, rfl, howned, ⟨rfl, rfl⟩ | ⟨rfl, ha, hk⟩⟩
    · have hb : Remaining (Verdict p stopped true asked) b₁ _ k b' := ⟨howned, hb.within, hb.shown.kill (-1) b'⟩
      refine (hreap hb).bind_yields ?_
      rintro h k none b ⟨hb, hk⟩
      split
      case isTrue hnone => exact ⟨hb, hk hnone⟩
      case isFalse =>
        exact (hb.assures_stops Verdict.unmoved fun R hR => hR.ask .monotonic trivial).bind_yields
          fun h k now b hb => hb
    · have hb : Remaining (Verdict p stopped killed asked) b₁ (h ++ [⟨(.kill (-1) .kill, b'), a⟩]) k b' := by
        refine ⟨howned, hb.within, hb.shown.concat (fun target b he => ?_) nofun fun _ => id⟩
        cases he
        exact ha rfl
      exact (hb.assures_log Verdict.unmoved).bind_yields fun h k' _ b hm => ⟨hm.1, hm.2 hk⟩
  | some info =>
    have hb : Remaining (Verdict p stopped killed asked) b₁ h' k b := ⟨howned, hb.within, hsome rfl⟩
    refine (hb.assures_stops Verdict.unmoved fun R hR => hR.logProgram _ _).bind_yields fun h k _ b hb => ?_
    split
    · refine (hreap hb).bind_yields ?_
      rintro h k none b ⟨hb, hk⟩
      split
      case isTrue hnone => exact ⟨hb, hk hnone⟩
      case isFalse => exact hb
    · exact hb

/-- What is left is ended, until nobody is there. -/
theorem Owned.assures_endProcesses (hb : Owned True h k.children b) (hv : Verdict p stopped false (fun _ => False) h)
    (hstopped : stopped = true → ∀ i : r.Id, b[i].pid = none) (deadline : Nat) :
    Assures Family.world (fun _ _ _ _ => True) (endProcesses (-1) deadline) (yields fun h k killed b' =>
      Remaining (Verdict p stopped killed (b = ·)) b h k b' ∧ k.Nobody) n h k b := by
  refine (hb.assures_ask (c := .log _) nofun nofun).bind_yields ?_
  rintro h₁ k _ b ⟨rfl, hh₁, hb, -⟩
  have hv₁ : Verdict p stopped false (fun _ => False) h₁ := hh₁ ▸ hv.unmoved trivial
  refine (hb.assures_send .terminate).bind_yields ?_
  rintro h₂ k sent b ⟨rfl, a, hh₂, howned, ha⟩
  have hb : Remaining (Verdict p stopped false (b = ·)) b h₂ k b := ⟨howned, .refl b, hh₂ ▸ hv₁.ask b a⟩
  rcases ha with ⟨rfl, -⟩ | ⟨rfl, -, hk⟩
  · refine assures_iterate_yields (fun h k d b' => Remaining (Verdict p stopped d.2 (b = ·)) b h k b') hb ?_
    rintro h k ⟨deadline, killed⟩ b' hb
    refine (hb.assures_killOnce hstopped deadline).yields fun h k v b' hm => ?_
    cases v <;> exact hm
  · exact (hb.assures_log Verdict.unmoved).bind_yields fun h k' _ b' hm => ⟨hm.1, hm.2 hk⟩

/-- Nobody is there, and what the history shows stays as it is. -/
def deserted (H : History (Board r) → Prop) (b : Board r) : Regime Family.world (Board r) where
  asks _ _ _ _ := True
  inv h k b' := b' = b ∧ k.Nobody ∧ H h
  errors _ := True

theorem keeps_deserted_ask (hH : Unmoved H) {c : Kernel.Call} (hf : ∀ child, c ≠ .fork child)
    (hc : ∀ a, Uneventful (r := r) ⟨(c, b), a⟩) : Keeps (deserted H b) (Action.ask c) := by
  rintro n h k b' ⟨rfl, hk, hh⟩
  refine assures_ask.mpr fun k₁ d => ⟨trivial, fun a k₂ ha => ⟨⟨rfl, ?_, hH hh (hc a)⟩, trivial⟩⟩
  exact (Family.world.of_drifts Family.Nobody.drift hk d).answers hf ha

theorem admits_deserted (hH : Unmoved H) : Admits (deserted H b) where
  errors _ _ _ := trivial
  ask c hc := by
    refine keeps_deserted_ask hH ?_ fun a => (targeted_of_routine hc).uneventful
    rintro child rfl
    exact hc

/-- The processes of services are such as waits for them have lost. -/
def Lost (h : History (Board r)) (b : Board r) : Prop := ∀ (i : r.Id) q, b[i].pid = some q → Unreported h i q

theorem Lost.append (hl : Lost h b) (h' : History (Board r)) : Lost (h ++ h') b :=
  fun i q hq => (hl i q hq).append h'

/-- Where nobody is there, services hold what waits have lost. -/
theorem Owned.lost (hb : Owned True h k.children b) (hk : k.Nobody) : Lost h b :=
  fun i q hq => ((hb.held i q hq).resolve_left (hk.no_child q)).2

/-- What a shutdown that has not failed leaves behind, and what its outcome says. -/
theorem Owned.assures_shutdown (hb : Owned True [] k.children b) (s : Settings) :
    Assures Family.world (fun _ _ _ _ => True) (shutdown ⟨s, -1⟩) (yields fun h (k : Family) outcome b =>
      k.Nobody ∧ Lost h b ∧ (outcome = .graceful → ∀ i : r.Id, b[i].pid = none) ∧
      (outcome = .graceful ↔ StoppedInTime h ∧ ¬ Killed h) ∧
      (outcome = .forced ↔ TimedOut ⟨s, -1⟩ h ∨ Killed h)) n [] k b := by
  refine (hb.assures_ask (c := .monotonic) nofun nofun).bind_yields ?_
  rintro _ k start b ⟨rfl, rfl, hb, -⟩
  have hstart : Remaining (Underway start) b [⟨(.monotonic, b), start⟩] k b :=
    ⟨hb, .refl b, b, [], rfl, nofun⟩
  refine (hstart.assures_stopServices ⟨s, -1⟩).bind_yields ?_
  rintro h k stopped b₁ ⟨hb₁, hstopped, hv⟩
  refine (hb₁.assures_endProcesses hv hstopped.mp _).bind_yields ?_
  rintro h k killed b₂ ⟨hb₂, hk⟩
  have hended : ∀ {h}, Verdict ⟨s, -1⟩ stopped killed (b₁ = ·) h ∧ Lost h b₂ →
      let outcome := if stopped && !killed then Outcome.graceful else Outcome.forced
      Lost h b₂ ∧ (outcome = .graceful → ∀ i : r.Id, b₂[i].pid = none) ∧
        (outcome = .graceful ↔ StoppedInTime h ∧ ¬ Killed h) ∧ (outcome = .forced ↔ TimedOut ⟨s, -1⟩ h ∨ Killed h) := by
    rintro h ⟨hv, hl⟩
    obtain ⟨hgraceful, hforced⟩ := hv.outcome hstopped
    refine ⟨hl, fun he i => hb₂.within.eq_none (hstopped.mp ?_ i), hgraceful, hforced⟩
    exact (hv.stoppedInTime_iff hstopped).mp (hgraceful.mp he).1
  have hH : Unmoved fun h => Verdict ⟨s, -1⟩ stopped killed (b₁ = ·) h ∧ Lost h b₂ :=
    fun h e hh he => ⟨Verdict.unmoved hh.1 he, hh.2.append [e]⟩
  have hR : Admits (deserted _ b₂) := admits_deserted hH
  have hwait : Keeps (deserted _ b₂) (Action.ask (.wait (-1))) := keeps_deserted_ask hH nofun fun _ => trivial
  refine ((hR.collect hwait ⟨rfl, hk, hb₂.shown, hb₂.owned.lost hk⟩).yields fun _ _ _ _ hm => hm.1).bind_yields ?_
  rintro h k collected b ⟨rfl, hk, hh⟩
  obtain ⟨gone, status | status⟩ := collected
  · exact ⟨hk, hended hh⟩
  · refine (((hR.logProgram _ _) ⟨rfl, hk, hh⟩).yields fun _ _ _ _ hm => hm.1).bind_yields ?_
    rintro h k _ b ⟨rfl, hk, hh⟩
    exact ⟨hk, hended hh⟩

/-- Where every process descends from the supervisor and every service holds a child of its own, if any, a
shutdown that does not fail leaves no process behind.  The numbers that services hold afterwards, if any, are those
of processes that waits for them have lost, because their ends could not be reported; and there is none after a
graceful shutdown.  It is graceful if no service had a process left at the end of the graceful part and nobody was
killed, and forced if some service still had one when that part ran out of time or somebody was killed. -/
theorem shutdown_outcome (s : Settings) (b : Board r) (k : Family) (hb : Distinct b)
    (hk : ∀ (i : r.Id) q, b[i].pid = some q → k.children.Has q) :
    Always Family.world (shutdown ⟨s, -1⟩) b k fun h k moment b =>
      ∀ outcome, moment = .ended (.ok outcome) →
        (∀ q, ¬ k.Has q) ∧
        (∀ (i : r.Id) q, b[i].pid = some q →
          ∃ b' : Board r, b'[i].pid = some q ∧ ⟨(.wait q, b'), .error .invalid⟩ ∈ h) ∧
        (outcome = .graceful → ∀ i : r.Id, b[i].pid = none) ∧
        (outcome = .graceful ↔ StoppedInTime h ∧ ¬ Killed h) ∧
        (outcome = .forced ↔ TimedOut ⟨s, -1⟩ h ∨ Killed h) := by
  have howned : Owned True [] k.children b := owned_of_distinct hb hk
  refine always_of_assures (fun n => howned.assures_shutdown s) (fun _ _ _ _ _ _ => nofun) ?_
  rintro h k₁ k₂ res b' hm d outcome he
  cases he
  obtain ⟨hnobody, hlost, hrest⟩ := hm
  exact ⟨Family.world.of_drifts Family.Nobody.drift hnobody d, fun i q hq => (hlost i q hq).2, hrest⟩

/-- A child that has a child of its own. -/
def generations (p q : Pid) (hp : 0 < p) : Family where
  children := Children.none.insert p hp ⟨0, none⟩
  parent := Function.update (fun _ => none) q (some p)
  rooted {x y} h := by
    refine ⟨p, ⟨_, Children.process_insert_self⟩, ?_⟩
    by_cases hx : x = q
    · subst hx
      exact .single (Function.update_self ..)
    · rw [Function.update_of_ne hx] at h
      cases h

/-- The board of one service with the process. -/
def solitary (p : Pid) : Board (Registry.single .never) :=
  Board.initial.set (Registry.only .never) (Service.State.started {} p)

theorem shutdown_outcome_solitary : Distinct (solitary 7) ∧
    (∀ (i : (Registry.single .never).Id) q, (solitary 7)[i].pid = some q →
      (generations 7 8 (by decide)).children.Has q) ∧
    Always Family.world (shutdown ⟨{ shutdownTimeout := 3 }, -1⟩) (solitary 7) (generations 7 8 (by decide))
      fun h k moment b => ∀ outcome, moment = .ended (.ok outcome) →
        (∀ q, ¬ k.Has q) ∧
        (∀ (i : (Registry.single .never).Id) q, b[i].pid = some q →
          ∃ b' : Board (Registry.single .never), b'[i].pid = some q ∧ ⟨(.wait q, b'), .error .invalid⟩ ∈ h) ∧
        (outcome = .graceful → ∀ i : (Registry.single .never).Id, b[i].pid = none) ∧
        (outcome = .graceful ↔ StoppedInTime h ∧ ¬ Killed h) ∧
        (outcome = .forced ↔ TimedOut ⟨{ shutdownTimeout := 3 }, -1⟩ h ∨ Killed h) := by
  have hone : ∀ i : Fin 1, Registry.only .never = i := fun i => Subsingleton.elim (0 : Fin 1) i
  have hb : Distinct (solitary 7) := fun i j _ _ _ => (hone i).symm.trans (hone j)
  have hk : ∀ (i : (Registry.single .never).Id) q, (solitary 7)[i].pid = some q →
      (generations 7 8 (by decide)).children.Has q := fun i q hq => by
    obtain rfl := hone i
    rw [solitary, Board.getElem_set_self] at hq
    cases hq
    exact ⟨⟨0, none⟩, rfl⟩
  exact ⟨hb, hk, shutdown_outcome _ _ _ hb hk⟩

/-! ## A number that is left -/

/-- One child, which a signal without a name has ended. -/
def unnamedChild : Children := Children.none.insert 7 (by decide) ⟨0, some (.signaled 34 false)⟩

/-- The family of that child, or of nobody after the child has been collected. -/
def lastUnnamed : Bool → Family
  | true => ⟨unnamedChild, fun _ => none, nofun⟩
  | false => ⟨unnamedChild.remove 7, fun _ => none, nofun⟩

/-- One of the ways in which this family may answer, with whether the child is there. -/
def answerUnnamed : (c : Kernel.Call) → StateM Bool (Kernel.signature.Answer c)
  | .wait target => fun there => if there then (.error .invalid, target ≠ 7) else (.error .noChild, false)
  | .kill _ _ => fun there => (if there then .ok () else .error .noProcess, there)
  | .awaitSignal _ => fun there => (.error .tryAgain, there)
  | c => fun there => (refusal .noProcess c, there)

/-- After the child has been collected nobody is there. -/
theorem not_has_lastUnnamed {p : Pid} : ¬ (lastUnnamed false).children.Has p := by
  rintro ⟨q, hq⟩
  change (unnamedChild.remove 7).process p = some q at hq
  by_cases e : p = 7
  · subst e
    cases Children.process_remove_self.symm.trans hq
  · cases (Children.process_insert_ne e).symm.trans (Children.process_of_remove hq)

/-- These answers are some that the family may give. -/
theorem realizes_lastUnnamed :
    Dialogue.Realizes Family.world answerUnnamed (fun there k => k = lastUnnamed there) fun _ => True := by
  rintro there _ c rfl -
  refine ⟨lastUnnamed there, lastUnnamed ((answerUnnamed c).run there).2, _, .refl, ?_, .refl, rfl⟩
  cases c with
  | wait target =>
    cases there with
    | false =>
      have hr : (lastUnnamed false).children.Reveals target none (.error .noChild) :=
        .noChild fun p q hp _ => not_has_lastUnnamed ⟨q, hp⟩
      exact ⟨⟨none, .revealed hr, rfl⟩, rfl, trivial⟩
    | true =>
      by_cases e : target = 7
      · subst e
        have hr : (lastUnnamed true).children.Reveals 7 (some 7) (.error .invalid) :=
          .ended (t := .signaled 34 false) rfl Children.covers_self rfl
        exact ⟨⟨some 7, .revealed hr, rfl⟩, rfl, trivial⟩
      · have he : ((answerUnnamed (.wait target)).run true).2 = true := decide_eq_true e
        rw [he]
        exact ⟨⟨none, .failed (by decide), rfl⟩, rfl, trivial⟩
  | kill target s =>
    cases there with
    | false => exact ⟨rfl, rfl, fun _ _ => Family.nobody_of_no_child fun p => not_has_lastUnnamed⟩
    | true => exact ⟨rfl, rfl, trivial⟩
  | peek target => exact ⟨⟨⟨none, .failed (e := .noProcess) (by decide)⟩, rfl⟩, rfl, trivial⟩
  | _ => exact ⟨rfl, rfl, trivial⟩

/-- A service is left with the number of its process, although nobody is there: a wait for the process has failed,
since a signal without a name had ended it. -/
theorem shutdown_leaves_unnamedEnd : ¬ Always Family.world (shutdown ⟨{}, -1⟩) (solitary 7) (lastUnnamed true)
    fun _ _ moment b => ∀ outcome, moment = .ended (.ok outcome) →
      ∀ i : (Registry.single .never).Id, b[i].pid = none := by
  intro hall
  have horder : (Registry.single .never).startOrder = [Registry.only .never] := by
    refine List.perm_singleton.mp ((List.perm_ext_iff_of_nodup (Registry.nodup_startOrder _) ?_).mpr fun i => ?_)
    · exact List.nodup_singleton _
    · exact iff_of_true (Registry.mem_startOrder i) (List.mem_singleton.mpr (Subsingleton.elim (α := Fin 1) i 0))
  have he : (carryOut answerUnnamed (shutdown ⟨{}, -1⟩) 3 (solitary 7)).run true =
      (some (.ok .forced, solitary 7), false) := by
    unfold shutdown stopServices stopAll
    rw [horder]
    rfl
  obtain ⟨h, k, hnone, -⟩ := hall.of_carryOut realizes_lastUnnamed (fun _ _ _ _ _ _ _ _ _ _ => trivial) rfl he
  cases hnone .forced rfl (Registry.only .never)

end ContainerInit.Supervision
