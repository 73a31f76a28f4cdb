import ContainerInit.Config.Basic
import ContainerInit.Proofs.Supervision.Start
import ContainerInit.Proofs.Supervision.ValidRegistry

/-! # Faults of command lines

Of all that can be wrong with a configuration, one thing is not found before the loop runs: an argument with a nul
byte, which no process can be given.  A service that has one fails as soon as it is due, and the loop with it.

Any other fault of a configuration is out of the question by then.  A registry that has been validated lacks nothing
and has no circles, and a service that is blocked by a dependency is passed over by the loop
(`keeps_start_unforeseen`).  So an error by which the loop ends is one of the system, or it is the one over such an
argument (`mainLoop_isNulFault`).

The second half shows that this does come about, with a configuration that is read, registered and booted without
complaint. -/

namespace ContainerInit.Supervision

open ContainerInit.Action

variable {r : Registry} {sup : Supervisor} {n : Nat} {h : History (Board r)} {b b' : Board r} {e : Error}
  {i : r.Id}

/-- The error is none of the configuration, unless it is that of an argument with a nul byte. -/
def Unforeseen (r : Registry) (e : Error) : Prop := e.isConfig = true → IsNulFault r e

theorem unforeseen_of_not_isConfig (he : e.isConfig = false) : Unforeseen r e := by
  intro hc
  rw [he] at hc
  cases hc

/-- What a service comes to does not add to the errors. -/
theorem endures_unforeseen (sup : Supervisor) : Endures (failsOnly (Unforeseen r) r) sup := by
  refine endures_failsOnly (fun _ => unforeseen_of_not_isConfig) sup fun i e he _ => ?_
  rcases program_cases (r.service i).argv_ne_nil with hp | ⟨a, ha, hn, hp⟩
  · rw [hp] at he
    cases he
  · rw [hp] at he
    exact ⟨i, a, ha, hn, (Except.error.inj he).symm⟩

/-- In a valid registry a start fails over what is not the system's fault only if a dependency blocks it, which
is no reason to give up, or an argument has a nul byte. -/
theorem keeps_start_unforeseen (hv : r.validate = .ok ()) (sup : Supervisor) (i : r.Id) :
    Keeps (retriable (failsOnly (Unforeseen r) r)) (start sup i) := by
  refine keeps_start (fun b i e he => ?_) (fun i => ((endures_unforeseen sup).spawn i).failing fun _ => .inr) i
  obtain ⟨_, _, _, rfl⟩ := (Board.obstacle_of_plan_eq_error he).exists_blocked hv
  exact .inl rfl

theorem servesLoop_unforeseen (hv : r.validate = .ok ()) (sup : Supervisor) :
    ServesLoop (failsOnly (Unforeseen r) r) sup where
  toServesStops := (endures_unforeseen sup).servesStops
  startDue i := (endures_unforeseen sup).toAdmits.startDue (keeps_start_unforeseen hv sup i)
  checkService i := (endures_unforeseen sup).toAdmits.checkService (keeps_start_unforeseen hv sup i)

/-! ## A loop that ends over a nul byte -/

/-- A command line that cannot be run leaves the service broken. -/
theorem exists_runs_spawn_of_fault (hi : b[i].pid = none)
    (hp : Supervisor.program (r.service i).argv = .error e) :
    ∃ h, Runs (spawn sup i) n b h (.error e) (b.set i b[i].failed) := by
  obtain ⟨h, hspawn⟩ : ∃ h, Runs (sup.spawn (r.service i).argv : Operation r Pid) n b h (.error e) b :=
    exists_runs_bind_error ⟨[], runs_ofExcept_iff.mpr ⟨rfl, hp.symm, rfl⟩⟩
  refine exists_runs_bind (a := b[i]) ⟨[], .done _⟩ ?_
  rw [hi]
  refine exists_runs_bind ⟨h, runs_attempt_iff.mpr ⟨_, rfl, hspawn⟩⟩ ?_
  exact exists_runs_bind ⟨[], .done _⟩ (exists_runs_bind exists_runs_log ⟨[], .done _⟩)

/-- A start fails where the first service of its plan has a command line that cannot be run. -/
theorem exists_runs_start_of_fault {j : r.Id} {rest : List r.Id} (hplan : r.plan b i = .ok (j :: rest))
    (hj : b[j].pid = none) (hp : Supervisor.program (r.service j).argv = .error e) :
    ∃ h, Runs (start sup i) n b h (.error e) (b.set j b[j].failed) := by
  refine exists_runs_bind (a := b) ⟨[], .done _⟩ ?_
  refine exists_runs_bind ⟨[], runs_ofExcept_iff.mpr ⟨rfl, hplan.symm, rfl⟩⟩ ?_
  exact exists_runs_bind_error (exists_runs_spawn_of_fault hj hp)

/-- The start of a service that is due fails over what no other attempt would help. -/
theorem exists_runs_startDue (hstart : ∃ h, Runs (start sup i) n b h (.error e) b')
    (he : e.isRecoverable = false) : ∃ h, Runs (startDue sup i) n b h (.error e) b' := by
  obtain ⟨h, hstart⟩ := hstart
  refine exists_runs_bind ⟨h, runs_attempt_iff.mpr ⟨_, rfl, hstart⟩⟩ ?_
  dsimp only
  rw [he]
  exact exists_runs_bind_error ⟨[], .done _⟩

/-- A check fails with the first service that is due, if there is no use in trying that one again. -/
theorem exists_runs_checkSchedule {first last t : Calendar.Instant}
    (hdue : firstDue r (windowSize first last) first [] = [(i, t)])
    (hstart : ∃ h, Runs (start sup i) n b h (.error e) b') (he : e.isRecoverable = false) :
    ∃ h, Runs (checkSchedule sup first last) n b h (.error e) b' := by
  unfold checkSchedule
  rw [hdue]
  refine exists_runs_bind (exists_runs_bind exists_runs_log ⟨[], .done _⟩) ?_
  exact exists_runs_bind_error (exists_runs_bind_error (exists_runs_bind_error
    (exists_runs_startDue hstart he)))

/-- The loop fails with the check of the schedule in its first round. -/
theorem exists_runs_mainLoop_error (ht : r.hasTimed = true) {start now : Int}
    (hlate : (Calendar.Instant.ofEpochNanos now).order (.ofEpochNanos start) = .gt)
    (hcheck : ∃ h, Runs (checkSchedule sup (Calendar.Instant.ofEpochNanos start).next (.ofEpochNanos now))
      (n + 1) b h (.error e) b') : ∃ h, Runs (mainLoop sup) (n + 1) b h (.error e) b' := by
  have hminute (ns : Int) : ∃ h, Runs currentMinute (n + 1) b h (.ok (.ofEpochNanos ns)) b :=
    ⟨[⟨(.wallClock, b), ns⟩], .ask (.done _)⟩
  have helapsed : ∃ h, Runs (checkElapsed sup (.ofEpochNanos start)) (n + 1) b h (.error e) b' := by
    refine exists_runs_bind (hminute now) ?_
    rw [if_neg (not_not.mpr hlate)]
    exact exists_runs_bind_error hcheck
  have hround : ∃ h, Runs (loopOnce sup (.ofEpochNanos start)) (n + 1) b h (.error e) b' := by
    unfold loopOnce
    rw [if_pos ht]
    exact exists_runs_bind_error helapsed
  have hloop : ∃ h, Runs (iterate (loopOnce sup) (.ofEpochNanos start)) (n + 1) b h (.error e) b' := by
    change ∃ h, Runs (iterateFor (loopOnce sup) (n + 1) _) (n + 1) b h (.error e) b'
    exact exists_runs_bind_error hround
  exact exists_runs_bind (hminute start) hloop

/-- The text of a configuration with one service, to be started every minute. -/
def nulText : String :=
  "\x7b\"services\": \x7b\"a\": \x7b\"command\": [\"a\\0b\"], \"schedule\": \"* * * * *\"\x7d\x7d\x7d"

def nulConfig : Config where
  settings := {}
  services := [⟨"a", ["a\x00b"], [], .never, ["* * * * *"]⟩]

def everyMinute : Cron.Expression where
  source := "* * * * *"
  minutes := Cron.Field.minute.values
  hours := Cron.Field.hour.values
  days := Cron.Field.day.values
  months := Cron.Field.month.values
  weekdays := Cron.Field.weekday.values
  stars := [.minute, .hour, .day, .weekday]

/-- The registry of the configuration. -/
def nulRegistry : Registry :=
  ⟨[⟨"a", ["a\x00b"], List.cons_ne_nil _ _, [], .never, ⟨[everyMinute]⟩⟩], List.pairwise_singleton _ _⟩

def nulService : nulRegistry.Id := ⟨0, Nat.zero_lt_one⟩

theorem validate_nulRegistry : nulRegistry.validate = .ok () := by cbv

/-- The service waits for its time, and so nothing is started with the system. -/
theorem exists_runs_bootstrap_nulRegistry :
    ∃ h, Runs (bootstrap ⟨[]⟩ ⟨nulConfig.settings, -1⟩) 1 (Board.initial : Board nulRegistry) h (.ok ())
      Board.initial :=
  exists_runs_bind ⟨[], runs_ofExcept_iff.mpr ⟨rfl, validate_nulRegistry.symm, rfl⟩⟩ ⟨[], .done _⟩

/-- When its time has come, the loop fails. -/
theorem exists_runs_mainLoop_nulRegistry :
    ∃ h, Runs (mainLoop ⟨[]⟩) 1 (Board.initial : Board nulRegistry) h
      (.error (.invalidCommand (.nulByte "a\x00b"))) ⟨#v[⟨.broken, none, 0, false⟩]⟩ := by
  have hplan : nulRegistry.plan Board.initial nulService = .ok [nulService] := by cbv
  have hprogram : Supervisor.program (nulRegistry.service nulService).argv =
      .error (.invalidCommand (.nulByte "a\x00b")) := by cbv
  have hlate : (Calendar.Instant.ofEpochNanos 60000000000).order (.ofEpochNanos 0) = .gt := by decide
  have hdue : firstDue nulRegistry
      (windowSize (Calendar.Instant.ofEpochNanos 0).next (.ofEpochNanos 60000000000))
      (Calendar.Instant.ofEpochNanos 0).next [] = [(nulService, ⟨1970, 1, 1, 0, 1, 4⟩)] := by decide +kernel
  refine exists_runs_mainLoop_error rfl hlate (exists_runs_checkSchedule hdue ?_ rfl)
  exact exists_runs_start_of_fault hplan rfl hprogram

/-- Whatever the kernel answers, the loop over a valid registry fails over its configuration only if a service
has an argument with a nul byte. -/
theorem mainLoop_isNulFault (hv : r.validate = .ok ()) (hr : Runs (mainLoop sup) n b h (.error e) b')
    (he : e.isConfig = true) : IsNulFault r e := by
  have hs := servesLoop_unforeseen hv sup
  have hloop :=
    (hs.mainLoop (fun _ => keeps_failsOnly_ask _) (n := n) (h := []) (k := ()) (s := b) trivial).runs hr
  exact hloop.2 he

/-- The error is the one over that argument. -/
theorem mainLoop_isNulFault_of_argument : nulRegistry.validate = .ok () ∧ ∃ h b', ∃ e : Error,
    Runs (mainLoop ⟨[]⟩) 1 (Board.initial : Board nulRegistry) h (.error e) b' ∧ e.isConfig = true ∧
      IsNulFault nulRegistry e := by
  obtain ⟨h, hr⟩ := exists_runs_mainLoop_nulRegistry
  exact ⟨validate_nulRegistry, h, _, _, hr, rfl, mainLoop_isNulFault validate_nulRegistry hr rfl⟩

/-- A configuration can be read, registered, validated and booted, and the loop still fails over it. -/
theorem mainLoop_fails_over_argument : ∃ config : Config, ∃ registry : Registry,
    Config.parse {} "/etc/cronit.yaml" "/etc" nulText = .ok config ∧
      config.services.foldlM Registry.add Registry.empty = .ok registry ∧ registry.validate = .ok () ∧
      ∃ b : Board registry, (∃ n h, Runs (bootstrap ⟨[]⟩ ⟨config.settings, -1⟩) n Board.initial h (.ok ()) b) ∧
        ∃ n h b', ∃ e : Error, Runs (mainLoop ⟨[]⟩) n b h (.error e) b' ∧ e.isConfig = true := by
  have hparse : (Config.parse {} "/etc/cronit.yaml" "/etc" nulText).toOption = some nulConfig := by
    decide +kernel
  refine ⟨nulConfig, nulRegistry, ?_, rfl, validate_nulRegistry, Board.initial,
    ⟨1, exists_runs_bootstrap_nulRegistry⟩, 1, ?_⟩
  · cases hp : Config.parse {} "/etc/cronit.yaml" "/etc" nulText with
    | ok config =>
      rw [hp] at hparse
      exact congrArg Except.ok (Option.some.inj hparse)
    | error e =>
      rw [hp] at hparse
      cases hparse
  · obtain ⟨h, hr⟩ := exists_runs_mainLoop_nulRegistry
    exact ⟨h, _, _, hr, rfl⟩

end ContainerInit.Supervision
