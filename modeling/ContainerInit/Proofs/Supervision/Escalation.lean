import ContainerInit.Proofs.Dialogue.Beginning
import ContainerInit.Proofs.Supervision.SignalOrder

/-! # Escalation

What is left at the deadline is killed as soon as a wait for a signal has found none.  A wait has the time until the
deadline and no time at all after it, but a signal that is pending is taken even then.  So every pending signal puts
off the kill, however late it is, and nothing else does.

## What may be asked

`Pressing` is the condition on the calls as long as the target has not been killed, and `endProcesses_escalates` has it
at every moment.  It is proved in the world of a clock that only goes forward, so that it is known to be late once it
has been seen to be, and in no other way.

## How long it may take

There is no bound on the number of signals that are taken after the deadline.  The last section has a run of any
length, at a time that does not change (`exists_leads_endProcesses`). -/

namespace ContainerInit.Supervision

open ContainerInit.Action Kernel

variable {r : Registry} {n : Nat} {h : History (Board r)} {t deadline now : Nat} {b : Board r} {target : Pid}
  {c : Call} {a : signature.Answer c}

/-! ## What a history tells of the deadline -/

/-- The clock has been seen at the deadline or after it. -/
def Overdue (deadline : Nat) (h : History (Board r)) : Prop :=
  ∃ (b : Board r) (now : Nat), ⟨(.monotonic, b), now⟩ ∈ h ∧ deadline ≤ now

/-- A wait for a signal has been given up. -/
def GivenUp (h : History (Board r)) : Prop :=
  ∃ timeout b, ⟨(.awaitSignal timeout, b), .error .tryAgain⟩ ∈ h

/-- The signals that have been taken, in their order. -/
def taken (h : History (Board r)) : List SignalInfo := h.filterMap fun
  | ⟨(.awaitSignal _, _), .ok info⟩ => some info
  | _ => none

theorem Overdue.of_concat (ho : Overdue deadline (h ++ [⟨(c, b), a⟩])) :
    Overdue deadline h ∨ ∀ t t', Clock.world.Answers t c a t' → deadline ≤ t' := by
  obtain ⟨b', now, hm, hd⟩ := ho
  rcases List.mem_append.mp hm with hm | hm
  · exact .inl ⟨b', now, hm, hd⟩
  · cases List.mem_singleton.mp hm
    exact .inr fun t t' ha => hd.trans ha.2

theorem GivenUp.of_concat (hg : GivenUp (h ++ [⟨(c, b), a⟩])) : GivenUp h ∨
    ∃ timeout b', (⟨(c, b), a⟩ : Dialogue.Exchange (signature.inState (Board r))) =
      ⟨(.awaitSignal timeout, b'), .error .tryAgain⟩ := by
  obtain ⟨timeout, b', hm⟩ := hg
  rcases List.mem_append.mp hm with hm | hm
  · exact .inl ⟨timeout, b', hm⟩
  · exact .inr ⟨timeout, b', (List.mem_singleton.mp hm).symm⟩

theorem mem_sent_concat {x : Pid × Signal} (hx : x ∈ sent h)
    (e : Dialogue.Exchange (signature.inState (Board r))) : x ∈ sent (h ++ [e]) := by
  obtain ⟨⟨c, b⟩, a⟩ := e
  rw [sent_concat]
  exact List.mem_append_left _ hx

/-! ## Until the target is killed -/

/-- What may be asked as long as the target has not been killed: a wait that takes no time after the deadline, and
after one that has found nothing, the kill. -/
structure Pressing (target : Pid) (deadline : Nat) (h : History (Board r)) (c : Call) : Prop where
  wait : ∀ timeout, c = .awaitSignal timeout →
    ¬ GivenUp h ∧ ∃ left, timeout = some left ∧ (Overdue deadline h → left = 0)
  kill : GivenUp h → isLog c = true ∨ c = .kill target .kill

/-- The wait for signals goes on, and the clock is known as far as it has been seen. -/
def pressing (target : Pid) (deadline : Nat) : Regime Clock.world (Board r) where
  asks h _ c _ := (target, Signal.kill) ∉ sent h → Pressing target deadline h c
  inv h t _ := ¬ GivenUp h ∧ (Overdue deadline h → deadline ≤ t)
  errors _ := True

/-- Any answer is as good, unless it gives up a wait. -/
theorem pressing_concat {t₁ t₂ : Nat} (hi : (pressing target deadline).inv h t b) (ht : t ≤ t₁)
    (ha : Clock.world.Answers t₁ c a t₂)
    (hn : ∀ timeout b', (⟨(c, b), a⟩ : Dialogue.Exchange (signature.inState (Board r))) ≠
      ⟨(.awaitSignal timeout, b'), .error .tryAgain⟩) :
    (pressing target deadline).inv (h ++ [⟨(c, b), a⟩]) t₂ b := by
  obtain ⟨hg, ho⟩ := hi
  refine ⟨fun hg' => ?_, fun ho' => ?_⟩
  · obtain ⟨timeout, b', e⟩ := hg'.of_concat.resolve_left hg
    exact hn timeout b' e
  · rcases ho'.of_concat with ho' | hans
    · exact (ho ho').trans (ht.trans (Clock.le_of_answers ha))
    · exact hans t₁ t₂ ha

theorem keeps_pressing_ask (hc : ∀ timeout, c ≠ .awaitSignal timeout) :
    Keeps (pressing (r := r) target deadline) (Action.ask c) := by
  intro n h t b hi
  refine assures_ask.mpr fun t₁ d => ⟨fun _ => ⟨fun timeout e => absurd e (hc timeout), (absurd · hi.1)⟩,
    fun a t₂ ha => ⟨pressing_concat hi (Clock.le_of_drifts d) ha fun timeout b' e => ?_, trivial⟩⟩
  exact hc timeout (congrArg (·.1.1) e)

theorem admits_pressing : Admits (pressing (r := r) target deadline) where
  errors _ _ _ := trivial
  ask c hc := keeps_pressing_ask (by rintro timeout rfl; exact hc)

theorem keeps_pressing_checkProcess (i : r.Id) : Keeps (pressing target deadline) (checkProcess i) :=
  admits_pressing.checkProcess i (fun _ _ _ _ _ _ => keeps_pressing_ask nofun)
    (fun _ _ => keeps_pressing_ask nofun) fun _ _ _ _ hi => hi

theorem keeps_pressing_reapEnded : Keeps (pressing (r := r) target deadline) reapEnded :=
  admits_pressing.reapEnded fun _ => admits_pressing.reapOne (fun _ _ => trivial)
    keeps_pressing_checkProcess (keeps_pressing_ask nofun)

/-- Once the target has been killed, nothing is claimed any more. -/
theorem assures_of_killed {α : Type} {x : Operation r α} {ends : Ends Clock.world (Board r) α}
    (hk : (target, Signal.kill) ∈ sent h)
    (he : ∀ h t res b, (target, Signal.kill) ∈ sent h → ends h t res b) :
    Assures Clock.world (pressing target deadline).asks x ends n h t b :=
  assures_of_kept (P := fun h => (target, Signal.kill) ∈ sent h) (fun _ e hk => mem_sent_concat hk e)
    (fun _ _ _ _ hk hn => absurd hk hn) he hk

/-- A wait has the time until the deadline by a look at the clock, so that it has none after one that was late. -/
theorem assures_awaitSignal_pressing (hi : (pressing target deadline).inv h t b) :
    Assures Clock.world (pressing target deadline).asks (Supervisor.awaitSignal (some deadline))
      (fun h t res b => res ≠ .ok none → (pressing target deadline).inv h t b) n h t b := by
  refine assures_repeatUntil (fun h t b => (pressing target deadline).inv h t b) hi fun h t b hi => ?_
  refine assures_bind.mpr (assures_bind.mpr (assures_ask.mpr fun t₁ d₁ => ⟨fun _ => ⟨nofun, (absurd · hi.1)⟩,
    fun now t₂ hnow => assures_pure.mpr ?_⟩))
  have hi₁ := pressing_concat hi (Clock.le_of_drifts d₁) hnow nofun
  have hlate : Overdue deadline (h ++ [⟨(.monotonic, b), now⟩]) → deadline - now = 0 := by
    intro ho
    refine Nat.sub_eq_zero_of_le ?_
    rcases ho.of_concat with ho | hans
    · exact (hi.2 ho).trans ((Clock.le_of_drifts d₁).trans hnow.1)
    · exact hans now now ⟨Nat.le_refl _, Nat.le_refl _⟩
  refine assures_bind.mpr (assures_ask.mpr fun t₃ d₃ => ⟨fun _ => ⟨?_, (absurd · hi₁.1)⟩, fun a t₄ ha => ?_⟩)
  · rintro _ ⟨⟩
    exact ⟨hi₁.1, _, rfl, hlate⟩
  have hi₂ := pressing_concat hi₁ (Clock.le_of_drifts d₃) ha
  cases a with
  | ok info => exact fun _ => hi₂ nofun
  | error e =>
    dsimp only
    split
    case isTrue => exact fun hne => absurd rfl hne
    case isFalse hne =>
      have hi₂ := hi₂ fun timeout b' he => hne (by cases he; rfl)
      split
      · exact hi₂
      · exact fun _ => hi₂

/-- The target has been killed, or the next round waits until the same deadline. -/
def Escalated (target : Pid) (deadline : Nat) : Ends Clock.world (Board r) (Round (Nat × Bool) Bool) :=
  fun h t res b => (target, Signal.kill) ∈ sent h ∨ (pressing target deadline).inv h t b ∧ match res with
    | .ok (.again d) => d.1 = deadline
    | _ => True

/-- A round kills the target once a wait is given up, and waits again otherwise. -/
theorem assures_killOnce_pressing (hi : (pressing target deadline).inv h t b) (killed : Bool) :
    Assures Clock.world (pressing target deadline).asks (killOnce target (deadline, killed))
      (Escalated target deadline) n h t b := by
  refine (assures_awaitSignal_pressing hi).bind (fun h t info b hm => ?_) fun h t e b hm => .inr ⟨hm nofun, trivial⟩
  cases info with
  | none =>
    -- what is asked here is allowed whatever has been before
    refine assures_bind.mpr (assures_ask.mpr fun _ _ => ⟨fun _ => ⟨nofun, fun _ => .inl rfl⟩, fun u t _ => ?_⟩)
    refine assures_bind.mpr (assures_bind.mpr (assures_ask.mpr fun _ _ => ⟨fun _ => ⟨nofun, fun _ => .inr rfl⟩,
      fun a t _ => assures_bind.mp (assures_of_killed ?_ fun _ _ _ _ hk => .inl hk)⟩))
    rw [sent_concat]
    exact List.mem_append_right _ (.head _)
  | some info =>
    refine (admits_pressing.logProgram _ _).ask_bind (hm nofun) fun _ h t hi => ?_
    split
    · refine (keeps_pressing_reapEnded hi).bind (fun h t none b hm => ?_) fun h t e b hm => .inr ⟨hm.1, trivial⟩
      split
      · exact .inr ⟨hm.1, trivial⟩
      · exact .inr ⟨hm.1, rfl⟩
    · exact .inr ⟨hi, rfl⟩

/-- The rounds, from one wait to the next. -/
theorem assures_endProcesses_pressing (target : Pid) (deadline t₀ : Nat) (b : Board r) :
    Assures Clock.world (pressing target deadline).asks (endProcesses target deadline)
      (fun h _ _ _ => (target, Signal.kill) ∈ sent h ∨ ¬ GivenUp h) n [] t₀ b := by
  have hi : (pressing target deadline).inv [] t₀ b := by
    refine ⟨?_, ?_⟩
    · rintro ⟨timeout, b', hm⟩
      cases hm
    · rintro ⟨b', now, hm, -⟩
      cases hm
  refine (admits_pressing.logProgram _ _).ask_bind hi fun _ h t hi => ?_
  refine (admits_pressing.send (keeps_pressing_ask nofun) hi).bind (fun h t found b hm => ?_) fun h t e b hm =>
    .inr hm.1.1
  split
  · exact (admits_pressing.logProgram _ _).ask_bind hm.1 fun _ h t hi => .inr hi.1
  refine assures_iterate (fun h t d b => (target, Signal.kill) ∈ sent h ∨
    (pressing target deadline).inv h t b ∧ d.1 = deadline) (.inr ⟨hm.1, rfl⟩) ?_
  rintro h t ⟨d, killed⟩ b (hk | ⟨hi, rfl⟩)
  · refine assures_of_killed hk ?_
    rintro h t (e | d | killed) b hk <;> exact .inl hk
  · refine (assures_killOnce_pressing hi killed).imp ?_
    rintro h t (e | d | killed) b (hk | hm)
    · exact .inl hk
    · exact .inr hm.1.1
    · exact .inl hk
    · exact .inr hm
    · exact .inl hk
    · exact .inr hm.1.1

/-- Until the target has been killed, ending what is left waits for signals one at a time, and does so without any
time once the clock has been seen at the deadline or after it.  Once a wait has found no signal, nothing is asked
but to write to the log and to kill the target, and there is no other end. -/
theorem endProcesses_escalates (target : Pid) (deadline : Nat) (b : Board r) (t₀ : Nat) :
    Always Clock.world (endProcesses target deadline) b t₀ fun h _ moment _ =>
      (target, Signal.kill) ∉ sent h →
        (∀ timeout, moment = .asking (.awaitSignal timeout) →
          ¬ GivenUp h ∧ ∃ left, timeout = some left ∧ (Overdue deadline h → left = 0)) ∧
        (GivenUp h → ∃ c, moment = .asking c ∧ (isLog c = true ∨ c = .kill target .kill)) := by
  refine always_of_assures (fun n => assures_endProcesses_pressing target deadline t₀ b) ?_ ?_
  · intro h t c b hc hk
    obtain ⟨hwait, hkill⟩ := hc hk
    exact ⟨fun timeout e => hwait timeout (Moment.asking.inj e), fun hg => ⟨c, rfl, hkill hg⟩⟩
  · intro h t t' res b hm _ hk
    exact ⟨nofun, fun hg => absurd hg (hm.resolve_left hk)⟩

/-! ## As long as signals are pending -/

variable {infos : List SignalInfo} {info : SignalInfo} {killed : Bool}

/-- A run at a time that does not change, in which these signals are taken and nothing is sent. -/
structure Takes (now : Nat) (infos : List SignalInfo) (h : History (Board r)) : Prop where
  taken_eq : taken h = infos
  sent_eq : sent h = []
  answers : ∀ e ∈ h, Clock.world.Answers now e.1.1 e.2 now

theorem Takes.append {infos' : List SignalInfo} {h' : History (Board r)} (ht : Takes now infos h)
    (ht' : Takes now infos' h') : Takes now (infos ++ infos') (h ++ h') where
  taken_eq := by rw [taken, List.filterMap_append, ← ht.taken_eq, ← ht'.taken_eq, taken, taken]
  sent_eq := by rw [sent, List.filterMap_append, ← sent, ← sent, ht.sent_eq, ht'.sent_eq, List.nil_append]
  answers := fun e he => (List.mem_append.mp he).elim (ht.answers e) (ht'.answers e)

/-- A signal that is pending is taken, however late it is. -/
theorem exists_runs_killOnce (target : Pid) (deadline now n : Nat) (killed : Bool) (b : Board r)
    (hs : info.signal ≠ .child) : ∃ h, Takes now [info] h ∧
    Runs (killOnce target (deadline, killed)) (n + 1) b h (.ok (.again (deadline, killed))) b := by
  have hwait : Runs (Supervisor.awaitSignal (some deadline)) (n + 1) b
      [⟨(.monotonic, b), now⟩, ⟨(.awaitSignal (some (deadline - now)), b), .ok info⟩] (.ok (some info)) b :=
    .ask (.ask (.done _))
  refine ⟨_, ?_, runs_bind_iff.mpr (.inl ⟨_, _, _, _, rfl, hwait, runs_log_bind_iff.mpr ⟨[], rfl, ?_⟩⟩)⟩
  · refine ⟨rfl, rfl, ?_⟩
    simp only [List.cons_append, List.nil_append, List.forall_mem_cons]
    exact ⟨⟨le_rfl, le_rfl⟩, le_refl now, le_refl now, nofun⟩
  · rw [if_neg hs]
    exact .done _

/-- By induction on the signals that are pending. -/
theorem exists_begins_rounds (target : Pid) (deadline now n : Nat) (killed : Bool) (b : Board r)
    (hs : ∀ info ∈ infos, info.signal ≠ .child) {m : Nat} (hm : infos.length ≤ m) : ∃ h, Takes now infos h ∧
      Action.Begins (iterateFor (killOnce target) m (deadline, killed)) (n + 1) b h := by
  induction infos generalizing m with
  | nil => exact ⟨[], ⟨rfl, rfl, nofun⟩, .nil _⟩
  | cons info infos ih =>
    obtain ⟨hinfo, hs⟩ := List.forall_mem_cons.mp hs
    obtain ⟨m, rfl⟩ := Nat.exists_eq_succ_of_ne_zero (Nat.ne_zero_of_lt hm)
    obtain ⟨h, ht, hround⟩ := exists_runs_killOnce target deadline now n killed b hinfo
    obtain ⟨h', ht', hrest⟩ := ih hs (Nat.le_of_succ_le_succ hm)
    exact ⟨h ++ h', ht.append ht', hround.bind_begins hrest⟩

/-- However many signals are pending, and however late it is, all of them may be taken before the target is
killed. -/
theorem exists_leads_endProcesses (target : Pid) (deadline now : Nat) (b : Board r)
    (hs : ∀ info ∈ infos, info.signal ≠ .child) : ∃ n h q,
      Dialogue.Leads (Clock.world.inState (Board r)) ((endProcesses target deadline).dialogue n b) now h q now ∧
        taken h = infos ∧ sent h = [(target, .terminate)] := by
  obtain ⟨h, ht, hrounds⟩ := exists_begins_rounds target deadline now infos.length false b hs (Nat.le_succ _)
  have hask : Runs (Supervisor.send target .terminate) (infos.length + 1) b
      [⟨(.kill target .terminate, b), .ok ()⟩] (.ok true) b := .ask (.done _)
  have hbegins : Action.Begins (endProcesses target deadline) (infos.length + 1) b
      (⟨(.log _, b), ()⟩ :: ([⟨(.kill target .terminate, b), .ok ()⟩] ++ h)) := .ask (hask.bind_begins hrounds)
  obtain ⟨q, run⟩ := hbegins.leads (W := Clock.world.inState (Board r)) (k := now)
    (List.forall_mem_cons.mpr ⟨le_refl now, List.forall_mem_cons.mpr ⟨le_refl now, ht.answers⟩⟩)
  exact ⟨_, _, q, run, ht.taken_eq, congrArg ((target, Signal.terminate) :: ·) ht.sent_eq⟩

/-- Three signals, and the target is not killed though the deadline is over. -/
theorem endProcesses_starved : ∃ n h q,
    Dialogue.Leads (Clock.world.inState (Board Registry.empty)) ((endProcesses (-1) 0).dialogue n Board.initial)
      (1 : Nat) h q (1 : Nat) ∧ taken h = [⟨10, 1⟩, ⟨12, 1⟩, ⟨14, 1⟩] ∧ (-1, Signal.kill) ∉ sent h := by
  have hpending : ∀ info ∈ ([⟨10, 1⟩, ⟨12, 1⟩, ⟨14, 1⟩] : List SignalInfo), info.signal ≠ .child := by decide
  obtain ⟨n, h, q, run, ht, hk⟩ := exists_leads_endProcesses (-1) 0 1 (Board.initial : Board Registry.empty) hpending
  refine ⟨n, h, q, run, ht, ?_⟩
  rw [hk]
  decide

end ContainerInit.Supervision
