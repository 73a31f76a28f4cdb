import ContainerInit.Proofs.Dialogue.History
import ContainerInit.Proofs.Service.State
import ContainerInit.Proofs.Supervision.Operation
import ContainerInit.Proofs.Supervision.Session

/-! # The states of services over time

Whatever the kernel answers, the states of services stay sound, and a process is only ever given up after it has been
waited for.  The history shows the board at every call, so that what happens between two calls is read off the last
board and the present one.

`Coherent` is the invariant, and it relates the board to the whole of the history: a service that is as if it had never
been started was so at each call before (`departed`), and a process that was there at the last call is still there
unless that call was a wait which has collected it, or has found no such child (`held`).  Only two operations on a
single service write a process, and so the invariant has to be looked at there; all sessions follow from
`servesAll_coherence`. -/

namespace ContainerInit.Supervision

open ContainerInit.Action

variable {r : Registry} {sup : Supervisor} {n : Nat} {h : History (Board r)} {b : Board r}

/-- The last call was a wait for the process, and it has collected it or there is no such child. -/
def Gone (h : History (Board r)) (p : Pid) : Prop :=
  ∃ b answer, lastCall h = some ⟨(.wait p, b), answer⟩ ∧
    (answer = .error .noChild ∨ ∃ status, answer = .ok status ∧ status.pid? = some p)

/-- The states are sound, and the board follows on those in the history. -/
structure Coherent (h : History (Board r)) (b : Board r) : Prop where
  sound : ∀ i : r.Id, b[i].Sound
  /-- No service is ever as if it had not been started again. -/
  departed : ∀ e ∈ h, ∀ i : r.Id, e.1.2[i].status ≠ .notStarted → b[i].status ≠ .notStarted
  /-- Since the last call, a process was at most given up, and only if it is gone. -/
  held : ∀ e, h.getLast? = some e → ∀ (i : r.Id) p, e.1.2[i].pid = some p →
    b[i].pid = some p ∨ b[i].pid = none ∧ Gone h p

theorem coherent_initial : Coherent ([] : History (Board r)) Board.initial where
  sound i := by rw [Board.getElem_initial]; exact Service.State.sound_default
  departed := nofun
  held := nofun

/-- A call leaves the board as it is. -/
theorem Coherent.ask (hb : Coherent h b) {c : Kernel.Call} {a : Kernel.signature.Answer c} :
    Coherent (h ++ [⟨(c, b), a⟩]) b where
  sound := hb.sound
  departed e he i := by
    rcases List.mem_append.mp he with he | he
    · exact hb.departed e he i
    · rw [List.mem_singleton.mp he]; exact id
  held e he i p hp := by
    rw [List.getLast?_append, List.getLast?_singleton, Option.some_or, Option.some.injEq] at he
    subst he
    exact .inl hp

/-- What has to hold of the new state of a service. -/
theorem Coherent.set (hb : Coherent h b) {i : r.Id} {t : Service.State} (ht : t.Sound)
    (hs : b[i].status ≠ .notStarted → t.status ≠ .notStarted)
    (hp : ∀ e, h.getLast? = some e → ∀ p, e.1.2[i].pid = some p →
      t.pid = some p ∨ t.pid = none ∧ Gone h p) : Coherent h (b.set i t) where
  sound j := by
    by_cases hj : i = j
    · subst hj; rwa [Board.getElem_set_self]
    · rw [Board.getElem_set_ne _ _ hj]; exact hb.sound j
  departed e he j := by
    by_cases hj : i = j
    · subst hj; rw [Board.getElem_set_self]; exact hs ∘ hb.departed e he i
    · rw [Board.getElem_set_ne _ _ hj]; exact hb.departed e he j
  held e he j p := by
    by_cases hj : i = j
    · subst hj; rw [Board.getElem_set_self]; exact hp e he p
    · rw [Board.getElem_set_ne _ _ hj]; exact hb.held e he j p

/-- The new state has the process of the old one. -/
theorem Coherent.set_of_pid_eq (hb : Coherent h b) {i : r.Id} {t : Service.State} (ht : t.Sound)
    (hs : b[i].status ≠ .notStarted → t.status ≠ .notStarted) (hp : t.pid = b[i].pid) :
    Coherent h (b.set i t) :=
  hb.set ht hs fun e he p hep => by rw [hp]; exact hb.held e he i p hep

/-- The states are coherent at every call, and stay so. -/
def coherence (r : Registry) : Regime (.anything _) (Board r) where
  asks h _ _ b := Coherent h b
  inv h _ b := Coherent h b
  errors _ := True

theorem keeps_ask (c : Kernel.Call) : Keeps (coherence r) (Action.ask c) := by
  intro n h k b hb
  exact assures_ask.mpr fun _ _ => ⟨hb, fun _ _ _ => ⟨hb.ask, trivial⟩⟩

theorem admits_coherence : Admits (coherence r) := ⟨fun _ _ _ => trivial, fun c _ => keeps_ask c⟩

/-- A new process comes with a record of it in the log, so that no process is given up for it. -/
theorem Coherent.assures_spawned (hb : Coherent h b) (i : r.Id) (hp : b[i].pid = none) {argv : List String} :
    Assures (.anything _) (coherence r).asks (sup.spawn argv) (fun h _ res b => match res with
      | .ok p => Coherent h (b.set i (b[i].started p))
      | .error _ => Coherent h (b.set i b[i].failed) ∧ True) n h () b := by
  have hfailed : ∀ {h}, Coherent h b → Coherent h (b.set i b[i].failed) := fun hb =>
    hb.set_of_pid_eq (Service.State.sound_failed (hb.sound i) hp) (fun _ => nofun) rfl
  refine assures_bind.mpr (assures_ofExcept.mpr ?_)
  cases Supervisor.program argv with
  | error e => exact ⟨hfailed hb, trivial⟩
  | ok command =>
    refine assures_bind.mpr (assures_ask.mpr fun _ _ => ⟨hb, fun answer _ _ => ?_⟩)
    cases answer with
    | error e => exact ⟨hfailed hb.ask, trivial⟩
    | ok p =>
      refine assures_bind.mpr (assures_ask.mpr fun _ _ => ⟨hb.ask, fun _ _ _ => ?_⟩)
      refine hb.ask.ask.set (Service.State.sound_started _ _) (fun _ => nofun) fun e he q hq => ?_
      obtain rfl := Option.some.inj (List.getLast?_concat.symm.trans he)
      cases hp.symm.trans hq

/-- If nothing is left of a target, it is gone for a reason. -/
theorem Coherent.assures_collect (hb : Coherent h b) (p : Pid) :
    Assures (.anything _) (coherence r).asks (Supervisor.collect p)
      ((coherence r).ends fun h' _ c b' => b' = b ∧ (c.gone = true → Gone h' p)) n h () b := by
  refine assures_iterate (fun h _ _ b' => b' = b ∧ Coherent h b) ⟨rfl, hb⟩ ?_
  rintro h k last b' ⟨rfl, hb⟩
  refine assures_bind.mpr (assures_ask.mpr fun _ _ => ⟨hb, fun answer _ _ => ?_⟩)
  have hlast : lastCall (h ++ [⟨(.wait p, b'), answer⟩]) = some ⟨(.wait p, b'), answer⟩ :=
    lastCall_append rfl
  dsimp only
  split
  case h_1 => exact ⟨hb.ask, rfl, nofun⟩
  case h_2 status _ _ =>
    refine assures_bind.mpr (assures_ask.mpr fun _ _ => ⟨hb.ask, fun _ _ _ => ?_⟩)
    dsimp only
    split
    case isTrue hs =>
      refine ⟨hb.ask.ask, rfl, fun _ => ⟨b', .ok status, ?_, .inr ⟨status, rfl, hs⟩⟩⟩
      rw [lastCall_append_log, hlast]
    case isFalse => exact ⟨rfl, hb.ask.ask⟩
  case h_3 e _ =>
    split
    case isTrue he => exact ⟨hb.ask, rfl, fun _ => ⟨b', .error e, hlast, .inl (congrArg _ he)⟩⟩
    case isFalse =>
      split
      · exact ⟨rfl, hb.ask⟩
      · exact ⟨hb.ask, trivial⟩

theorem Coherent.assures_finalCode {i : r.Id} {p : Pid} {status : Option WaitStatus} (hb : Coherent h b)
    (hgone : Gone h p) :
    Assures (.anything _) (coherence r).asks (finalCode i p status)
      ((coherence r).ends fun h' _ _ b' => b' = b ∧ Gone h' p) n h () b := by
  rcases finalCode_cases i p status with ⟨code, hc⟩ | hc
  · rw [hc]
    exact ⟨hb, rfl, hgone⟩
  · rw [hc]
    refine assures_bind.mpr (assures_ask.mpr fun _ _ => ⟨hb, fun _ _ _ => ⟨hb.ask, rfl, ?_⟩⟩)
    rwa [Gone, lastCall_append_log]

/-- A process that is gone is given up. -/
theorem Coherent.ended (hb : Coherent h b) {i : r.Id} {p : Pid} {code : Int} (hp : b[i].pid = some p)
    (hgone : Gone h p) : Coherent h (b.set i (b[i].ended code)) := by
  refine hb.set (Service.State.sound_ended _ _) (fun _ => Service.State.status_ended_ne _ _) ?_
  intro e he q hq
  rcases hb.held e he i q hq with hi | ⟨hi, -⟩
  · rw [hp] at hi
    cases hi
    exact .inr ⟨rfl, hgone⟩
  · rw [hp] at hi
    cases hi

/-- An end is recorded after the process is gone. -/
theorem Coherent.assures_recordEnd {i : r.Id} {p : Pid} {code : Int}
    (hb : Coherent h (b.set i (b[i].ended code))) :
    Assures (.anything _) (coherence r).asks (recordEnd i p code)
      ((coherence r).ends fun _ _ _ _ => True) n h () b := by
  refine assures_bind.mpr (assures_update.mpr (assures_bind.mpr (assures_stateOf.mpr ?_)))
  exact keeps_ask _ hb

/-- A check waits for the process, and records what it is told. -/
theorem keeps_checkProcess (i : r.Id) : Keeps (coherence r) (checkProcess i) := by
  intro n h k b hb
  refine assures_bind.mpr (assures_stateOf.mpr ?_)
  dsimp only
  cases hp : b[i].pid with
  | none => exact keeps_pure _ hb
  | some p =>
    refine (hb.assures_collect p).bind_ends ?_
    rintro h₁ _ c b₁ hb₁ ⟨rfl, hgone⟩
    split
    case isTrue => exact keeps_pure _ hb₁
    case isFalse hg =>
      have hgone := hgone (by simpa using hg)
      refine (hb₁.assures_finalCode hgone).bind_ends ?_
      rintro h₂ _ code b₂ hb₂ ⟨rfl, hgone⟩
      exact (hb₂.ended hp hgone).assures_recordEnd.bind_ends fun h _ _ b hb _ => keeps_pure _ hb

/-- What a service comes to by a start is sound. -/
theorem endures_coherence (sup : Supervisor) : Endures (coherence r) sup where
  toAdmits := admits_coherence
  terminate _ _ _ _ _ _ _ := keeps_ask _
  spawned i _ _ _ _ hb hp := hb.assures_spawned i hp
  checkProcess := keeps_checkProcess
  stopRequested i _ _ _ hb hp := hb.set_of_pid_eq (Service.State.sound_stopRequested (hb.sound i) hp) id rfl
  stopWithdrawn i _ _ _ hb := hb.set_of_pid_eq (Service.State.sound_stopWithdrawn (hb.sound i)) id rfl
  reapEnded := admits_coherence.reapEnded <|
    fun _ => admits_coherence.reapOne (fun _ _ => trivial) keeps_checkProcess (keeps_ask _)

theorem servesAll_coherence (sup : Supervisor) : ServesAll (coherence r) sup where
  toServes := (endures_coherence sup).serves fun _ _ => trivial
  kill _ _ := keeps_ask _
  awaitSignal _ := keeps_ask _
  collectAll := admits_coherence.collect (keeps_ask _)

/-- At every moment of every session, whatever the kernel answers, the states of the services are sound, no
service is as if it had not been started once it has been, and since the last call a process has at most
been given up, which takes a wait that collected it or found no such child. -/
theorem session_coherent (sup : Supervisor) (qs : List (Request r)) :
    Always (.anything _) (session sup qs) Board.initial () fun h _ _ b =>
      (∀ i : r.Id, b[i].Sound) ∧
      (∀ e ∈ h, ∀ i : r.Id, e.1.2[i].status ≠ .notStarted → b[i].status ≠ .notStarted) ∧
      ∀ e, h.getLast? = some e → ∀ (i : r.Id) p, e.1.2[i].pid = some p →
        b[i].pid = some p ∨ b[i].pid = none ∧ Gone h p := by
  have hs := servesAll_coherence (r := r) sup
  refine always_of_assures (fun n => hs.session qs coherent_initial) (fun h k c b hb => ?_)
    fun h k₁ k₂ a b hm hd => ?_
  · exact ⟨hb.sound, hb.departed, hb.held⟩
  · exact ⟨hm.1.sound, hm.1.departed, hm.1.held⟩

end ContainerInit.Supervision
