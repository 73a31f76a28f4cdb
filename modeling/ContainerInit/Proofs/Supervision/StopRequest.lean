import ContainerInit.Proofs.Dialogue.Evaluation
import ContainerInit.Proofs.Dialogue.History
import ContainerInit.Proofs.Supervision.Session

/-! # Stop requests

A service whose process ends is recorded as stopped if it had been asked to stop, and as broken otherwise.  What counts
is that the signal has been sent, and not that it has been delivered: the request is noted before the signal is sent,
and it stays noted if that fails.

## Standing requests

`Standing` reads off the history that a request stands: the signal was sent from a board on which the service held the
process, with the request noted, and the service has held the process at every call since.  The answer to the signal
is part of the statement, so that it can be seen that it makes no difference.

## The judgement

`Judged` is what is shown at each call: if the process of a service has gone since the last one, the service counts as
stopped exactly if its request stood.  Between operations `Followed` holds, which says that whatever is noted as a
request does stand, and that processes have not changed since the last call.

The last section has the case in which the signal is refused: the service counts as stopped though nobody has stopped
it. -/

namespace ContainerInit.Supervision

open ContainerInit.Action

variable {r : Registry} {sup : Supervisor} {n : Nat} {h : History (Board r)} {b b' : Board r} {i : r.Id}
  {p : Pid} {answer : Except Errno Unit}

/-! ## The end of a request -/

/-- The record of a stop request. -/
def stopRecord (name : String) (p : Pid) : Log.Record :=
  ⟨.info, "cronit::service::unit", "Stopping service '" ++ name ++ "' (pid " ++ toString p ++ ")."⟩

/-- The service holds the process and has been asked to stop. -/
structure AskedToStop (b : Board r) (i : r.Id) (p : Pid) : Prop where
  pid : b[i].pid = some p
  requested : b[i].stopRequested = true

/-- The process was sent the signal to end when its service was asked to stop, with the given answer, and at
every call since then the service has held the process and the request has stood. -/
def Standing (h : History (Board r)) (i : r.Id) (p : Pid) (answer : Except Errno Unit) : Prop :=
  ∃ h₁ b₁ b₂ h₂, h = h₁ ++ [⟨(.log (stopRecord (r.service i).name p), b₁), ()⟩,
      ⟨(.kill p .terminate, b₂), answer⟩] ++ h₂ ∧
    AskedToStop b₂ i p ∧ ∀ e ∈ h₂, AskedToStop e.1.2 i p

/-- A request stands as long as the process is there. -/
theorem Standing.concat (hs : Standing h i p answer) (hb : AskedToStop b i p) {c : Kernel.Call}
    {a : Kernel.signature.Answer c} : Standing (h ++ [⟨(c, b), a⟩]) i p answer := by
  obtain ⟨h₁, b₁, b₂, h₂, rfl, hk, hh⟩ := hs
  refine ⟨h₁, b₁, b₂, h₂ ++ [⟨(c, b), a⟩], by simp, hk, fun e he => ?_⟩
  rcases List.mem_append.mp he with he | he
  · exact hh e he
  · rw [List.mem_singleton.mp he]
    exact hb

/-- At the last call the request stood. -/
theorem Standing.last (hs : Standing h i p answer) : ∃ e, h.getLast? = some e ∧ AskedToStop e.1.2 i p := by
  obtain ⟨h₁, b₁, b₂, h₂, rfl, hk, hh⟩ := hs
  rcases List.eq_nil_or_concat' h₂ with rfl | ⟨h₃, e, rfl⟩
  · exact ⟨⟨(.kill p .terminate, b₂), answer⟩, by simp, hk⟩
  · refine ⟨e, ?_, hh e (by simp)⟩
    rw [← List.append_assoc, List.getLast?_concat]

/-- Every request that stands is that of a process which was sent the signal. -/
def Stands (h : History (Board r)) (b : Board r) : Prop :=
  ∀ (i : r.Id) p, AskedToStop b i p → ∃ answer, Standing h i p answer

/-- No process has come or gone since the last call. -/
def PidsKept (h : History (Board r)) (b : Board r) : Prop :=
  ∀ e, h.getLast? = some e → ∀ i : r.Id, e.1.2[i].pid = b[i].pid

/-- What holds between operations. -/
structure Followed (h : History (Board r)) (b : Board r) : Prop where
  stands : Stands h b
  pids : PidsKept h b

/-- Where the process of a service has gone since the last call, the service counts as stopped if the
request stood, and as broken otherwise. -/
def Judged (h : History (Board r)) (b : Board r) : Prop :=
  ∀ e, h.getLast? = some e → ∀ (i : r.Id) p, e.1.2[i].pid = some p → b[i].pid = none →
    (b[i].status = .stopped ↔ ∃ answer, Standing h i p answer) ∧
    (b[i].status = .broken ↔ ¬ ∃ answer, Standing h i p answer)

theorem followed_initial : Followed ([] : History (Board r)) Board.initial where
  stands i p hb := by
    have hp := hb.pid
    rw [Board.getElem_initial] at hp
    cases hp
  pids := nofun

/-- Where no process has gone, there is nothing to judge. -/
theorem PidsKept.judged (hb : PidsKept h b) : Judged h b := by
  intro e he i p hp hn
  cases hp.symm.trans ((hb e he i).trans hn)

theorem PidsKept.set (hb : PidsKept h b) {t : Service.State} (ht : t.pid = b[i].pid) :
    PidsKept h (b.set i t) := by
  intro e he j
  rw [hb e he j]
  by_cases hij : i = j
  · subst hij
    rw [Board.getElem_set_self, ht]
  · rw [Board.getElem_set_ne _ _ hij]

/-- After a call nothing has changed since the last one. -/
theorem Stands.call (hb : Stands h b) {c : Kernel.Call} {a : Kernel.signature.Answer c} :
    Followed (h ++ [⟨(c, b), a⟩]) b where
  stands i p hk := (hb i p hk).imp fun _ hs => hs.concat hk
  pids e he i := by
    obtain rfl := Option.some.inj (List.getLast?_concat.symm.trans he)
    rfl

theorem askedToStop_set_ne {j : r.Id} (b : Board r) (t : Service.State) (hij : i ≠ j) :
    AskedToStop (b.set i t) j p ↔ AskedToStop b j p := by
  have he := Board.getElem_set_ne b t hij
  constructor
  · exact fun hk => ⟨he ▸ hk.pid, he ▸ hk.requested⟩
  · exact fun hk => ⟨he.symm ▸ hk.pid, he.symm ▸ hk.requested⟩

/-- A service that is not asked to stop in its new state. -/
theorem Stands.set (hb : Stands h b) {t : Service.State} (ht : t.pid = none ∨ t.stopRequested = false) :
    Stands h (b.set i t) := by
  intro j p hk
  by_cases hij : i = j
  · subst hij
    obtain ⟨hp, hr⟩ := hk
    rw [Board.getElem_set_self] at hp hr
    rcases ht with ht | ht
    · cases hp.symm.trans ht
    · cases hr.symm.trans ht
  · exact hb j p ((askedToStop_set_ne b t hij).mp hk)

/-- A service that is asked to stop, where its process is sent the signal. -/
theorem Stands.requested (hb : Stands h b) (hp : b[i].pid = some p) {b' : Board r}
    (he : b' = b.set i { b[i] with stopRequested := true }) (answer : Except Errno Unit) :
    Followed (h ++ [⟨(.log (stopRecord (r.service i).name p), b), ()⟩] ++
      [⟨(.kill p .terminate, b'), answer⟩]) b'
    where
  stands j q hk := by
    by_cases hij : i = j
    · subst hij
      have hq := hk.pid
      rw [he, Board.getElem_set_self] at hq
      obtain rfl := Option.some.inj (hp.symm.trans hq)
      exact ⟨answer, h, b, b', [], by simp, hk, nofun⟩
    · have hk' : AskedToStop b j q := by
        rw [he] at hk
        exact (askedToStop_set_ne b _ hij).mp hk
      exact (hb j q hk').imp fun _ hs => (hs.concat hk').concat hk
  pids e' he' j := by
    obtain rfl := Option.some.inj (List.getLast?_concat.symm.trans he')
    rfl

/-- A process that comes is not judged. -/
theorem Followed.judged_set (hb : Followed h b) (hp : b[i].pid = none) (t : Service.State) :
    Judged h (b.set i t) := by
  intro e he j p hj hn
  rw [hb.pids e he j] at hj
  by_cases hij : i = j
  · subst hij
    cases hp.symm.trans hj
  · rw [Board.getElem_set_ne _ _ hij, hj] at hn
    cases hn

/-- The end of a process is judged by the request as it is at the last call. -/
theorem Followed.judged_ended (hb : Followed h b) (hl : ∀ e, h.getLast? = some e → e.1.2 = b)
    (hp : b[i].pid = some p) (code : Int) : Judged h (b.set i (b[i].ended code)) := by
  intro e he j q hj hn
  obtain rfl := hl e he
  by_cases hij : i = j
  · subst hij
    obtain rfl := Option.some.inj (hp.symm.trans hj)
    rw [Board.getElem_set_self]
    have hs : (∃ answer, Standing h i p answer) ↔ e.1.2[i].stopRequested = true := by
      constructor
      · rintro ⟨answer, hs⟩
        obtain ⟨e', he', hk⟩ := hs.last
        obtain rfl := Option.some.inj (he.symm.trans he')
        exact hk.requested
      · exact fun hr => hb.stands i p ⟨hp, hr⟩
    rw [hs]
    cases hr : e.1.2[i].stopRequested <;> simp [Service.State.ended, hr]
  · rw [Board.getElem_set_ne _ _ hij, hj] at hn
    cases hn

/-! ## What every operation keeps -/

/-- Every end of a process is judged by the request. -/
def judgement (r : Registry) : Regime (.anything _) (Board r) where
  asks h _ _ b := Judged h b
  inv h _ b := Followed h b
  errors _ := True

theorem keeps_judgement_ask (c : Kernel.Call) : Keeps (judgement r) (Action.ask c) := by
  intro n h k b hb
  exact assures_ask.mpr fun _ _ => ⟨hb.pids.judged, fun _ _ _ => ⟨hb.stands.call, trivial⟩⟩

theorem admits_judgement : Admits (judgement r) := ⟨fun _ _ _ => trivial, fun c _ => keeps_judgement_ask c⟩

/-- A new process has no request. -/
theorem Followed.assures_supervisor_spawn (hb : Followed h b) (argv : List String) :
    Assures (.anything _) (judgement r).asks (sup.spawn argv) (fun h' _ _ b' => b' = b ∧ Followed h' b)
      n h () b := by
  refine assures_bind.mpr (assures_ofExcept.mpr ?_)
  cases Supervisor.program argv with
  | error e => exact ⟨rfl, hb⟩
  | ok command =>
    refine assures_bind.mpr (assures_ask.mpr fun _ _ => ⟨hb.pids.judged, fun answer _ _ => ?_⟩)
    have hb := hb.stands.call (c := .fork ⟨argv, sup.savedMask⟩) (a := answer)
    cases answer with
    | error e => exact ⟨rfl, hb⟩
    | ok p =>
      exact assures_bind.mpr (assures_ask.mpr fun _ _ => ⟨hb.pids.judged, fun _ _ _ => ⟨rfl, hb.stands.call⟩⟩)

/-- A service gets a process, or it is left broken. -/
theorem keeps_judgement_spawn (sup : Supervisor) (i : r.Id) : Keeps (judgement r) (spawn sup i) := by
  intro n h k b hb
  refine assures_bind.mpr (assures_stateOf.mpr ?_)
  dsimp only
  cases hp : b[i].pid with
  | some p => exact keeps_judgement_ask _ hb
  | none =>
    refine assures_bind.mpr (assures_attempt.mpr ((hb.assures_supervisor_spawn _).imp ?_))
    rintro h k res b' ⟨rfl, hb⟩
    cases res with
    | ok p =>
      refine assures_bind.mpr (assures_update.mpr (assures_ask.mpr fun _ _ => ⟨?_, fun _ _ _ => ⟨?_, trivial⟩⟩))
      · exact hb.judged_set hp _
      · exact (hb.stands.set (.inr rfl)).call
    | error e =>
      refine assures_bind.mpr (assures_update.mpr (assures_bind.mpr (assures_ask.mpr fun _ _ =>
        ⟨?_, fun _ _ _ => ⟨?_, trivial⟩⟩)))
      · exact hb.judged_set hp _
      · exact (hb.stands.set (t := b'[i].failed) (.inl hp)).call

/-- All calls so far have been made before the last one, which was made from these states. -/
def LastFrom (h : History (Board r)) (b : Board r) : Prop := ∀ e, h.getLast? = some e → e.1.2 = b

theorem lastFrom_concat {c : Kernel.Call} {a : Kernel.signature.Answer c} :
    LastFrom (h ++ [⟨(c, b), a⟩]) b := by
  intro e he
  obtain rfl := Option.some.inj (List.getLast?_concat.symm.trans he)
  rfl

/-- A wait may collect the process, which is still to be recorded then. -/
theorem Followed.assures_collect (hb : Followed h b) (p : Pid) :
    Assures (.anything _) (judgement r).asks (Supervisor.collect p)
      ((judgement r).ends fun h' _ _ b' => b' = b ∧ LastFrom h' b) n h () b := by
  refine assures_iterate (fun h _ _ b' => b' = b ∧ Followed h b) ⟨rfl, hb⟩ ?_
  rintro h k last b' ⟨rfl, hb⟩
  refine assures_bind.mpr (assures_ask.mpr fun _ _ => ⟨hb.pids.judged, fun answer _ _ => ?_⟩)
  have hb := hb.stands.call (c := .wait p) (a := answer)
  dsimp only
  split
  case h_1 => exact ⟨hb, rfl, lastFrom_concat⟩
  case h_2 =>
    refine assures_bind.mpr (assures_ask.mpr fun _ _ => ⟨hb.pids.judged, fun _ _ _ => ?_⟩)
    dsimp only
    split
    case isTrue => exact ⟨hb.stands.call, rfl, lastFrom_concat⟩
    case isFalse => exact ⟨rfl, hb.stands.call⟩
  case h_3 =>
    split
    case isTrue => exact ⟨hb, rfl, lastFrom_concat⟩
    case isFalse =>
      split
      · exact ⟨rfl, hb⟩
      · exact ⟨hb, trivial⟩

theorem Followed.assures_finalCode (hb : Followed h b) (hl : LastFrom h b) {status : Option WaitStatus} :
    Assures (.anything _) (judgement r).asks (finalCode i p status)
      ((judgement r).ends fun h' _ _ b' => b' = b ∧ LastFrom h' b) n h () b := by
  rcases finalCode_cases i p status with ⟨code, hc⟩ | hc
  · rw [hc]
    exact ⟨hb, rfl, hl⟩
  · rw [hc]
    exact assures_bind.mpr (assures_ask.mpr fun _ _ =>
      ⟨hb.pids.judged, fun _ _ _ => ⟨hb.stands.call, rfl, lastFrom_concat⟩⟩)

/-- An end is recorded with the status that the request calls for. -/
theorem keeps_judgement_checkProcess (i : r.Id) : Keeps (judgement r) (checkProcess i) := by
  intro n h k b hb
  refine assures_bind.mpr (assures_stateOf.mpr ?_)
  dsimp only
  cases hp : b[i].pid with
  | none => exact keeps_pure _ hb
  | some p =>
    refine (hb.assures_collect p).bind_ends ?_
    rintro h₁ _ c b₁ hb₁ ⟨rfl, hl⟩
    split
    case isTrue => exact keeps_pure _ hb₁
    case isFalse =>
      refine (hb₁.assures_finalCode hl).bind_ends ?_
      rintro h₂ _ code b₂ hb₂ ⟨rfl, hl⟩
      refine assures_bind.mpr (assures_bind.mpr (assures_update.mpr ?_))
      refine assures_bind.mpr (assures_stateOf.mpr (assures_ask.mpr fun _ _ =>
        ⟨hb₂.judged_ended hl hp code, ?_⟩))
      exact fun _ _ _ => ⟨(hb₂.stands.set (.inr rfl)).call, trivial⟩

/-- A request is noted, and the signal is sent at once. -/
theorem keeps_judgement_requestStop (i : r.Id) : Keeps (judgement r) (requestStop i) := by
  refine (keeps_judgement_checkProcess i).bind fun running => .ite (fun _ => keeps_pure _) fun _ => ?_
  intro n h k b hb
  refine assures_bind.mpr (assures_stateOf.mpr ?_)
  dsimp only
  cases hp : b[i].pid with
  | none => exact keeps_pure _ hb
  | some p =>
    refine assures_bind.mpr (assures_ask.mpr fun _ _ => ⟨hb.pids.judged, fun _ _ _ => ?_⟩)
    refine assures_bind.mpr (assures_update.mpr ?_)
    have hpids := (hb.stands.call (c := .log (stopRecord (r.service i).name p)) (a := ())).pids
    have hpids : PidsKept _ (b.set i { b[i] with stopRequested := true }) := hpids.set rfl
    refine assures_bind.mpr (assures_bind.mpr (assures_ask.mpr fun _ _ => ⟨hpids.judged, fun answer _ _ => ?_⟩))
    have hb := hb.stands.requested hp rfl answer
    cases answer with
    | ok _ => exact ⟨hb, trivial⟩
    | error e =>
      dsimp only
      split
      · exact (keeps_judgement_ask _).bind (fun _ => keeps_pure _) hb
      · exact ⟨hb, trivial⟩

/-- A request that has come to nothing is withdrawn. -/
theorem keeps_judgement_awaitStopped (i : r.Id) (deadline : Nat) :
    Keeps (judgement r) (awaitStopped i deadline) :=
  admits_judgement.awaitStopped i deadline (keeps_judgement_checkProcess i) fun _ _ _ hb =>
    ⟨hb.stands.set (.inr rfl), hb.pids.set rfl⟩

theorem servesAll_judgement (sup : Supervisor) : ServesAll (judgement r) sup where
  toAdmits := admits_judgement
  checkProcess := keeps_judgement_checkProcess
  requestStop := keeps_judgement_requestStop
  awaitStopped := keeps_judgement_awaitStopped
  reapEnded := admits_judgement.reapEnded <|
    fun _ => admits_judgement.reapOne (fun _ _ => trivial) keeps_judgement_checkProcess (keeps_judgement_ask _)
  start := keeps_start (fun _ _ _ _ => trivial) (keeps_judgement_spawn sup)
  invalid _ _ := trivial
  kill _ _ := keeps_judgement_ask _
  awaitSignal _ := keeps_judgement_ask _
  collectAll := admits_judgement.collect (keeps_judgement_ask _)

/-! ## Requests that fail -/

theorem runs_stateOf_bind_iff {α : Type} {g : Service.State → Operation r α} {res : Except Error α} :
    Runs (stateOf i >>= g) n b h res b' ↔ Runs (g b[i]) n b h res b' := .rfl

theorem runs_update_bind_iff {α : Type} {f : Service.State → Service.State} {g : Unit → Operation r α}
    {res : Except Error α} :
    Runs (update i f >>= g) n b h res b' ↔ Runs (g ()) n (b.set i (f b[i])) h res b' := .rfl

/-- A signal that is refused has been sent nevertheless. -/
theorem runs_send_error {s : Signal} {e : Error} (hr : Runs (Supervisor.send p s) n b h (.error e) b') :
    ∃ errno : Errno, h = [⟨(.kill p s, b), .error errno⟩] ∧ ¬ errno.IsGone ∧ e = .system errno ∧ b' = b := by
  rcases runs_bind_iff.mp hr with ⟨h₁, h₂, answer, b₁, rfl, hask, hrest⟩ | ⟨e, -, hask⟩
  · obtain ⟨_, rfl, ha, rfl⟩ := runs_ask_iff.mp hask
    cases ha
    cases answer with
    | ok _ =>
      obtain ⟨-, he, -⟩ := runs_pure_iff.mp hrest
      cases he
    | error errno =>
      dsimp only at hrest
      split at hrest
      · obtain ⟨-, he, -⟩ := runs_pure_iff.mp hrest
        cases he
      · rename_i hgone
        obtain ⟨rfl, he, rfl⟩ := runs_throw_iff.mp hrest
        cases he
        exact ⟨errno, rfl, hgone, rfl, rfl⟩
  · obtain ⟨_, -, ha, -⟩ := runs_ask_iff.mp hask
    cases ha

/-- What a request to stop comes to: the process cannot be looked at, or none is found, or the one that is found
is sent the signal, after the request has been noted. -/
inductive Requested (n : Nat) (i : r.Id) (b : Board r) : History (Board r) → Except Error Bool → Board r → Prop where
  | unchecked {h : History (Board r)} {b' : Board r} {e : Error} (hc : Runs (checkProcess i) n b h (.error e) b') :
      Requested n i b h (.error e) b'
  | absent {h : History (Board r)} {b' : Board r} {running : Bool}
      (hc : Runs (checkProcess i) n b h (.ok running) b') (hn : running = true → b'[i].pid = none) :
      Requested n i b h (.ok false) b'
  | asked {h₁ h₂ h₃ : History (Board r)} {b₁ b' : Board r} {p : Pid} {delivered : Bool}
      (hc : Runs (checkProcess i) n b h₁ (.ok true) b₁) (hp : b₁[i].pid = some p)
      (hs : Runs (Supervisor.send p .terminate) n (b₁.set i { b₁[i] with stopRequested := true }) h₂ (.ok delivered) b')
      (hl : RecordsOnly h₃) :
      Requested n i b (h₁ ++ ⟨(.log (stopRecord (r.service i).name p), b₁), ()⟩ :: (h₂ ++ h₃)) (.ok true) b'
  | refused {h₁ h₂ : History (Board r)} {b₁ b' : Board r} {p : Pid} {e : Error}
      (hc : Runs (checkProcess i) n b h₁ (.ok true) b₁) (hp : b₁[i].pid = some p)
      (hs : Runs (Supervisor.send p .terminate) n (b₁.set i { b₁[i] with stopRequested := true }) h₂ (.error e) b') :
      Requested n i b (h₁ ++ ⟨(.log (stopRecord (r.service i).name p), b₁), ()⟩ :: h₂) (.error e) b'

/-- All there is to a request, case by case. -/
theorem requested_of_runs {res : Except Error Bool} (hr : Runs (requestStop i) n b h res b') :
    Requested n i b h res b' := by
  rcases runs_bind_iff.mp hr with ⟨h₁, h₂, running, b₁, rfl, hcheck, hrest⟩ | ⟨e, rfl, hcheck⟩
  · cases running with
    | false =>
      obtain ⟨rfl, rfl, rfl⟩ := runs_pure_iff.mp hrest
      rw [List.append_nil]
      exact .absent hcheck nofun
    | true =>
      have hstate := runs_stateOf_bind_iff.mp hrest
      cases hp : b₁[i].pid with
      | none =>
        rw [hp] at hstate
        obtain ⟨rfl, rfl, rfl⟩ := runs_pure_iff.mp hstate
        rw [List.append_nil]
        exact .absent hcheck fun _ => hp
      | some p =>
        rw [hp] at hstate
        obtain ⟨h₃, rfl, hlogged⟩ := runs_log_bind_iff.mp hstate
        rcases runs_bind_iff.mp (runs_update_bind_iff.mp hlogged) with
          ⟨h₄, h₅, delivered, b₂, rfl, hsend, hend⟩ | ⟨e, rfl, hsend⟩
        · cases delivered with
          | true =>
            obtain ⟨rfl, rfl, rfl⟩ := runs_pure_iff.mp hend
            exact .asked hcheck hp hsend recordsOnly_nil
          | false =>
            obtain ⟨h₆, rfl, hlast⟩ := runs_log_bind_iff.mp hend
            obtain ⟨rfl, rfl, rfl⟩ := runs_pure_iff.mp hlast
            exact .asked hcheck hp hsend recordsOnly_log
        · exact .refused hcheck hp hsend
  · exact .unchecked hcheck

/-- Where the request fails, either the process could not be looked at, or it could not be sent the signal,
which leaves the request noted. -/
theorem runs_requestStop_error {e : Error} (hr : Runs (requestStop i) n b h (.error e) b') :
    Runs (checkProcess i) n b h (.error e) b' ∨
      ∃ h₁ b₁ p errno, Runs (checkProcess i) n b h₁ (.ok true) b₁ ∧ b₁[i].pid = some p ∧
        h = h₁ ++ [⟨(.log (stopRecord (r.service i).name p), b₁), ()⟩,
          ⟨(.kill p .terminate, b'), .error errno⟩] ∧
        ¬ errno.IsGone ∧ e = .system errno ∧ b' = b₁.set i { b₁[i] with stopRequested := true } := by
  cases requested_of_runs hr with
  | unchecked hc => exact .inl hc
  | @refused h₁ h₂ b₁ _ p _ hc hp hs =>
    obtain ⟨errno, rfl, hgone, rfl, rfl⟩ := runs_send_error hs
    exact .inr ⟨h₁, b₁, p, errno, hc, hp, rfl, hgone, rfl, rfl⟩

/-- Where the wait has been in vain, the request is withdrawn. -/
theorem runs_awaitStopped_false {deadline : Nat} (hr : Runs (awaitStopped i deadline) n b h (.ok false) b') :
    b'[i].stopRequested = false := by
  have hstate := runs_stateOf_bind_iff.mp hr
  cases hp : b[i].pid with
  | none =>
    rw [hp] at hstate
    obtain ⟨-, he, -⟩ := runs_pure_iff.mp hstate
    cases he
  | some p =>
    rw [hp] at hstate
    obtain ⟨h₁, h₂, _, b₁, rfl, -, hexit⟩ := runs_bind_ok_iff.mp hstate
    obtain ⟨h₃, h₄, running, b₂, rfl, -, hcheck⟩ := runs_bind_ok_iff.mp hexit
    cases running with
    | false =>
      obtain ⟨-, he, -⟩ := runs_pure_iff.mp hcheck
      cases he
    | true =>
      obtain ⟨h₅, rfl, hlogged⟩ := runs_log_bind_iff.mp hcheck
      obtain ⟨-, -, rfl⟩ := runs_pure_iff.mp ((runs_update_bind_iff (g := fun _ => pure false)).mp hlogged)
      rw [Board.getElem_set_self]

/-! ## What counts as stopped -/

/-- A request to stop that fails has either failed to look at the process, or failed to send it the signal,
and then it stands nevertheless; a wait in vain withdraws it.  At every moment of every session, whatever the
kernel answers, a process that has gone since the last call counts as stopped exactly if the request stood
then, whatever the answer to the signal was, and as broken otherwise. -/
theorem stopped_iff_standing (sup : Supervisor) (qs : List (Request r)) :
    (∀ (i : r.Id) n b h e b', Runs (requestStop i) n b h (.error e) b' →
      Runs (checkProcess i) n b h (.error e) b' ∨
        ∃ h₁ b₁ p errno, Runs (checkProcess i) n b h₁ (.ok true) b₁ ∧ b₁[i].pid = some p ∧
          h = h₁ ++ [⟨(.log (stopRecord (r.service i).name p), b₁), ()⟩,
            ⟨(.kill p .terminate, b'), .error errno⟩] ∧
          ¬ errno.IsGone ∧ e = .system errno ∧ b' = b₁.set i { b₁[i] with stopRequested := true }) ∧
    (∀ (i : r.Id) deadline n b h b', Runs (awaitStopped i deadline) n b h (.ok false) b' →
      b'[i].stopRequested = false) ∧
    Always (.anything _) (session sup qs) Board.initial () fun h _ _ b =>
      ∀ e, h.getLast? = some e → ∀ (i : r.Id) p, e.1.2[i].pid = some p → b[i].pid = none →
        (b[i].status = .stopped ↔ ∃ answer, Standing h i p answer) ∧
        (b[i].status = .broken ↔ ¬ ∃ answer, Standing h i p answer) := by
  refine ⟨fun i n b h e b' hr => runs_requestStop_error hr,
    fun i deadline n b h b' hr => runs_awaitStopped_false hr, ?_⟩
  have hs := servesAll_judgement (r := r) sup
  refine always_of_assures (fun n => hs.session qs followed_initial) (fun h k c b hb => hb) ?_
  intro h k₁ k₂ a b hm hd
  exact hm.1.pids.judged

/-- The process of the service may not be sent signals, and ends after it should have been asked to. -/
def deafChild (p : RestartPolicy) :
    (q : Kernel.Call × Board (Registry.single p)) → Kernel.signature.Answer q.1
  | (.fork _, _) => .ok 100
  | (.kill .., _) => .error ⟨1⟩
  | (.wait _, b) => if b[Registry.only p].stopRequested then .ok (.exited 100 3) else .ok .stillAlive
  | (c, _) => Kernel.refusal .tryAgain c

theorem stopped_of_failed_request :
    ∃ h b, Runs (session ⟨[]⟩ [.start (Registry.only .never), .requestStop (Registry.only .never),
        .checkProcess (Registry.only .never)]) 2 Board.initial h
        (.ok [.ok (), .error (.system ⟨1⟩), .ok ()]) b ∧
      b[Registry.only .never].status = .stopped ∧
      ∀ p s b answer, ⟨(.kill p s, b), answer⟩ ∈ h → answer = .error ⟨1⟩ := by
  have hr : (((session ⟨[]⟩ [.start (Registry.only .never), .requestStop (Registry.only .never),
      .checkProcess (Registry.only .never)]).dialogue 2 Board.initial).answered (deafChild .never)).map Prod.snd =
      some (.ok [.ok (), .error (.system ⟨1⟩), .ok ()], ⟨#v[⟨.stopped, none, 3, false⟩]⟩) := by cbv
  obtain ⟨h, hr, hf⟩ := Dialogue.exists_runs_of_answered hr
  exact ⟨h, _, hr, rfl, fun p s b answer hm => hf _ hm⟩

end ContainerInit.Supervision
