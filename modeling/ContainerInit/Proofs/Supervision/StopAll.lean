import ContainerInit.Proofs.Dialogue.Series
import ContainerInit.Proofs.Supervision.SignalOrder
import ContainerInit.Proofs.Supervision.StopRequest
import ContainerInit.Proofs.Supervision.Sweep

/-! # Stopping all services

When all services are stopped, each has its turn once, a dependent before what it rests on.  A turn concerns one
service only, which is asked to end exactly if a look at its process finds it alive.  Nothing that fails is forgotten:
whatever does not tell that a process is gone leaves it with its service, so that the answer in the end is that no
service holds one exactly if that is so.

## Two passes

All services are asked first, and then waited for.  A run of each pass is a series of turns, one for each service in
the opposite of the order of starts.  As the services of that order are distinct and the turns keep to their own
service (`Apart`), what a turn does to its service is what has become of it after the pass.

## Signals

Only the first pass sends any.  Which ones is settled by what the first looks at the processes have come to (`alive`),
whatever else the kernel answers, and their order is that of the turns. -/

namespace ContainerInit.Supervision

open ContainerInit.Action

variable {r : Registry} {n : Nat} {h h₁ h₂ : History (Board r)} {b b₁ b' : Board r} {i j : r.Id} {p : Pid}
  {gone : Prop} {l : List (Pid × Signal)}

/-! ## What concerns one service only -/

/-- All services but `i` are as before. -/
def Apart (b : Board r) (i : r.Id) (b' : Board r) : Prop := ∀ j, j ≠ i → b'[j] = b[j]

/-- The service has no process any more, or it holds the one that it had. -/
structure LetsGo (b : Board r) (i : r.Id) (gone : Prop) (b' : Board r) : Prop where
  eq_none : gone → b'[i].pid = none
  held : ¬ gone → ∃ p, b[i].pid = some p ∧ b'[i].pid = some p

/-- To update one service leaves the others as they are. -/
theorem apart_set (b : Board r) (i : r.Id) (t : Service.State) : Apart b i (b.set i t) :=
  fun _ hj => Board.getElem_set_ne _ _ hj.symm

theorem LetsGo.of_none (hg : gone) (hp : b'[i].pid = none) : LetsGo b i gone b' :=
  ⟨fun _ => hp, fun hn => absurd hg hn⟩

theorem LetsGo.of_some (hg : ¬ gone) (hp : b[i].pid = some p) (hp' : b'[i].pid = some p) : LetsGo b i gone b' :=
  ⟨fun h => absurd h hg, fun _ => ⟨p, hp, hp'⟩⟩

theorem sent_append : sent (h₁ ++ h₂) = sent h₁ ++ sent h₂ := List.filterMap_append ..

theorem sent_eq_nil_of_recordsOnly (hh : RecordsOnly h) : sent h = [] := by
  refine List.filterMap_eq_nil_iff.mpr fun e he => ?_
  obtain ⟨l, hl⟩ := isLog_eq_true_iff.mp (hh e he)
  rw [hl]
  rfl

/-- No signal is sent, and the board stays as it is. -/
def calm (l : List (Pid × Signal)) (b : Board r) : Regime (.anything _) (Board r) where
  asks _ _ _ _ := True
  inv h _ b' := sent h = l ∧ b' = b
  errors _ := True

theorem keeps_calm_ask {c : Kernel.Call} (hc : signalOf? c = none) : Keeps (calm l b) (Action.ask c) := by
  rintro n h _ _ ⟨rfl, rfl⟩
  refine assures_ask.mpr fun _ _ => ⟨trivial, fun _ _ _ => ⟨⟨?_, rfl⟩, trivial⟩⟩
  rw [sent_concat, hc, Option.toList_none, List.append_nil]

theorem admits_calm : Admits (calm l b) where
  errors _ _ _ := trivial
  ask c hc := keeps_calm_ask (by cases c <;> first | exact hc.elim | rfl)

theorem keeps_calm_finalCode (status : Option WaitStatus) : Keeps (calm l b) (finalCode i p status) := by
  rcases finalCode_cases i p status with ⟨code, hc⟩ | hc
  · rw [hc]
    exact keeps_pure _
  · rw [hc]
    exact (keeps_calm_ask rfl).bind fun _ => keeps_pure _

/-- A look at a process takes it away exactly if the answer is that the service does not run. -/
theorem assures_checkProcess_letsGo (i : r.Id) : Assures (.anything _) (fun _ _ _ _ => True) (checkProcess i)
    (fun h' _ res b' => sent h' = sent h ∧ Apart b i b' ∧ LetsGo b i (res = .ok false) b') n h () b := by
  refine assures_bind.mpr (assures_stateOf.mpr ?_)
  dsimp only
  cases hp : b[i].pid with
  | none => exact ⟨rfl, fun _ _ => rfl, .of_none rfl hp⟩
  | some p =>
    have hcollect : Keeps (calm (sent h) b) (Supervisor.collect p) := admits_calm.collect (keeps_calm_ask rfl)
    refine (hcollect ⟨rfl, rfl⟩).bind ?_ ?_
    · rintro h₁ _ c _ ⟨⟨hs, rfl⟩, -⟩
      split
      · exact ⟨hs, fun _ _ => rfl, .of_some nofun hp hp⟩
      refine (keeps_calm_finalCode c.status ⟨hs, rfl⟩).bind ?_ ?_
      · rintro h₂ _ code _ ⟨⟨hs, rfl⟩, -⟩
        refine assures_bind.mpr (assures_bind.mpr (assures_update.mpr ?_))
        refine assures_bind.mpr (assures_stateOf.mpr (assures_ask.mpr fun _ _ => ⟨trivial, fun _ _ _ => ?_⟩))
        refine ⟨?_, apart_set _ _ _, .of_none rfl ?_⟩
        · rw [sent_concat, hs]
          exact List.append_nil _
        · rw [Board.getElem_set_self]
          rfl
      · rintro h₂ _ e _ ⟨⟨hs, rfl⟩, -⟩
        exact ⟨hs, fun _ _ => rfl, .of_some nofun hp hp⟩
    · rintro h₁ _ e _ ⟨⟨hs, rfl⟩, -⟩
      exact ⟨hs, fun _ _ => rfl, .of_some nofun hp hp⟩

/-- A check sends nothing, and concerns its service only. -/
theorem runs_checkProcess {res : Except Error Bool} (hr : Runs (checkProcess i) n b h res b') :
    sent h = [] ∧ Apart b i b' ∧ LetsGo b i (res = .ok false) b' :=
  (assures_checkProcess_letsGo i).runs hr

/-- A signal is sent once, whatever the answer. -/
theorem runs_send {s : Signal} {res : Except Error Bool} (hr : Runs (Supervisor.send p s) n b h res b') :
    sent h = [(p, s)] ∧ b' = b := by
  have hs : Assures (.anything _) (fun _ _ _ _ => True) (Supervisor.send p s)
      (fun h _ _ b' => sent h = [(p, s)] ∧ b' = b) n [] () b := by
    refine assures_bind.mpr (assures_ask.mpr fun _ _ => ⟨trivial, fun answer _ _ => ?_⟩)
    cases answer with
    | ok _ => exact ⟨rfl, rfl⟩
    | error e =>
      dsimp only
      split
      · exact ⟨rfl, rfl⟩
      · exact ⟨rfl, rfl⟩
  exact hs.runs hr

/-- The service, if a look at its process has found that alive. -/
def ifAlive (i : r.Id) : Except Error Bool → List r.Id
  | .ok true => [i]
  | _ => []

/-- A process that has been found alive is sent one signal, and stays with its service. -/
theorem runs_asked {delivered : Except Error Bool} {l : Log.Record} (hg : ¬ gone)
    (hc : Runs (checkProcess i) n b h₁ (.ok true) b₁) (hp : b₁[i].pid = some p)
    (hs : Runs (Supervisor.send p .terminate) n (b₁.set i { b₁[i] with stopRequested := true }) h₂ delivered b') :
    sent (h₁ ++ ⟨(.log l, b₁), ()⟩ :: h₂) = requests b [i] ∧ Apart b i b' ∧ LetsGo b i gone b' := by
  obtain ⟨hnone, ha, hl⟩ := runs_checkProcess hc
  obtain ⟨q, hq, hq₁⟩ := hl.held nofun
  obtain rfl : q = p := Option.some.inj (hq₁.symm.trans hp)
  obtain ⟨hsent, rfl⟩ := runs_send hs
  refine ⟨?_, fun j hj => (apart_set _ _ _ j hj).trans (ha j hj), .of_some hg hq ?_⟩
  · rw [sent_append, hnone]
    refine hsent.trans ?_
    simp [requests, hq]
  · rw [Board.getElem_set_self, ← hp]

/-- A request sends a signal if the process has been found alive. -/
theorem runs_requestStop {res : Except Error Bool} (hr : Runs (requestStop i) n b h res b') :
    ∃ h₁ h₂ found b₁, h = h₁ ++ h₂ ∧ Runs (checkProcess i) n b h₁ found b₁ ∧
      sent h = requests b (ifAlive i found) ∧ Apart b i b' ∧ LetsGo b i (res = .ok false) b' := by
  cases requested_of_runs hr with
  | unchecked hc =>
    obtain ⟨hs, ha, hl⟩ := runs_checkProcess hc
    exact ⟨h, [], _, b', (List.append_nil h).symm, hc, hs, ha, hl⟩
  | @absent _ _ running hc hn =>
    obtain ⟨hs, ha, hl⟩ := runs_checkProcess hc
    cases running with
    | false => exact ⟨h, [], _, b', (List.append_nil h).symm, hc, hs, ha, hl⟩
    | true =>
      obtain ⟨p, -, hp⟩ := hl.held nofun
      cases hp.symm.trans (hn rfl)
  | asked hc hp hs hl =>
    refine ⟨_, _, _, _, rfl, hc, ?_⟩
    rw [← List.cons_append, ← List.append_assoc, sent_append, sent_eq_nil_of_recordsOnly hl, List.append_nil]
    exact runs_asked nofun hc hp hs
  | refused hc hp hs => exact ⟨_, _, _, _, rfl, hc, runs_asked nofun hc hp hs⟩

/-- A wait takes the process away exactly if the answer is that it is gone. -/
theorem assures_awaitStopped_letsGo (i : r.Id) (deadline : Nat) : Assures (.anything _) (fun _ _ _ _ => True)
    (awaitStopped i deadline)
    (fun h' _ res b' => sent h' = sent h ∧ Apart b i b' ∧ LetsGo b i (res = .ok true) b') n h () b := by
  refine assures_bind.mpr (assures_stateOf.mpr ?_)
  dsimp only
  cases hp : b[i].pid with
  | none => exact ⟨rfl, fun _ _ => rfl, .of_none rfl hp⟩
  | some p =>
    have hawait : Keeps (calm (sent h) b) (Supervisor.awaitExit p (some deadline)) := admits_calm.awaitExit ..
    refine (hawait ⟨rfl, rfl⟩).bind ?_ ?_
    · rintro h₁ _ _ _ ⟨⟨hs, rfl⟩, -⟩
      refine (assures_checkProcess_letsGo i).bind ?_ ?_
      · rintro h₂ _ running b₁ ⟨hs', ha, hl⟩
        cases running with
        | false => exact ⟨hs'.trans hs, ha, .of_none rfl (hl.eq_none rfl)⟩
        | true =>
          obtain ⟨q, hq, hq₁⟩ := hl.held nofun
          refine assures_bind.mpr (assures_ask.mpr fun _ _ => ⟨trivial, fun _ _ _ => ?_⟩)
          refine assures_bind.mpr (assures_update.mpr ⟨?_, ?_, .of_some nofun hq ?_⟩)
          · rw [sent_concat, hs', hs]
            exact List.append_nil _
          · exact fun j hj => (apart_set _ _ _ j hj).trans (ha j hj)
          · rw [Board.getElem_set_self, ← hq₁]
      · rintro h₂ _ e b₁ ⟨hs', ha, hl⟩
        obtain ⟨q, hq, hq₁⟩ := hl.held nofun
        exact ⟨hs'.trans hs, ha, .of_some nofun hq hq₁⟩
    · rintro h₁ _ e _ ⟨⟨hs, rfl⟩, -⟩
      exact ⟨hs, fun _ _ => rfl, .of_some nofun hp hp⟩

/-- A failure is reported, and answers nothing. -/
theorem runs_reported {x : Operation r Bool} {res : Except Error (Option Bool)}
    (hr : Runs (reported i x) n b h res b') :
    ∃ h₁ h₂ answer, h = h₁ ++ h₂ ∧ Runs x n b h₁ answer b' ∧ sent h₂ = [] ∧ res = .ok answer.toOption := by
  obtain ⟨h₁, h₂, answer, b₁, rfl, hx, hend⟩ | ⟨e, rfl, hx⟩ := runs_bind_iff.mp hr
  · obtain ⟨answer, e, hx⟩ := runs_attempt_iff.mp hx
    cases e
    cases answer with
    | ok a =>
      obtain ⟨rfl, rfl, rfl⟩ := runs_pure_iff.mp hend
      exact ⟨h₁, [], .ok a, rfl, hx, rfl, rfl⟩
    | error e =>
      obtain ⟨h₃, rfl, hlast⟩ := runs_log_bind_iff.mp hend
      obtain ⟨rfl, rfl, rfl⟩ := runs_pure_iff.mp hlast
      exact ⟨h₁, _, .error e, rfl, hx, rfl, rfl⟩
  · obtain ⟨answer, he, -⟩ := runs_attempt_iff.mp hx
    cases he

/-! ## One service after the other -/

section Series

variable {β : Type} {P : β → Board r → History (Board r) → Board r → Prop} {service : β → r.Id} {gone : β → Prop}
  {xs : List β}

/-- What has become of each service in its turn stays so, and the others are not concerned. -/
theorem series_letsGo (hs : Series P xs b h b')
    (hP : ∀ x b h b', P x b h b' → Apart b (service x) b' ∧ LetsGo b (service x) (gone x) b')
    (hn : (xs.map service).Nodup) :
    (∀ x ∈ xs, LetsGo b (service x) (gone x) b') ∧ ∀ i ∉ xs.map service, b'[i] = b[i] := by
  induction hs with
  | nil => exact ⟨nofun, fun _ _ => rfl⟩
  | @cons x xs b b₁ b' h₁ h₂ hx hs ih =>
    obtain ⟨hxs, hn⟩ := List.nodup_cons.mp hn
    obtain ⟨ha, hl⟩ := hP _ _ _ _ hx
    obtain ⟨hlets, hothers⟩ := ih hn
    constructor
    -- the first service has no second turn, and its turn leaves the others as they are
    · intro y hy
      rcases List.mem_cons.mp hy with rfl | hy
      · have he := congrArg Service.State.pid (hothers _ hxs)
        exact ⟨fun hg => he.trans (hl.eq_none hg), fun hg => (hl.held hg).imp fun p hp => ⟨hp.1, he.trans hp.2⟩⟩
      · have he : b₁[service y] = b[service y] := ha _ (ne_of_mem_of_not_mem (List.mem_map_of_mem hy) hxs)
        exact ⟨(hlets y hy).eq_none, fun hg => (hlets y hy).held hg |>.imp fun p hp => ⟨he ▸ hp.1, hp.2⟩⟩
    · intro i hi
      rw [List.map_cons, List.mem_cons, not_or] at hi
      exact (hothers i hi.2).trans (ha i hi.1)

theorem sent_eq_nil_of_series (hs : Series P xs b h b') (hP : ∀ x b h b', P x b h b' → sent h = []) :
    sent h = [] := by
  induction hs with
  | nil => rfl
  | cons hx _ ih => rw [sent_append, hP _ _ _ _ hx, ih, List.append_nil]

end Series

/-- The turn of a service when all are stopped: what a first look at its process came to, and the answer to the
request. -/
structure StopTurn (r : Registry) where
  service : r.Id
  found : Except Error Bool
  answer : Option Bool

/-- The turn is that of a run, which begins with the look. -/
def StopTurn.Taken (n : Nat) (t : StopTurn r) (b : Board r) (h : History (Board r)) (b' : Board r) : Prop :=
  ∃ h₁ h₂ b₁, h = h₁ ++ h₂ ∧ Runs (checkProcess t.service) n b h₁ t.found b₁ ∧
    Runs (reported t.service (requestStop t.service)) n b h (.ok t.answer) b'

/-- The services of which the processes were found alive. -/
def alive (ts : List (StopTurn r)) : List r.Id := ts.flatMap fun t => ifAlive t.service t.found

/-- The turn of a service, with what it comes to. -/
structure StopTurn.Done (n : Nat) (t : StopTurn r) (b : Board r) (h : History (Board r)) (b' : Board r) : Prop where
  taken : t.Taken n b h b'
  sent_eq : sent h = requests b (ifAlive t.service t.found)
  apart : Apart b t.service b'
  letsGo : LetsGo b t.service (t.answer = some false) b'

/-- A request in a run is a turn. -/
theorem exists_stopTurn {answer : Option Bool}
    (hr : Runs (reported i (requestStop i)) n b h (.ok answer) b') :
    ∃ t : StopTurn r, (t.service, t.answer) = (i, answer) ∧ t.Done n b h b' := by
  obtain ⟨h₁, h₂, res, rfl, hx, hs₂, e⟩ := runs_reported hr
  cases e
  obtain ⟨h₃, h₄, found, b₁, rfl, hcheck, hs, ha, hl⟩ := runs_requestStop hx
  refine ⟨⟨i, found, res.toOption⟩, rfl, ⟨h₃, h₄ ++ h₂, b₁, List.append_assoc .., hcheck, hr⟩, ?_, ha, ?_⟩
  · rw [sent_append, hs, hs₂, List.append_nil]
  · have he : res.toOption = some false ↔ res = .ok false := by cases res <;> simp [Except.toOption]
    exact ⟨fun hg => hl.eq_none (he.mp hg), fun hg => hl.held (mt he.mpr hg)⟩

/-- What is requested of services does not depend on others. -/
theorem requests_congr {is : List r.Id} (hb : ∀ i ∈ is, b₁[i] = b[i]) : requests b₁ is = requests b is :=
  List.filterMap_congr fun i hi => by rw [hb i hi]

theorem requests_append {is js : List r.Id} : requests b (is ++ js) = requests b is ++ requests b js :=
  List.filterMap_append ..

theorem ifAlive_sublist (i : r.Id) (found : Except Error Bool) : (ifAlive i found).Sublist [i] := by
  unfold ifAlive
  split
  · exact .refl _
  · exact List.nil_sublist _

/-- Each service is asked once, in the order of the turns. -/
theorem alive_sublist (ts : List (StopTurn r)) : (alive ts).Sublist (ts.map StopTurn.service) := by
  induction ts with
  | nil => exact .refl _
  | cons t ts ih => exact (ifAlive_sublist t.service t.found).append ih

/-- A process that is found alive was that of the service. -/
theorem StopTurn.Taken.isRunning {t : StopTurn r} (ht : t.Taken n b h b') (hi : i ∈ ifAlive t.service t.found) :
    b.isRunning i = true := by
  obtain ⟨h₁, h₂, b₁, -, hcheck, -⟩ := ht
  unfold ifAlive at hi
  split at hi
  · rename_i hfound
    rw [hfound] at hcheck
    obtain ⟨p, hp, -⟩ := (runs_checkProcess hcheck).2.2.held nofun
    rw [List.mem_singleton.mp hi]
    exact Board.isRunning_eq_true_iff.mpr ⟨p, hp⟩
  · cases hi

/-- Signals are sent to the processes that are found alive, and no others. -/
theorem sent_of_series {ts : List (StopTurn r)} (hs : Series (StopTurn.Done n) ts b h b')
    (hn : (ts.map StopTurn.service).Nodup) :
    sent h = requests b (alive ts) ∧ ∀ i ∈ alive ts, b.isRunning i = true := by
  induction hs with
  | nil => exact ⟨rfl, nofun⟩
  | @cons t ts b b₁ b' h₁ h₂ ht hs ih =>
    obtain ⟨hts, hn⟩ := List.nodup_cons.mp hn
    obtain ⟨hsent, hrunning⟩ := ih hn
    have hsame : ∀ i ∈ alive ts, b₁[i] = b[i] := fun i hi =>
      ht.apart i (ne_of_mem_of_not_mem ((alive_sublist ts).subset hi) hts)
    constructor
    · calc
        sent (h₁ ++ h₂) = requests b (ifAlive t.service t.found) ++ requests b₁ (alive ts) := by
          rw [sent_append, ht.sent_eq, hsent]
        _ = requests b (alive (t :: ts)) := by
          rw [requests_congr hsame, ← requests_append]
          rfl
    · intro i hi
      rcases List.mem_append.mp hi with hi | hi
      · exact ht.taken.isRunning hi
      · rw [Board.isRunning, ← hsame i hi]
        exact hrunning i hi

/-! ## All services -/

/-- A failure that is reported to the log is not passed on. -/
theorem not_runs_reported_error {x : Operation r Bool} {e : Error} : ¬ Runs (reported i x) n b h (.error e) b' := by
  intro hr
  obtain ⟨_, _, _, -, -, -, he⟩ := runs_reported hr
  cases he

/-- A wait for a service, with what it comes to. -/
theorem awaited {deadline : Nat} {answer : Option Bool}
    (hr : Runs (reported i (awaitStopped i deadline)) n b h (.ok answer) b') :
    sent h = [] ∧ Apart b i b' ∧ LetsGo b i (answer = some true) b' := by
  obtain ⟨h₁, h₂, res, rfl, hx, hs₂, e⟩ := runs_reported hr
  cases e
  obtain ⟨hs, ha, hl⟩ := (assures_awaitStopped_letsGo i deadline).runs hx
  have he : res.toOption = some true ↔ res = .ok true := by cases res <;> simp [Except.toOption]
  refine ⟨?_, ha, fun hg => hl.eq_none (he.mp hg), fun hg => hl.held (mt he.mpr hg)⟩
  rw [sent_append, hs, hs₂]
  rfl

/-- A service that is waited for, with the answer to the request and that to the wait. -/
abbrev Wait (r : Registry) := (r.Id × Option Bool) × Option Bool

/-- The services are asked in turn, and those that could be are waited for. -/
theorem runs_stopAll {deadline : Nat} {res : Except Error Bool} (hr : Runs (stopAll deadline) n b h res b') :
    ∃ (ts : List (StopTurn r)) (ws : List (Wait r)) (h₁ h₂ : History (Board r)) (b₁ : Board r), h = h₁ ++ h₂ ∧
      ts.map StopTurn.service = r.startOrder.reverse ∧ Series (StopTurn.Done n) ts b h₁ b₁ ∧
      ws.map Prod.fst = (ts.map fun t => (t.service, t.answer)).filter (fun d => d.2 = some true) ∧
      Series (Answers (fun d => reported d.1 (awaitStopped d.1 deadline)) n) ws b₁ h₂ b' ∧
      res = .ok (ts.all (fun t => t.answer.isSome) && ws.all fun w => w.2 = some true) := by
  -- the requests are kept with their answers as `paired` keeps them
  have hr : Runs (do
      let asked ← paired (fun i => reported i (requestStop i)) r.startOrder.reverse
      let waited ← (asked.filter fun d => d.2 = some true).mapM fun d => reported d.1 (awaitStopped d.1 deadline)
      return asked.all (fun d => d.2.isSome) && waited.all (· = some true)) n b h res b' := hr
  rcases runs_bind_iff.mp hr with ⟨h₁, h₂, asked, b₁, rfl, hasked, hrest⟩ | ⟨e, rfl, hasked⟩
  · obtain ⟨_, hfst, e, hs₁⟩ :=
      (through_of_runs_paired hasked).of_not_error fun _ _ _ _ _ => not_runs_reported_error
    cases e
    obtain ⟨ts, rfl, hts⟩ := hs₁.exists_map (f := fun t : StopTurn r => (t.service, t.answer))
      fun _ _ _ _ _ hd => exists_stopTurn hd
    rw [List.map_map] at hfst
    obtain ⟨_, hwaited, rfl⟩ := runs_bind_pure_iff.mp hrest
    obtain ⟨out, hout, rfl⟩ := through_of_runs_mapM hwaited
    obtain ⟨ws, hws, rfl, hs₂⟩ := hout.of_not_error fun _ _ _ _ _ => not_runs_reported_error
    refine ⟨ts, ws, h₁, h₂, b₁, rfl, hfst, hts, hws, hs₂, ?_⟩
    simp [Except.map, List.all_map, Function.comp_def]
  · obtain ⟨_, -, he, -⟩ := (through_of_runs_paired hasked).of_not_error fun _ _ _ _ _ => not_runs_reported_error
    cases he

section Verdict

variable {ts : List (StopTurn r)} {ws : List (Wait r)} {deadline : Nat}

/-- Those that are waited for have been asked. -/
theorem mem_waits_iff (hn : (ts.map StopTurn.service).Nodup)
    (hws : ws.map Prod.fst = (ts.map fun t => (t.service, t.answer)).filter fun d => d.2 = some true)
    {t : StopTurn r} (ht : t ∈ ts) : t.service ∈ ws.map (fun w => w.1.1) ↔ t.answer = some true := by
  have hmem : ∀ d : r.Id × Option Bool, d ∈ ws.map Prod.fst ↔
      (∃ t ∈ ts, (t.service, t.answer) = d) ∧ d.2 = some true := by
    simp [hws]
  constructor
  · intro hw
    obtain ⟨w, hw, he⟩ := List.mem_map.mp hw
    obtain ⟨⟨t', ht', hd⟩, ha⟩ := (hmem w.1).mp (List.mem_map_of_mem hw)
    obtain rfl : t' = t := List.inj_on_of_nodup_map hn ht' ht ((congrArg Prod.fst hd).trans he)
    exact (congrArg Prod.snd hd).trans ha
  · intro ha
    obtain ⟨w, hw, he⟩ := List.mem_map.mp ((hmem (t.service, t.answer)).mpr ⟨⟨t, ht, rfl⟩, ha⟩)
    exact List.mem_map.mpr ⟨w, hw, congrArg Prod.fst he⟩

/-- The answers tell whether no process is left. -/
theorem all_answers_iff (hts : Series (StopTurn.Done n) ts b h₁ b₁) (hall : ∀ i, i ∈ ts.map StopTurn.service)
    (hn : (ts.map StopTurn.service).Nodup)
    (hws : ws.map Prod.fst = (ts.map fun t => (t.service, t.answer)).filter fun d => d.2 = some true)
    (hs : Series (Answers (fun d => reported d.1 (awaitStopped d.1 deadline)) n) ws b₁ h₂ b') :
    (ts.all (fun t => t.answer.isSome) && ws.all fun w => w.2 = some true) = true ↔ ∀ i : r.Id, b'[i].pid = none := by
  obtain ⟨hasked, -⟩ := series_letsGo hts (fun t _ _ _ ht => ⟨ht.apart, ht.letsGo⟩) hn
  have hwn : (ws.map fun w => w.1.1).Nodup := by
    have hsub : (ws.map Prod.fst).Sublist (ts.map fun t => (t.service, t.answer)) := hws ▸ List.filter_sublist
    have hsub := hsub.map Prod.fst
    rw [List.map_map, List.map_map] at hsub
    exact hn.sublist hsub
  obtain ⟨hwaited, hothers⟩ := series_letsGo hs (fun w _ _ _ hw => (awaited hw).2) hwn
  rw [Bool.and_eq_true, List.all_eq_true, List.all_eq_true]
  constructor
  · rintro ⟨hsome, htrue⟩ i
    obtain ⟨t, ht, rfl⟩ := List.mem_map.mp (hall i)
    by_cases ha : t.answer = some true
    · obtain ⟨w, hw, he⟩ := List.mem_map.mp ((mem_waits_iff hn hws ht).mpr ha)
      rw [← he]
      exact (hwaited w hw).eq_none (by simpa using htrue w hw)
    · have hfalse : t.answer = some false := by
        obtain ⟨_ | _, he⟩ := Option.isSome_iff_exists.mp (hsome t ht)
        · exact he
        · exact absurd he ha
      rw [hothers _ (mt (mem_waits_iff hn hws ht).mp ha)]
      exact (hasked t ht).eq_none hfalse
  · intro hnone
    constructor
    · intro t ht
      by_contra hn'
      have ha : t.answer = none := by simpa using hn'
      obtain ⟨p, -, hp⟩ := (hasked t ht).held (by simp [ha])
      rw [← hothers _ (mt (mem_waits_iff hn hws ht).mp (by simp [ha])), hnone] at hp
      cases hp
    · intro w hw
      by_contra hn'
      obtain ⟨p, -, hp⟩ := (hwaited w hw).held (by simpa using hn')
      rw [hnone] at hp
      cases hp

end Verdict

/-- In the order of starts each service stands once, and behind whatever it rests on.  When all services are
stopped, each has its turn in the reverse of that order, whatever the kernel answers; signals are sent to the
processes that a first look finds alive, one to each and no others, and so never to a service before one that
rests on it.  Nothing fails, and the answer is that all are gone exactly if no service holds a process then. -/
theorem stopAll_signals_in_order (r : Registry) :
    r.startOrder.Nodup ∧ (∀ i, i ∈ r.startOrder) ∧
    (∀ i j, r.RestsOn i j → r.startOrder.idxOf j < r.startOrder.idxOf i) ∧
    ∀ (deadline n : Nat) (b : Board r) h res b', Runs (stopAll deadline) n b h res b' →
      ∃ (turns : List (StopTurn r)) (h₁ h₂ : History (Board r)) (b₁ : Board r), h = h₁ ++ h₂ ∧
        turns.map StopTurn.service = r.startOrder.reverse ∧ Series (StopTurn.Taken n) turns b h₁ b₁ ∧
        sent h = requests b (alive turns) ∧ (alive turns).Nodup ∧ (∀ i ∈ alive turns, b.isRunning i = true) ∧
        (alive turns).Pairwise (fun i j => ¬ r.RestsOn j i) ∧
        ∃ gone, res = .ok gone ∧ (gone = true ↔ ∀ i : r.Id, b'[i].pid = none) := by
  have hfirst := r.putsFirst_startOrder
  refine ⟨r.nodup_startOrder, Registry.mem_startOrder, fun i j hij =>
    hfirst.idxOf_lt (Registry.mem_startOrder i) hij, fun deadline n b h res b' hr => ?_⟩
  obtain ⟨ts, ws, h₁, h₂, b₁, rfl, hts, hasked, hws, hwaited, rfl⟩ := runs_stopAll hr
  have hn : (ts.map StopTurn.service).Nodup := hts ▸ List.nodup_reverse.mpr r.nodup_startOrder
  have hall : ∀ i, i ∈ ts.map StopTurn.service := fun i => hts ▸ List.mem_reverse.mpr (Registry.mem_startOrder i)
  obtain ⟨hsent, hrunning⟩ := sent_of_series hasked hn
  refine ⟨ts, h₁, h₂, b₁, rfl, hts, hasked.imp fun _ _ _ _ ht => ht.taken, ?_, hn.sublist (alive_sublist ts),
    hrunning, ?_, _, rfl, all_answers_iff hasked hall hn hws hwaited⟩
  · rw [sent_append, hsent, sent_eq_nil_of_series hwaited fun _ _ _ _ hw => (awaited hw).1, List.append_nil]
  · have hpair : (ts.map StopTurn.service).Pairwise fun i j => ¬ r.RestsOn j i := by
      rw [hts, List.pairwise_reverse]
      exact hfirst.pairwise r.nodup_startOrder
    exact hpair.sublist (alive_sublist ts)

/-- Both services of the pair run. -/
def pairRunning : Board (dependentPair .always) :=
  ⟨#v[⟨.running, some 100, 0, false⟩, ⟨.running, some 101, 0, false⟩]⟩

/-- Every process ends as soon as both services have been asked to. -/
def endsWhenAsked : (q : Kernel.Call × Board (dependentPair .always)) → Kernel.signature.Answer q.1
  | (.wait p, b) => if b[dependency].stopRequested then .ok (.exited p 0) else .ok .stillAlive
  | (.peek p, _) => .ok (.exited p 0)
  | (.kill .., _) => .ok ()
  | (c, _) => Kernel.refusal .tryAgain c

/-- Both processes end after both services have been asked. -/
theorem exists_runs_stopAll_pair : ∃ h, Runs (stopAll 0) 2 pairRunning h (.ok true)
    ⟨#v[⟨.stopped, none, 0, false⟩, ⟨.stopped, none, 0, false⟩]⟩ :=
  (Dialogue.exists_runs_of_answered (f := endsWhenAsked) (by cbv)).imp fun _ => And.left

/-- The service that depends on the other one is asked first. -/
theorem stopAll_signals_in_order_pair : ∃ h b', Runs (stopAll 0) 2 pairRunning h (.ok true) b' ∧
    ∀ i : (dependentPair .always).Id, b'[i].pid = none := by
  obtain ⟨h, hr⟩ := exists_runs_stopAll_pair
  obtain ⟨_, _, _, _, -, -, -, -, -, -, -, gone, hres, hgone⟩ :=
    (stopAll_signals_in_order (dependentPair .always)).2.2.2 0 2 pairRunning h _ _ hr
  cases hres
  exact ⟨h, _, hr, hgone.mp rfl⟩

end ContainerInit.Supervision
