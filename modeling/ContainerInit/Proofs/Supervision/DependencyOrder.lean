import ContainerInit.Proofs.Supervision.Session
import ContainerInit.Proofs.Supervision.Start

/-! # Dependencies first

Whenever a process is forked for a service, all that the service depends on is running.  A plan is made once and
carried out later; but nothing is collected while that is done, so that what was running when the plan was made is
still running, and what was not has its place before whatever needs it.

## Carrying out a plan

`Underway` compares the board with the one that the plan was made for.  Whatever ran then runs, and so does what has
been done of the plan.  In a plan each service comes after what it needs, and so the next one is `Supplied`.

## What the next call shows

The statement about all moments of a session speaks of the board at a call, and the board is written after the call
that it is about.  A fork that has failed is noted before anything else is asked.  One that has succeeded is noted
after a record of the process has been written to the log.  `Noted` has both, and `Settled` is when nothing is left to
be noted, which is so before and after each operation. -/

namespace ContainerInit

namespace Board

variable {r : Registry} {b b' : Board r} {i j k : r.Id} {done rest : List r.Id} {t : Service.State}

/-- Every service that `i` names among its dependencies exists and holds a process. -/
def Supplied (b : Board r) (i : r.Id) : Prop :=
  ∀ name ∈ (r.service i).dependsOn, ∃ j : r.Id, (r.service j).name = name ∧ ∃ p, b[j].pid = some p

/-- A service that has all it depends on needs nothing. -/
theorem Supplied.not_needs (hs : b.Supplied i) (k : r.Id) : ¬ b.Needs i k := by
  rintro ⟨hik, hk⟩
  obtain ⟨j, hj, hp⟩ := hs _ hik
  obtain rfl := Registry.name_injective hj
  cases hk.symm.trans (isRunning_eq_true_iff.mpr hp)

/-- Nobody else takes part in its start. -/
theorem Supplied.eq_of_requires (hs : b.Supplied i) (hj : b.Requires i j) : j = i := by
  rcases Relation.ReflTransGen.cases_head hj with e | ⟨k, hk, -⟩
  · exact e.symm
  · exact absurd hk (hs.not_needs k)

/-- Nothing is in the way of a service that has all that it depends on. -/
theorem Supplied.not_obstacle (hs : b.Supplied i) (e : Error) : ¬ b.Obstacle i e := by
  intro ho
  cases ho with
  | missing hj h =>
    obtain rfl := hs.eq_of_requires hj
    obtain ⟨k, hk, -⟩ := hs _ h.1
    exact h.2 k hk
  | circle hj h =>
    obtain rfl := hs.eq_of_requires hj
    obtain ⟨k, hk, -⟩ := Relation.TransGen.head'_iff.mp h
    exact hs.not_needs k hk
  | blocked hj hk =>
    obtain rfl := hs.eq_of_requires hj
    exact hs.not_needs _ hk

/-- What has been done of a plan that was made for the board `b` is running, and so is what was running
before. -/
structure Underway (b : Board r) (done : List r.Id) (b' : Board r) : Prop where
  kept : ∀ j, b.isRunning j = true → b'.isRunning j = true
  done : ∀ j ∈ done, b'.isRunning j = true

theorem Underway.refl (b : Board r) : b.Underway [] b := ⟨fun _ => id, nofun⟩

/-- The next service of a plan has its dependencies running. -/
theorem Underway.supplied (h : b.Underway done b') (hp : r.plan b i = .ok (done ++ j :: rest)) :
    b'.Supplied j := by
  have hplan := isPlan_of_plan_eq_ok hp
  intro name hn
  have hexist : ∃ k : r.Id, (r.service k).name = name := by
    by_contra hnone
    have hj : b.Requires i j := (hplan.mem_iff j).mp (by simp)
    exact not_obstacle_of_plan_eq_ok hp _ (.missing hj ⟨hn, fun k hk => hnone ⟨k, hk⟩⟩)
  obtain ⟨k, rfl⟩ := hexist
  refine ⟨k, rfl, isRunning_eq_true_iff.mp ?_⟩
  cases hk : b.isRunning k with
  | true => exact h.kept k hk
  | false => exact h.done k (hplan.ordered rfl ⟨hn, hk⟩)

theorem Underway.concat (h : b.Underway done b') (hj : b'.isRunning j = true) :
    b.Underway (done ++ [j]) b' := by
  refine ⟨h.kept, fun k hk => ?_⟩
  rcases List.mem_append.mp hk with hk | hk
  · exact h.done k hk
  · rwa [List.mem_singleton.mp hk]

/-- A service that gets a process takes none away. -/
theorem Underway.set (h : b.Underway done b') (ht : t.isRunning = true) : b.Underway done (b'.set j t) := by
  have hset : ∀ k, b'.isRunning k = true → (b'.set j t).isRunning k = true := by
    intro k hk
    by_cases hjk : j = k
    · subst hjk
      rwa [isRunning, getElem_set_self]
    · rwa [isRunning_set_ne _ _ hjk]
  exact ⟨fun k hk => hset k (h.kept k hk), fun k hk => hset k (h.done k hk)⟩

/-- The service has a process, the one that it had or a new one. -/
def Furnished (b : Board r) (i : r.Id) (b' : Board r) : Prop :=
  b' = b ∧ b.isRunning i = true ∨ ∃ p, b' = b.set i (b[i].started p)

theorem Underway.furnished {b₁ : Board r} (h : b.Underway done b') (hj : b'.Furnished j b₁) :
    b.Underway (done ++ [j]) b₁ := by
  rcases hj with ⟨rfl, hj⟩ | ⟨p, rfl⟩
  · exact h.concat hj
  · refine (h.set rfl).concat ?_
    rw [isRunning, getElem_set_self]
    rfl

end Board

namespace Supervision

open ContainerInit.Action

variable {r : Registry} {sup : Supervisor} {i : r.Id} {n : Nat} {h : History (Board r)} {b b₀ : Board r}
  {done rest : List r.Id} {c : Kernel.Child}

section Supplied

variable {W : World Kernel.signature} {R : Regime W (Board r)}
  (hspawn : ∀ j ⦃n h k b⦄, R.inv h k b → b.Supplied j →
    Assures W R.asks (spawn sup j) (R.ends fun _ _ _ b' => b.Furnished j b') n h k b)

include hspawn

/-- Carrying out what is left of a plan, by induction on it: each service finds its dependencies among those
that were running before and those that are done. -/
theorem assures_forM_spawn_of_supplied {k : W.State} (hp : r.plan b₀ i = .ok (done ++ rest))
    (hu : b₀.Underway done b) (hi : R.inv h k b) :
    Assures W R.asks (rest.forM (spawn sup)) (R.ends fun _ _ _ _ => True) n h k b := by
  induction rest generalizing done h k b with
  | nil => exact ⟨hi, trivial⟩
  | cons j rest ih =>
    refine (hspawn j hi (hu.supplied hp)).bind_ends fun h₁ k₁ _ b₁ hi hj => ?_
    have hp : r.plan b₀ i = .ok ((done ++ [j]) ++ rest) := by rwa [List.append_assoc]
    exact ih hp (hu.furnished hj) hi

/-- A start keeps what is kept by all that it is planned to do, where each service has its dependencies running. -/
theorem keeps_start_of_supplied (hplan : ∀ b i e, r.plan b i = .error e → R.errors e) (i : r.Id) :
    Keeps R (start sup i) := by
  intro n h k b hi
  refine assures_bind.mpr (assures_get.mpr (assures_bind.mpr (assures_ofExcept.mpr ?_)))
  cases hp : r.plan b i with
  | error e => exact ⟨hi, hplan b i e hp⟩
  | ok is =>
    have hp : r.plan b i = .ok ([] ++ is) := hp
    exact assures_forM_spawn_of_supplied hspawn hp (.refl b) hi

end Supplied

/-- The child is one for `i`, which holds no process while its dependencies do. -/
structure InTurn (sup : Supervisor) (b : Board r) (i : r.Id) (c : Kernel.Child) : Prop where
  child : c = childOf sup i
  idle : b[i].pid = none
  supplied : b.Supplied i

/-- What the last calls show of a fork is noted on the board: a fork that has failed by the next call, and one
that has not by the call after that, which is about the process alone. -/
structure Noted (sup : Supervisor) (h : History (Board r)) (b : Board r) : Prop where
  failed : ∀ c b₀ e, h.getLast? = some ⟨(.fork c, b₀), .error e⟩ →
    ∃ i, InTurn sup b₀ i c ∧ b = b₀.set i b₀[i].failed
  started : ∀ c b₀ p, h.dropLast.getLast? = some ⟨(.fork c, b₀), .ok p⟩ →
    ∃ i, InTurn sup b₀ i c ∧ b = b₀.set i (b₀[i].started p)

/-- No fork is left to be noted. -/
structure Settled (h : History (Board r)) : Prop where
  last : ∀ c b₀ a, h.getLast? ≠ some ⟨(.fork c, b₀), a⟩
  lastButOne : ∀ c b₀ p, h.dropLast.getLast? ≠ some ⟨(.fork c, b₀), .ok p⟩

theorem settled_nil : Settled ([] : History (Board r)) := ⟨nofun, nofun⟩

/-- Where nothing is left to be noted, all is noted. -/
theorem Settled.noted (hs : Settled h) : Noted sup h b where
  failed _ _ _ he := absurd he (hs.last _ _ _)
  started _ _ _ he := absurd he (hs.lastButOne _ _ _)

/-- After another call, the last one is not a fork. -/
theorem getLast?_ne_fork {e : Dialogue.Exchange (Kernel.signature.inState (Board r))}
    (he : ∀ child, e.1.1 ≠ .fork child) (child : Kernel.Child) (b₀ : Board r) (a : Except Errno Pid) :
    (h ++ [e]).getLast? ≠ some ⟨(.fork child, b₀), a⟩ := by
  rw [List.getLast?_concat]
  rintro ⟨⟩
  exact he child rfl

/-- Another call than a fork leaves nothing to be noted, if the one before it has not succeeded in forking. -/
theorem settled_concat {e : Dialogue.Exchange (Kernel.signature.inState (Board r))}
    (he : ∀ child, e.1.1 ≠ .fork child)
    (hh : ∀ child b₀ p, h.getLast? ≠ some ⟨(.fork child, b₀), .ok p⟩) : Settled (h ++ [e]) where
  last := getLast?_ne_fork he
  lastButOne child b₀ p := by
    rw [List.dropLast_concat]
    exact hh child b₀ p

/-- A call that is not a fork leaves nothing to be noted. -/
theorem Settled.ask (hs : Settled h) {c : Kernel.Call} {a : Kernel.signature.Answer c}
    (hc : ∀ child, c ≠ .fork child) : Settled (h ++ [⟨(c, b), a⟩]) :=
  settled_concat hc fun _ _ _ => hs.last _ _ _

/-- Every fork is one for a service whose turn it is. -/
def inOrder (r : Registry) (sup : Supervisor) : Regime (.anything _) (Board r) where
  asks h _ c b := (∀ child, c = .fork child → ∃ i, InTurn sup b i child) ∧ Noted sup h b
  inv h _ _ := Settled h
  errors _ := True

theorem keeps_inOrder_ask {c : Kernel.Call} (hc : ∀ child, c ≠ .fork child) :
    Keeps (inOrder r sup) (Action.ask c) := by
  intro n h k b hs
  refine assures_ask.mpr fun _ _ => ⟨⟨?_, hs.noted⟩, fun _ _ _ => ⟨hs.ask hc, trivial⟩⟩
  intro child hchild
  exact absurd hchild (hc child)

theorem admits_inOrder : Admits (inOrder r sup) where
  errors _ _ _ := trivial
  ask c hc := keeps_inOrder_ask (by rintro _ rfl; exact hc)

/-! ## The turn of a service -/

/-- What is to be noted of an attempt to have a process. -/
def outcomeOf (s : Service.State) : Except Error Pid → Service.State
  | .ok p => s.started p
  | .error _ => s.failed

/-- A fork that has failed is noted at once. -/
theorem Settled.noted_failed (hs : Settled h) (hi : InTurn sup b i c) {e : Errno} :
    Noted sup (h ++ [⟨(.fork c, b), .error e⟩]) (b.set i b[i].failed) where
  failed _ _ _ he := by
    rw [List.getLast?_concat] at he
    cases he
    exact ⟨i, hi, rfl⟩
  started _ _ _ he := by
    rw [List.dropLast_concat] at he
    exact absurd he (hs.last _ _ _)

/-- A fork that has not failed need not be noted yet. -/
theorem Settled.noted_forked (hs : Settled h) {p : Pid} : Noted sup (h ++ [⟨(.fork c, b), .ok p⟩]) b where
  failed _ _ _ he := by
    rw [List.getLast?_concat] at he
    cases he
  started _ _ _ he := by
    rw [List.dropLast_concat] at he
    exact absurd he (hs.last _ _ _)

/-- A process is noted after the record of it. -/
theorem noted_started (hi : InTurn sup b i c) {p : Pid} {l : Log.Record} {u : Unit} :
    Noted sup (h ++ [⟨(.fork c, b), .ok p⟩] ++ [⟨(.log l, b), u⟩]) (b.set i (b[i].started p)) where
  failed _ _ _ he := absurd he (getLast?_ne_fork (by nofun) _ _ _)
  started _ _ _ he := by
    rw [List.dropLast_concat, List.getLast?_concat] at he
    cases he
    exact ⟨i, hi, rfl⟩

/-- A process is asked for in turn, and what comes of it is still to be noted. -/
theorem Settled.assures_supervisor_spawn (hs : Settled h) (hi : InTurn sup b i (childOf sup i)) :
    Assures (.anything _) (inOrder r sup).asks (sup.spawn (r.service i).argv) (fun h' _ res b' => b' = b ∧
      Noted sup h' (b.set i (outcomeOf b[i] res)) ∧
      ∀ c b₀ p, h'.getLast? ≠ some ⟨(.fork c, b₀), .ok p⟩) n h () b := by
  refine assures_bind.mpr (assures_ofExcept.mpr ?_)
  cases Supervisor.program (r.service i).argv with
  | error e => exact ⟨rfl, hs.noted, fun _ _ _ => hs.last _ _ _⟩
  | ok command =>
    refine assures_bind.mpr (assures_ask.mpr fun _ _ => ⟨⟨?_, hs.noted⟩, fun answer _ _ => ?_⟩)
    · rintro child ⟨⟩
      exact ⟨i, hi⟩
    cases answer with
    | error e =>
      refine ⟨rfl, hs.noted_failed hi, fun c b₀ p he => ?_⟩
      rw [List.getLast?_concat] at he
      cases he
    | ok p =>
      refine assures_bind.mpr (assures_ask.mpr fun _ _ => ⟨⟨nofun, hs.noted_forked⟩, fun _ _ _ => ?_⟩)
      exact ⟨rfl, noted_started hi, fun _ _ _ => getLast?_ne_fork (by nofun) _ _ _⟩

/-- The record in the log is made when everything is noted. -/
theorem Noted.assures_logService {l : Log.Level} {text : String} (hb : Noted sup h b)
    (hh : ∀ c b₀ p, h.getLast? ≠ some ⟨(.fork c, b₀), .ok p⟩) :
    Assures (.anything _) (inOrder r sup).asks (logService l text)
      (fun h' _ res b' => Settled h' ∧ b' = b ∧ res = .ok ()) n h () b :=
  assures_ask.mpr fun _ _ => ⟨⟨nofun, hb⟩, fun _ _ _ => ⟨settled_concat nofun hh, rfl, rfl⟩⟩

/-- A service whose turn it is holds a process afterwards, unless none could be had. -/
theorem Settled.assures_spawn (hs : Settled h) (hb : b.Supplied i) :
    Assures (.anything _) (inOrder r sup).asks (spawn sup i)
      ((inOrder r sup).ends fun _ _ _ b' => b.Furnished i b') n h () b := by
  refine assures_bind.mpr (assures_stateOf.mpr ?_)
  dsimp only
  cases hp : b[i].pid with
  | some p =>
    refine (hs.noted.assures_logService fun _ _ _ => hs.last _ _ _).imp ?_
    rintro h' _ _ _ ⟨hs, rfl, rfl⟩
    exact ⟨hs, .inl ⟨rfl, Board.isRunning_eq_true_iff.mpr ⟨p, hp⟩⟩⟩
  | none =>
    refine assures_bind.mpr (assures_attempt.mpr ((hs.assures_supervisor_spawn ⟨rfl, hp, hb⟩).imp ?_))
    rintro h' _ res b' ⟨rfl, hnoted, hh⟩
    cases res with
    | ok p =>
      refine assures_bind.mpr (assures_update.mpr ((hnoted.assures_logService hh).imp ?_))
      rintro _ _ _ _ ⟨hs, rfl, rfl⟩
      exact ⟨hs, .inr ⟨p, rfl⟩⟩
    | error e =>
      refine assures_bind.mpr (assures_update.mpr ?_)
      refine assures_bind.mpr ((hnoted.assures_logService hh).imp ?_)
      rintro _ _ _ _ ⟨hs, rfl, rfl⟩
      exact ⟨hs, trivial⟩

theorem keeps_inOrder_start (i : r.Id) : Keeps (inOrder r sup) (start sup i) :=
  keeps_start_of_supplied (fun _ _ _ _ _ hs hb => Settled.assures_spawn hs hb) (fun _ _ _ _ => trivial) i

/-! ## All operations -/

theorem keeps_inOrder_checkProcess (i : r.Id) : Keeps (inOrder r sup) (checkProcess i) :=
  admits_inOrder.checkProcess i (fun _ _ _ _ _ _ => keeps_inOrder_ask nofun) (fun _ _ => keeps_inOrder_ask nofun)
    fun _ _ _ _ hs => hs

theorem enduresStops_inOrder : EnduresStops (inOrder r sup) where
  toAdmits := admits_inOrder
  terminate _ _ _ _ _ _ _ := keeps_inOrder_ask nofun
  checkProcess := keeps_inOrder_checkProcess
  stopRequested _ _ _ _ hs _ := hs
  stopWithdrawn _ _ _ _ hs := hs
  reapEnded := admits_inOrder.reapEnded fun _ =>
    admits_inOrder.reapOne (fun _ _ => trivial) keeps_inOrder_checkProcess (keeps_inOrder_ask nofun)

/-- All operations fork by starts, and in no other way. -/
theorem servesAll_inOrder (sup : Supervisor) : ServesAll (inOrder r sup) sup where
  toServesStops := enduresStops_inOrder.servesStops
  start := keeps_inOrder_start
  invalid _ _ := trivial
  kill _ _ := keeps_inOrder_ask nofun
  awaitSignal _ := keeps_inOrder_ask nofun
  collectAll := admits_inOrder.collect (keeps_inOrder_ask nofun)

/-- At every moment of every session, whatever the kernel answers: a fork is one for a service that holds no
process, while all that the service depends on exists and holds one.  It is that service which is found broken
if the fork has failed, and which holds the process if it has not. -/
theorem session_inOrder (sup : Supervisor) (qs : List (Request r)) :
    Always (.anything _) (session sup qs) Board.initial () fun h _ moment b =>
      (∀ c, moment = .asking (.fork c) → ∃ i, InTurn sup b i c) ∧
      (∀ c b₀ e, h.getLast? = some ⟨(.fork c, b₀), .error e⟩ →
        ∃ i, InTurn sup b₀ i c ∧ b = b₀.set i b₀[i].failed) ∧
      ∀ c b₀ p, h.dropLast.getLast? = some ⟨(.fork c, b₀), .ok p⟩ →
        ∃ i, InTurn sup b₀ i c ∧ b = b₀.set i (b₀[i].started p) := by
  have hs := servesAll_inOrder (r := r) sup
  refine always_of_assures (fun n => hs.session qs settled_nil) (fun h k c b hb => ?_) ?_
  · obtain ⟨hfork, hnoted⟩ := hb
    exact ⟨fun child hc => hfork child (Moment.asking.inj hc), hnoted.failed, hnoted.started⟩
  · intro h k₁ k₂ a b hm _
    have hnoted : Noted sup h b := hm.1.noted
    exact ⟨nofun, hnoted.failed, hnoted.started⟩

end Supervision

end ContainerInit
