import ContainerInit.Proofs.Registry.StartPlan
import ContainerInit.Proofs.Supervision.Operation

/-! # Starting a service

A start that finds an obstacle does nothing at all.  Otherwise it forks the services of the plan one after the other,
and stops at the first that cannot be forked.

`CarriedOut` tells what becomes of a plan in terms of the board alone: all of its services have been started, or those
before one that could not be.  Services of the plan that run already need no fork, which is why the forks are computed
from the board (`forksFor`).  The induction is on what is left of the plan (`assures_forM_spawn`), and `assures_start`
adds the case in which there is no plan.

A service that cannot be forked is left broken, and that is the only trace of the attempt.  Whether the system has
refused a process, or an argument has kept it from being asked for, is told by the error (`SpawnFailure`). -/

namespace ContainerInit.Supervision

open ContainerInit.Action

variable {r : Registry} {sup : Supervisor} {i : r.Id} {b : Board r}

/-- A fork that was asked for, with the answer. -/
abbrev Fork := Kernel.Child × Except Errno Pid

/-- The forks of a history in their order. -/
def forks {σ : Type} (h : History σ) : List Fork := h.filterMap fun
  | ⟨(.fork c, _), answer⟩ => some (c, answer)
  | _ => none

/-- The child that is forked for a service. -/
def childOf (sup : Supervisor) (i : r.Id) : Kernel.Child := ⟨(r.service i).argv, sup.savedMask⟩

/-- No process could be had for the child: the fork failed, or an argument kept it from being tried. -/
inductive SpawnFailure (c : Kernel.Child) : List Fork → Error → Prop where
  | fork (e : Errno) : SpawnFailure c [(c, .error e)] (.spawnFailed (c.argv.headD "") e)
  | argument {a : String} (ha : a ∈ c.argv) (hn : a.contains '\x00' = true) :
      SpawnFailure c [] (.invalidCommand (.nulByte a))

/-- The error says of a service of the registry that one of its arguments has a nul byte. -/
def IsNulFault (r : Registry) (e : Error) : Prop :=
  ∃ (i : r.Id) (a : String), a ∈ (r.service i).argv ∧ a.contains '\x00' = true ∧ e = .invalidCommand (.nulByte a)

/-- The forks by which those of the services that do not run get the given processes. -/
def forksFor (sup : Supervisor) (b : Board r) (is : List r.Id) (pid : r.Id → Pid) : List Fork :=
  (is.filter fun i => !b.isRunning i).map fun i => (childOf sup i, .ok (pid i))

/-- The board where those of the services that did not run have the given processes. -/
def withStarted (b : Board r) (is : List r.Id) (pid : r.Id → Pid) : Board r :=
  ⟨Vector.ofFn fun i => if is.contains i && !b.isRunning i then b[i].started (pid i) else b[i]⟩

/-- What becomes of a plan, from a board: the forks, the result and the board in the end. -/
inductive CarriedOut (sup : Supervisor) (b : Board r) :
    List r.Id → List Fork → Except Error Unit → Board r → Prop where
  /-- All services have been started. -/
  | complete (is : List r.Id) (pid : r.Id → Pid) :
      CarriedOut sup b is (forksFor sup b is pid) (.ok ()) (withStarted b is pid)
  /-- The services before `i` have been started, `i` could not be, and those after it are as before. -/
  | stopped {done rest : List r.Id} {i : r.Id} {fs : List Fork} {e : Error} (pid : r.Id → Pid)
      (hi : b[i].pid = none) (hf : SpawnFailure (childOf sup i) fs e) :
      CarriedOut sup b (done ++ i :: rest) (forksFor sup b done pid ++ fs) (.error e)
        ((withStarted b done pid).set i b[i].failed)

section History

variable {σ : Type} {h : History σ}

@[simp] theorem forks_nil : forks ([] : History σ) = [] := rfl

@[simp] theorem forks_append_log {l : Log.Record} {s : σ} {u : Unit} :
    forks (h ++ [⟨(.log l, s), u⟩]) = forks h := by simp [forks]

@[simp] theorem forks_append_fork {c : Kernel.Child} {s : σ} {a : Except Errno Pid} :
    forks (h ++ [⟨(.fork c, s), a⟩]) = forks h ++ [(c, a)] := by simp [forks]

end History

/-! ## Boards after a start -/

/-- A service that is to be started has its process, and any other is as before. -/
theorem getElem_withStarted (b : Board r) (is : List r.Id) (pid : r.Id → Pid) (j : r.Id) :
    (withStarted b is pid)[j] =
      if is.contains j && !b.isRunning j then b[j].started (pid j) else b[j] := Board.getElem_ofFn _ j

theorem withStarted_nil (b : Board r) (pid : r.Id → Pid) : withStarted b [] pid = b :=
  Board.ext fun j => getElem_withStarted b [] pid j

/-- A service that runs is passed over. -/
theorem withStarted_cons_of_running {is : List r.Id} {pid : r.Id → Pid} (hi : b.isRunning i = true) :
    withStarted b (i :: is) pid = withStarted b is pid := by
  refine Board.ext fun j => ?_
  rw [getElem_withStarted, getElem_withStarted]
  by_cases hj : j = i
  · simp [hj, hi]
  · simp [hj]

/-- A service that does not run gets its process before the others. -/
theorem withStarted_cons {is : List r.Id} {pid : r.Id → Pid} {p : Pid} (hi : b.isRunning i = false)
    (hn : i ∉ is) : withStarted b (i :: is) (Function.update pid i p) =
      withStarted (b.set i (b[i].started p)) is pid := by
  refine Board.ext fun j => ?_
  rw [getElem_withStarted, getElem_withStarted]
  by_cases hj : j = i
  · subst hj
    simp [hi, hn, Board.getElem_set_self]
  · simp [hj, Board.isRunning_set_ne b _ (Ne.symm hj), Board.getElem_set_ne b _ (Ne.symm hj)]

theorem forksFor_cons_of_running {is : List r.Id} {pid : r.Id → Pid} (hi : b.isRunning i = true) :
    forksFor sup b (i :: is) pid = forksFor sup b is pid := by simp [forksFor, hi]

/-- A service that does not run is forked for before the others. -/
theorem forksFor_cons {is : List r.Id} {pid : r.Id → Pid} {p : Pid} (hi : b.isRunning i = false)
    (hn : i ∉ is) : forksFor sup b (i :: is) (Function.update pid i p) =
      (childOf sup i, .ok p) :: forksFor sup (b.set i (b[i].started p)) is pid := by
  have hf : is.filter (fun j => !Board.isRunning (b.set i (b[i].started p)) j) =
      is.filter fun j => !b.isRunning j :=
    List.filter_congr fun j hj => by rw [Board.isRunning_set_ne b _ (ne_of_mem_of_not_mem hj hn).symm]
  rw [forksFor, forksFor, hf, List.filter_cons_of_pos (by simp [hi]), List.map_cons,
    Function.update_self]
  congr 1
  refine List.map_congr_left fun j hj => ?_
  rw [Function.update_of_ne (ne_of_mem_of_not_mem (List.mem_filter.mp hj).1 hn)]

theorem CarriedOut.nil : CarriedOut sup b [] [] (.ok ()) b := by
  have hc : CarriedOut sup b [] [] (.ok ()) (withStarted b [] fun _ => 0) := .complete [] _
  rwa [withStarted_nil] at hc

/-- The first service cannot be started. -/
theorem CarriedOut.stop {is : List r.Id} {fs : List Fork} {e : Error} (hi : b[i].pid = none)
    (hf : SpawnFailure (childOf sup i) fs e) :
    CarriedOut sup b (i :: is) fs (.error e) (b.set i b[i].failed) := by
  have hc : CarriedOut sup b ([] ++ i :: is) ([] ++ fs) (.error e)
      ((withStarted b [] fun _ => 0).set i b[i].failed) := .stopped _ hi hf
  rwa [withStarted_nil] at hc

/-- A running service is passed over. -/
theorem CarriedOut.skip {is : List r.Id} {fs : List Fork} {res : Except Error Unit} {b' : Board r}
    (h : CarriedOut sup b is fs res b') (hi : b.isRunning i = true) :
    CarriedOut sup b (i :: is) fs res b' := by
  cases h with
  | complete is pid =>
    rw [← forksFor_cons_of_running hi, ← withStarted_cons_of_running hi]
    exact .complete _ pid
  | stopped pid hj hf =>
    rw [← forksFor_cons_of_running hi, ← withStarted_cons_of_running hi, ← List.cons_append]
    exact .stopped pid hj hf

/-- A service that has been started goes before what becomes of the others. -/
theorem CarriedOut.cons {is : List r.Id} {fs : List Fork} {res : Except Error Unit} {b' : Board r} {p : Pid}
    (h : CarriedOut sup (b.set i (b[i].started p)) is fs res b') (hi : b.isRunning i = false)
    (hn : i ∉ is) : CarriedOut sup b (i :: is) ((childOf sup i, .ok p) :: fs) res b' := by
  cases h with
  | complete is pid =>
    rw [← forksFor_cons hi hn, ← withStarted_cons hi hn]
    exact .complete _ _
  | @stopped done rest j fs e pid hj hf =>
    have hij : i ≠ j := fun e => hn (e ▸ List.mem_append_right _ (.head _))
    have hd : i ∉ done := fun h => hn (List.mem_append_left _ h)
    rw [Board.getElem_set_ne b _ hij] at hj ⊢
    rw [← List.cons_append, ← List.cons_append, ← forksFor_cons hi hd, ← withStarted_cons hi hd]
    exact .stopped _ hj hf

/-! ## The start -/

section Assures

variable {σ : Type} {n : Nat} {h : History σ} {s : σ}

/-- A command line has a program unless an argument contains a nul byte. -/
theorem program_cases {argv : List String} (hne : argv ≠ []) :
    Supervisor.program argv = .ok (argv.headD "") ∨ ∃ a ∈ argv, a.contains '\x00' = true ∧
      Supervisor.program argv = .error (.invalidCommand (.nulByte a)) := by
  obtain ⟨command, args, rfl⟩ := List.exists_cons_of_ne_nil hne
  cases hf : (command :: args).find? (·.contains '\x00') with
  | none =>
    refine .inl ?_
    rw [Supervisor.program, hf, List.headD_cons]
  | some a =>
    have ha := List.find?_some hf
    refine .inr ⟨a, List.mem_of_find?_eq_some hf, ha, ?_⟩
    rw [Supervisor.program, hf]

/-- Starting a process makes at most one fork. -/
theorem assures_supervisor_spawn {argv : List String} (hne : argv ≠ []) :
    Assures (.anything _) (fun _ _ _ _ => True) (sup.spawn argv) (fun h' _ res s' => s' = s ∧
      match res with
      | .ok pid => forks h' = forks h ++ [(⟨argv, sup.savedMask⟩, .ok pid)]
      | .error e => ∃ fs, forks h' = forks h ++ fs ∧ SpawnFailure ⟨argv, sup.savedMask⟩ fs e)
      n h () s := by
  refine assures_bind.mpr (assures_ofExcept.mpr ?_)
  rcases program_cases hne with hp | ⟨a, hm, hn, hp⟩
  · rw [hp]
    refine assures_bind.mpr (assures_ask.mpr fun _ _ => ⟨trivial, fun answer _ _ => ?_⟩)
    cases answer with
    | error e => exact ⟨rfl, _, forks_append_fork, .fork e⟩
    | ok pid =>
      refine assures_bind.mpr (assures_ask.mpr fun _ _ => ⟨trivial, fun _ _ _ => ⟨rfl, ?_⟩⟩)
      rw [forks_append_log, forks_append_fork]
  · rw [hp]
    exact ⟨rfl, [], (List.append_nil _).symm, .argument hm hn⟩

end Assures

/-- What one service of a plan comes to: it runs already, it is started, or it cannot be. -/
inductive Spawned (sup : Supervisor) (b : Board r) (i : r.Id) :
    List Fork → Except Error Unit → Board r → Prop where
  | running (hi : b.isRunning i = true) : Spawned sup b i [] (.ok ()) b
  | started (hi : b.isRunning i = false) (p : Pid) :
      Spawned sup b i [(childOf sup i, .ok p)] (.ok ()) (b.set i (b[i].started p))
  | failed (hi : b[i].pid = none) {fs : List Fork} {e : Error} (hf : SpawnFailure (childOf sup i) fs e) :
      Spawned sup b i fs (.error e) (b.set i b[i].failed)

theorem assures_spawn (sup : Supervisor) (i : r.Id) {n : Nat} {h : History (Board r)} {b : Board r} :
    Assures (.anything _) (fun _ _ _ _ => True) (spawn sup i)
      (fun h' _ res b' => ∃ fs, forks h' = forks h ++ fs ∧ Spawned sup b i fs res b') n h () b := by
  refine assures_bind.mpr (assures_stateOf.mpr ?_)
  dsimp only
  cases hp : b[i].pid with
  | some p =>
    refine assures_ask.mpr fun _ _ => ⟨trivial, fun _ _ _ => ⟨[], ?_, .running ?_⟩⟩
    · rw [forks_append_log, List.append_nil]
    · exact Board.isRunning_eq_true_iff.mpr ⟨p, hp⟩
  | none =>
    have hi := Board.isRunning_eq_false_iff.mpr hp
    refine assures_bind.mpr (assures_attempt.mpr ?_)
    refine (assures_supervisor_spawn (r.service i).argv_ne_nil).imp fun h₁ _ res b₁ hs => ?_
    obtain ⟨rfl, hs⟩ := hs
    cases res with
    | ok p =>
      refine assures_bind.mpr (assures_update.mpr (assures_ask.mpr fun _ _ => ⟨trivial, fun _ _ _ => ?_⟩))
      exact ⟨[(childOf sup i, .ok p)], by rw [forks_append_log, hs]; rfl, .started hi p⟩
    | error e =>
      obtain ⟨fs, hfs, hf⟩ := hs
      refine assures_bind.mpr (assures_update.mpr (assures_bind.mpr ?_))
      refine assures_ask.mpr fun _ _ => ⟨trivial, fun _ _ _ => ⟨fs, ?_, .failed hp hf⟩⟩
      rw [forks_append_log, hfs]

/-- Carrying out a plan, by induction on what is left of it. -/
theorem assures_forM_spawn (sup : Supervisor) {is : List r.Id} (hn : is.Nodup) {n : Nat}
    {h : History (Board r)} {b : Board r} :
    Assures (.anything _) (fun _ _ _ _ => True) (is.forM (spawn sup))
      (fun h' _ res b' => ∃ fs, forks h' = forks h ++ fs ∧ CarriedOut sup b is fs res b') n h () b := by
  induction is generalizing h b with
  | nil =>
    exact assures_pure.mpr ⟨[], (List.append_nil _).symm, .nil⟩
  | cons i is ih =>
    obtain ⟨hi, hn⟩ := List.nodup_cons.mp hn
    refine (assures_spawn sup i).bind (fun h₁ _ _ b₁ hs => ?_) fun h₁ _ e b₁ hs => ?_
    · obtain ⟨fs, hfs, hs⟩ := hs
      refine (ih hn).imp fun h₂ _ res b₂ hc => ?_
      obtain ⟨fs', hfs', hc⟩ := hc
      cases hs with
      | running hr => exact ⟨fs', by rw [hfs', hfs, List.append_nil], hc.skip hr⟩
      | started hr p => exact ⟨_, by rw [hfs', hfs, List.append_assoc]; rfl, hc.cons hr hi⟩
    · obtain ⟨fs, hfs, hs⟩ := hs
      cases hs with
      | failed hp hf => exact ⟨fs, hfs, .stop hp hf⟩

/-- What a start of `i` comes to: there is no plan, or there is one that is carried out. -/
inductive Attempted (sup : Supervisor) (b : Board r) (i : r.Id) :
    List Fork → Except Error Unit → Board r → Prop where
  | refused {e : Error} (hp : r.plan b i = .error e) : Attempted sup b i [] (.error e) b
  | planned {is : List r.Id} {fs : List Fork} {res : Except Error Unit} {b' : Board r}
      (hp : r.plan b i = .ok is) (hc : CarriedOut sup b is fs res b') : Attempted sup b i fs res b'

theorem assures_start (sup : Supervisor) (i : r.Id) {n : Nat} {h : History (Board r)} {b : Board r} :
    Assures (.anything _) (fun _ _ _ _ => True) (start sup i)
      (fun h' _ res b' => ∃ fs, forks h' = forks h ++ fs ∧ Attempted sup b i fs res b') n h () b := by
  refine assures_bind.mpr (assures_get.mpr (assures_bind.mpr (assures_ofExcept.mpr ?_)))
  cases hp : r.plan b i with
  | error e => exact ⟨[], (List.append_nil _).symm, .refused hp⟩
  | ok is =>
    refine (assures_forM_spawn sup (Board.isPlan_of_plan_eq_ok hp).nodup).imp fun h' _ res b' hc => ?_
    obtain ⟨fs, hfs, hc⟩ := hc
    exact ⟨fs, hfs, .planned hp hc⟩

theorem halts_supervisor_spawn {σ : Type} (sup : Supervisor) (argv : List String) :
    Halts (sup.spawn argv : Action σ Pid) := by
  refine (halts_ofExcept _).bind fun command => (halts_ask _).bind fun answer => ?_
  cases answer with
  | error e => exact halts_throw _
  | ok pid => exact (halts_ask _).bind fun _ => halts_pure _

theorem halts_spawn (sup : Supervisor) (i : r.Id) : Halts (spawn sup i) := by
  refine (halts_get.bind fun _ => halts_pure _).bind fun t => ?_
  cases t.pid with
  | some p => exact halts_ask _
  | none =>
    refine (halts_supervisor_spawn sup _).attempt.bind fun res => ?_
    cases res with
    | ok p => exact (halts_modify _).bind fun _ => halts_ask _
    | error e => exact (halts_modify _).bind fun _ => (halts_ask _).bind fun _ => halts_throw _

theorem halts_start (sup : Supervisor) (i : r.Id) : Halts (start sup i) :=
  halts_get.bind fun _ => (halts_ofExcept _).bind fun is => halts_forM is (halts_spawn sup)

/-- A start is refused exactly if there is an obstacle, and then nothing is forked and nothing changes.
Otherwise there is a plan, and the start carries it out, whatever the kernel answers. -/
theorem start_refused_or_carried_out (sup : Supervisor) (b : Board r) (i : r.Id) :
    ((∃ e, r.plan b i = .error e) ↔ ∃ e, b.Obstacle i e) ∧
    (∀ e, r.plan b i = .error e →
      b.Obstacle i e ∧ ∀ n, (start sup i).dialogue n b = .done (.error e, b)) ∧
    ∀ is, r.plan b i = .ok is → b.IsPlan i is ∧ Halts (start sup i) ∧
      ∀ n h res b', ((start sup i).dialogue n b).Runs h (res, b') → CarriedOut sup b is (forks h) res b' := by
  refine ⟨Board.plan_eq_error_iff, fun e he => ⟨Board.obstacle_of_plan_eq_error he, fun n => ?_⟩,
    fun is hp => ⟨Board.isPlan_of_plan_eq_ok hp, halts_start sup i, fun n h res b' hr => ?_⟩⟩
  · rw [start, dialogue_bind]
    change (Action.ofExcept (r.plan b i) >>= fun is => is.forM (spawn sup)).dialogue n b = _
    rw [he]
    rfl
  · have hs : Assures (.anything _) (fun _ _ _ _ => True) (start sup i)
        (fun h _ res b' => CarriedOut sup b is (forks h) res b') n [] () b := by
      refine assures_bind.mpr (assures_get.mpr (assures_bind.mpr (assures_ofExcept.mpr ?_)))
      rw [hp]
      refine (assures_forM_spawn sup (Board.isPlan_of_plan_eq_ok hp).nodup).imp fun h _ res b' hc => ?_
      obtain ⟨fs, hfs, hc⟩ := hc
      rwa [hfs, forks_nil, List.nil_append]
    exact hs.runs hr

end ContainerInit.Supervision
