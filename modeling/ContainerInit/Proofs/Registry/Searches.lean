import ContainerInit.Proofs.Registry.Dependencies
import Mathlib.Data.Fintype.Card

/-! # Runs of the searches

What a depth first search does, move by move, with no bound on how far it goes: it comes to an end exactly if it has a
run.  Each of the searches along the dependencies has one, whatever circles there are and whatever state the services
are in, and comes to what is computed.  Searches that turn back from the services they are inside of never hold one of
them twice, and the walk enters none of them twice.

## Why this is not obvious

The functions that are computed are well-founded recursions, and therefore total to begin with.  What makes them so is
a measure that is part of their definitions.  So there is a second description here (`Search.Runs`), as an inductive
relation without any measure, which might as well go on for ever.  That a search comes to an end (`Search.Ends`) then
says something: there is a run, and no other one.

## Three searches

`Search` has what the searches do differently as parameters: when they turn back, what they make of a name, and what
they remember on entering and leaving a service.  The lemmas on `Halts` are shared, and for each search it remains to
follow the recursion of the function (`halts_extendPlan`, `halts_clear`, `halts_walk`).  The trace of a run has the
services that have been entered, each with the stack at that moment, so that bounds on the stack are statements about
the trace. -/

namespace ContainerInit.Registry

variable {r : Registry} {σ : Type}

namespace Search

/-- What a search makes of a name among the dependencies of a service. -/
inductive Move (r : Registry) where
  | refuse (e : Error)
  | skip
  | visit (i : r.Id)

/-- A service that has been entered, and the path that this was done from inside of. -/
structure Entry (r : Registry) where
  service : r.Id
  path : List r.Id

/-- The services that the search is inside of from there on, innermost first. -/
def Entry.stack (e : Entry r) : List r.Id := e.service :: e.path

/-- The names on the stack are distinct, and no more than there are services. -/
structure Entry.Slim (e : Entry r) : Prop where
  nodup : (e.stack.map fun i => (r.service i).name).Nodup
  length_le : e.stack.length ≤ r.services.length

end Search

/-- A depth first search along the dependencies. What it has come to so far is a `σ`. -/
structure Search (r : Registry) (σ : Type) where
  /-- The answer at once, from inside of a path, where a service is not entered. -/
  guard : List r.Id → σ → r.Id → Option (Except Error σ)
  enter : r.Id → σ → σ
  move : r.Id → String → Search.Move r
  leave : r.Id → σ → σ

namespace Search

/-- What the search does inside of a service. -/
def moves (S : Search r σ) (i : r.Id) : List (Move r) := (r.service i).dependsOn.map (S.move i)

/-- The search makes the moves one after the other from inside of a path. It enters what the trace tells, in that
order, and comes to the last argument. -/
inductive Runs (S : Search r σ) :
    List r.Id → σ → List (Move r) → List (Entry r) → Except Error σ → Prop where
  | done (path : List r.Id) (s : σ) : Runs S path s [] [] (.ok s)
  | refused (path : List r.Id) (s : σ) (e : Error) (ms : List (Move r)) :
      Runs S path s (.refuse e :: ms) [] (.error e)
  | skipped {path : List r.Id} {s : σ} {ms : List (Move r)} {trace : List (Entry r)} {x : Except Error σ}
      (hrest : Runs S path s ms trace x) : Runs S path s (.skip :: ms) trace x
  | stopped {path : List r.Id} {s : σ} {i : r.Id} {e : Error} (ms : List (Move r))
      (hg : S.guard path s i = some (.error e)) : Runs S path s (.visit i :: ms) [] (.error e)
  | passed {path : List r.Id} {s s₁ : σ} {i : r.Id} {ms : List (Move r)} {trace : List (Entry r)}
      {x : Except Error σ} (hg : S.guard path s i = some (.ok s₁)) (hrest : Runs S path s₁ ms trace x) :
      Runs S path s (.visit i :: ms) trace x
  | failed {path : List r.Id} {s : σ} {i : r.Id} {e : Error} {trace : List (Entry r)} (ms : List (Move r))
      (hg : S.guard path s i = none)
      (hin : Runs S (i :: path) (S.enter i s) (S.moves i) trace (.error e)) :
      Runs S path s (.visit i :: ms) (⟨i, path⟩ :: trace) (.error e)
  | through {path : List r.Id} {s s₁ : σ} {i : r.Id} {ms : List (Move r)} {trace₁ trace₂ : List (Entry r)}
      {x : Except Error σ} (hg : S.guard path s i = none)
      (hin : Runs S (i :: path) (S.enter i s) (S.moves i) trace₁ (.ok s₁))
      (hrest : Runs S path (S.leave i s₁) ms trace₂ x) :
      Runs S path s (.visit i :: ms) (⟨i, path⟩ :: trace₁ ++ trace₂) x

variable {S : Search r σ} {path : List r.Id} {s : σ} {i j : r.Id} {e : Error} {ms ms' : List (Move r)}
  {trace trace' : List (Entry r)} {x x' : Except Error σ}

/-- There is no more than one run. -/
theorem Runs.unique (h : S.Runs path s ms trace x) (h' : S.Runs path s ms trace' x') :
    trace' = trace ∧ x' = x := by
  induction h generalizing trace' x' with
  | done =>
    cases h'
    exact ⟨rfl, rfl⟩
  | refused =>
    cases h'
    exact ⟨rfl, rfl⟩
  | skipped _ ih =>
    cases h' with
    | skipped h' => exact ih h'
  | stopped ms hg =>
    cases h' with
    | stopped _ hg' =>
      cases hg.symm.trans hg'
      exact ⟨rfl, rfl⟩
    | passed hg' | failed _ hg' | through hg' => cases hg.symm.trans hg'
  | passed hg _ ih =>
    cases h' with
    | passed hg' h' =>
      cases hg.symm.trans hg'
      exact ih h'
    | stopped _ hg' | failed _ hg' | through hg' => cases hg.symm.trans hg'
  | failed ms hg _ ih =>
    cases h' with
    | failed _ _ h' =>
      obtain ⟨rfl, he⟩ := ih h'
      cases he
      exact ⟨rfl, rfl⟩
    | through _ hin' => cases (ih hin').2
    | stopped _ hg' | passed hg' => cases hg.symm.trans hg'
  | through hg _ _ ihin ihrest =>
    cases h' with
    | through _ hin' hrest' =>
      obtain ⟨rfl, hs⟩ := ihin hin'
      cases hs
      obtain ⟨rfl, rfl⟩ := ihrest hrest'
      exact ⟨rfl, rfl⟩
    | failed _ _ hin' => cases (ihin hin').2
    | stopped _ hg' | passed hg' => cases hg.symm.trans hg'

/-- The search comes to an end: it has one run and no other. -/
def Ends (S : Search r σ) (s : σ) (ms : List (Move r)) (trace : List (Entry r)) (x : Except Error σ) : Prop :=
  ∀ trace' x', S.Runs [] s ms trace' x' ↔ trace' = trace ∧ x' = x

/-- A run is the only one. -/
theorem Runs.ends (h : S.Runs [] s ms trace x) : S.Ends s ms trace x := by
  intro trace' x'
  constructor
  · exact fun h' => h.unique h'
  · rintro ⟨rfl, rfl⟩
    exact h

/-! ## Coming to an end -/

/-- The search has a run that comes to `x`. -/
def Halts (S : Search r σ) (path : List r.Id) (s : σ) (ms : List (Move r)) (x : Except Error σ) : Prop :=
  ∃ trace, S.Runs path s ms trace x

theorem Halts.nil : S.Halts path s [] (.ok s) := ⟨[], .done path s⟩

/-- A service that is not entered. -/
theorem Halts.turn (hg : S.guard path s i = some x) : S.Halts path s [.visit i] x := by
  cases x with
  | error e => exact ⟨[], .stopped [] hg⟩
  | ok s₁ => exact ⟨[], .passed hg (.done path s₁)⟩

/-- A service that is entered, and left again unless its dependencies are refused. -/
theorem Halts.visit (hg : S.guard path s i = none) (h : S.Halts (i :: path) (S.enter i s) (S.moves i) x) :
    S.Halts path s [.visit i] (x >>= fun s₁ => pure (S.leave i s₁)) := by
  obtain ⟨trace, hr⟩ := h
  cases x with
  | error e => exact ⟨_, .failed [] hg hr⟩
  | ok s₁ => exact ⟨_, .through hg hr (.done path _)⟩

/-- Moves may be made after others. -/
theorem Halts.bind {f : σ → Except Error σ} (h : S.Halts path s ms x)
    (hf : ∀ s₁, x = .ok s₁ → S.Halts path s₁ ms' (f s₁)) : S.Halts path s (ms ++ ms') (x >>= f) := by
  obtain ⟨trace, hr⟩ := h
  induction hr with
  | done path s => exact hf s rfl
  | refused => exact ⟨[], .refused ..⟩
  | skipped _ ih => exact (ih hf).imp fun _ hrest => .skipped hrest
  | stopped ms hg => exact ⟨[], .stopped _ hg⟩
  | passed hg _ ih => exact (ih hf).imp fun _ hrest => .passed hg hrest
  | failed ms hg hin => exact ⟨_, .failed _ hg hin⟩
  | through hg hin _ _ ih =>
    obtain ⟨trace, hrest⟩ := ih hf
    exact ⟨_, .through hg hin hrest⟩

/-! One name after the other, by what is made of the first. -/

/-- A name that is refused is the end of the search. -/
theorem Halts.refused {name : String} (names : List String) (h : S.move i name = .refuse e) :
    S.Halts path s ((name :: names).map (S.move i)) (.error e) := by
  rw [List.map_cons, h]
  exact ⟨[], .refused ..⟩

/-- A name that is skipped makes no difference. -/
theorem Halts.skipped {name : String} {names : List String} (h : S.move i name = .skip)
    (hrest : S.Halts path s (names.map (S.move i)) x) : S.Halts path s ((name :: names).map (S.move i)) x := by
  rw [List.map_cons, h]
  exact hrest.imp fun _ hr => .skipped hr

/-- A name that stands for a service has it visited first. -/
theorem Halts.visited {name : String} {names : List String} {f : σ → Except Error σ}
    (h : S.move i name = .visit j) (hj : S.Halts path s [.visit j] x)
    (hrest : ∀ s₁, x = .ok s₁ → S.Halts path s₁ (names.map (S.move i)) (f s₁)) :
    S.Halts path s ((name :: names).map (S.move i)) (x >>= f) := by
  rw [List.map_cons, h]
  exact hj.bind hrest

/-- The search from one service after the other. -/
theorem Halts.each {f : σ → r.Id → Except Error σ} (h : ∀ s i, S.Halts path s [.visit i] (f s i))
    (is : List r.Id) (s : σ) : S.Halts path s (is.map .visit) (is.foldlM f s) := by
  induction is generalizing s with
  | nil => exact .nil
  | cons i is ih =>
    rw [List.foldlM_cons]
    exact (h s i).bind fun s₁ _ => ih s₁

/-! ## What the search is inside of -/

/-- A service that the search is inside of is not entered again. -/
def TurnsBack (S : Search r σ) : Prop := ∀ ⦃path s i⦄, S.guard path s i = none → i ∉ path

/-- A search that turns back has no service twice on its stack. -/
theorem Runs.nodup_stack (hS : S.TurnsBack) (h : S.Runs path s ms trace x) (hp : path.Nodup) :
    ∀ e ∈ trace, e.stack.Nodup := by
  induction h with
  | done | refused | stopped => exact nofun
  | skipped _ ih | passed _ _ ih => exact ih hp
  | failed _ hg _ ih =>
    have hpush := List.nodup_cons.mpr ⟨hS hg, hp⟩
    exact List.forall_mem_cons.mpr ⟨hpush, ih hpush⟩
  | through hg _ _ ihin ihrest =>
    have hpush := List.nodup_cons.mpr ⟨hS hg, hp⟩
    refine List.forall_mem_cons.mpr ⟨hpush, fun e he => ?_⟩
    exact (List.mem_append.mp he).elim (ihin hpush e) (ihrest hp e)

/-- Distinct services are no more than there are, and have distinct names. -/
theorem Entry.slim_of_nodup {e : Entry r} (h : e.stack.Nodup) : e.Slim where
  nodup := h.map name_injective
  length_le := by simpa using List.Nodup.length_le_card h

/-- A search that turns back has a slim stack all the way. -/
theorem Halts.slim (hS : S.TurnsBack) (h : S.Halts [] s ms x) :
    ∃ trace, S.Ends s ms trace x ∧ ∀ e ∈ trace, e.Slim := by
  obtain ⟨trace, hr⟩ := h
  exact ⟨trace, hr.ends, fun e he => Entry.slim_of_nodup (hr.nodup_stack hS .nil e he)⟩

end Search

/-! ## Planning a start -/

open Search

/-- The search for what has to run before a service. It turns back from nothing but what it is inside of, so that it
enters a service once for each way that leads there. -/
def planning (b : Board r) : Search r (List r.Id) where
  guard path _ i := if path.contains i then some (.error (cycleError path i)) else none
  enter _ plan := plan
  move i name := (r.find? name).elim (.refuse (.serviceNotFound name)) fun j =>
    if b.isRunning j then .skip
    else if b.isBlocked j then .refuse (.dependencyBlocked (r.service i).name (r.service j).name b[j].status)
    else .visit j
  leave i plan := if plan.contains i then plan else plan ++ [i]

/-- On leaving a service, it is put at the end of the plan unless it is there. -/
theorem leave_planning (b : Board r) (i : r.Id) (plan : List r.Id) :
    (planning b).leave i plan = if i ∈ plan then plan else plan ++ [i] := by
  simp [planning]

/-- The search for a plan turns back from a circle. -/
theorem turnsBack_planning (b : Board r) : (planning b).TurnsBack := by
  intro path plan i hg hi
  simp [planning, hi] at hg

/-- By induction along the recursion of the search for a plan. -/
theorem halts_extendPlan (b : Board r) (path plan : List r.Id) (i : r.Id) :
    (planning b).Halts path plan [.visit i] (extendPlan b path plan i) := by
  induction path, plan, i using extendPlan.induct b _ (fun path plan i names =>
    (planning b).Halts path plan (names.map ((planning b).move i)) (extendPlanAll b path plan i names)) with
  | case1 path plan i hi =>
    rw [extendPlan, dif_pos hi]
    exact .turn (by simp [planning, hi])
  | case2 path plan i hi ih =>
    rw [extendPlan, dif_neg hi]
    have hvisit := Halts.visit (by simp [planning, hi]) ih
    simpa only [leave_planning] using hvisit
  | case3 =>
    rw [extendPlanAll]
    exact .nil
  | case4 path plan i name names hn =>
    rw [extendPlanAll, hn]
    exact .refused names (by simp [planning, hn])
  | case5 path plan i name names j hn hj ih =>
    rw [extendPlanAll, hn]
    simp only [hj, if_true]
    exact .skipped (by simp [planning, hn, hj]) ih
  | case6 path plan i name names j hn hj hb =>
    rw [extendPlanAll, hn]
    simp only [hj, hb, if_true]
    exact .refused names (by simp [planning, hn, hj, hb])
  | case7 path plan i name names j hn hj hb ih ihs =>
    rw [extendPlanAll, hn]
    simp only [hj, hb]
    exact .visited (by simp [planning, hn, hj, hb]) ih fun plan' _ => ihs plan'

/-! ## Checking for circles -/

/-- The search for a circle. -/
def checking (r : Registry) : Search r (List r.Id) where
  guard path cleared i :=
    if cleared.contains i then some (.ok cleared)
    else if path.contains i then some (.error (cycleError path i))
    else none
  enter _ cleared := cleared
  move _ name := (r.find? name).elim (.refuse (.serviceNotFound name)) .visit
  leave i cleared := i :: cleared

/-- The search for a circle turns back when it has found one. -/
theorem turnsBack_checking (r : Registry) : (checking r).TurnsBack := by
  intro path cleared i hg hi
  by_cases hc : i ∈ cleared <;> simp [checking, hc, hi] at hg

/-- By induction along the recursion of the search for a circle. -/
theorem halts_clear (path cleared : List r.Id) (i : r.Id) :
    (checking r).Halts path cleared [.visit i] (clear path cleared i) := by
  induction path, cleared, i using clear.induct _ (fun path cleared names =>
    ∀ i, (checking r).Halts path cleared (names.map ((checking r).move i)) (clearAll path cleared names)) with
  | case1 path cleared i hi =>
    rw [clear, if_pos hi]
    exact .turn (by simp [checking, hi])
  | case2 path cleared i hic hi =>
    rw [clear, if_neg hic, dif_pos hi]
    exact .turn (by simp [checking, hic, hi])
  | case3 path cleared i hic hi ih =>
    rw [clear, if_neg hic, dif_neg hi]
    exact .visit (by simp [checking, hic, hi]) (ih i)
  | case4 path cleared i =>
    rw [clearAll]
    exact .nil
  | case5 path cleared name names hn i =>
    rw [clearAll, hn]
    exact .refused names (by simp [checking, hn])
  | case6 path cleared name names j hn ih ihs i =>
    rw [clearAll, hn]
    exact .visited (by simp [checking, hn]) ih fun cleared' _ => ihs cleared' i

/-! ## Walking through all services -/

/-- The walk that puts the services in order. It is refused nothing. -/
def walking (r : Registry) : Search r (Walk r) where
  guard _ w i := if w.entered.contains i then some (.ok w) else none
  enter i w := { w with entered := i :: w.entered }
  move _ name := (r.find? name).elim .skip .visit
  leave i w := { w with left := w.left ++ [i] }

/-- By induction along the recursion of the walk. -/
theorem halts_walk (path : List r.Id) (w : Walk r) (i : r.Id) :
    (walking r).Halts path w [.visit i] (.ok (walk w i).1) := by
  revert path
  induction w, i using walk.induct _ (fun w names => ∀ path i,
    (walking r).Halts path w (names.map ((walking r).move i)) (.ok (walkAll w names).1)) with
  | case1 w i hi =>
    intro path
    rw [walk, dif_pos hi]
    exact .turn (by simp [walking, hi])
  | case2 w i hi ih =>
    intro path
    rw [walk, dif_neg hi]
    exact .visit (by simp [walking, hi]) (ih (i :: path) i)
  | case3 w path i =>
    rw [walkAll]
    exact .nil
  | case4 w name names hn ih path i =>
    rw [walkAll, hn]
    exact .skipped (by simp [walking, hn]) (ih path i)
  | case5 w name names j hn w₁ h₁ e₁ w₂ h₂ e₂ ih₁ ih₂ path i =>
    have hj := ih₁ path
    have hnames := ih₂ path i
    rw [e₁] at hj
    rw [e₂] at hnames
    rw [walkAll, hn]
    dsimp only
    rw [e₁]
    dsimp only
    rw [e₂]
    -- the rest is only known to come to an end from what the first has come to
    refine Halts.visited (f := fun _ => .ok w₂) (by simp [walking, hn]) hj fun w he => ?_
    cases he
    exact hnames

/-- The walk enters what it has not entered yet. -/
theorem guard_walking_eq_none_iff {path : List r.Id} {w : Walk r} {i : r.Id} :
    (walking r).guard path w i = none ↔ i ∉ w.entered := by
  simp [walking]

/-- Where the walk does not enter a service, nothing changes. -/
theorem eq_of_guard_walking {path : List r.Id} {w w' : Walk r} {i : r.Id}
    (h : (walking r).guard path w i = some (.ok w')) : w' = w := by
  simp only [walking] at h
  split at h
  · cases h
    rfl
  · cases h

@[simp] theorem entered_enter_walking (i : r.Id) (w : Walk r) :
    ((walking r).enter i w).entered = i :: w.entered := rfl

@[simp] theorem entered_leave_walking (i : r.Id) (w : Walk r) :
    ((walking r).leave i w).entered = w.entered := rfl

/-- The walk keeps what it enters, the last first, and enters nothing that it has kept. -/
theorem entered_of_runs {path : List r.Id} {w w' : Walk r} {ms : List (Move r)} {trace : List (Entry r)}
    (h : (walking r).Runs path w ms trace (.ok w')) :
    w'.entered = (trace.map Entry.service).reverse ++ w.entered ∧ (w.entered.Nodup → w'.entered.Nodup) := by
  -- a walk that is refused is not spoken of, so that the errors among the cases drop out
  generalize hx : Except.ok w' = x at h
  induction h generalizing w' with
  | done =>
    cases hx
    exact ⟨rfl, id⟩
  | refused | stopped | failed => cases hx
  | skipped _ ih => exact ih hx
  | passed hg _ ih =>
    obtain rfl := eq_of_guard_walking hg
    exact ih hx
  | through hg _ _ ihin ihrest =>
    obtain ⟨hin, hnin⟩ := ihin rfl
    obtain ⟨hrest, hnrest⟩ := ihrest hx
    rw [entered_leave_walking] at hrest hnrest
    rw [entered_enter_walking] at hin hnin
    constructor
    · rw [hrest, hin]
      simp
    · intro hn
      exact hnrest (hnin (List.nodup_cons.mpr ⟨guard_walking_eq_none_iff.mp hg, hn⟩))

/-- The walk enters no service twice. -/
theorem nodup_entries_of_runs {path : List r.Id} {w w' : Walk r} {ms : List (Move r)} {trace : List (Entry r)}
    (hw : w.entered.Nodup) (h : (walking r).Runs path w ms trace (.ok w')) :
    (trace.map Entry.service).Nodup := by
  obtain ⟨he, hn⟩ := entered_of_runs h
  have hall := hn hw
  rw [he] at hall
  exact List.nodup_reverse.mp hall.of_append_left

/-! ## All of them -/

/-- Whatever the dependencies of the services are, and their states, each of the searches comes to an end: the one
for a plan to start any of the services, the one of the validation through all of them, and the walk that gives the
order of starts.  The first two are inside of no service twice, and so of no more than there are; the walk enters no
service twice. -/
theorem searches_end (r : Registry) :
    (∀ (b : Board r) (i : r.Id), ∃ trace, (planning b).Ends [] [.visit i] trace (r.plan b i) ∧ ∀ e ∈ trace, e.Slim) ∧
    (∃ trace, (checking r).Ends [] (r.ids.map .visit) trace
      (r.ids.foldlM (fun cleared i => clear [] cleared i) []) ∧ ∀ e ∈ trace, e.Slim) ∧
    ∃ trace w, (walking r).Ends {} (r.ids.map .visit) trace (.ok w) ∧ w.left = r.startOrder ∧
      (trace.map Entry.service).Nodup := by
  refine ⟨fun b i => ?_, ?_, ?_⟩
  · exact (halts_extendPlan b [] [] i).slim (turnsBack_planning b)
  · exact (Halts.each (halts_clear []) r.ids []).slim (turnsBack_checking r)
  · have hfold : r.ids.foldlM (fun w i => Except.ok (walk w i).1) ({} : Walk r) =
        (.ok (r.ids.foldl (fun w i => (walk w i).1) {}) : Except Error (Walk r)) := List.foldlM_pure ..
    obtain ⟨trace, hr⟩ := Halts.each (halts_walk []) r.ids {}
    rw [hfold] at hr
    exact ⟨trace, _, hr.ends, rfl, nodup_entries_of_runs List.nodup_nil hr⟩

end ContainerInit.Registry
