import ContainerInit.Proofs.Dialogue.Runs
import ContainerInit.Proofs.Service.State
import ContainerInit.Proofs.Supervision.Start

/-! # Attempts to start services

What a run does to the services shows in its attempts to fork, each with its answer: an attempt either gives a process
to its service or leaves it broken, and nothing else happens to the board.  Unless an argument has a nul byte, a start
is a series of such attempts, of which only the last may fail.

## Boards and attempts

`Board.noting` is the board after an attempt, and `Board.notingAll` after a list of them.  Attempts are made for
services without a process only (`EachTime Idle`), and most of what is said about boards follows from that: states
stay sound, nothing stops running, and no service is started twice.

## Histories and attempts

`Made` relates a list of attempts to a piece of history.  The forks of the piece are those of the attempts, each asked
from the board that those before it have left, and the board at the end is that after all of them.  So the attempts
can be read off the history, and need not be remembered by the program.

## What is tried

`Tried` is what one service of a plan comes to, `Undertaken` a whole plan, and `Launched` a start.  These are
relations between attempts and a result in which no call occurs, and whatever is asked about starts later is answered
from them.  `assures_start_launched` is the link to the program.  An argument with a nul byte is left out by
`ComesTo`: the start fails there before a fork, and that case is taken up in a module of its own. -/

namespace ContainerInit

open Supervision Service.State

/-- Every argument of every service can be given to a process. -/
def Registry.NulFree (r : Registry) : Prop :=
  ∀ i : r.Id, ∀ a ∈ (r.service i).argv, a.contains '\x00' = false

/-- The state after a fork for the service has been answered. -/
def Service.State.tried (s : Service.State) : Except Errno Pid → Service.State
  | .ok p => s.started p
  | .error _ => s.failed

/-- An attempt leaves the state of a service sound. -/
theorem Service.State.sound_tried {s : Service.State} (h : s.Sound) (hp : s.pid = none)
    (answer : Except Errno Pid) : (s.tried answer).Sound := by
  cases answer with
  | ok p => exact sound_started s p
  | error e => exact sound_failed h hp

/-- A service is not untried after an attempt. -/
theorem Service.State.status_tried_ne (s : Service.State) (answer : Except Errno Pid) :
    (s.tried answer).status ≠ .notStarted := by
  cases answer with
  | ok p => nofun
  | error e => nofun

/-- A fork for a service, with the answer. -/
structure Attempt (r : Registry) where
  service : r.Id
  answer : Except Errno Pid

namespace Attempt

variable {r : Registry}

/-- Whether there is a process now. -/
def Succeeded (a : Attempt r) : Prop := ∃ p, a.answer = .ok p

/-- The services of the attempts that have succeeded. -/
def started (as : List (Attempt r)) : List r.Id := as.filterMap fun a => match a.answer with
  | .ok _ => some a.service
  | .error _ => none

end Attempt

namespace Board

variable {r : Registry}

/-- The board after an attempt. -/
def noting (b : Board r) (a : Attempt r) : Board r := b.set a.service (b[a.service].tried a.answer)

/-- The board after one attempt after the other. -/
def notingAll (b : Board r) (as : List (Attempt r)) : Board r := as.foldl noting b

/-- At each of the attempts, `P` holds of its service and of the board that it finds. -/
def EachTime (P : Board r → r.Id → Prop) (b : Board r) : List (Attempt r) → Prop
  | [] => True
  | a :: as => P b a.service ∧ EachTime P (b.noting a) as

/-- The service has no process. -/
def Idle (b : Board r) (i : r.Id) : Prop := b[i].pid = none

/-- The states of all services are sound. -/
def Sound (b : Board r) : Prop := ∀ i : r.Id, b[i].Sound

variable {b : Board r} {a : Attempt r} {as as' : List (Attempt r)} {i : r.Id} {P Q : Board r → r.Id → Prop}

/-! ## The board after attempts -/

theorem Idle.not_isRunning (h : b.Idle i) : ¬ b.isRunning i = true := by
  rw [isRunning_eq_false_iff.mpr h]
  exact Bool.false_ne_true

theorem getElem_noting_self : (b.noting a)[a.service] = b[a.service].tried a.answer :=
  getElem_set_self ..

theorem getElem_noting_ne (h : a.service ≠ i) : (b.noting a)[i] = b[i] := getElem_set_ne _ _ h

@[simp] theorem notingAll_nil : b.notingAll [] = b := rfl

@[simp] theorem notingAll_cons : b.notingAll (a :: as) = (b.noting a).notingAll as := rfl

@[simp] theorem notingAll_append : b.notingAll (as ++ as') = (b.notingAll as).notingAll as' :=
  List.foldl_append

theorem isRunning_noting_of_succeeded (h : a.Succeeded) : (b.noting a).isRunning a.service = true := by
  obtain ⟨p, hp⟩ := h
  rw [isRunning, getElem_noting_self, hp]
  rfl

/-- A service that runs still does after an attempt, whichever that is for. -/
theorem isRunning_noting_of_isRunning (h : b.isRunning i = true) : (b.noting a).isRunning i = true := by
  by_cases hi : a.service = i
  · subst hi
    rw [isRunning, getElem_noting_self]
    cases a.answer with
    | ok p => rfl
    | error e => exact h
  · rw [isRunning, getElem_noting_ne hi]
    exact h

/-- Nothing stops running by an attempt to start something. -/
theorem isRunning_notingAll_of_isRunning (h : b.isRunning i = true) : (b.notingAll as).isRunning i = true := by
  induction as generalizing b with
  | nil => exact h
  | cons a as ih => exact ih (isRunning_noting_of_isRunning h)

/-- A service without a process after some attempts had none before. -/
theorem idle_of_notingAll (h : (b.notingAll as).Idle i) : b.Idle i := by
  refine isRunning_eq_false_iff.mp (Bool.eq_false_iff.mpr fun hr => ?_)
  exact h.not_isRunning (isRunning_notingAll_of_isRunning hr)

theorem isRunning_notingAll_of_mem (ha : a ∈ as) (h : a.Succeeded) :
    (b.notingAll as).isRunning a.service = true := by
  obtain ⟨before, after, rfl⟩ := List.append_of_mem ha
  rw [notingAll_append, notingAll_cons]
  exact isRunning_notingAll_of_isRunning (isRunning_noting_of_succeeded h)

/-- A service for which no attempt has been made is as it was. -/
theorem getElem_notingAll_of_notMem (h : i ∉ as.map Attempt.service) : (b.notingAll as)[i] = b[i] := by
  induction as generalizing b with
  | nil => rfl
  | cons a as ih =>
    rw [List.map_cons, List.mem_cons, not_or] at h
    rw [notingAll_cons, ih h.2, getElem_noting_ne (Ne.symm h.1)]

/-- A service for which no attempt has failed is as it was, unless it runs. -/
theorem getElem_notingAll_of_idle (h : ∀ e, ⟨i, .error e⟩ ∉ as) (hi : (b.notingAll as).Idle i) :
    (b.notingAll as)[i] = b[i] := by
  refine getElem_notingAll_of_notMem fun hm => ?_
  obtain ⟨⟨i, e | p⟩, ha, rfl⟩ := List.mem_map.mp hm
  · exact h e ha
  · exact absurd (isRunning_notingAll_of_mem ha ⟨p, rfl⟩) hi.not_isRunning

theorem Requires.dependsOn {j : r.Id} (h : b.Requires i j) : Relation.ReflTransGen r.DependsOn i j :=
  Relation.ReflTransGen.mono (fun _ _ => And.left) _ _ h

/-! ## What holds at each attempt -/

theorem EachTime.imp (h : b.EachTime P as) (hpq : ∀ b i, P b i → Q b i) : b.EachTime Q as := by
  induction as generalizing b with
  | nil => trivial
  | cons a as ih => exact ⟨hpq _ _ h.1, ih h.2⟩

/-- Two conditions may be looked at together. -/
theorem EachTime.and (hp : b.EachTime P as) (hq : b.EachTime Q as) :
    b.EachTime (fun b i => P b i ∧ Q b i) as := by
  induction as generalizing b with
  | nil => trivial
  | cons a as ih => exact ⟨⟨hp.1, hq.1⟩, ih hp.2 hq.2⟩

theorem eachTime_append : b.EachTime P (as ++ as') ↔ b.EachTime P as ∧ (b.notingAll as).EachTime P as' := by
  induction as generalizing b with
  | nil => exact (iff_of_eq (true_and _)).symm
  | cons a as ih => exact (and_congr_right fun _ => ih).trans and_assoc.symm

/-- What holds of an attempt in the midst of others. -/
theorem EachTime.of_split {before after : List (Attempt r)} (h : b.EachTime P (before ++ a :: after)) :
    P (b.notingAll before) a.service := (eachTime_append.mp h).2.1

/-- An attempt for an idle service leaves the board sound. -/
theorem Sound.noting (hb : b.Sound) (ha : b.Idle a.service) : (b.noting a).Sound := by
  intro i
  by_cases hi : a.service = i
  · subst hi
    rw [getElem_noting_self]
    exact sound_tried (hb _) ha a.answer
  · rw [getElem_noting_ne hi]
    exact hb i

/-- What an idle service becomes by an attempt is as sound as it was. -/
theorem Sound.notingAll (hb : b.Sound) (h : b.EachTime Idle as) : (b.notingAll as).Sound := by
  induction as generalizing b with
  | nil => exact hb
  | cons a as ih => exact ih (hb.noting h.1) h.2

/-- A service with an attempt that has succeeded has the status of one that runs. -/
theorem Sound.status_of_mem (hb : b.Sound) (h : b.EachTime Idle as) (ha : a ∈ as) (hs : a.Succeeded) :
    (b.notingAll as)[a.service].status = .running :=
  (hb.notingAll h _).running_iff.mpr (isRunning_notingAll_of_mem ha hs)

/-- After an attempt has succeeded, there is no other for the same service. -/
theorem EachTime.pairwise (h : b.EachTime Idle as) :
    as.Pairwise fun a a' => a.Succeeded → a.service ≠ a'.service := by
  induction as generalizing b with
  | nil => exact .nil
  | cons a as ih =>
    refine .cons (fun a' ha' hs e => ?_) (ih h.2)
    obtain ⟨before, after, rfl⟩ := List.append_of_mem ha'
    have hidle : ((b.noting a).notingAll before).Idle a'.service := h.2.of_split
    have hr : ((b.noting a).notingAll before).isRunning a.service = true :=
      isRunning_notingAll_of_isRunning (isRunning_noting_of_succeeded hs)
    exact hidle.not_isRunning (e ▸ hr)

/-- A service that runs is not attempted. -/
theorem EachTime.notMem_of_isRunning (h : b.EachTime Idle as) (hi : b.isRunning i = true) :
    i ∉ as.map Attempt.service := by
  intro hm
  obtain ⟨a, ha, rfl⟩ := List.mem_map.mp hm
  obtain ⟨before, after, rfl⟩ := List.append_of_mem ha
  exact h.of_split.not_isRunning (isRunning_notingAll_of_isRunning hi)

/-- The processes that are forked are those that were not there before and are now. -/
theorem EachTime.mem_iff (h : b.EachTime Idle as) {p : Pid} :
    ⟨i, .ok p⟩ ∈ as ↔ b.Idle i ∧ (b.notingAll as)[i].pid = some p := by
  induction as generalizing b with
  | nil =>
    refine ⟨nofun, ?_⟩
    rintro ⟨hi, hp⟩
    cases hi.symm.trans hp
  | cons a as ih =>
    obtain ⟨ha, has⟩ := h
    rw [List.mem_cons, notingAll_cons, ih has]
    by_cases hne : a.service = i
    · subst hne
      obtain ⟨j, e | q⟩ := a
      · have hidle : (b.noting ⟨j, .error e⟩).Idle j := by
          rw [Idle, getElem_noting_self]
          exact ha
        rw [and_iff_right hidle, and_iff_right ha]
        exact or_iff_right nofun
      · have hrun : (b.noting ⟨j, .ok q⟩).isRunning j = true := isRunning_noting_of_succeeded ⟨q, rfl⟩
        have hsame : ((b.noting ⟨j, .ok q⟩).notingAll as)[j] = b[j].started q :=
          (getElem_notingAll_of_notMem (has.notMem_of_isRunning hrun)).trans getElem_noting_self
        rw [hsame, and_iff_right ha, or_iff_left fun hi => hi.1.not_isRunning hrun]
        simp [Service.State.started, eq_comm]
    · have hsame : (b.noting a).Idle i ↔ b.Idle i := by rw [Idle, getElem_noting_ne hne, ← Idle]
      rw [hsame]
      refine or_iff_right ?_
      rintro rfl
      exact hne rfl

end Board

namespace Attempt

open Board

variable {r : Registry} {b : Board r} {as : List (Attempt r)}

/-- If all attempts have succeeded, all their services are started. -/
theorem started_eq_map (h : ∀ a ∈ as, a.Succeeded) : started as = as.map service := by
  rw [started, ← List.filterMap_eq_map]
  refine List.filterMap_congr fun a ha => ?_
  obtain ⟨p, hp⟩ := h a ha
  rw [hp]
  rfl

/-- No service is started twice. -/
theorem nodup_started (h : b.EachTime Idle as) : (started as).Nodup := by
  refine List.Pairwise.filterMap _ (fun a a' hp i hi j hj => ?_) h.pairwise
  obtain ⟨s, e | p⟩ := a
  · cases hi
  obtain ⟨s', e' | p'⟩ := a'
  · cases hj
  cases hi
  cases hj
  exact hp ⟨p, rfl⟩

/-- Where only the last attempt may have failed, there is no more than one for each service. -/
theorem nodup_map_service (h : b.EachTime Idle as) (hd : ∀ a ∈ as.dropLast, a.Succeeded) :
    (as.map service).Nodup := by
  rcases List.eq_nil_or_concat as with rfl | ⟨done, a, rfl⟩
  · exact .nil
  rw [List.concat_eq_append] at h hd ⊢
  rw [List.dropLast_concat] at hd
  have hp := List.pairwise_append.mp h.pairwise
  rw [List.map_append, List.nodup_append']
  refine ⟨?_, List.nodup_singleton _, ?_⟩
  · rw [← started_eq_map hd]
    exact nodup_started (eachTime_append.mp h).1
  · rw [List.map_singleton, List.disjoint_singleton, List.mem_map]
    rintro ⟨a', ha', e⟩
    exact hp.2.2 a' ha' a (.head _) (hd a' ha') e

end Attempt

namespace Supervision

open ContainerInit.Action Board

variable {r : Registry} {sup : Supervisor} {b b₁ b' : Board r} {i j : r.Id} {is : List r.Id}
  {as as' : List (Attempt r)} {res : Except Error Unit}

/-! ## The forks of a run -/

def isFork : Kernel.Call → Bool
  | .fork _ => true
  | _ => false

/-- The forks of a history, with the states that they were asked from and the answers. -/
def forkCalls {σ : Type} (h : History σ) : History σ := h.filter fun e => isFork e.1.1

/-- The attempts as forks of a history, each asked from the board that those before it have left. -/
def calls (sup : Supervisor) (b : Board r) : List (Attempt r) → History (Board r)
  | [] => []
  | a :: as => ⟨(.fork (childOf sup a.service), b), a.answer⟩ :: calls sup (b.noting a) as

/-- From the one history to the other, and from the one board to the other, these attempts have been made
and no others. -/
structure Made (sup : Supervisor) (h : History (Board r)) (b : Board r) (as : List (Attempt r))
    (h' : History (Board r)) (b' : Board r) : Prop where
  forkCalls_eq : forkCalls h' = forkCalls h ++ calls sup b as
  board_eq : b' = b.notingAll as

section Made

variable {h h₁ h₂ : History (Board r)} {b₂ : Board r}

theorem calls_append : calls sup b (as ++ as') = calls sup b as ++ calls sup (b.notingAll as) as' := by
  induction as generalizing b with
  | nil => rfl
  | cons a as ih => exact congrArg (_ :: ·) ih

theorem Made.refl : Made sup h b [] h b := ⟨(List.append_nil _).symm, rfl⟩

theorem Made.trans (h₁₂ : Made sup h b as h₁ b₁) (h₂₃ : Made sup h₁ b₁ as' h₂ b₂) :
    Made sup h b (as ++ as') h₂ b₂ := by
  obtain ⟨hc, rfl⟩ := h₁₂
  obtain ⟨hc', rfl⟩ := h₂₃
  refine ⟨?_, notingAll_append.symm⟩
  rw [hc', hc, calls_append, List.append_assoc]

/-- The attempts of one history after the other. -/
theorem Made.append (hm : Made sup [] b as h b₁) (hm' : Made sup [] b₁ as' h₁ b₂) :
    Made sup [] b (as ++ as') (h ++ h₁) b₂ := by
  obtain ⟨hc, rfl⟩ := hm
  obtain ⟨hc', rfl⟩ := hm'
  refine ⟨?_, notingAll_append.symm⟩
  rw [forkCalls, List.filter_append, ← forkCalls, ← forkCalls, hc, hc', calls_append]
  rfl

/-- A call that is not a fork goes unnoticed. -/
theorem Made.call (hm : Made sup h b as h₁ b₁) {c : Kernel.Call} {s : Board r} {answer : Kernel.signature.Answer c}
    (hc : isFork c = false) : Made sup h b as (h₁ ++ [⟨(c, s), answer⟩]) b₁ := by
  refine ⟨?_, hm.board_eq⟩
  rw [← hm.forkCalls_eq]
  simp [forkCalls, hc]

theorem made_fork {answer : Except Errno Pid} : Made sup h b [⟨i, answer⟩]
    (h ++ [⟨(.fork (childOf sup i), b), answer⟩]) (b.set i (b[i].tried answer)) :=
  ⟨by simp [forkCalls, isFork, calls], rfl⟩

theorem mem_calls (sup : Supervisor) (b : Board r) {a : Attempt r} (ha : a ∈ as) :
    ∃ b₁, ⟨(.fork (childOf sup a.service), b₁), a.answer⟩ ∈ calls sup b as := by
  obtain ⟨before, after, rfl⟩ := List.append_of_mem ha
  rw [calls_append]
  exact ⟨_, List.mem_append_right _ (.head _)⟩

/-- Every attempt is a call of the history. -/
theorem Made.exists_mem (hm : Made sup [] b as h b') {a : Attempt r} (ha : a ∈ as) :
    ∃ b₁, ⟨(.fork (childOf sup a.service), b₁), a.answer⟩ ∈ h := by
  obtain ⟨b₁, hb₁⟩ := mem_calls sup b ha
  have hf : ⟨(.fork (childOf sup a.service), b₁), a.answer⟩ ∈ forkCalls h := by
    rw [hm.forkCalls_eq]
    exact List.mem_append_right _ hb₁
  exact ⟨b₁, (List.mem_filter.mp hf).1⟩

/-- Every fork succeeds, and whatever else can fail does. -/
def forksOnly : (q : Kernel.Call × Board r) → Kernel.signature.Answer q.1
  | (.fork _, _) => .ok 100
  | (c, _) => Kernel.refusal .tryAgain c

/-- Where every fork succeeds, no attempt has failed. -/
theorem Made.notMem_of_forksOnly (hm : Made sup [] b as h b') (hans : ∀ e ∈ h, e.2 = forksOnly e.1)
    (i : r.Id) (e : Errno) : ⟨i, .error e⟩ ∉ as := by
  intro ha
  obtain ⟨b₁, hmem⟩ := hm.exists_mem ha
  cases hans _ hmem

end Made

/-! ## A start as a series of attempts -/

/-- What one service of a plan comes to: it runs already, or an attempt is made. -/
inductive Tried (b : Board r) (i : r.Id) : List (Attempt r) → Except Error Unit → Prop where
  | running (hi : b.isRunning i = true) : Tried b i [] (.ok ())
  | started (hi : b.Idle i) (p : Pid) : Tried b i [⟨i, .ok p⟩] (.ok ())
  | failed (hi : b.Idle i) (e : Errno) :
      Tried b i [⟨i, .error e⟩] (.error (.spawnFailed ((r.service i).argv.headD "") e))

/-- What a plan comes to: each of its services is tried until one attempt fails. -/
inductive Undertaken : Board r → List r.Id → List (Attempt r) → Except Error Unit → Prop where
  | nil {b : Board r} : Undertaken b [] [] (.ok ())
  | cons {b : Board r} {i : r.Id} {is : List r.Id} {as as' : List (Attempt r)} {res : Except Error Unit}
      (hi : Tried b i as (.ok ())) (hs : Undertaken (b.notingAll as) is as' res) :
      Undertaken b (i :: is) (as ++ as') res
  | stop {b : Board r} {i : r.Id} {is : List r.Id} {as : List (Attempt r)} {e : Error}
      (hi : Tried b i as (.error e)) : Undertaken b (i :: is) as (.error e)

/-- What a start comes to: there is no plan, or there is one that is undertaken. -/
inductive Launched (b : Board r) (i : r.Id) : List (Attempt r) → Except Error Unit → Prop where
  | refused {e : Error} (hp : r.plan b i = .error e) : Launched b i [] (.error e)
  | planned {is : List r.Id} {as : List (Attempt r)} {res : Except Error Unit} (hp : r.plan b i = .ok is)
      (hu : Undertaken b is as res) : Launched b i as res

/-- Unless an attempt fails, it is one for the service itself, which runs then. -/
theorem Tried.of_ok (ht : Tried b i as (.ok ())) : (∀ a ∈ as, a.Succeeded) ∧
    (∀ j, j ∈ as.map Attempt.service ↔ j = i ∧ b.Idle j) ∧ (b.notingAll as).isRunning i = true := by
  generalize hres : (Except.ok () : Except Error Unit) = res at ht
  cases ht with
  | running hi =>
    refine ⟨nofun, fun j => ⟨nofun, ?_⟩, hi⟩
    rintro ⟨rfl, hj⟩
    exact absurd hi hj.not_isRunning
  | started hi p =>
    refine ⟨List.forall_mem_singleton.mpr ⟨p, rfl⟩, fun j => ?_, ?_⟩
    · rw [List.map_singleton, List.mem_singleton]
      refine ⟨?_, And.left⟩
      rintro rfl
      exact ⟨rfl, hi⟩
    · exact isRunning_notingAll_of_mem (.head _) ⟨p, rfl⟩
  | failed hi e => cases hres

/-- If a service cannot be started, it is because its fork has failed. -/
theorem Tried.of_error {e : Error} (ht : Tried b i as (.error e)) :
    ∃ errno, as = [⟨i, .error errno⟩] ∧ e = .spawnFailed ((r.service i).argv.headD "") errno := by
  generalize hres : (Except.error e : Except Error Unit) = res at ht
  cases ht with
  | running hi => cases hres
  | started hi p => cases hres
  | failed hi errno =>
    cases hres
    exact ⟨errno, rfl, rfl⟩

/-- An attempt is for the service itself, which has no process. -/
theorem Tried.eachTime (ht : Tried b i as res) : b.EachTime (fun b₁ j => j = i ∧ b₁ = b ∧ b.Idle j) as := by
  cases ht with
  | running hi => trivial
  | started hi p => exact ⟨⟨rfl, rfl, hi⟩, trivial⟩
  | failed hi e => exact ⟨⟨rfl, rfl, hi⟩, trivial⟩

/-- A service that is passed over or started is the only one that changes. -/
theorem Tried.getElem_notingAll (ht : Tried b i as res) (hj : j ≠ i) : (b.notingAll as)[j] = b[j] := by
  cases ht with
  | running hi => rfl
  | started hi p => exact getElem_noting_ne hj.symm
  | failed hi e => exact getElem_noting_ne hj.symm

namespace Undertaken

/-- If no attempt has failed, the attempts were those for the services that had no process, and all services of
the plan run. -/
theorem of_ok (hu : Undertaken b is as (.ok ())) : (∀ a ∈ as, a.Succeeded) ∧
    (∀ j, j ∈ as.map Attempt.service ↔ j ∈ is ∧ b.Idle j) ∧
    ∀ j ∈ is, (b.notingAll as).isRunning j = true := by
  generalize hres : (Except.ok () : Except Error Unit) = res at hu
  induction hu with
  | nil => exact ⟨nofun, fun j => ⟨nofun, nofun⟩, nofun⟩
  | stop hi => cases hres
  | @cons b i is as as' res ht hs ih =>
    obtain ⟨hs', hmem, hrun⟩ := ih hres
    obtain ⟨has, hi, hri⟩ := ht.of_ok
    refine ⟨fun a ha => (List.mem_append.mp ha).elim (has a) (hs' a), fun j => ?_, fun j hj => ?_⟩
    · rw [List.map_append, List.mem_append, hi, hmem, List.mem_cons, or_and_right]
      refine ⟨Or.imp_right (And.imp_right idle_of_notingAll), ?_⟩
      rintro (hj | ⟨hj, hidle⟩)
      · exact .inl hj
      by_cases hji : j = i
      · exact .inl ⟨hji, hidle⟩
      · refine .inr ⟨hj, ?_⟩
        rw [Idle, ht.getElem_notingAll hji]
        exact hidle
    · rw [notingAll_append]
      rcases List.mem_cons.mp hj with rfl | hj
      · exact isRunning_notingAll_of_isRunning hri
      · exact hrun j hj

/-- Where an attempt has failed, it was the last one, and for a service of the plan. -/
theorem of_error {e : Error} (hu : Undertaken b is as (.error e)) : ∃ done j errno, j ∈ is ∧
    as = done ++ [⟨j, .error errno⟩] ∧ e = .spawnFailed ((r.service j).argv.headD "") errno ∧
    ∀ a ∈ done, a.Succeeded := by
  generalize hres : (Except.error e : Except Error Unit) = res at hu
  induction hu with
  | nil => cases hres
  | @stop b i is as e' hi =>
    cases hres
    obtain ⟨errno, rfl, rfl⟩ := hi.of_error
    exact ⟨[], i, errno, .head _, rfl, rfl, nofun⟩
  | @cons b i is as as' res hi hs ih =>
    obtain ⟨done, j, errno, hj, rfl, he, hd⟩ := ih hres
    refine ⟨as ++ done, j, errno, .tail _ hj, (List.append_assoc ..).symm, he, fun a ha => ?_⟩
    exact (List.mem_append.mp ha).elim (hi.of_ok.1 a) (hd a)

/-- Each service that is attempted is one of the plan, and as it was when the plan was made. -/
theorem eachTime (hu : Undertaken b is as res) (hn : is.Nodup) :
    b.EachTime (fun b₁ j => j ∈ is ∧ b₁[j] = b[j] ∧ b.Idle j) as := by
  induction hu with
  | nil => trivial
  | stop hi =>
    refine hi.eachTime.imp ?_
    rintro b₁ j ⟨rfl, rfl, hj⟩
    exact ⟨.head _, rfl, hj⟩
  | @cons b i is as as' res hi hs ih =>
    obtain ⟨hni, hn⟩ := List.nodup_cons.mp hn
    refine eachTime_append.mpr ⟨hi.eachTime.imp ?_, (ih hn).imp fun b₁ j hj => ?_⟩
    · rintro b₁ j ⟨rfl, rfl, hj⟩
      exact ⟨.head _, rfl, hj⟩
    · obtain ⟨hj, he, hidle⟩ := hj
      have hji : j ≠ i := ne_of_mem_of_not_mem hj hni
      exact ⟨.tail _ hj, he.trans (hi.getElem_notingAll hji), idle_of_notingAll hidle⟩

/-- Where an attempt has failed, the last service of the plan has not been started. -/
theorem not_succeeded_of_error {e : Error} (hu : Undertaken b is as (.error e)) (hn : is.Nodup)
    (hl : is.getLast? = some i) {a : Attempt r} (ha : a ∈ as) (hi : a.service = i) : ¬ a.Succeeded := by
  generalize hres : (Except.error e : Except Error Unit) = res at hu
  induction hu with
  | nil => cases hres
  | @stop b j is as e' ht =>
    cases hres
    obtain ⟨errno, rfl, -⟩ := ht.of_error
    obtain rfl := List.mem_singleton.mp ha
    nofun
  | @cons b j is as as' res ht hs ih =>
    subst hres
    obtain ⟨hnj, hn⟩ := List.nodup_cons.mp hn
    have hne : is ≠ [] := by
      rintro rfl
      cases hs
    have hl : is.getLast? = some i := by rwa [List.getLast?_cons_of_ne_nil hne] at hl
    rcases List.mem_append.mp ha with ha | ha
    · have hij : i = j := hi ▸ ((ht.of_ok.2.1 a.service).mp (List.mem_map_of_mem ha)).1
      exact absurd (hij ▸ List.mem_of_getLast? hl) hnj
    · exact ih hn hl ha rfl

end Undertaken

/-- A start that has failed has not started the service itself. -/
theorem Launched.notMem_of_error {e : Error} (hl : Launched b i as (.error e)) (p : Pid) : ⟨i, .ok p⟩ ∉ as := by
  generalize hres : (Except.error e : Except Error Unit) = res at hl
  intro ha
  cases hl with
  | refused hp => cases ha
  | planned hp hu =>
    subst hres
    have hplan := isPlan_of_plan_eq_ok hp
    exact hu.not_succeeded_of_error hplan.nodup hplan.last ha rfl ⟨p, rfl⟩

/-- Each service that is attempted takes part in the start, and is as it was when that was planned. -/
theorem Launched.eachTime (hl : Launched b i as res) :
    b.EachTime (fun b₁ j => b.Requires i j ∧ b₁[j] = b[j] ∧ b.Idle j) as := by
  cases hl with
  | refused hp => trivial
  | planned hp hu =>
    have hplan := isPlan_of_plan_eq_ok hp
    exact (hu.eachTime hplan.nodup).imp fun b₁ j hj => ⟨(hplan.mem_iff j).mp hj.1, hj.2⟩

theorem Launched.eachTime_idle (hl : Launched b i as res) : b.EachTime Idle as :=
  hl.eachTime.imp fun _ _ hj => (congrArg Service.State.pid hj.2.1).trans hj.2.2

/-- Each service that is attempted takes part in the start. -/
theorem Launched.requires (hl : Launched b i as res) {a : Attempt r} (ha : a ∈ as) : b.Requires i a.service := by
  obtain ⟨before, after, rfl⟩ := List.append_of_mem ha
  exact hl.eachTime.of_split.1

section Assures

variable {n : Nat} {h : History (Board r)}

/-- From the history and the board, a series of attempts of the given kind has been made, unless an argument
with a nul byte has kept something from being tried. -/
def ComesTo {α : Type} (sup : Supervisor) (h : History (Board r)) (b : Board r)
    (kind : List (Attempt r) → Except Error α → Prop) : Ends (.anything _) (Board r) α :=
  fun h' _ res b' => (∃ as, Made sup h b as h' b' ∧ kind as res) ∨ ∃ e, res = .error e ∧ IsNulFault r e

/-- A call that is not a fork is not an attempt. -/
theorem ComesTo.call {α : Type} {kind : List (Attempt r) → Except Error α → Prop} {h' : History (Board r)}
    {res : Except Error α} (hq : ComesTo sup h b kind h' () res b') {c : Kernel.Call} {s : Board r}
    {answer : Kernel.signature.Answer c} (hc : isFork c = false) :
    ComesTo sup h b kind (h' ++ [⟨(c, s), answer⟩]) () res b' :=
  hq.imp_left fun ⟨as, hm, hl⟩ => ⟨as, hm.call hc, hl⟩

/-- Where every argument can be given to a process, nothing else comes up. -/
theorem ComesTo.of_nulFree {α : Type} {kind : List (Attempt r) → Except Error α → Prop} {h' : History (Board r)}
    {res : Except Error α} (hc : ComesTo sup h b kind h' () res b') (hf : r.NulFree) :
    ∃ as, Made sup h b as h' b' ∧ kind as res := by
  refine hc.resolve_right ?_
  rintro ⟨e, -, j, a, ha, hn, -⟩
  cases (hf j a ha).symm.trans hn

/-- Forking for a service is one attempt. -/
theorem assures_supervisor_spawn_made (sup : Supervisor) (i : r.Id) :
    Assures (.anything _) (fun _ _ _ _ => True) (sup.spawn (r.service i).argv) (fun h' _ res b' => b' = b ∧
      match res with
      | .ok p => Made sup h b [⟨i, .ok p⟩] h' (b.set i (b[i].started p))
      | .error e => IsNulFault r e ∨ ∃ errno, e = .spawnFailed ((r.service i).argv.headD "") errno ∧
        Made sup h b [⟨i, .error errno⟩] h' (b.set i b[i].failed)) n h () b := by
  refine assures_bind.mpr (assures_ofExcept.mpr ?_)
  rcases program_cases (r.service i).argv_ne_nil with hp | ⟨a, ha, hn, hp⟩
  · rw [hp]
    refine assures_bind.mpr (assures_ask.mpr fun _ _ => ⟨trivial, fun answer _ _ => ?_⟩)
    cases answer with
    | error e => exact ⟨rfl, .inr ⟨e, rfl, made_fork⟩⟩
    | ok p => exact assures_bind.mpr (assures_ask.mpr fun _ _ => ⟨trivial, fun _ _ _ => ⟨rfl, made_fork.call rfl⟩⟩)
  · rw [hp]
    exact ⟨rfl, .inl ⟨i, a, ha, hn, rfl⟩⟩

/-- A service that runs is passed over, and any other is forked for. -/
theorem assures_spawn_tried (sup : Supervisor) (i : r.Id) :
    Assures (.anything _) (fun _ _ _ _ => True) (spawn sup i) (ComesTo sup h b (Tried b i)) n h () b := by
  refine assures_bind.mpr (assures_stateOf.mpr ?_)
  dsimp only
  cases hp : b[i].pid with
  | some p =>
    refine assures_ask.mpr fun _ _ => ⟨trivial, fun _ _ _ => .inl ⟨[], Made.refl.call rfl, .running ?_⟩⟩
    exact isRunning_eq_true_iff.mpr ⟨p, hp⟩
  | none =>
    refine assures_bind.mpr (assures_attempt.mpr ((assures_supervisor_spawn_made sup i).imp ?_))
    rintro h₁ _ res _ ⟨rfl, hm⟩
    cases res with
    | ok p =>
      refine assures_bind.mpr (assures_update.mpr (assures_ask.mpr fun _ _ => ⟨trivial, fun _ _ _ => ?_⟩))
      exact .inl ⟨_, hm.call rfl, .started hp p⟩
    | error e =>
      refine assures_bind.mpr (assures_update.mpr (assures_bind.mpr ?_))
      refine assures_ask.mpr fun _ _ => ⟨trivial, fun _ _ _ => ?_⟩
      rcases hm with hf | ⟨errno, rfl, hm⟩
      · exact .inr ⟨e, rfl, hf⟩
      · exact .inl ⟨_, hm.call rfl, .failed hp errno⟩

/-- Carrying out a plan, by induction on what is left of it. -/
theorem assures_forM_spawn_undertaken (sup : Supervisor) (is : List r.Id) :
    Assures (.anything _) (fun _ _ _ _ => True) (is.forM (spawn sup)) (ComesTo sup h b (Undertaken b is))
      n h () b := by
  induction is generalizing h b with
  | nil => exact assures_pure.mpr (.inl ⟨[], .refl, .nil⟩)
  | cons i is ih =>
    refine (assures_spawn_tried sup i).bind ?_ ?_
    · rintro h₁ _ _ _ (⟨as, hm, ht⟩ | ⟨_, he, -⟩)
      · refine ih.imp fun h₂ _ res b₂ hu => hu.imp_left fun ⟨as', hm', hu⟩ => ?_
        exact ⟨as ++ as', hm.trans hm', .cons ht (hm.board_eq ▸ hu)⟩
      · cases he
    · rintro h₁ _ e _ (⟨as, hm, ht⟩ | hf)
      · exact .inl ⟨as, hm, .stop ht⟩
      · exact .inr hf

/-- A start plans, and carries out the plan. -/
theorem assures_start_comesTo (sup : Supervisor) (i : r.Id) :
    Assures (.anything _) (fun _ _ _ _ => True) (start sup i) (ComesTo sup h b (Launched b i)) n h () b := by
  refine assures_bind.mpr (assures_get.mpr (assures_bind.mpr (assures_ofExcept.mpr ?_)))
  cases hp : r.plan b i with
  | error e => exact .inl ⟨[], .refl, .refused hp⟩
  | ok is =>
    refine (assures_forM_spawn_undertaken sup is).imp fun h' _ res b' hu => hu.imp_left ?_
    exact fun ⟨as, hm, hu⟩ => ⟨as, hm, .planned hp hu⟩

/-- Where every argument can be given to a process, a start comes to nothing else. -/
theorem assures_start_launched (hf : r.NulFree) (sup : Supervisor) (i : r.Id) :
    Assures (.anything _) (fun _ _ _ _ => True) (start sup i)
      (fun h' _ res b' => ∃ as, Made sup h b as h' b' ∧ Launched b i as res) n h () b :=
  (assures_start_comesTo sup i).imp fun _ _ _ _ hl => hl.of_nulFree hf

end Assures

end Supervision

end ContainerInit
