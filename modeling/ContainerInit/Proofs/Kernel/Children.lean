import ContainerInit.Kernel.Call
import ContainerInit.Proofs.Dialogue.World
import Mathlib.Logic.Function.Basic

/-! # Children

The kernel as far as it keeps the children of the supervisor.  A child comes by a fork, or because its
parent has ended before it; it ends at any time, and stays in the table of children until a wait collects
it.  While it is there its number belongs to nobody else.

## What a wait reports

How a process has ended is a `Termination`, and what a wait says about it is the status of that.  But the
status is made of the numbers that the kernel hands over only after the kernel has let go of the child, and
a signal without a name cannot be made into one.  So there are ends that are not `Reportable`: a wait that
meets one fails with `Errno.invalid`, and the child is gone nevertheless.  A look that leaves its child
where it is fails the same way, as often as it is taken.

## The two relations

* `Children.Reveals` is what there is to be found among the children of a target: a child that has ended,
  with the report about it, or only children that live, or none at all.
* `Children.Finds` is what a look may find, which is that or the failure of the call itself.

Both name the child that has been found, since the answer alone does not tell it where the report has
failed.  `Children.world` answers a wait with what it finds and takes the child away, and a look with what
it finds and changes nothing.  The worlds of the other modules are made of this one: some add to it
(`Family`, `Signalled`), and some are about a kernel that does less (`Standstill`, `Timed`). -/

namespace ContainerInit.Kernel

open Relation

/-- How a process ended. -/
inductive Termination where
  | exited (code : Int)
  | signaled (signal : Signal) (core : Bool)

namespace Termination

/-- What there is to be reported about the process. -/
def status (p : Pid) : Termination → WaitStatus
  | exited code => .exited p code
  | signaled s core => .signaled p s core

/-- The code to be recorded: the exit code, and -1 for the end by a signal. -/
def code : Termination → Int
  | exited code => code
  | signaled _ _ => -1

/-- The end can be reported, which it cannot if it came by a signal without a name. -/
def Reportable : Termination → Prop
  | exited _ => True
  | signaled s _ => s ∈ Signal.named

instance (t : Termination) : Decidable t.Reportable := match t with
  | exited _ => inferInstanceAs (Decidable True)
  | signaled s _ => inferInstanceAs (Decidable (s ∈ Signal.named))

/-- What a wait reports about the process: its status, or that there is none for such an end. -/
def report (p : Pid) (t : Termination) : Except Errno WaitStatus :=
  if t.Reportable then .ok (t.status p) else .error .invalid

variable {t t' : Termination} {p p' : Pid}

/-- A status is about the process that has ended. -/
@[simp] theorem pid?_status : (t.status p).pid? = some p := by cases t <;> rfl

/-- A status always has a code to be recorded. -/
@[simp] theorem exitCode?_status : (t.status p).exitCode? = some t.code := by cases t <;> rfl

theorem status_ne_stillAlive : t.status p ≠ .stillAlive := by cases t <;> nofun

/-- A status tells who has ended, and how. -/
theorem status_inj : t.status p = t'.status p' ↔ t = t' ∧ p = p' := by
  cases t <;> cases t' <;> simp [status, and_comm]

theorem report_of_reportable (ht : t.Reportable) : t.report p = .ok (t.status p) := if_pos ht

theorem report_of_not_reportable (ht : ¬ t.Reportable) : t.report p = .error .invalid := if_neg ht

/-- Nobody who has ended is reported to live. -/
theorem report_ne_stillAlive : t.report p ≠ .ok .stillAlive := by
  by_cases ht : t.Reportable
  · rw [report_of_reportable ht]
    exact fun e => status_ne_stillAlive (Except.ok.inj e)
  · rw [report_of_not_reportable ht]
    nofun

/-- Nobody who has ended is reported not to be there. -/
theorem report_ne_noChild : t.report p ≠ .error .noChild := by
  by_cases ht : t.Reportable
  · rw [report_of_reportable ht]
    nofun
  · rw [report_of_not_reportable ht]
    exact fun e => absurd (Except.error.inj e) (by decide)

end Termination

/-- A child that has not been collected. -/
structure Process where
  /-- The process group, 0 for that of the supervisor. -/
  group : Pid
  /-- How it has ended, if it has. -/
  ended : Option Termination := none

/-- The children that have not been collected, by their numbers. -/
@[ext] structure Children where
  process : Pid → Option Process
  positive : ∀ {p q}, process p = some q → 0 < p

namespace Children

variable {c c' : Children} {p p' target : Pid} {q : Process} {t : Termination} {found : Option Pid}
  {a : Except Errno WaitStatus}

/-! ## The table -/

/-- There are no children. -/
def none : Children := ⟨fun _ => .none, nofun⟩

/-- The table with a new entry for a number. -/
def insert (c : Children) (p : Pid) (hp : 0 < p) (q : Process) : Children where
  process := Function.update c.process p q
  positive {p' q'} h := by
    by_cases e : p' = p
    · exact e ▸ hp
    · rw [Function.update_of_ne e] at h
      exact c.positive h

/-- The table without the entry for a number. -/
def remove (c : Children) (p : Pid) : Children where
  process := Function.update c.process p .none
  positive {p' q'} h := by
    by_cases e : p' = p
    · subst e; rw [Function.update_self] at h; cases h
    · rw [Function.update_of_ne e] at h
      exact c.positive h

/-- The table without the child that has been found, if one has. -/
def without (c : Children) (found : Option Pid) : Children := found.elim c c.remove

@[simp] theorem without_none : c.without .none = c := rfl

@[simp] theorem without_some : c.without (some p) = c.remove p := rfl

theorem process_insert_self {hp : 0 < p} : (c.insert p hp q).process p = some q := Function.update_self ..

theorem process_insert_ne {hp : 0 < p} (h : p' ≠ p) : (c.insert p hp q).process p' = c.process p' :=
  Function.update_of_ne h ..

/-- What is there after an entry has been made is that entry, or has been there before. -/
theorem process_insert_cases {q' : Process} {hp : 0 < p'} (h : (c.insert p' hp q').process p = some q) :
    p = p' ∧ q = q' ∨ c.process p = some q := by
  by_cases e : p = p'
  · subst e
    rw [process_insert_self] at h
    exact .inl ⟨rfl, (Option.some.inj h).symm⟩
  · rw [process_insert_ne e] at h
    exact .inr h

theorem process_remove_self : (c.remove p).process p = .none := Function.update_self ..

theorem process_remove_ne (h : p' ≠ p) : (c.remove p).process p' = c.process p' :=
  Function.update_of_ne h ..

/-- What is still there after an entry has been removed has been there before. -/
theorem process_of_remove (h : (c.remove p').process p = some q) : c.process p = some q := by
  by_cases e : p = p'
  · subst e
    rw [process_remove_self] at h
    cases h
  · rwa [process_remove_ne e] at h

theorem process_of_without (h : (c.without found).process p = some q) : c.process p = some q := by
  cases found with
  | none => exact h
  | some p' => exact process_of_remove h

/-- The number is that of a child which has not been collected. -/
def Has (c : Children) (p : Pid) : Prop := ∃ q, c.process p = some q

/-- The child has ended, and has not been collected. -/
def HasEnded (c : Children) (p : Pid) : Prop := ∃ q t, c.process p = some q ∧ q.ended = some t

/-- The child has ended in a way that can be reported, and has not been collected. -/
def HasReportable (c : Children) (p : Pid) : Prop :=
  ∃ q t, c.process p = some q ∧ q.ended = some t ∧ t.Reportable

theorem HasEnded.has (h : c.HasEnded p) : c.Has p := h.imp fun _ ⟨_, hq, _⟩ => hq

theorem HasReportable.hasEnded (h : c.HasReportable p) : c.HasEnded p :=
  h.imp fun _ ⟨t, hp, hq, _⟩ => ⟨t, hp, hq⟩

/-- The child is among those that a wait for the target is about. -/
def Covers (target p : Pid) (q : Process) : Prop :=
  target = -1 ∨ target = p ∨ target ≤ 0 ∧ target = -q.group

/-- A process covers nobody but itself. -/
theorem Covers.eq (h : Covers target p q) (ht : 0 < target) : p = target := by
  rcases h with h | h | h
  · subst h
    exact absurd ht (by decide)
  · exact h.symm
  · exact absurd h.1 (Int.not_le.mpr ht)

theorem covers_self : Covers p p q := .inr (.inl rfl)

/-! ## What a look finds -/

/-- What may happen to the children by itself. -/
inductive Drifts : Children → Children → Prop where
  | ends {c : Children} {p q t} (h : c.process p = some q) (hq : q.ended = .none) :
      Drifts c (c.insert p (c.positive h) { q with ended := some t })
  | regroups {c : Children} {p q g} (h : c.process p = some q) :
      Drifts c (c.insert p (c.positive h) { q with group := g })
  /-- An orphan becomes a child, alive or not. -/
  | adopts {c : Children} {p q} (h : c.process p = .none) (hp : 0 < p) : Drifts c (c.insert p hp q)

/-- What there is to be found among the children of a target, with the child in question if there is one:
one that has ended, with the report about its end, or only such as live, or none. -/
inductive Reveals (c : Children) (target : Pid) : Option Pid → Except Errno WaitStatus → Prop where
  | ended {p : Pid} {q t} (h : c.process p = some q) (hc : Covers target p q) (hq : q.ended = some t) :
      Reveals c target (some p) (t.report p)
  | stillAlive {p : Pid} {q} (h : c.process p = some q) (hc : Covers target p q)
      (hne : ∀ p q, c.process p = some q → Covers target p q → q.ended = .none) :
      Reveals c target .none (.ok .stillAlive)
  | noChild (hn : ∀ p q, c.process p = some q → ¬ Covers target p q) : Reveals c target .none (.error .noChild)

/-- What a look at the children of a target may find, whether to collect or not: what there is, unless the
call has failed, because it was interrupted or for another reason. -/
inductive Finds (c : Children) (target : Pid) : Option Pid → Except Errno WaitStatus → Prop where
  | revealed {p? : Option Pid} {x} (h : c.Reveals target p? x) : Finds c target p? x
  | failed {e} (he : e ≠ .noChild) : Finds c target .none (.error e)

/-- Among the children of the target there is one whose end cannot be reported. -/
def Conceals (c : Children) (target : Pid) : Prop :=
  ∃ p q t, c.process p = some q ∧ Covers target p q ∧ q.ended = some t ∧ ¬ t.Reportable

/-- There is always something to be found. -/
theorem exists_reveals (c : Children) (target : Pid) : ∃ found a, c.Reveals target found a := by
  by_cases hc : ∃ p q, c.process p = some q ∧ Covers target p q
  · obtain ⟨p, q, hp, hcov⟩ := hc
    by_cases he : ∃ p q t, c.process p = some q ∧ Covers target p q ∧ q.ended = some t
    · obtain ⟨p, q, t, hp, hcov, ht⟩ := he
      exact ⟨_, _, .ended hp hcov ht⟩
    · refine ⟨_, _, .stillAlive hp hcov fun p q hp hcov => ?_⟩
      cases ht : q.ended with
      | none => rfl
      | some t => exact absurd ⟨p, q, t, hp, hcov, ht⟩ he
  · exact ⟨_, _, .noChild fun p q hp hcov => hc ⟨p, q, hp, hcov⟩⟩

/-- Of a single child there is to be found whether it has ended, and how. -/
theorem Reveals.eq_of_process (hr : c.Reveals p found a) (hp : c.process p = some q) :
    found = q.ended.map (fun _ => p) ∧ a = q.ended.elim (.ok .stillAlive) (·.report p) := by
  cases hr with
  | ended hp' hcov ht =>
    obtain rfl := hcov.eq (c.positive hp)
    obtain rfl := Option.some.inj (hp.symm.trans hp')
    rw [ht]
    exact ⟨rfl, rfl⟩
  | stillAlive _ _ hne =>
    rw [hne p q hp covers_self]
    exact ⟨rfl, rfl⟩
  | noChild hn => exact absurd covers_self (hn p q hp)

/-- A look at a child that can be reported finds its status, unless it fails. -/
theorem Finds.of_hasReportable (h : c.HasReportable p) (hf : c.Finds p found a) :
    (∃ t : Termination, found = some p ∧ a = .ok (t.status p)) ∨
      ∃ e, found = .none ∧ a = .error e ∧ e ≠ .noChild := by
  obtain ⟨q, t, hp, hq, ht⟩ := h
  cases hf with
  | revealed hr =>
    obtain ⟨rfl, rfl⟩ := hr.eq_of_process hp
    rw [hq]
    exact .inl ⟨t, rfl, Termination.report_of_reportable ht⟩
  | failed he => exact .inr ⟨_, rfl, rfl, he⟩

/-- Where nobody is said to be found there is none. -/
theorem Finds.not_covers_of_noChild (hf : c.Finds target found (.error .noChild)) (hp : c.process p = some q) :
    ¬ Covers target p q := by
  generalize ha : Except.error Errno.noChild = a at hf
  cases hf with
  | revealed hr =>
    cases hr with
    | ended => exact absurd ha.symm Termination.report_ne_noChild
    | stillAlive => cases ha
    | noChild hn => exact hn p q hp
  | failed he => exact absurd (Except.error.inj ha).symm he

/-- A look at all children that finds none that has ended. -/
theorem not_hasEnded_of_finds (h : c.Finds (-1) found a) (ha : a = .ok .stillAlive ∨ a = .error .noChild) :
    ¬ c.HasEnded p := by
  rintro ⟨q, t, hq, ht⟩
  cases h with
  | revealed h =>
    cases h with
    | ended =>
      rcases ha with e | e
      · exact Termination.report_ne_stillAlive e
      · exact Termination.report_ne_noChild e
    | stillAlive _ _ hne => cases (hne p q hq (.inl rfl)).symm.trans ht
    | noChild hn => exact hn p q hq (.inl rfl)
  | failed he =>
    rcases ha with e | e
    · cases e
    · exact he (Except.error.inj e)

/-! ## The world -/

/-- What becomes of the children by a call and its answer. -/
def answers (c : Children) : (call : Call) → signature.Answer call → Children → Prop
  | .fork _, .ok p, c' => ∃ hp : 0 < p, c.process p = .none ∧ ∃ g, c' = c.insert p hp ⟨g, .none⟩
  | .wait target, a, c' => ∃ found, c.Finds target found a ∧ c' = c.without found
  | .peek target, a, c' => (∃ found, c.Finds target found a) ∧ c' = c
  | _, _, c' => c' = c

/-- The world of all the behaviour of such a kernel. -/
def world : World signature := ⟨Children, Drifts, answers⟩

/-- Only forks and waits change the children. -/
theorem eq_of_answers {call : Call} {a : signature.Answer call} (hf : ∀ child, call ≠ .fork child)
    (hw : ∀ target, call ≠ .wait target) (h : answers c call a c') : c' = c := by
  cases call with
  | fork child => exact absurd rfl (hf child)
  | wait target => exact absurd rfl (hw target)
  | peek target => exact h.2
  | _ => exact h

theorem Has.insert {hp : 0 < p'} (h : c.Has p) : (c.insert p' hp q).Has p := by
  by_cases e : p = p'
  · exact e ▸ ⟨q, process_insert_self⟩
  · exact h.imp fun _ hq => by rwa [process_insert_ne e]

/-- A child that is collected is the only one that is missing. -/
theorem Has.remove (h : c.Has p) (hp : p ≠ p') : (c.remove p').Has p :=
  h.imp fun _ hq => by rwa [process_remove_ne hp]

theorem Has.of_without (h : (c.without found).Has p) : c.Has p := h.imp fun _ => process_of_without

theorem Has.positive (h : c.Has p) : 0 < p := h.elim fun _ => c.positive

theorem HasEnded.of_without (h : (c.without found).HasEnded p) : c.HasEnded p := by
  obtain ⟨q, t, hq, ht⟩ := h
  exact ⟨q, t, process_of_without hq, ht⟩

/-- Of the children after a call, those that have ended had ended before. -/
theorem HasEnded.of_answers {call : Call} {a : signature.Answer call} (h : c'.HasEnded p)
    (ha : c.answers call a c') : c.HasEnded p := by
  by_cases hf : ∃ child, call = .fork child
  · obtain ⟨child, rfl⟩ := hf
    cases a with
    | error e =>
      obtain rfl : c' = c := ha
      exact h
    | ok p' =>
      obtain ⟨hp, -, g, rfl⟩ := ha
      obtain ⟨q, t, hq, ht⟩ := h
      by_cases e : p = p'
      · subst e
        rw [process_insert_self] at hq
        cases hq
        cases ht
      · exact ⟨q, t, by rwa [process_insert_ne e] at hq, ht⟩
  by_cases hw : ∃ target, call = .wait target
  · obtain ⟨target, rfl⟩ := hw
    obtain ⟨found, -, rfl⟩ := ha
    exact h.of_without
  · rwa [eq_of_answers (fun child e => hf ⟨child, e⟩) (fun target e => hw ⟨target, e⟩) ha] at h

/-- Only a fork makes a child. -/
theorem Has.of_answers {call : Call} {a : signature.Answer call} (hf : ∀ child, call ≠ .fork child)
    (h : c'.Has p) (ha : c.answers call a c') : c.Has p := by
  by_cases hw : ∃ target, call = .wait target
  · obtain ⟨target, rfl⟩ := hw
    obtain ⟨found, -, rfl⟩ := ha
    exact h.of_without
  · rwa [eq_of_answers hf (fun target e => hw ⟨target, e⟩) ha] at h

/-! ## What outlasts the changes -/

theorem Has.drift (h : c.Has p) (d : Drifts c c') : c'.Has p := by
  cases d <;> exact h.insert

/-- How a child has ended does not change any more. -/
theorem exists_ended_of_drift (hp : c.process p = some q) (hq : q.ended = some t) (d : Drifts c c') :
    ∃ q', c'.process p = some q' ∧ q'.ended = some t := by
  cases d with
  | @ends p' q' t' h hn =>
    refine ⟨q, (process_insert_ne ?_).trans hp, hq⟩
    rintro rfl
    cases hn.symm.trans (Option.some.inj (h.symm.trans hp) ▸ hq)
  | @regroups p' q' g h =>
    by_cases e : p = p'
    · subst e
      exact ⟨_, process_insert_self, Option.some.inj (h.symm.trans hp) ▸ hq⟩
    · exact ⟨q, (process_insert_ne e).trans hp, hq⟩
  | @adopts p' q' h =>
    refine ⟨q, (process_insert_ne ?_).trans hp, hq⟩
    rintro rfl
    cases h.symm.trans hp

theorem HasEnded.drift (h : c.HasEnded p) (d : Drifts c c') : c'.HasEnded p := by
  obtain ⟨q, t, hp, hq⟩ := h
  exact (exists_ended_of_drift hp hq d).imp fun _ hq' => ⟨t, hq'⟩

theorem HasReportable.drift (h : c.HasReportable p) (d : Drifts c c') : c'.HasReportable p := by
  obtain ⟨q, t, hp, hq, ht⟩ := h
  exact (exists_ended_of_drift hp hq d).imp fun _ ⟨hp', hq'⟩ => ⟨t, hp', hq', ht⟩

/-- A child stays one until it is collected, whatever else happens. -/
theorem Has.drifts (h : c.Has p) (d : ReflTransGen Drifts c c') : c'.Has p :=
  world.of_drifts Has.drift h d

theorem HasReportable.drifts (h : c.HasReportable p) (d : ReflTransGen Drifts c c') : c'.HasReportable p :=
  world.of_drifts HasReportable.drift h d

theorem HasEnded.drifts (h : c.HasEnded p) (d : ReflTransGen Drifts c c') : c'.HasEnded p :=
  world.of_drifts HasEnded.drift h d

end Children

end ContainerInit.Kernel
