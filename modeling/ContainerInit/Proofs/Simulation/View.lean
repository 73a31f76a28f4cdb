import ContainerInit.Proofs.Kernel.Signals
import ContainerInit.Simulation.Answer
import Mathlib.Data.List.Nodup

/-! # The kernel that a simulated machine shows

A simulated machine keeps more than a kernel shows of itself: what its processes are going to do, the signals
that are still to come, the faults of its calls.  `Machine.signalled` is what is left of it without all that, the
table of children and the pending signals.  This is the state in which the worlds of kernels have it, so that the
two can be compared.

The machine has its children in a list, where a table has one entry for each number.  The list is read as a table
by looking for the number, and the equations below say what becomes of the table where the machine changes its
list: a process is added at the end (`signalled_create`), is filtered out (`children_remove`), or is replaced in
its place (`children_replace`, `children_congr`).

The group of the supervisor is 0 in a kernel and has a number in the machine, for which a process could just as
well have the group 0 there.  The view lets the two numbers trade places, so that no two groups become one.

What has to hold of a machine for all this to be faithful is `Machine.Sound`.  It is so in the beginning
(`sound_start`), and the other modules show that it stays so. -/

namespace ContainerInit.Simulation

open Kernel

/-- How the process has ended, as a kernel has it. -/
def Ending.termination : Ending → Termination
  | .exit code => .exited code
  | .signal s => .signaled s false

/-- The machine reports an end as the kernel does. -/
theorem report_eq (p : Pid) (e : Ending) : report p e = e.termination.report p := by
  cases e with
  | exit code => rfl
  | signal s =>
    by_cases hs : s ∈ Signal.named
    · rw [report, if_pos hs]
      exact (Termination.report_of_reportable (t := .signaled s false) hs).symm
    · rw [report, if_neg hs]
      exact (Termination.report_of_not_reportable (t := .signaled s false) hs).symm

/-- The number of a group as a kernel has it, where `own` is that of the supervisor. -/
def shownGroup (own g : Pid) : Pid := if g = own then 0 else if g = 0 then own else g

/-- The group that a kernel shows as 0 is that of the supervisor. -/
theorem shownGroup_eq_zero_iff {own g : Pid} : shownGroup own g = 0 ↔ g = own := by
  unfold shownGroup
  split
  · exact iff_of_true rfl ‹_›
  · split
    · rename_i h h₀
      exact ⟨fun e => h₀.trans e.symm, fun e => absurd e h⟩
    · exact iff_of_false ‹_› ‹_›

/-- All other groups are shown by their numbers. -/
theorem shownGroup_eq_iff {own g g' : Pid} (hown : g' ≠ own) (h₀ : g' ≠ 0) : shownGroup own g = g' ↔ g = g' := by
  unfold shownGroup
  split
  · rename_i h
    exact ⟨fun e => absurd e.symm h₀, fun e => absurd (e.symm.trans h) hown⟩
  · split
    · rename_i h
      exact ⟨fun e => absurd e.symm hown, fun e => absurd (e.symm.trans h) h₀⟩
    · rfl

/-- What a kernel shows of a process. -/
def Process.shown (own : Pid) (q : Process) : Kernel.Process := ⟨shownGroup own q.group, q.ended.map (·.termination)⟩

namespace Machine

variable {m m' : Machine} {p target : Pid} {q q' : Process}

/-- The child with the number. -/
def child? (m : Machine) (p : Pid) : Option Process := m.children.find? (·.pid = p)

/-- What the machine shows of a kernel: its children, and the signals that are pending. -/
def signalled (m : Machine) : Signalled where
  children := {
    process := fun p => if 0 < p then (m.child? p).map (·.shown m.scenario.pid) else none
    positive := fun {p q} h => by
      split at h
      · assumption
      · cases h }
  pending := {s | ∃ sender, (s, sender) ∈ m.pending}

/-- The entry for a number is what is shown of the child that has it. -/
theorem process_signalled : m.signalled.children.process p =
    if 0 < p then (m.child? p).map (·.shown m.scenario.pid) else none := rfl

/-- The children have positive numbers of their own, all of them used up, and whoever has ended has nothing more to
do. -/
structure Sound (m : Machine) : Prop where
  distinct : (m.children.map (·.pid)).Nodup
  positive : ∀ q ∈ m.children, 0 < q.pid
  used : ∀ q ∈ m.children, q.pid < m.nextPid
  nextPid_pos : 0 < m.nextPid
  planned : ∀ q ∈ m.children, q.ended.isSome → q.planned = none

theorem pid_of_child? (h : m.child? p = some q) : q.pid = p := by simpa using List.find?_some h

theorem mem_of_child? (h : m.child? p = some q) : q ∈ m.children := List.mem_of_find?_eq_some h

/-- A number that no child has is not found. -/
theorem child?_eq_none_iff : m.child? p = none ↔ ∀ q ∈ m.children, q.pid ≠ p := by
  simp [child?]

/-- The children of a sound machine are found by their numbers. -/
theorem Sound.child?_pid (hm : m.Sound) (hq : q ∈ m.children) : m.child? q.pid = some q := by
  cases h : m.child? q.pid with
  | none => exact absurd rfl (child?_eq_none_iff.mp h q hq)
  | some q' => rw [List.inj_on_of_nodup_map hm.distinct (mem_of_child? h) hq (pid_of_child? h)]

/-- A child is shown under its number. -/
theorem process_of_child? (hp : 0 < p) (h : m.child? p = some q) :
    m.signalled.children.process p = some (q.shown m.scenario.pid) := by
  rw [process_signalled, if_pos hp, h]
  rfl

/-- The children that a kernel shows are those of the machine. -/
theorem Sound.process_pid (hm : m.Sound) (hq : q ∈ m.children) :
    m.signalled.children.process q.pid = some (q.shown m.scenario.pid) :=
  process_of_child? (hm.positive q hq) (hm.child?_pid hq)

/-- What is shown is shown of a child. -/
theorem exists_of_process {q : Kernel.Process} (h : m.signalled.children.process p = some q) :
    ∃ q' ∈ m.children, q'.pid = p ∧ q = q'.shown m.scenario.pid := by
  rw [process_signalled] at h
  split at h
  · obtain ⟨q', hq', rfl⟩ := Option.map_eq_some_iff.mp h
    exact ⟨q', mem_of_child? hq', pid_of_child? hq', rfl⟩
  · cases h

/-! ## The children of a target -/

/-- A target by which the machine selects as the kernel does.  The group of the supervisor has to be called 0. -/
def Plain (own target : Pid) : Prop := target = -1 ∨ target ≠ -own

/-- The machine selects those that a wait for the target is about. -/
theorem Sound.selects_iff (hm : m.Sound) (ht : Plain m.scenario.pid target) (hq : q ∈ m.children) :
    m.Selects target q ↔ Children.Covers target q.pid (q.shown m.scenario.pid) := by
  have hpos := hm.positive q hq
  unfold Selects Children.Covers Process.shown
  split
  case isTrue hpid => grind
  case isFalse hpid =>
    split
    case isTrue hall => grind
    case isFalse hall =>
      split
      case isTrue hown =>
        subst hown
        have hgroup : 0 = -shownGroup m.scenario.pid q.group ↔ q.group = m.scenario.pid :=
          eq_comm.trans (Int.neg_eq_zero.trans shownGroup_eq_zero_iff)
        simp only [hgroup]
        grind
      case isFalse hown =>
        have hne : -target ≠ m.scenario.pid := fun e => ht.elim hall fun h => h (Int.neg_eq_comm.mp e).symm
        have h₀ : -target ≠ 0 := fun e => hown (Int.neg_eq_zero.mp e)
        have hgroup : target = -shownGroup m.scenario.pid q.group ↔ q.group = -target :=
          eq_comm.trans (Int.neg_eq_comm.trans (eq_comm.trans (shownGroup_eq_iff hne h₀)))
        simp only [hgroup]
        grind

/-! ## Changes of the table -/

/-- A process is found in its place after the children have changed without their numbers. -/
theorem find?_map {f : Process → Process} (hpid : ∀ q, (f q).pid = q.pid) (l : List Process) (p : Pid) :
    (l.map f).find? (·.pid = p) = (l.find? (·.pid = p)).map f := by
  simp only [List.find?_map, Function.comp_def, hpid]

/-- The table looks the same if each process does in its place. -/
theorem children_congr {f : Process → Process} (hpid : ∀ q, (f q).pid = q.pid)
    (hshown : ∀ q ∈ m.children, (f q).shown m.scenario.pid = q.shown m.scenario.pid)
    (hc : m'.children = m.children.map f) (hs : m'.scenario = m.scenario) :
    m'.signalled.children = m.signalled.children := by
  ext1
  funext p
  rw [process_signalled, process_signalled, hs, child?, hc, find?_map hpid]
  split
  · cases h : m.child? p with
    | none => rw [show m.children.find? _ = none from h]; rfl
    | some q =>
      rw [show m.children.find? _ = some q from h, Option.map_some, Option.map_some, Option.map_some,
        hshown q (mem_of_child? h)]
  · rfl

/-- One process is replaced in its place. -/
theorem children_replace {f : Process → Process} (hp : 0 < p) (hq : m.child? p = some q)
    (hpid : ∀ q, (f q).pid = q.pid) (hc : m'.children = m.children.map fun q' => if q'.pid = p then f q' else q')
    (hs : m'.scenario = m.scenario) :
    m'.signalled.children = m.signalled.children.insert p hp ((f q).shown m.scenario.pid) := by
  have hpid' : ∀ q', (if q'.pid = p then f q' else q').pid = q'.pid := fun q' => by
    split
    · exact hpid q'
    · rfl
  ext1
  funext x
  rw [process_signalled, hs, child?, hc, find?_map hpid']
  by_cases e : x = p
  · subst e
    rw [if_pos hp, show m.children.find? _ = some q from hq, Children.process_insert_self, Option.map_some,
      if_pos (pid_of_child? hq)]
    rfl
  · rw [Children.process_insert_ne e, process_signalled]
    cases h : m.child? x with
    | none => rw [show m.children.find? _ = none from h]; rfl
    | some q' =>
      have hne : q'.pid ≠ p := fun e' => e ((pid_of_child? h).symm.trans e')
      rw [show m.children.find? _ = some q' from h, Option.map_some, if_neg hne]

/-- One process is gone. -/
theorem children_remove (hc : m'.children = m.children.filter (·.pid ≠ p)) (hs : m'.scenario = m.scenario) :
    m'.signalled.children = m.signalled.children.remove p := by
  ext1
  funext x
  rw [process_signalled, hs, child?, hc, List.find?_filter]
  by_cases e : x = p
  · subst e
    rw [Children.process_remove_self, List.find?_eq_none.mpr (by simp)]
    exact ite_self none
  · rw [Children.process_remove_ne e, process_signalled, child?]
    congr 2
    congr 1
    funext q
    grind

/-- A process is added that has a number of its own. -/
theorem children_append (m' : Machine) (hp : 0 < q.pid) (hq : ∀ q' ∈ m.children, q'.pid ≠ q.pid)
    (hc : m'.children = m.children ++ [q]) (hs : m'.scenario = m.scenario) :
    m'.signalled.children = m.signalled.children.insert q.pid hp (q.shown m.scenario.pid) := by
  ext1
  funext x
  rw [process_signalled, hs, child?, hc, List.find?_append]
  by_cases e : x = q.pid
  · subst e
    rw [show m.children.find? _ = none from child?_eq_none_iff.mpr hq, if_pos hp, Children.process_insert_self]
    simp
  · rw [Children.process_insert_ne e, process_signalled, child?]
    have hnone : [q].find? (·.pid = x) = none := by simpa using fun h => e h.symm
    rw [hnone, Option.or_none]

end Machine

end ContainerInit.Simulation
