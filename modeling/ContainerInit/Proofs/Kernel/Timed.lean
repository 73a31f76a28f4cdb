import ContainerInit.Proofs.Dialogue.Completion
import ContainerInit.Proofs.Dialogue.Runs
import ContainerInit.Proofs.Kernel.Children

/-! # A kernel that keeps exact time

The children and the clock, where nothing takes time but sleep, and that takes as long as it was meant to.  When
and how a child ends is settled, and only a signal to it may change that, for the time from then on.  Forks and
waits for signals are not answered.

No call fails, unless there is nobody whom it concerns.  For a wait that is a condition on the children too: it
cannot but fail where it meets an end that cannot be reported, so an `Ending` is one that can.

What becomes of a single child by the calls that are about it is stated as equations: a look at it
(`eq_of_answers_peek`) tells how it has ended, a wait for it (`eq_of_answers_wait`) collects it if it has, and a
signal to it (`of_answers_kill`) concerns nobody else.  The deeds of a program, that is the signals it sends, its
pauses and its warnings, are noted beside the kernel in the world `watched`. -/

namespace ContainerInit.Kernel

open ContainerInit.Action Relation

/-- When and how a process ends. -/
structure Ending where
  time : Nat
  manner : Termination
  reportable : manner.Reportable

/-- The clock and the children, with what is to become of them. -/
structure Timed where
  now : Nat
  /-- The process groups of the children that have not been collected. -/
  group : Pid → Option Pid
  positive : ∀ {p g}, group p = some g → 0 < p
  ends : Pid → Option Ending

namespace Timed

variable {k k' : Timed} {p p' g : Pid} {t t' : Nat}

/-- How a process ends, if it does so by the time `t`. -/
def endedBy (k : Timed) (t : Nat) (p : Pid) : Option Termination :=
  ((k.ends p).filter (·.time ≤ t)).map (·.manner)

def ended (k : Timed) (p : Pid) : Option Termination := k.endedBy k.now p

def children (k : Timed) : Children where
  process p := (k.group p).map (⟨·, k.ended p⟩)
  positive h := by
    obtain ⟨g, hg, -⟩ := Option.map_eq_some_iff.mp h
    exact k.positive hg

/-- The child has been collected. -/
def remove (k : Timed) (p : Pid) : Timed where
  now := k.now
  group := Function.update k.group p none
  positive {p' g} h := by
    by_cases e : p' = p
    · subst e
      rw [Function.update_self] at h
      cases h
    · rw [Function.update_of_ne e] at h
      exact k.positive h
  ends := k.ends

/-- The child that was found, if one was, has been collected. -/
def without (k : Timed) (found : Option Pid) : Timed := found.elim k k.remove

/-- A signal to the target is for the child, which lives. -/
def Reaches (k : Timed) (target p : Pid) : Prop :=
  ∃ q, k.children.process p = some q ∧ Children.Covers target p q ∧ q.ended = none

def answers (k : Timed) : (c : Call) → signature.Answer c → Timed → Prop
  | .monotonic, t, k' => t = k.now ∧ k' = k
  | .sleep nanos, _, k' => k' = { k with now := k.now + nanos }
  | .wait target, a, k' => ∃ found, k.children.Reveals target found a ∧ k' = k.without found
  | .peek target, a, k' => (∃ found, k.children.Reveals target found a) ∧ k' = k
  | .kill target _, .ok _, k' => (∃ p q, k.children.process p = some q ∧ Children.Covers target p q) ∧
    ∃ ends, k' = { k with ends := ends } ∧ (∀ p, ¬ k.Reaches target p → ends p = k.ends p) ∧
      ∀ p e, k.Reaches target p → ends p = some e → k.now ≤ e.time
  | .kill target _, .error e, k' => e = .noProcess ∧
    (∀ p q, k.children.process p = some q → ¬ Children.Covers target p q) ∧ k' = k
  | .fork _, _, _ | .awaitSignal _, _, _ => False
  | _, _, k' => k' = k

/-- The world of all the behaviour of such a kernel. -/
def world : World signature := ⟨Timed, fun _ _ => False, answers⟩

theorem eq_of_drifts (d : ReflTransGen world.Drifts k k') : k' = k :=
  World.eq_of_drifts (fun _ _ => id) d

/-- The calls that are answered. -/
def Answered : Call → Prop
  | .fork _ | .awaitSignal _ => False
  | _ => True

/-- Every other call has an answer. -/
theorem exists_answers (k : Timed) {c : Call} (hc : Answered c) : ∃ a k', k.answers c a k' := by
  cases c with
  | fork child => exact hc.elim
  | awaitSignal timeout => exact hc.elim
  | monotonic => exact ⟨_, _, rfl, rfl⟩
  | sleep nanos => exact ⟨(), _, rfl⟩
  | wait target =>
    obtain ⟨found, a, h⟩ := k.children.exists_reveals target
    exact ⟨a, _, found, h, rfl⟩
  | peek target =>
    obtain ⟨found, a, h⟩ := k.children.exists_reveals target
    exact ⟨a, _, ⟨found, h⟩, rfl⟩
  | kill target s =>
    by_cases h : ∃ p q, k.children.process p = some q ∧ Children.Covers target p q
    -- whoever is reached may as well never end
    · classical
      refine ⟨.ok (), _, h, fun p => if k.Reaches target p then none else k.ends p, rfl, fun p hp => if_neg hp, ?_⟩
      intro p e hp he
      cases (if_pos hp).symm.trans he
    · exact ⟨.error .noProcess, k, rfl, fun p q hp hc => h ⟨p, q, hp, hc⟩, rfl⟩
  | _ => exact ⟨refusal .tryAgain _, k, rfl⟩

/-! ## A single child -/

/-- Who has ended by then had its time before, and its manner. -/
theorem endedBy_eq_some_iff {m : Termination} :
    k.endedBy t p = some m ↔ ∃ e, k.ends p = some e ∧ e.time ≤ t ∧ e.manner = m := by
  simp [endedBy, and_assoc]

theorem endedBy_of_le {m : Termination} (h : k.endedBy t p = some m) (ht : t ≤ t') : k.endedBy t' p = some m := by
  obtain ⟨e, he, hle, rfl⟩ := endedBy_eq_some_iff.mp h
  exact endedBy_eq_some_iff.mpr ⟨e, he, Nat.le_trans hle ht, rfl⟩

theorem endedBy_congr (he : k'.ends p = k.ends p) : k'.endedBy t p = k.endedBy t p := by simp [endedBy, he]

theorem ended_congr (hn : k'.now = k.now) (he : k'.ends p = k.ends p) : k'.ended p = k.ended p := by
  rw [ended, ended, hn, endedBy_congr he]

/-- The entry for a child in the table. -/
theorem process_of_group (hp : k.group p = some g) : k.children.process p = some ⟨g, k.ended p⟩ := by
  simp [children, hp]

theorem exists_group_of_has (h : k.children.Has p) : ∃ g, k.group p = some g := by
  obtain ⟨q, hq⟩ := h
  obtain ⟨g, hg, -⟩ := Option.map_eq_some_iff.mp hq
  exact ⟨g, hg⟩

/-- No process ends in a way that cannot be reported. -/
theorem reportable_of_ended {m : Termination} (h : k.ended p = some m) : m.Reportable := by
  obtain ⟨e, -, -, rfl⟩ := endedBy_eq_some_iff.mp h
  exact e.reportable

/-- A look at a child finds whether it has ended, and how. -/
theorem eq_of_reveals {found : Option Pid} {a : Except Errno WaitStatus} (hp : k.group p = some g)
    (h : k.children.Reveals p found a) : found = (k.ended p).map (fun _ => p) ∧
      a = .ok ((k.ended p).elim .stillAlive (·.status p)) := by
  obtain ⟨hfound, rfl⟩ := h.eq_of_process (process_of_group hp)
  refine ⟨hfound, ?_⟩
  cases he : k.ended p with
  | none => rfl
  | some m => exact Termination.report_of_reportable (reportable_of_ended he)

/-- A look at a child is answered, and changes nothing. -/
theorem eq_of_answers_peek (hp : k.group p = some g) {a : Except Errno WaitStatus}
    (h : k.answers (.peek p) a k') : a = .ok ((k.ended p).elim .stillAlive (·.status p)) ∧ k' = k :=
  ⟨h.1.elim fun _ hr => (eq_of_reveals hp hr).2, h.2⟩

/-- The kernel after the attempt to collect a child, which works if that has ended. -/
def reaped (k : Timed) (p : Pid) : Timed := (k.ended p).elim k fun _ => k.remove p

@[simp] theorem reaped_now : (k.reaped p).now = k.now := by
  unfold reaped
  cases k.ended p <;> rfl

@[simp] theorem reaped_ends : (k.reaped p).ends = k.ends := by
  unfold reaped
  cases k.ended p <;> rfl

theorem reaped_of_none (h : k.ended p = none) : k.reaped p = k := by simp [reaped, h]

theorem reaped_group_of_ne (h : p' ≠ p) : (k.reaped p).group p' = k.group p' := by
  unfold reaped
  cases k.ended p with
  | none => rfl
  | some m => exact Function.update_of_ne h ..

/-- A wait for a child finds whether it has ended, and takes it away if so. -/
theorem eq_of_answers_wait (hp : k.group p = some g) {a : Except Errno WaitStatus}
    (h : k.answers (.wait p) a k') :
    a = .ok ((k.ended p).elim .stillAlive (·.status p)) ∧ k' = k.reaped p := by
  obtain ⟨found, hr, rfl⟩ := h
  obtain ⟨rfl, rfl⟩ := eq_of_reveals hp hr
  refine ⟨rfl, ?_⟩
  unfold without reaped
  cases k.ended p <;> rfl

/-- A signal to a child concerns nobody else. -/
theorem of_answers_kill (hp : k.group p = some g) {s : Signal} {a : Except Errno Unit}
    (h : k.answers (.kill p s) a k') :
    a = .ok () ∧ k'.now = k.now ∧ k'.group = k.group ∧ ∀ p' ≠ p, k'.ends p' = k.ends p' := by
  have hq := process_of_group hp
  cases a with
  | error e => exact absurd (.inr (.inl rfl)) (h.2.1 p _ hq)
  | ok u =>
    obtain ⟨-, ends, rfl, hothers, -⟩ := h
    refine ⟨rfl, rfl, rfl, fun p' hne => hothers p' ?_⟩
    rintro ⟨q, -, hc, -⟩
    exact hne (hc.eq (k.positive hp))

/-! ## What is done meanwhile -/

/-- What is told to processes and to the log, and the pauses. -/
inductive Deed where
  | sent (target : Pid) (signal : Signal)
  | slept (nanos : Nat)
  | warned (text : String)

def deedOf : (c : Call) → signature.Answer c → List Deed
  | .kill target s, _ => [.sent target s]
  | .sleep nanos, _ => [.slept nanos]
  | .log record, _ => if record.level = .warn then [.warned record.text] else []
  | _, _ => []

@[simp] theorem deedOf_wait {a : Except Errno WaitStatus} : deedOf (.wait p) a = [] := rfl

@[simp] theorem deedOf_peek {a : Except Errno WaitStatus} : deedOf (.peek p) a = [] := rfl

@[simp] theorem deedOf_monotonic : deedOf .monotonic t = [] := rfl

/-- The same kernel, where a list is kept of the deeds. -/
def watched : World signature := world.noting deedOf

theorem logs_watched : Logs watched (·.level ≠ .warn) := by
  refine Logs.noting (W := world) ?_ fun record u h => if_neg h
  intro record _ k k₁ d
  obtain rfl := eq_of_drifts d
  exact ⟨exists_answers _ trivial, fun a k₂ ha => ha⟩

variable {σ : Type} {n : Nat} {s : σ} {l : List Deed}

/-- A call is answered by the kernel as it is. -/
theorem succeeds_call {c : Call} {Q : Timed × List Deed → signature.Answer c → σ → Prop}
    (hc : Answered c) (h : ∀ a k', k.answers c a k' → Q (k', l ++ deedOf c a) a s) :
    Succeeds watched (ask c) Q n (k, l) s := by
  refine succeeds_ask_noting (W := world) fun k₁ d => ?_
  obtain rfl := eq_of_drifts d
  exact ⟨exists_answers _ hc, h⟩

end Timed

end ContainerInit.Kernel
