import ContainerInit.Proofs.Kernel.Standstill
import ContainerInit.Supervision.Supervisor
import Mathlib.Data.Set.Card

/-! # Collecting the members of a target

One loop serves every target, a single process as well as a group or all children.  As long as no process
changes, it takes away the members that have ended, each of them once, and leaves everybody else.  It ends
when the one process has been collected, when only members that live are left, or when there is none.

It ends sooner where a wait meets a member whose end cannot be reported.  The wait fails then, and the loop
passes the error on; but the kernel has let go of that member, so that it is missing afterwards although it is
not among those that were collected with a status (`Missed`).  What is certain is that this happens if there is
such a member, since nothing else would end the loop before that member has been met. -/

namespace ContainerInit.Supervision

open ContainerInit.Action Kernel Standstill

variable {σ : Type} {n : Nat} {k : Standstill} {c₀ c : Children} {s : σ} {target p : Pid} {q : Process}
  {t : Termination} {l : List WaitStatus} {status : WaitStatus}

/-- The status of a child that is collected. -/
def statusOf : (call : Kernel.Call) → Kernel.signature.Answer call → List WaitStatus
  | .wait _, .ok status => if status.pid?.isSome then [status] else []
  | _, _ => []

theorem statusOf_ended : statusOf (.wait target) (.ok (t.status p)) = [t.status p] := by simp [statusOf]

@[simp] theorem statusOf_stillAlive : statusOf (.wait target) (.ok .stillAlive) = [] := rfl

@[simp] theorem statusOf_error {e : Errno} : statusOf (.wait target) (.error e) = [] := rfl

/-- From the one table to the other, children of the target have been taken away that had ended, with these
statuses, and all others are left. -/
structure Taken (c₀ : Children) (target : Pid) (l : List WaitStatus) (c : Children) : Prop where
  member : ∀ status ∈ l, ∃ p q t, status = t.status p ∧ c₀.process p = some q ∧ Children.Covers target p q ∧
    q.ended = some t ∧ t.Reportable
  once : (l.map WaitStatus.pid?).Nodup
  gone : ∀ status ∈ l, ∀ p, status.pid? = some p → c.process p = none
  left : ∀ p, (∀ status ∈ l, status.pid? ≠ some p) → c.process p = c₀.process p

/-- No member of the target is left that has ended. -/
def Cleared (c : Children) (target : Pid) : Prop :=
  ∀ p q, c.process p = some q → Children.Covers target p q → q.ended = none

namespace Taken

theorem refl : Taken c target [] c := ⟨nofun, List.nodup_nil, nofun, fun _ _ => rfl⟩

variable (ht : Taken c₀ target l c)

include ht

theorem pid?_ne (hp : c.process p = some q) (hs : status ∈ l) : status.pid? ≠ some p := by
  intro he
  cases hp.symm.trans (ht.gone status hs p he)

theorem process_of_some (hp : c.process p = some q) : c₀.process p = some q := by
  rw [← ht.left p fun status hs => ht.pid?_ne hp hs]
  exact hp

/-- One more is taken away. -/
theorem concat (hp : c.process p = some q) (hc : Children.Covers target p q) (hq : q.ended = some t)
    (hrep : t.Reportable) : Taken c₀ target (l ++ [t.status p]) (c.remove p) where
  member status hs := by
    rcases List.mem_append.mp hs with hs | hs
    · exact ht.member status hs
    · exact ⟨p, q, t, List.mem_singleton.mp hs, ht.process_of_some hp, hc, hq, hrep⟩
  once := by
    rw [List.map_append, List.map_singleton, Termination.pid?_status]
    refine List.nodup_append.mpr ⟨ht.once, List.nodup_singleton _, ?_⟩
    intro pid? hm _ hp' he
    obtain ⟨status, hs, rfl⟩ := List.mem_map.mp hm
    exact ht.pid?_ne hp hs (he.trans (List.mem_singleton.mp hp'))
  gone status hs p' hp' := by
    by_cases e : p' = p
    · subst e
      exact Children.process_remove_self
    · rw [Children.process_remove_ne e]
      rcases List.mem_append.mp hs with hs | hs
      · exact ht.gone status hs p' hp'
      · obtain rfl := List.mem_singleton.mp hs
        rw [Termination.pid?_status] at hp'
        exact absurd (Option.some.inj hp').symm e
  left p' hn := by
    have hne : p' ≠ p := by
      rintro rfl
      exact hn _ (List.mem_append_right _ (.head _)) Termination.pid?_status
    rw [Children.process_remove_ne hne]
    exact ht.left p' fun status hs => hn status (List.mem_append_left _ hs)

/-- Once no member is left that has ended, all that had are among those taken away. -/
theorem mem_of_cleared (hcl : Cleared c target) (hp : c₀.process p = some q) (hc : Children.Covers target p q)
    (hq : q.ended = some t) : t.status p ∈ l := by
  by_contra hn
  have hleft : c.process p = some q := by
    rw [ht.left p fun status hs he => ?_]
    · exact hp
    · obtain ⟨p', q', t', rfl, hp', -, hq', -⟩ := ht.member status hs
      rw [Termination.pid?_status] at he
      obtain rfl := Option.some.inj he
      obtain rfl := Option.some.inj (hp.symm.trans hp')
      obtain rfl := Option.some.inj (hq.symm.trans hq')
      exact hn hs
  cases (hcl p q hleft hc).symm.trans hq

/-- Of a single process there is one status at most. -/
theorem length_le_one (hpos : 0 < target) : l.length ≤ 1 := by
  have hall : ∀ a ∈ l.map WaitStatus.pid?, a = some target := by
    intro a ha
    obtain ⟨status, hs, rfl⟩ := List.mem_map.mp ha
    obtain ⟨p, q, t, rfl, -, hc, -, -⟩ := ht.member status hs
    rw [Termination.pid?_status, hc.eq hpos]
  have hlen := List.eq_replicate_of_mem hall
  have hnodup := ht.once
  rw [hlen, List.nodup_replicate] at hnodup
  rwa [List.length_map] at hnodup

end Taken

/-- What the end of the loop tells of the target. -/
def Reported (target : Pid) (l : List WaitStatus) (c : Children) (found : Supervisor.Collected) : Prop :=
  Cleared c target ∧ (found.gone = true ↔ ∀ p q, c.process p = some q → ¬ Children.Covers target p q) ∧
    found.status = l.getLast?

/-- The process that the target names has been collected. -/
theorem not_covers_remove (hpos : 0 < target) (hp : (c.remove target).process p = some q) :
    ¬ Children.Covers target p q := by
  intro hc
  obtain rfl := hc.eq hpos
  rw [Children.process_remove_self] at hp
  cases hp

theorem logs_noting : Logs (Standstill.world.noting statusOf) fun _ => True := logs_world.noting fun _ _ _ => rfl

/-- From the one table to the other, one more child of the target is missing, whose end could not be reported. -/
def Missed (c₀ : Children) (target : Pid) (l : List WaitStatus) (c : Children) : Prop :=
  ∃ c₁ p q t, Taken c₀ target l c₁ ∧ c₁.process p = some q ∧ Children.Covers target p q ∧ q.ended = some t ∧
    ¬ t.Reportable ∧ c = c₁.remove p

/-- A member whose end could not be reported was one to begin with. -/
theorem Missed.conceals (hm : Missed c₀ target l c) : c₀.Conceals target := by
  obtain ⟨c₁, p, q, t, ht, hp, hrest⟩ := hm
  exact ⟨p, q, t, ht.process_of_some hp, hrest.1, hrest.2.1, hrest.2.2.1⟩

/-- Whose status has been taken has ended in a way that can be reported, so that all have once all are taken. -/
theorem Taken.not_conceals (ht : Taken c₀ target l c) (hcl : Cleared c target) : ¬ c₀.Conceals target := by
  rintro ⟨p, q, t, hp, hc, hq, hnot⟩
  obtain ⟨p', q', t', he, hp', -, hq', hrep⟩ := ht.member _ (ht.mem_of_cleared hcl hp hc hq)
  obtain ⟨rfl, rfl⟩ := Termination.status_inj.mp he
  exact hnot hrep

/-- A round takes away one more member, takes one of the interruptions, or it is the last. -/
theorem concludes_collectOnce (ht : Taken c₀ target l k.children) :
    Concludes (Standstill.world.noting statusOf) (Supervisor.collectOnce target l.getLast?) (fun k' res s' =>
      s' = s ∧ match res with
        | .ok (.again last) => Taken c₀ target k'.2 k'.1.children ∧ last = k'.2.getLast? ∧
          (k = ⟨k'.1.children, k'.1.interruptions + 1⟩ ∨
            ∃ p, k.children.HasEnded p ∧ k'.1 = ⟨k.children.remove p, k.interruptions⟩)
        | .ok (.finish found) => Taken c₀ target k'.2 k'.1.children ∧ Reported target k'.2 k'.1.children found
        | .error e => e = .system .invalid ∧ Missed c₀ target k'.2 k'.1.children) n (k, l) s := by
  refine concludes_bind_of_succeeds (succeeds_ask_noting (W := Standstill.world) fun k₁ d => ?_)
  obtain rfl := eq_of_drifts d
  refine ⟨exists_answers _ _, fun a k₂ ha => ?_⟩
  cases waited_of_answers ha with
  | @ended p q t hp hc hq hk =>
    subst hk
    by_cases hrep : t.Reportable
    · rw [Termination.report_of_reportable hrep, statusOf_ended]
      have ht' := ht.concat hp hc hq hrep
      split
      case h_1 heq => cases t <;> cases heq
      case h_2 status _ heq =>
        obtain rfl := Except.ok.inj heq
        refine concludes_bind_of_succeeds (logs_noting.succeeds trivial ?_)
        rw [Termination.pid?_status]
        split
        case isTrue he =>
          obtain rfl := Option.some.inj he
          refine concludes_pure ⟨rfl, ht', ?_, ?_, ?_⟩
          · exact fun p' q' hp' hc' => absurd hc' (not_covers_remove (k₁.children.positive hp) hp')
          · exact iff_of_true rfl fun p' q' hp' => not_covers_remove (k₁.children.positive hp) hp'
          · exact List.getLast?_concat.symm
        case isFalse =>
          exact concludes_pure ⟨rfl, ht', List.getLast?_concat.symm, .inr ⟨p, ⟨q, t, hp, hq⟩, rfl⟩⟩
      case h_3 heq => cases heq
    · rw [Termination.report_of_not_reportable hrep, statusOf_error, List.append_nil]
      exact concludes_throw ⟨rfl, rfl, k₁.children, p, q, t, ht, hp, hc, hq, hrep, rfl⟩
  | @stillAlive p q hp hc hne hk =>
    subst hk
    rw [statusOf_stillAlive, List.append_nil]
    exact concludes_pure ⟨rfl, ht, hne, iff_of_false nofun fun hn => hn p q hp hc, rfl⟩
  | noChild hn hk =>
    subst hk
    rw [statusOf_error, List.append_nil]
    exact concludes_pure ⟨rfl, ht, fun p q hp hc => absurd hc (hn p q hp), iff_of_true rfl hn, rfl⟩
  | interrupted hk =>
    subst hk
    rw [statusOf_error, List.append_nil]
    exact concludes_pure ⟨rfl, ht, rfl, .inl rfl⟩

/-- As long as no process changes, collecting the children of a target comes to an end, provided that the loop has
enough rounds for the children that have ended and for the interruptions.

If the end of every member that has ended can be reported, it succeeds.  The statuses collected are those of
members that had ended, each once, so that there is at most one if the target is a single process; everybody else
is left, but no member that had ended.  The answer is whether no member is left at all, with the last of those
statuses if there is one.

Otherwise it fails.  One member whose end cannot be reported is missing then, besides those whose statuses have
been collected, and everybody else is left. -/
theorem collect_members (target : Pid) {c : Children} (hfin : {p | c.HasEnded p}.Finite) (interruptions : Nat) :
    ∃ bound, ∀ n ≥ bound, ∀ s : σ, Concludes (Standstill.world.noting statusOf) (Supervisor.collect target)
      (fun k res s' => s' = s ∧ match res with
        | .ok found => ¬ c.Conceals target ∧ Taken c target k.2 k.1.children ∧
          (0 < target → k.2.length ≤ 1) ∧
          (∀ p q t, c.process p = some q → Children.Covers target p q → q.ended = some t → t.status p ∈ k.2) ∧
          (found.gone = true ↔ ∀ p q, k.1.children.process p = some q → ¬ Children.Covers target p q) ∧
          found.status = k.2.getLast?
        | .error e => e = .system .invalid ∧ c.Conceals target ∧ Missed c target k.2 k.1.children) n
      (⟨c, interruptions⟩, []) s := by
  refine ⟨interruptions + {p | c.HasEnded p}.ncard + 1, fun n hn s => ?_⟩
  -- each round but the last takes one of the interruptions or one of the children that have ended
  refine Concludes.iterate (fun m (k : Standstill × List WaitStatus) last s' => s' = s ∧
    Taken c target k.2 k.1.children ∧ last = k.2.getLast? ∧ {p | k.1.children.HasEnded p}.Finite ∧
    m = k.1.interruptions + {p | k.1.children.HasEnded p}.ncard) ?_ ⟨rfl, .refl, rfl, hfin, rfl⟩ hn
  rintro m ⟨k, l⟩ last s' ⟨rfl, ht, rfl, hfin, rfl⟩
  refine (concludes_collectOnce ht).imp ?_
  rintro ⟨k', l'⟩ res s' ⟨rfl, hres⟩
  rcases res with e | last | found
  · obtain ⟨rfl, hm⟩ := hres
    exact ⟨rfl, rfl, hm.conceals, hm⟩
  · obtain ⟨ht', rfl, rfl | ⟨p, hp, rfl⟩⟩ := hres
    · exact ⟨_, Nat.add_lt_add_right (Nat.lt_succ_self _) _, rfl, ht', rfl, hfin, rfl⟩
    · refine ⟨_, Nat.add_lt_add_left ?_ _, rfl, ht', rfl, ?_, rfl⟩
      · rw [endedSet_remove]
        exact Set.ncard_sdiff_singleton_lt_of_mem hp hfin
      · rw [endedSet_remove]
        exact hfin.sdiff
  · obtain ⟨ht', hcl, hgone, hstatus⟩ := hres
    exact ⟨rfl, ht'.not_conceals hcl, ht', ht'.length_le_one, fun p q t => ht'.mem_of_cleared hcl, hgone, hstatus⟩

/-- Two processes of a group, one of which has exited with code 3, beside another group that has ended. -/
def groupedChildren : Children :=
  ((Children.none.insert 300 (by decide) ⟨7, some (.exited 3)⟩).insert 301 (by decide) ⟨7, none⟩).insert 302
    (by decide) ⟨8, some (.exited 0)⟩

theorem groupedChildren_cases (hp : groupedChildren.process p = some q) :
    p = 302 ∧ q = ⟨8, some (.exited 0)⟩ ∨ p = 301 ∧ q = ⟨7, none⟩ ∨ p = 300 ∧ q = ⟨7, some (.exited 3)⟩ := by
  rcases Children.process_insert_cases hp with h | hp
  · exact .inl h
  · rcases Children.process_insert_cases hp with h | hp
    · exact .inr (.inl h)
    · exact .inr (.inr ((Children.process_insert_cases hp).resolve_right nofun))

/-- Of that group, only the one has ended. -/
theorem eq_of_covers_group (hp : groupedChildren.process p = some q) (hc : Children.Covers (-7) p q)
    (hq : q.ended = some t) : p = 300 ∧ t = .exited 3 := by
  rcases groupedChildren_cases hp with ⟨rfl, rfl⟩ | ⟨rfl, rfl⟩ | ⟨rfl, rfl⟩
  · rcases hc with hc | hc | ⟨-, hc⟩ <;> exact absurd hc (by decide)
  · cases hq
  · exact ⟨rfl, (Option.some.inj hq).symm⟩

theorem finite_groupedChildren : {p | groupedChildren.HasEnded p}.Finite := by
  refine (Set.toFinite {300, 302}).subset ?_
  rintro p ⟨q, t, hp, hq⟩
  rcases groupedChildren_cases hp with ⟨rfl, -⟩ | ⟨rfl, rfl⟩ | ⟨rfl, -⟩
  · exact .inr rfl
  · cases hq
  · exact .inl rfl

theorem not_conceals_groupedChildren : ¬ groupedChildren.Conceals (-7) := by
  rintro ⟨p, q, t, hp, hc, hq, ht⟩
  obtain ⟨-, rfl⟩ := eq_of_covers_group hp hc hq
  exact ht trivial

/-- A group of two, of which one has exited. -/
theorem collect_members_group : ∃ bound, ∀ n ≥ bound, ∀ s : Unit,
    Concludes (Standstill.world.noting statusOf) (Supervisor.collect (-7)) (fun k res _ =>
      res = .ok ⟨false, some (.exited 300 3)⟩ ∧ k.1.children.process 300 = none ∧
        k.1.children.process 301 = some ⟨7, none⟩ ∧ k.1.children.process 302 = some ⟨8, some (.exited 0)⟩)
      n (⟨groupedChildren, 1⟩, []) s := by
  have h300 : groupedChildren.process 300 = some ⟨7, some (.exited 3)⟩ := rfl
  have h301 : groupedChildren.process 301 = some ⟨7, none⟩ := rfl
  obtain ⟨bound, hb⟩ := collect_members (σ := Unit) (-7) finite_groupedChildren 1
  refine ⟨bound, fun n hn s => (hb n hn s).imp ?_⟩
  rintro ⟨k, l⟩ res s' ⟨-, hres⟩
  cases res with
  | error e => exact absurd hres.2.1 not_conceals_groupedChildren
  | ok found =>
    obtain ⟨gone, status⟩ := found
    obtain ⟨-, ht, -, hall, hgone, hstatus⟩ := hres
    have hmem : WaitStatus.exited 300 3 ∈ l := hall 300 _ (.exited 3) h300 (.inr (.inr ⟨by decide, rfl⟩)) rfl
    have honly : ∀ status ∈ l, status = .exited 300 3 := by
      intro status hs
      obtain ⟨p, q, t, rfl, hp, hc, hq, -⟩ := ht.member status hs
      obtain ⟨rfl, rfl⟩ := eq_of_covers_group hp hc hq
      rfl
    have hleft : ∀ p, p ≠ 300 → k.children.process p = groupedChildren.process p := by
      intro p hp
      refine ht.left p fun status hs he => hp ?_
      rw [honly status hs] at he
      exact (Option.some.inj he).symm
    refine ⟨?_, ht.gone _ hmem 300 rfl, (hleft 301 (by decide)).trans h301, (hleft 302 (by decide)).trans rfl⟩
    have hlast : l.getLast? = some (.exited 300 3) := by
      obtain ⟨status, hs⟩ := Option.ne_none_iff_exists'.mp (mt List.getLast?_eq_none_iff.mp (List.ne_nil_of_mem hmem))
      rw [hs, honly status (List.mem_of_getLast? hs)]
    have hnot : gone = false := by
      refine Bool.eq_false_iff.mpr fun hg => hgone.mp hg 301 _ ((hleft 301 (by decide)).trans h301) ?_
      exact .inr (.inr ⟨by decide, rfl⟩)
    rw [hnot, show status = _ from hstatus, hlast]

/-- A process that a signal without a name has ended, beside one that has exited. -/
def unnamedBesideExited : Children :=
  (Children.none.insert 300 (by decide) ⟨0, some (.signaled 34 false)⟩).insert 301 (by decide) ⟨0, some (.exited 3)⟩

/-- Where these are to be collected, the collection does not succeed with any number of rounds. -/
theorem collect_fails_of_unnamedEnd : ¬ ∃ bound, ∀ n ≥ bound, Succeeds (Standstill.world.noting statusOf)
    (Supervisor.collect (-1)) (fun _ _ _ => True) n (⟨unnamedBesideExited, 0⟩, []) () := by
  rintro ⟨bound, hb⟩
  have h := hb (bound + 1) (Nat.le_succ bound)
  -- the first call is a wait, and this is how it may be answered
  have hwait : Standstill.answers ⟨unnamedBesideExited, 0⟩ (.wait (-1)) (.error .invalid)
      ⟨unnamedBesideExited.remove 300, 0⟩ :=
    ⟨some 300, .revealed (.ended (t := .signaled 34 false) rfl (.inl rfl) rfl), rfl⟩
  obtain ⟨v, hv, -⟩ := (h (⟨unnamedBesideExited, 0⟩, []) .refl).2 (.error .invalid)
    (⟨unnamedBesideExited.remove 300, 0⟩, []) ⟨hwait, rfl⟩
  cases hv

end ContainerInit.Supervision
