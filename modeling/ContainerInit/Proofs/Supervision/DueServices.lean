import ContainerInit.Proofs.Calendar.Stepping
import ContainerInit.Proofs.Registry.Dependencies
import ContainerInit.Supervision.Registry
import Mathlib.Data.List.Nodup
import Mathlib.Data.Nat.Find

/-! # Services that are due

A check of the schedule is for a window of minutes.  It goes from one minute to the next until it has passed the last,
and notes each service in the first minute that its schedule matches.

The scan is a recursion over the number of minutes in the window, which comes from the calendar: two instants have as
many minutes between them as their numbers say (`lt_windowSize_iff`).  What it notes is described without the scan
by `FirstMatch`, and the order of what it notes by `Earlier`.  Within a minute, services come by name, since that is
the order in which a registry has them. -/

namespace ContainerInit

namespace Calendar.Instant

variable {first last t u : Instant}

/-- A minute of the calendar from the one to the other, both included. -/
structure InWindow (first last t : Instant) : Prop where
  sound : t.Sound
  begun : first.order t ≠ .gt
  notOver : t.order last ≠ .gt

/-- A minute is not after another one if its number is not greater. -/
theorem order_ne_gt_iff (ht : t.Sound) (hu : u.Sound) : t.order u ≠ .gt ↔ t.minutes ≤ u.minutes := by
  rw [order_eq_compare ht hu]
  exact compare_le_iff_le

end Calendar.Instant

namespace Supervision

open Calendar

variable {r : Registry} {first last t u : Instant} {i : r.Id} {passed : List r.Id} {n k : Nat}

/-- The minutes that the scan goes through are those of the window, and no more. -/
theorem lt_windowSize_iff (hf : first.Sound) (hl : last.Sound) :
    k < windowSize first last ↔ (Instant.next^[k] first).order last ≠ .gt := by
  obtain ⟨hs, hm⟩ := hf.iterate_next k
  rw [Instant.order_ne_gt_iff hs hl, hm, windowSize]
  omega

/-- The minutes of the window are those that the scan goes through. -/
theorem inWindow_iff (hf : first.Sound) (hl : last.Sound) :
    Instant.InWindow first last t ↔ ∃ k < windowSize first last, Instant.next^[k] first = t := by
  constructor
  · rintro ⟨hs, hbegun, hover⟩
    have hle := (Instant.order_ne_gt_iff hf hs).mp hbegun
    obtain ⟨k, hk⟩ := Int.le.dest hle
    obtain ⟨hs', hm'⟩ := hf.iterate_next k
    obtain rfl := hs'.eq_of_minutes_eq hs (hm'.trans hk)
    exact ⟨k, (lt_windowSize_iff hf hl).mpr hover, rfl⟩
  · rintro ⟨k, hk, rfl⟩
    obtain ⟨hs, hm⟩ := hf.iterate_next k
    refine ⟨hs, (Instant.order_ne_gt_iff hf hs).mpr ?_, (lt_windowSize_iff hf hl).mp hk⟩
    omega

/-- Where the last minute is before the first, there is none between them. -/
theorem not_inWindow (hf : first.Sound) (hl : last.Sound) (h : first.order last = .gt) :
    ¬ Instant.InWindow first last t := by
  rintro ⟨hs, hbegun, hover⟩
  have hle := ((Instant.order_ne_gt_iff hf hs).mp hbegun).trans ((Instant.order_ne_gt_iff hs hl).mp hover)
  exact (Instant.order_ne_gt_iff hf hl).mpr hle h

/-- One of the expressions of the service matches the minute. -/
def Matched (r : Registry) (i : r.Id) (t : Instant) : Prop := ∃ e ∈ (r.service i).schedule.expressions, e.Matches t

/-- A service is due when one of its expressions matches. -/
theorem isDue_eq_true_iff : (r.service i).schedule.isDue t = true ↔ Matched r i t := by
  simp only [Cron.Schedule.isDue, Cron.Schedule.timed, List.any_eq_true, List.mem_filter, decide_eq_true_eq, Matched]
  refine exists_congr fun e => ⟨fun ⟨⟨he, _⟩, hm⟩ => ⟨he, hm⟩, fun ⟨he, hm⟩ => ⟨⟨he, ?_⟩, hm⟩⟩
  rw [hm.1]
  rfl

/-- In one minute, the services noted are those that match and have not been noted before. -/
theorem mem_dueAt_iff : i ∈ dueAt r passed t ↔ i ∉ passed ∧ Matched r i t := by
  simp [dueAt, Registry.ids, isDue_eq_true_iff]

/-- What the scan notes: each service with the first minute that its schedule matches. -/
theorem mem_firstDue_iff : (i, u) ∈ firstDue r n t passed ↔
    i ∉ passed ∧ ∃ k < n, u = Instant.next^[k] t ∧ Matched r i u ∧ ∀ j < k, ¬ Matched r i (Instant.next^[j] t) := by
  -- what is due in the first minute counts as passed in those that are left
  induction n generalizing t passed with
  | zero => simp [firstDue]
  | succ n ih =>
    rw [firstDue, List.mem_append, ih, List.mem_append, mem_dueAt_iff, List.mem_map]
    constructor
    · rintro (⟨j, hj, e⟩ | ⟨hi, k, hk, rfl, hm, hbefore⟩)
      · cases e
        obtain ⟨hi, hm⟩ := mem_dueAt_iff.mp hj
        exact ⟨hi, 0, Nat.succ_pos n, rfl, hm, nofun⟩
      · rw [not_or, not_and] at hi
        refine ⟨hi.1, k + 1, Nat.succ_lt_succ hk, rfl, hm, fun j hj => ?_⟩
        cases j with
        | zero => exact hi.2 hi.1
        | succ j => exact hbefore j (Nat.lt_of_succ_lt_succ hj)
    · rintro ⟨hi, k, hk, rfl, hm, hbefore⟩
      cases k with
      | zero => exact .inl ⟨i, mem_dueAt_iff.mpr ⟨hi, hm⟩, rfl⟩
      | succ k =>
        refine .inr ⟨not_or.mpr ⟨hi, fun h => hbefore 0 (Nat.succ_pos k) h.2⟩, k, Nat.lt_of_succ_lt_succ hk, rfl, hm, ?_⟩
        exact fun j hj => hbefore (j + 1) (Nat.succ_lt_succ hj)

/-- Earlier minute first, and in the same minute by name. -/
def Earlier (x y : r.Id × Instant) : Prop :=
  x.2.minutes < y.2.minutes ∨ x.2 = y.2 ∧ (r.service x.1).name < (r.service y.1).name

/-- The scan goes forward, and through the names in each minute. -/
theorem pairwise_firstDue (ht : t.Sound) : (firstDue r n t passed).Pairwise Earlier := by
  induction n generalizing t passed with
  | zero => exact .nil
  | succ n ih =>
    refine List.pairwise_append.mpr ⟨?_, ih ht.next.1, ?_⟩
    · rw [List.pairwise_map]
      have hids : r.ids.Pairwise (· < ·) := List.pairwise_lt_finRange _
      exact (hids.filter _).imp fun h => .inr ⟨rfl, Registry.name_lt_name h⟩
    · rintro x hx ⟨i, u⟩ hy
      obtain ⟨j, -, rfl⟩ := List.mem_map.mp hx
      obtain ⟨-, k, -, rfl, -⟩ := mem_firstDue_iff.mp hy
      refine .inl ?_
      change t.minutes < _
      rw [(ht.next.1.iterate_next k).2, ht.next.2]
      omega

/-! ## The services of a window -/

/-- The services that a check is to start, with their minutes. -/
def dueWithin (r : Registry) (first last : Instant) : List (r.Id × Instant) :=
  firstDue r (windowSize first last) first []

/-- The first minute of the window that the service's schedule matches. -/
structure FirstMatch (r : Registry) (first last : Instant) (i : r.Id) (t : Instant) : Prop where
  inWindow : Instant.InWindow first last t
  matched : Matched r i t
  least : ∀ u, Instant.InWindow first last u → Matched r i u → t.order u ≠ .gt

/-- What a check is to start are the services that match in its window, with the first minute. -/
theorem mem_dueWithin_iff (hf : first.Sound) (hl : last.Sound) :
    (i, t) ∈ dueWithin r first last ↔ FirstMatch r first last i t := by
  rw [dueWithin, mem_firstDue_iff, and_iff_right List.not_mem_nil]
  constructor
  · rintro ⟨k, hk, rfl, hm, hbefore⟩
    obtain ⟨hs, hminutes⟩ := hf.iterate_next k
    refine ⟨(inWindow_iff hf hl).mpr ⟨k, hk, rfl⟩, hm, fun u hu hmu => ?_⟩
    obtain ⟨j, hj, rfl⟩ := (inWindow_iff hf hl).mp hu
    obtain ⟨hs', hminutes'⟩ := hf.iterate_next j
    have hkj : k ≤ j := not_lt.mp fun hjk => hbefore j hjk hmu
    rw [Instant.order_ne_gt_iff hs hs']
    omega
  · rintro ⟨hw, hm, hleast⟩
    obtain ⟨k, hk, rfl⟩ := (inWindow_iff hf hl).mp hw
    refine ⟨k, hk, rfl, hm, fun j hj hmj => ?_⟩
    obtain ⟨hs, hminutes⟩ := hf.iterate_next k
    obtain ⟨hs', hminutes'⟩ := hf.iterate_next j
    have hle := (Instant.order_ne_gt_iff hs hs').mp
      (hleast _ ((inWindow_iff hf hl).mpr ⟨j, hj.trans hk, rfl⟩) hmj)
    omega

/-- A service has no more than one first minute. -/
theorem FirstMatch.unique (h : FirstMatch r first last i t) (h' : FirstMatch r first last i u) : t = u := by
  have hle := (Instant.order_ne_gt_iff h.inWindow.sound h'.inWindow.sound).mp (h.least u h'.inWindow h'.matched)
  have hge := (Instant.order_ne_gt_iff h'.inWindow.sound h.inWindow.sound).mp (h'.least t h.inWindow h.matched)
  exact h.inWindow.sound.eq_of_minutes_eq h'.inWindow.sound (le_antisymm hle hge)

/-- A service is due if its schedule matches any minute of the window. -/
theorem mem_map_dueWithin_iff (hf : first.Sound) (hl : last.Sound) :
    i ∈ (dueWithin r first last).map Prod.fst ↔ ∃ t, Instant.InWindow first last t ∧ Matched r i t := by
  constructor
  · intro hi
    obtain ⟨⟨_, t⟩, hm, rfl⟩ := List.mem_map.mp hi
    have hfirst := (mem_dueWithin_iff hf hl).mp hm
    exact ⟨t, hfirst.inWindow, hfirst.matched⟩
  · rintro ⟨t, hw, hm⟩
    obtain ⟨k, hk, rfl⟩ := (inWindow_iff hf hl).mp hw
    have hex : ∃ k, k < windowSize first last ∧ Matched r i (Instant.next^[k] first) := ⟨k, hk, hm⟩
    classical
    refine List.mem_map.mpr ⟨(i, Instant.next^[Nat.find hex] first), ?_, rfl⟩
    obtain ⟨hk', hm'⟩ := Nat.find_spec hex
    refine mem_firstDue_iff.mpr ⟨List.not_mem_nil, Nat.find hex, hk', rfl, hm', fun j hj hmj => ?_⟩
    exact Nat.find_min hex hj ⟨hj.trans hk', hmj⟩

theorem pairwise_dueWithin (hf : first.Sound) : (dueWithin r first last).Pairwise Earlier := pairwise_firstDue hf

/-- No service is to be started twice by one check. -/
theorem nodup_map_dueWithin (hf : first.Sound) (hl : last.Sound) :
    ((dueWithin r first last).map Prod.fst).Nodup := by
  rw [List.Nodup, List.pairwise_map]
  refine ((pairwise_dueWithin hf).imp_of_mem ?_)
  rintro ⟨i, t⟩ ⟨j, u⟩ hx hy (hlt | ⟨-, hlt⟩) rfl
  · have htu := ((mem_dueWithin_iff hf hl).mp hx).unique ((mem_dueWithin_iff hf hl).mp hy)
    subst htu
    exact lt_irrefl _ hlt
  · exact String.lt_irrefl _ hlt

end Supervision

end ContainerInit
