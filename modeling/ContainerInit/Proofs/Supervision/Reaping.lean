import ContainerInit.Proofs.Kernel.Standstill
import ContainerInit.Proofs.Supervision.Checking
import Mathlib.Data.Set.Card

/-! # Reaping

While no process changes, the collection of ended children comes to an end, in whatever order the kernel shows
them.  What it has done at any moment can be told from the children and the board (`Reaped`): a child that is
missing had ended, and its end is recorded with the service that held it, if there was one.

The loop takes a look at all children, collects the one that has been found, and looks again.  So it goes on
until a look shows none that has ended, unless one is found whose end cannot be reported.  Then the look fails
and the loop with it: that child stays where it is, and with it all those that have not been shown before.  Each
look may fall on it, and one of them must, as nobody else takes it away.  Therefore the loop ends with a value
if all ends can be reported, and with the error otherwise (`concludes_reapEnded`), and there is nothing between. -/

namespace ContainerInit.Supervision

open ContainerInit.Action Kernel Standstill

variable {σ : Type} {r : Registry} {sup : Supervisor} {n m : Nat} {k k₁ : Standstill} {c c₀ : Children} {s : σ}
  {b b₀ b' : Board r} {i : r.Id} {p : Pid} {q : Process} {t : Termination}

/-! ## One child -/

/-- What a look at all children tells is true of them. -/
def Tells (c : Children) : Supervisor.ChildState → Prop
  | .exited p => ∃ q t, c.process p = some q ∧ q.ended = some t ∧ t.Reportable
  | .running => (∀ p, ¬ c.HasEnded p) ∧ ∃ p, c.Has p
  | .noChildren => ∀ p, ¬ c.Has p

/-- The result is a value with `Q`, or the error of a look that has met an end that cannot be reported. -/
def UnlessConcealed {α : Type} (c : Children) (Q : α → Prop) : Except Error α → Prop
  | .ok a => Q a
  | .error e => e = .system .invalid ∧ c.Conceals (-1)

/-- As long as there are interruptions left, the look is taken again. -/
theorem concludes_peek (hn : k.interruptions < n) :
    Concludes Standstill.world (Supervisor.peek (-1)) (fun k' res s' => s' = s ∧ k.Became k' k.children ∧
      UnlessConcealed k.children (Tells k.children) res) n k s := by
  refine Concludes.repeatUntil (fun m (k₁ : Standstill) s' => s' = s ∧ k.Became k₁ k.children ∧ m = k₁.interruptions) ?_
    ⟨rfl, became_refl k, rfl⟩ hn
  rintro m k₁ s' ⟨rfl, hk, rfl⟩
  refine concludes_bind_of_succeeds (succeeds_ask fun (k₂ : Standstill) d =>
    ⟨exists_answers _ _, fun a k₃ ha => ?_⟩)
  obtain rfl := eq_of_drifts d
  cases looked_of_answers ha with
  | @ended p q t hp hq hk₃ =>
    subst hk₃
    rw [hk.children_eq] at hp
    by_cases ht : t.Reportable
    · rw [Termination.report_of_reportable ht]
      refine concludes_pure ⟨rfl, hk, ?_⟩
      rw [Termination.pid?_status]
      exact ⟨q, t, hp, hq, ht⟩
    · rw [Termination.report_of_not_reportable ht]
      exact concludes_throw ⟨rfl, hk, rfl, p, q, t, hp, .inl rfl, hq, ht⟩
  | stillAlive hp he hk₃ =>
    subst hk₃
    rw [hk.children_eq] at hp he
    exact concludes_pure ⟨rfl, hk, he, _, hp⟩
  | noChild hn hk₃ =>
    subst hk₃
    rw [hk.children_eq] at hn
    exact concludes_pure ⟨rfl, hk, hn⟩
  | interrupted hk₃ =>
    subst hk₃
    refine concludes_pure ⟨k₃.interruptions, Nat.lt_succ_self _, rfl, ?_, rfl⟩
    exact ⟨hk.children_eq, Nat.le_trans (Nat.le_succ _) hk.interruptions_le⟩

/-- Without a deadline a single look decides. -/
theorem concludes_awaitExit (hn : k.interruptions < n) :
    Concludes Standstill.world (Supervisor.awaitExit (-1) none) (fun k' res s' => s' = s ∧
      k.Became k' k.children ∧ UnlessConcealed k.children (Tells k.children) res) n k s := by
  refine Concludes.repeatUntil (fun _ k₁ s' => s' = s ∧ k₁ = k) ?_ ⟨rfl, rfl⟩ (Nat.zero_lt_of_lt hn)
  rintro _ _ _ ⟨rfl, rfl⟩
  refine (concludes_peek hn).bind (fun k₁ state s' h => ?_) fun _ _ _ h => h
  cases state <;> exact concludes_pure h

/-- A child that has ended in a way that can be reported is collected, and no other. -/
theorem succeeds_collect (hp : k.children.process p = some q) (hq : q.ended = some t) (ht : t.Reportable)
    (hn : k.interruptions < n) :
    Succeeds Standstill.world (Supervisor.collect p) (fun k' found s' => s' = s ∧
      found = ⟨true, some (t.status p)⟩ ∧ k.Became k' (k.children.remove p)) n k s := by
  refine Succeeds.iterate (fun m (k₁ : Standstill) last s' => s' = s ∧ k.Became k₁ k.children ∧ m = k₁.interruptions) ?_
    ⟨rfl, became_refl k, rfl⟩ hn
  rintro m k₁ last s' ⟨rfl, hk, rfl⟩
  refine succeeds_bind.mpr (succeeds_ask fun (k₂ : Standstill) d => ⟨exists_answers _ _, fun a k₃ ha => ?_⟩)
  obtain rfl := eq_of_drifts d
  rw [← hk.children_eq] at hp
  cases collected_of_answers hp hq ha with
  | ended hk₃ =>
    subst hk₃
    rw [Termination.report_of_reportable ht]
    split
    case h_1 heq => cases t <;> cases heq
    case h_2 status _ heq =>
      obtain rfl := Except.ok.inj heq
      refine succeeds_bind.mpr (logs_world.succeeds trivial ?_)
      rw [if_pos Termination.pid?_status]
      exact succeeds_pure ⟨rfl, rfl, congrArg (Children.remove · p) hk.children_eq, hk.interruptions_le⟩
    case h_3 heq => cases heq
  | interrupted hk₃ =>
    subst hk₃
    refine succeeds_pure ⟨k₃.interruptions, Nat.lt_succ_self _, rfl, ?_, rfl⟩
    exact ⟨hk.children_eq, Nat.le_trans (Nat.le_succ _) hk.interruptions_le⟩

/-- From the one board to the other, the end of a process is recorded with the service that held it. -/
def Records (p : Pid) (t : Termination) (b b' : Board r) : Prop :=
  ∀ i : r.Id, b'[i] = if b[i].pid = some p then b[i].ended t.code else b[i]

/-- The service that holds the process is the one with which its end is recorded. -/
theorem records_set (hd : Distinct b) (hi : b[i].pid = some p) : Records p t b (b.set i (b[i].ended t.code)) := by
  intro j
  by_cases e : i = j
  · subst e
    rw [Board.getElem_set_self, if_pos hi]
  · rw [Board.getElem_set_ne _ _ e, if_neg fun hj => e (hd i j p hi hj)]

/-- What has ended is collected, and recorded with the service that held it if there was one. -/
theorem succeeds_reapOne (hd : Distinct b) (hp : k.children.process p = some q) (hq : q.ended = some t)
    (ht : t.Reportable) (hn : k.interruptions < n) : Succeeds Standstill.world (reapOne p) (fun k' _ b' =>
      k.Became k' (k.children.remove p) ∧ Records p t b b') n k b := by
  refine succeeds_bind.mpr (succeeds_get ?_)
  cases ho : b.owner? p with
  | some i =>
    have hi : b[i].pid = some p := by simpa using List.find?_some ho
    refine (succeeds_checkProcess (some t) (logs_world.imp fun _ _ => trivial) hi
      (succeeds_collect hp hq ht hn)).bind ?_
    rintro k' running _ ⟨rfl, rfl, hk⟩
    exact succeeds_pure ⟨hk, records_set hd hi⟩
  | none =>
    have hi : ∀ i : r.Id, b[i].pid ≠ some p := fun i => by
      simpa using List.find?_eq_none.mp ho i (List.mem_finRange i)
    refine (succeeds_collect hp hq ht hn).bind ?_
    rintro k' found _ ⟨rfl, rfl, hk⟩
    exact logs_world.succeeds trivial ⟨hk, fun i => (if_neg (hi i)).symm⟩

/-! ## All children -/

/-- What has been done since the children were `c₀` and the board was `b₀`. -/
structure Reaped (c₀ : Children) (b₀ : Board r) (c : Children) (b : Board r) : Prop where
  /-- A child that is missing had ended, in a way that can be reported. -/
  child : ∀ p, c.process p = c₀.process p ∨
    c.process p = none ∧ ∃ q t, c₀.process p = some q ∧ q.ended = some t ∧ t.Reportable
  /-- A service that holds a process is as it was, and so is the process. -/
  held : ∀ (i : r.Id) p, b[i].pid = some p → b[i] = b₀[i] ∧ c.process p = c₀.process p
  /-- A service that holds none held none before, or one that is missing and whose end is recorded. -/
  freed : ∀ i : r.Id, b[i].pid = none → b[i] = b₀[i] ∨ ∃ p q t, b₀[i].pid = some p ∧
    c₀.process p = some q ∧ q.ended = some t ∧ c.process p = none ∧ b[i] = b₀[i].ended t.code

namespace Reaped

theorem refl : Reaped c b c b := ⟨fun _ => .inl rfl, fun _ _ _ => ⟨rfl, rfl⟩, fun _ _ => .inl rfl⟩

variable (hr : Reaped c₀ b₀ c b)

include hr

theorem distinct (hd : Distinct b₀) : Distinct b := fun i j p hi hj =>
  hd i j p ((hr.held i p hi).1 ▸ hi) ((hr.held j p hj).1 ▸ hj)

/-- What is still there is what it was. -/
theorem process_of_some (hp : c.process p = some q) : c₀.process p = some q := by
  rcases hr.child p with h | ⟨h, -⟩
  · exact h ▸ hp
  · cases h.symm.trans hp

/-- A child whose end cannot be reported has been there from the beginning. -/
theorem conceals (hc : c.Conceals (-1)) : c₀.Conceals (-1) := by
  obtain ⟨p, q, t, hp, hrest⟩ := hc
  exact ⟨p, q, t, hr.process_of_some hp, hrest⟩

/-- One child more is collected. -/
theorem remove (hp : c.process p = some q) (hq : q.ended = some t) (ht : t.Reportable) (hb : Records p t b b') :
    Reaped c₀ b₀ (c.remove p) b' := by
  have hp₀ := hr.process_of_some hp
  constructor
  · intro p'
    by_cases e : p' = p
    · subst e
      exact .inr ⟨Children.process_remove_self, q, t, hp₀, hq, ht⟩
    · rw [Children.process_remove_ne e]
      exact hr.child p'
  · intro i p' hi
    rw [hb i] at hi ⊢
    split at hi
    · cases hi
    · rename_i hne
      have hpp : p' ≠ p := by
        rintro rfl
        exact hne hi
      rw [if_neg hne, Children.process_remove_ne hpp]
      exact hr.held i p' hi
  · intro i hi
    rw [hb i] at hi ⊢
    split
    · rename_i hip
      have he := (hr.held i p hip).1
      exact .inr ⟨p, q, t, he ▸ hip, hp₀, hq, Children.process_remove_self, he ▸ rfl⟩
    · rename_i hne
      rw [if_neg hne] at hi
      refine (hr.freed i hi).imp_right ?_
      rintro ⟨p', q', t', hi₀, hp', hq', hgone, he⟩
      refine ⟨p', q', t', hi₀, hp', hq', ?_, he⟩
      have hpp : p' ≠ p := by
        rintro rfl
        cases hp.symm.trans hgone
      rwa [Children.process_remove_ne hpp]

/-- Once nothing is left that has ended, every child that had is missing. -/
theorem process_eq_none (hended : ∀ p, ¬ c.HasEnded p) (hp : c₀.HasEnded p) : c.process p = none := by
  obtain ⟨q, t, hq, ht⟩ := hp
  rcases hr.child p with he | ⟨he, -⟩
  · exact absurd ⟨q, t, he.trans hq, ht⟩ (hended p)
  · exact he

/-- Then no end was such that it cannot be reported. -/
theorem not_conceals (hended : ∀ p, ¬ c.HasEnded p) : ¬ c₀.Conceals (-1) := by
  rintro ⟨p, q, t, hp, -, hq, ht⟩
  rcases hr.child p with he | ⟨-, q', t', hp', hq', ht'⟩
  · exact hended p ⟨q, t, he.trans hp, hq⟩
  · obtain rfl := Option.some.inj (hp.symm.trans hp')
    obtain rfl := Option.some.inj (hq.symm.trans hq')
    exact ht ht'

/-- If the process of a service is missing, its end is recorded. -/
theorem recorded (hi : b₀[i].pid = some p) (hp : c₀.process p = some q) (hq : q.ended = some t)
    (hgone : c.process p = none) : b[i] = b₀[i].ended t.code := by
  cases hi' : b[i].pid with
  | some p' =>
    obtain ⟨he, hp'⟩ := hr.held i p' hi'
    obtain rfl : p' = p := Option.some.inj (hi'.symm.trans (he ▸ hi))
    cases hp.symm.trans (hp'.symm.trans hgone)
  | none =>
    rcases hr.freed i hi' with he | ⟨p', q', t', hi₀, hp', hq', -, he⟩
    · cases hi'.symm.trans (he ▸ hi)
    · obtain rfl := Option.some.inj (hi.symm.trans hi₀)
      obtain rfl := Option.some.inj (hp.symm.trans hp')
      obtain rfl := Option.some.inj (hq.symm.trans hq')
      exact he

/-- A service whose process is as it was is so itself. -/
theorem unchanged (hi : ∀ p, b₀[i].pid = some p → c.process p = c₀.process p) : b[i] = b₀[i] := by
  cases hi' : b[i].pid with
  | some p => exact (hr.held i p hi').1
  | none =>
    refine (hr.freed i hi').resolve_right ?_
    rintro ⟨p, q, t, hi₀, hp, -, hgone, -⟩
    cases hgone.symm.trans ((hi p hi₀).trans hp)

/-- Where no child is left, no service holds one. -/
theorem pid_eq_none (hheld : ∀ (i : r.Id) p, b₀[i].pid = some p → c₀.Has p) (hc : ∀ p, ¬ c.Has p) :
    b[i].pid = none := by
  cases hi : b[i].pid with
  | none => rfl
  | some p =>
    obtain ⟨he, hp⟩ := hr.held i p hi
    obtain ⟨q, hq⟩ := hheld i p (he ▸ hi)
    exact absurd ⟨q, hp.trans hq⟩ (hc p)

end Reaped

/-- Each round but the last collects a child that has ended, so that there are no more rounds than those. -/
theorem concludes_reapEnded (hd : Distinct b) (hfin : {p | k.children.HasEnded p}.Finite)
    (hn : k.interruptions + {p | k.children.HasEnded p}.ncard < n) :
    Concludes Standstill.world reapEnded (fun k' res b' => Reaped k.children b k'.children b' ∧
      UnlessConcealed k'.children (fun found => (∀ p, ¬ k'.children.HasEnded p) ∧
        (found = true ↔ ∀ p, ¬ k'.children.Has p)) res) n k b := by
  refine Concludes.repeatUntil (fun m (k₁ : Standstill) b₁ => Reaped k.children b k₁.children b₁ ∧
    k₁.interruptions ≤ k.interruptions ∧ {p | k₁.children.HasEnded p}.Finite ∧
    {p | k₁.children.HasEnded p}.ncard = m) ?_ ⟨.refl, Nat.le_refl _, hfin, rfl⟩
    (Nat.lt_of_le_of_lt (Nat.le_add_left _ _) hn)
  rintro m (k₁ : Standstill) b₁ ⟨hr, hle, hfin, rfl⟩
  have hn₁ : k₁.interruptions < n := Nat.lt_of_le_of_lt (Nat.le_trans hle (Nat.le_add_right _ _)) hn
  refine (concludes_awaitExit hn₁).bind ?_ ?_
  · rintro (k₂ : Standstill) state _ ⟨rfl, hk, ht⟩
    have hn₂ : k₂.interruptions < n := Nat.lt_of_le_of_lt hk.interruptions_le hn₁
    have ht : Tells k₁.children state := ht
    rw [← hk.children_eq] at hr hfin ht ⊢
    cases state with
    | noChildren => exact concludes_pure ⟨hr, fun p hp => ht p hp.has, iff_of_true rfl ht⟩
    | running =>
      obtain ⟨hended, p, hp⟩ := ht
      exact concludes_pure ⟨hr, hended, iff_of_false nofun fun h => h p hp⟩
    | exited p =>
      obtain ⟨q, t, hp, hq, ht⟩ := ht
      have hmem : k₂.children.HasEnded p := ⟨q, t, hp, hq⟩
      refine (succeeds_reapOne (hr.distinct hd) hp hq ht hn₂).bind_concludes ?_
      rintro (k₃ : Standstill) _ b₃ ⟨hk₃, hb⟩
      refine concludes_pure ⟨_, ?_, hk₃.children_eq ▸ hr.remove hp hq ht hb, ?_, ?_, rfl⟩
      · rw [hk₃.children_eq, endedSet_remove]
        exact Set.ncard_sdiff_singleton_lt_of_mem hmem hfin
      · exact Nat.le_trans hk₃.interruptions_le (Nat.le_trans hk.interruptions_le hle)
      · rw [hk₃.children_eq, endedSet_remove]
        exact hfin.sdiff
  · rintro (k₂ : Standstill) e _ ⟨rfl, hk, he⟩
    rw [← hk.children_eq] at hr he
    exact ⟨hr, he⟩

/-- If the services hold children, no two of them the same, and no process changes, then reaping comes to an end,
provided that its loops have enough rounds for the children that have ended and for the interruptions.

It collects nobody but children that have ended in a way that can be reported.  A service that held one of those
collected holds none any more, has the exit code of its process, or -1 if that was ended by a signal, and is
stopped if that was asked for and broken otherwise; a service whose process has not been collected is unchanged.

If every end can be reported it succeeds, and has collected all children that had ended.  The answer is whether
no child is left, and then no service holds a process.  Otherwise it fails. -/
theorem reap_collects_ended (sup : Supervisor) {c : Children} {b : Board r} (hd : Distinct b)
    (hheld : ∀ (i : r.Id) p, b[i].pid = some p → c.Has p) (hfin : {p | c.HasEnded p}.Finite)
    (interruptions : Nat) : ∃ bound, ∀ n ≥ bound, Concludes Standstill.world (reap sup false)
      (fun k res b' =>
        (∀ p, k.children.process p = c.process p ∨ k.children.process p = none ∧
          ∃ q t, c.process p = some q ∧ q.ended = some t ∧ t.Reportable) ∧
        (∀ (i : r.Id) p q t, b[i].pid = some p → c.process p = some q → q.ended = some t →
          k.children.process p = none →
          b'[i] = ⟨if b[i].stopRequested then .stopped else .broken, none, t.code, false⟩) ∧
        (∀ i : r.Id, (∀ p, b[i].pid = some p → k.children.process p = c.process p) → b'[i] = b[i]) ∧
        match res with
        | .ok found => ¬ c.Conceals (-1) ∧ (∀ p, c.HasEnded p → k.children.process p = none) ∧
          (found = true ↔ ∀ p, ¬ k.children.Has p) ∧ (found = true → ∀ i : r.Id, b'[i].pid = none)
        | .error e => e = .system .invalid ∧ c.Conceals (-1)) n ⟨c, interruptions⟩ b := by
  refine ⟨interruptions + {p | c.HasEnded p}.ncard + 1, fun n hn => ?_⟩
  refine (concludes_reapEnded hd hfin hn).bind ?_ ?_
  · rintro (k : Standstill) found b' ⟨hr, hended, hfound⟩
    exact concludes_pure ⟨hr.child, fun i p q t => hr.recorded, fun i => hr.unchanged, hr.not_conceals hended,
      fun p => hr.process_eq_none hended, hfound, fun h i => hr.pid_eq_none hheld (hfound.mp h)⟩
  · rintro (k : Standstill) e b' ⟨hr, rfl, hc⟩
    exact ⟨hr.child, fun i p q t => hr.recorded, fun i => hr.unchanged, rfl, hr.conceals hc⟩

/-- The process of a service, which has exited with code 3, beside an orphan that lives. -/
def mixedChildren : Children :=
  (Children.none.insert 100 (by decide) ⟨0, some (.exited 3)⟩).insert 200 (by decide) ⟨0, none⟩

/-- The service has been asked to stop. -/
def askedToStop : Board (Registry.single .always) := ⟨#v[⟨.running, some 100, 0, true⟩]⟩

/-- One child has exited, and an orphan lives. -/
theorem reap_collects_ended_mixed : ∃ bound, ∀ n ≥ bound, Concludes Standstill.world (reap ⟨[]⟩ false)
    (fun k res b' => res = .ok false ∧ k.children.process 100 = none ∧ k.children.Has 200 ∧
      b'[Registry.only .always] = ⟨.stopped, none, 3, false⟩) n ⟨mixedChildren, 2⟩ askedToStop := by
  have h100 : mixedChildren.process 100 = some ⟨0, some (.exited 3)⟩ :=
    (Children.process_insert_ne (by decide)).trans Children.process_insert_self
  have h200 : mixedChildren.process 200 = some ⟨0, none⟩ := Children.process_insert_self
  have hended : ∀ p, mixedChildren.HasEnded p → p = 100 := by
    rintro p ⟨q, t, hq, ht⟩
    have h200 : p ≠ 200 := by
      rintro rfl
      obtain rfl := Option.some.inj (h200.symm.trans hq)
      cases ht
    by_contra hne
    rw [mixedChildren, Children.process_insert_ne h200, Children.process_insert_ne hne] at hq
    cases hq
  have hreportable : ¬ mixedChildren.Conceals (-1) := by
    rintro ⟨p, q, t, hp, -, hq, ht⟩
    obtain rfl := hended p ⟨q, t, hp, hq⟩
    obtain rfl := Option.some.inj (h100.symm.trans hp)
    obtain rfl := Option.some.inj hq
    exact ht trivial
  have hpid : ∀ (i : (Registry.single .always).Id) p, askedToStop[i].pid = some p → p = 100 := by
    intro i p hi
    match i with
    | ⟨0, _⟩ => exact (Option.some.inj hi).symm
  have hone : ∀ i : Fin 1, Registry.only .always = i := fun i => Subsingleton.elim (0 : Fin 1) i
  have hd : Distinct askedToStop := fun i j _ _ _ => (hone i).symm.trans (hone j)
  obtain ⟨bound, hb⟩ := reap_collects_ended ⟨[]⟩ hd (fun i p hi => hpid i p hi ▸ ⟨_, h100⟩)
    ((Set.finite_singleton (100 : Pid)).subset hended) 2
  refine ⟨bound, fun n hn => (hb n hn).imp ?_⟩
  rintro (k : Standstill) res b' ⟨hchild, hrecorded, -, hres⟩
  cases res with
  | error e => exact absurd hres.2 hreportable
  | ok found =>
    obtain ⟨-, hgone, hfound, -⟩ := hres
    have h100' : k.children.process 100 = none := hgone 100 ⟨_, _, h100, rfl⟩
    have hhas : k.children.Has 200 := by
      refine ⟨_, ((hchild 200).resolve_right ?_).trans h200⟩
      rintro ⟨-, q, t, hq, ht, -⟩
      exact absurd (hended 200 ⟨q, t, hq, ht⟩) (by decide)
    have hno : found = false := Bool.eq_false_iff.mpr fun h => hfound.mp h 200 hhas
    exact ⟨congrArg _ hno, h100', hhas, hrecorded (Registry.only .always) 100 _ _ rfl h100 rfl h100'⟩

/-- An orphan that a signal without a name has ended. -/
def unnamedEnd : Children := Children.none.insert 100 (by decide) ⟨0, some (.signaled 34 false)⟩

/-- Where there is only this orphan to be collected, reaping does not succeed with any number of rounds. -/
theorem reap_fails_of_unnamedEnd : ¬ ∃ bound, ∀ n ≥ bound, Succeeds Standstill.world (reap ⟨[]⟩ false)
    (fun _ _ _ => True) n ⟨unnamedEnd, 0⟩ (Board.initial : Board (Registry.single .always)) := by
  rintro ⟨bound, hb⟩
  have h := hb (bound + 1) (Nat.le_succ bound)
  -- the first call is the look at all children, and this is how it may be answered
  have hlook : Standstill.answers ⟨unnamedEnd, 0⟩ (.peek (-1)) (.error .invalid) ⟨unnamedEnd, 0⟩ :=
    ⟨⟨some 100, .revealed (.ended (t := .signaled 34 false) rfl (.inl rfl) rfl)⟩, rfl⟩
  obtain ⟨v, hv, -⟩ := (h ⟨unnamedEnd, 0⟩ .refl).2 (.error .invalid) ⟨unnamedEnd, 0⟩ hlook
  cases hv

end ContainerInit.Supervision
