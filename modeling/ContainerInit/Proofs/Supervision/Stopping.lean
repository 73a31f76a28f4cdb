import ContainerInit.Proofs.Kernel.Family
import ContainerInit.Proofs.Registry.StopOrder
import ContainerInit.Proofs.Supervision.Ownership

/-! # Stopping services

While services are stopped none of them comes to a process (`Within`), and only single processes are
signalled and collected (`Targeted`).  If all services are reported to be stopped, none of them has a process
left.

The kernel is that of a `Family`, and a wait in it may lose the child that it has collected.  A service keeps
the number of such a child, so what is known about the processes of services is `Owned True`: each of them is
a child, or a wait for it has failed in that way.  Nothing is forked while services are stopped, and so the
number does not come to another service meanwhile.

What the history shows is a parameter `H` here, since the stopping of services serves the shutdown in two
places.  All that is asked of it is that the exchanges which stopping consists of leave it as it is
(`Unmoved`).  `Remaining` puts the three together, and is kept by everything that keeps the regimes which serve
stops (`Remaining.assures`); what an operation answers is a second matter, which depends on no world at all
(`assures_checkProcess_false` and those after it). -/

namespace ContainerInit.Supervision

open ContainerInit.Action Kernel

variable {r : Registry} {α : Type} {n : Nat} {h : History (Board r)} {H : History (Board r) → Prop}
  {b b₀ b₁ : Board r} {i : r.Id}

/-- Every process of a service was that of the same service on the other board. -/
def Within (b b₀ : Board r) : Prop := ∀ (i : r.Id) p, b[i].pid = some p → b₀[i].pid = some p

namespace Within

theorem refl (b : Board r) : Within b b := fun _ _ => id

theorem trans (h : Within b b₁) (h₁ : Within b₁ b₀) : Within b b₀ := fun i p hp => h₁ i p (h i p hp)

theorem eq_none (h : Within b b₀) (hi : b₀[i].pid = none) : b[i].pid = none := by
  cases hp : b[i].pid with
  | none => rfl
  | some p => cases hi.symm.trans (h i p hp)

/-- A service keeps its process or gives it up. -/
theorem set (h : Within b b₀) {t : Service.State} (ht : t.pid = none ∨ t.pid = b[i].pid) :
    Within (b.set i t) b₀ := by
  intro j p hp
  by_cases e : i = j
  · subst e
    rw [Board.getElem_set_self] at hp
    rcases ht with ht | ht
    · cases ht.symm.trans hp
    · exact h i p (ht.symm.trans hp)
  · rw [Board.getElem_set_ne _ _ e] at hp
    exact h j p hp

end Within

/-! ## What is done to stop services -/

/-- The calls of which each is at most about a single process. -/
def Targeted : Kernel.Call → Prop
  | .wait p => 0 < p
  | .kill p s => 0 < p ∧ s = .terminate
  | .fork _ | .awaitSignal _ | .setMask _ => False
  | _ => True

/-- A routine call is about a single process at most. -/
theorem targeted_of_routine {c : Kernel.Call} (hc : Routine c) : Targeted c := by
  cases c <;> first | exact hc.elim | exact trivial

/-- The exchanges in which nobody is killed, the processes are not signalled all at once, and no wait for
a signal has run out of time. -/
def Uneventful : Dialogue.Exchange (Kernel.signature.inState (Board r)) → Prop
  | ⟨(.kill p s, _), _⟩ => 0 < p ∧ s = .terminate
  | ⟨(.awaitSignal _, _), a⟩ => a ≠ .error .tryAgain
  | _ => True

/-- A call about a single process is uneventful, whatever the answer. -/
theorem Targeted.uneventful {c : Kernel.Call} (hc : Targeted c) {a : Kernel.signature.Answer c} :
    Uneventful ⟨(c, b), a⟩ := by
  cases c with
  | kill p s => exact hc
  | awaitSignal timeout => exact hc.elim
  | _ => trivial

/-- Uneventful exchanges do not change whether the history is such. -/
def Unmoved (H : History (Board r) → Prop) : Prop := ∀ ⦃h e⦄, H h → Uneventful e → H (h ++ [e])

/-- Services are stopped, from the board `b₀` on. -/
def stopping (b₀ : Board r) (H : History (Board r) → Prop) : Regime (collecting True) (Board r) where
  asks _ _ c _ := Targeted c
  inv h _ b := Within b b₀ ∧ H h
  errors _ := True

section Stopping

variable (hH : Unmoved H)

include hH

theorem keeps_stopping_ask {c : Kernel.Call} (hc : Targeted c) : Keeps (stopping b₀ H) (Action.ask c) :=
  fun _ _ _ _ hi => assures_ask.mpr fun _ _ => ⟨hc, fun _ _ _ => ⟨⟨hi.1, hH hi.2 hc.uneventful⟩, trivial⟩⟩

theorem admits_stopping : Admits (stopping b₀ H) :=
  ⟨fun _ _ _ => trivial, fun _ hc => keeps_stopping_ask hH (targeted_of_routine hc)⟩

/-- The stopping of services makes no other calls. -/
theorem servesStops_stopping (hb₀ : ∀ (i : r.Id) p, b₀[i].pid = some p → 0 < p) :
    ServesStops (stopping b₀ H) := by
  have hR : Admits (stopping b₀ H) := admits_stopping hH
  have hwait : ∀ p : Pid, 0 < p → Keeps (stopping b₀ H) (Action.ask (.wait p)) := fun p hp =>
    keeps_stopping_ask hH (show Targeted (.wait p) from hp)
  have hcheck : ∀ i, Keeps (stopping b₀ H) (checkProcess i) := fun i => by
    refine hR.checkProcess i (fun p h k b hi hp => hwait p (hb₀ i p (hi.1 i p hp))) ?_ ?_
    · exact fun name pid => keeps_stopping_ask hH (show Targeted (.log _) from trivial)
    · exact fun code h k b hi => ⟨hi.1.set (.inl rfl), hi.2⟩
  refine EnduresStops.servesStops
    { toAdmits := hR
      terminate := fun i p h k b hi hp => keeps_stopping_ask hH ⟨hb₀ i p (hi.1 i p hp), rfl⟩
      checkProcess := hcheck
      stopRequested := fun i h k b hi _ => ⟨hi.1.set (.inr rfl), hi.2⟩
      stopWithdrawn := fun i h k b hi => ⟨hi.1.set (.inr rfl), hi.2⟩
      reapEnded := keeps_reapEnded hR fun p n h k b hi hp => ?_ }
  exact hR.reapOne (fun _ _ => trivial) hcheck (hwait p hp.hasEnded.has.positive) hi

end Stopping

/-- What holds of the children holds within the family, as far as they are not all collected at once. -/
theorem assures_family {σ : Type} {s : σ} {k : Family} {asks : Asks (collecting True) σ} {x : Action σ α}
    {ends : Ends (collecting True) σ α} {h : History σ} (hx : Assures (collecting True) asks x ends n h k.children s)
    (ha : ∀ h k c s, asks h k c s → c ≠ .wait (-1)) :
    Assures Family.world (fun _ _ _ _ => True) x (fun h (k : Family) a s => ends h k.children a s) n h k s :=
  (Assures.comap (W := collecting True) (V := Family.world) (f := Family.children) And.left
    (fun hc a => ⟨ha _ _ _ _ hc, a.1, fun _ => trivial⟩) hx).imp_asks fun _ _ _ _ _ => trivial

/-- What remains where services were stopped from the board `b₀` on. -/
structure Remaining (H : History (Board r) → Prop) (b₀ : Board r) (h : History (Board r)) (k : Family)
    (b : Board r) : Prop where
  owned : Owned True h k.children b
  within : Within b b₀
  shown : H h

/-- Stopping services leaves a part of what remained. -/
theorem Remaining.assures {x : Operation r α} {k : Family} (hb : Remaining H b₀ h k b) (hH : Unmoved H)
    (hx : ∀ R : Regime (collecting True) (Board r), ServesStops R → Keeps R x) :
    Assures Family.world (fun _ _ _ _ => True) x (fun h k _ b' => Remaining H b₀ h k b' ∧ Within b' b)
      n h k b := by
  have hpos : ∀ (i : r.Id) p, b[i].pid = some p → 0 < p := fun _ _ => hb.owned.positive
  have hs := hx _ (servesStops_stopping hH hpos) (n := n) (k := k.children) ⟨.refl b, hb.shown⟩
  have ho := hx _ enduresStops_ownership.servesStops (n := n) hb.owned
  have hc := assures_family (hs.and ho) fun _ _ c _ (hc : Targeted c) e => by
    subst e
    exact absurd hc (show ¬ (0 : Pid) < -1 by decide)
  refine hc.imp fun h k a b' hm => ?_
  obtain ⟨⟨⟨hw, hh⟩, -⟩, hown, -⟩ := hm
  exact ⟨⟨hown, hw.trans hb.within, hh⟩, hw⟩

theorem Remaining.assures_stops {x : Operation r α} {k : Family} (hb : Remaining H b₀ h k b) (hH : Unmoved H)
    (hx : ∀ R : Regime (collecting True) (Board r), ServesStops R → Keeps R x) :
    Assures Family.world (fun _ _ _ _ => True) x (yields fun h k _ b => Remaining H b₀ h k b) n h k b :=
  (hb.assures hH hx).yields fun _ _ _ _ => And.left

/-! ## What it answers -/

section Answers

variable {W : World Kernel.signature} {k : W.State}

/-- A service that is found not to run has no process. -/
theorem assures_checkProcess_false (i : r.Id) : Assures W (fun _ _ _ _ => True) (checkProcess i)
    (yields fun _ _ running b => running = false → b[i].pid = none) n h k b := by
  refine assures_bind.mpr (assures_stateOf.mpr ?_)
  dsimp only
  cases hp : b[i].pid with
  | none => exact fun _ => hp
  | some p =>
    refine assures_then fun h k c b => ?_
    split
    · exact nofun
    · refine assures_then fun h k code b => ?_
      refine assures_bind.mpr (assures_bind.mpr (assures_update.mpr ?_))
      refine assures_bind.mpr (assures_stateOf.mpr ?_)
      refine assures_ask.mpr fun _ _ => ⟨trivial, fun _ _ _ _ => ?_⟩
      rw [Board.getElem_set_self]
      rfl

/-- If there was no process to ask, the service has none. -/
theorem assures_requestStop_false (i : r.Id) : Assures W (fun _ _ _ _ => True) (requestStop i)
    (yields fun _ _ asked b => asked = false → b[i].pid = none) n h k b := by
  refine (assures_checkProcess_false i).bind_yields fun h k running b hr => ?_
  split
  case isTrue hrun => exact fun _ => hr (by simpa using hrun)
  case isFalse =>
    refine assures_bind.mpr (assures_stateOf.mpr ?_)
    dsimp only
    cases hp : b[i].pid with
    | none => exact fun _ => hp
    | some p =>
      -- from here on the answer is that the process was asked
      refine assures_then fun h k _ b => ?_
      refine assures_then fun h k _ b => ?_
      refine assures_then fun h k sent b => ?_
      split
      · refine assures_then fun h k _ b => ?_
        exact nofun
      · exact nofun

/-- A service that has stopped in time has no process. -/
theorem assures_awaitStopped_true (i : r.Id) (deadline : Nat) :
    Assures W (fun _ _ _ _ => True) (awaitStopped i deadline)
    (yields fun _ _ gone b => gone = true → b[i].pid = none) n h k b := by
  refine assures_bind.mpr (assures_stateOf.mpr ?_)
  dsimp only
  cases hp : b[i].pid with
  | none => exact fun _ => hp
  | some p =>
    refine assures_then fun h k _ b => ?_
    refine (assures_checkProcess_false i).bind_yields fun h k running b hr => ?_
    split
    · refine assures_then fun h k _ b => ?_
      refine assures_then fun h k _ b => ?_
      exact nofun
    case isFalse hrun => exact fun _ => hr (by simpa using hrun)

/-- An answer that is passed on is that of the action. -/
theorem assures_reported {x : Operation r Bool} {Q : Bool → Board r → Prop}
    (hx : Assures W (fun _ _ _ _ => True) x (yields fun _ _ a b => Q a b) n h k b) :
    Assures W (fun _ _ _ _ => True) (reported i x)
      (yields fun _ _ answer b => ∀ a, answer = some a → Q a b) n h k b := by
  refine assures_bind.mpr (assures_attempt.mpr (hx.imp fun h k a b hm => ?_))
  cases a with
  | ok a =>
    rintro _ ⟨⟩
    exact hm
  | error e =>
    refine assures_then fun h k _ b => ?_
    exact nofun

end Answers

theorem Remaining.assures_reported {x : Operation r Bool} {Q : Bool → Board r → Prop} {k : Family}
    (hb : Remaining H b₀ h k b) (hH : Unmoved H)
    (hx : ∀ R : Regime (collecting True) (Board r), ServesStops R → Keeps R x)
    (hQ : Assures Family.world (fun _ _ _ _ => True) x (yields fun _ _ a b => Q a b) n h k b) :
    Assures Family.world (fun _ _ _ _ => True) (reported i x) (yields fun h k answer b' =>
      Remaining H b₀ h k b' ∧ Within b' b ∧ ∀ a, answer = some a → Q a b') n h k b := by
  have hkeep := hb.assures (n := n) hH fun R hR => hR.reported i (hx R hR)
  exact (hkeep.and (Supervision.assures_reported hQ)).yields fun h k a b' ⟨⟨hb, hw⟩, ha⟩ => ⟨hb, hw, ha⟩

/-- If all services are reported to be stopped, none of them has a process. -/
theorem Remaining.assures_stopAll {k : Family} (hb : Remaining H b₀ h k b) (hH : Unmoved H) (deadline : Nat) :
    Assures Family.world (fun _ _ _ _ => True) (stopAll deadline)
      (yields fun h k stopped b => Remaining H b₀ h k b ∧ (stopped = true → ∀ i : r.Id, b[i].pid = none))
      n h k b := by
  -- whoever was found to be gone before it was asked stays away
  refine (assures_mapM (fun is asked h k b => Remaining H b₀ h k b ∧ asked.map Prod.fst = is ∧
    ∀ d ∈ asked, d.2 = some false → b[d.1].pid = none) _ ⟨hb, rfl, nofun⟩ ?_).bind_yields ?_
  · rintro h k b is i asked ⟨hb, hfst, hnone⟩
    refine (hb.assures_reported hH (fun R hR => hR.requestStop i) (assures_requestStop_false i)).bind_yields ?_
    rintro h k answer b' ⟨hb', hw, hanswer⟩
    refine ⟨hb', by rw [List.map_append, hfst, List.map_singleton], fun d hd hf => ?_⟩
    rcases List.mem_append.mp hd with hd | hd
    · exact hw.eq_none (hnone d hd hf)
    · obtain rfl := List.mem_singleton.mp hd
      exact hanswer false hf rfl
  rintro h k asked b ⟨hb, hfst, hnone⟩
  refine (assures_mapM (fun stopping waited h k b => Remaining H b₀ h k b ∧
    (∀ d ∈ asked, d.2 = some false → b[d.1].pid = none) ∧
    (waited.all (· = some true) = true → ∀ d ∈ stopping, b[d.1].pid = none)) _ ⟨hb, hnone, fun _ => nofun⟩
    ?_).bind_yields ?_
  · rintro h k b stopping d waited ⟨hb, hnone, hgone⟩
    refine (hb.assures_reported hH (fun R hR => hR.awaitStopped d.1 deadline)
      (assures_awaitStopped_true d.1 deadline)).yields ?_
    rintro h k answer b' ⟨hb', hw, hanswer⟩
    refine ⟨hb', fun d hd hf => hw.eq_none (hnone d hd hf), fun hall d' hd' => ?_⟩
    rw [List.all_append, Bool.and_eq_true] at hall
    rcases List.mem_append.mp hd' with hd' | hd'
    · exact hw.eq_none (hgone hall.1 d' hd')
    · obtain rfl := List.mem_singleton.mp hd'
      exact hanswer true (by simpa using hall.2) rfl
  rintro h k waited b ⟨hb, hnone, hgone⟩
  refine ⟨hb, fun hstopped i => ?_⟩
  obtain ⟨hsome, hwaited⟩ := (Bool.and_eq_true ..).mp hstopped
  have hi : i ∈ asked.map Prod.fst := hfst ▸ List.mem_reverse.mpr (Registry.mem_startOrder i)
  obtain ⟨⟨j, answer⟩, hd, rfl⟩ := List.mem_map.mp hi
  cases answer with
  | none => simpa using List.all_eq_true.mp hsome _ hd
  | some asked =>
    cases asked with
    | false => exact hnone _ hd rfl
    | true => exact hgone hwaited _ (List.mem_filter.mpr ⟨hd, rfl⟩)

end ContainerInit.Supervision
