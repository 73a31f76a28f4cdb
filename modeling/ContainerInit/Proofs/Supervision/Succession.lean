import ContainerInit.Proofs.Kernel.Mask
import ContainerInit.Supervision.Supervisor

/-! # One supervisor after the other

Supervisors are created and dropped in any order.  There is one at most at any time, which the slot shows, and when
there is none the signal mask is the one from before the first.  A creation may fail at the mask or at any of the
signals that are trapped after it; either way things are left as they were, so that it can be tried again.

The mask that a supervisor keeps is what the kernel has answered when everything was blocked.  It is given back when the
supervisor is dropped, and also when its creation fails after the mask has been set.  That call may fail as well, and
then the mask is lost for good; so what is said about the mask has that as a condition, which can be read off the
history (`restores`).

`Standing` is how things stand between two turns.  It is kept by each of them (`Standing.assures_turn`), and
`succession_sole` is the induction over all turns. -/

namespace ContainerInit.Supervisor

open ContainerInit.Action Kernel

variable {n : Nat} {h h' : History Slot} {k before : Mask} {slot : Slot} {alive : List Supervisor}

/-! ## What a history shows -/

/-- Whether a call that a creation needs has failed. -/
def refused (h : History Slot) : Bool := h.any fun
  | ⟨(.setMask _, _), .error _⟩ | ⟨(.trapSignal _, _), .error _⟩ => true
  | _ => false

/-- Whether the mask could be given back whenever that was tried.  No mask that is given back blocks all signals, which
is what a creation asks for. -/
def restores (h : History Slot) : Bool := h.all fun
  | ⟨(.setMask mask, _), .error _⟩ => mask = Signal.all
  | _ => true

theorem refused_append (h h' : History Slot) : refused (h ++ h') = (refused h || refused h') := List.any_append

theorem restores_append (h h' : History Slot) : restores (h ++ h') = (restores h && restores h') := List.all_append

theorem restores_of_append (hr : restores (h ++ h') = true) : restores h = true ∧ restores h' = true :=
  Bool.and_eq_true_iff.mp ((restores_append h h').symm.trans hr)

/-! ## A creation -/

/-- The supervisor is gone, and with it its mask if that can be given back. -/
theorem assures_release (sup : Supervisor) :
    Assures Mask.world (fun _ _ _ _ => True) sup.release (fun h₁ k' res slot' => ∃ h', h₁ = h ++ h' ∧
      res = .ok ⟨⟩ ∧ slot' = ⟨false⟩ ∧ (restores h' = true → ∀ m : Mask, sup.savedMask = m.signals → k' = m))
      n h k slot := by
  refine assures_bind.mpr (Mask.assures_ask fun answer k₁ ha => ?_)
  cases answer with
  | ok old =>
    obtain ⟨-, rfl⟩ := ha
    refine ⟨_, rfl, rfl, rfl, fun _ m hm => ?_⟩
    rw [hm, Mask.of_signals]
  | error e =>
    refine assures_bind.mpr (Mask.assures_ask fun _ k₂ _ => ?_)
    refine ⟨_, List.append_assoc .., rfl, rfl, fun hr m hm => ?_⟩
    have hall : sup.savedMask = Signal.all := by simpa [restores] using hr
    exact absurd (hm ▸ hall) m.signals_ne_all

/-- What a creation comes to where there is no supervisor: one that keeps the mask which was in force, or a failure
that leaves none and, if the mask can be given back, has changed nothing. -/
inductive Attempted (k : Mask) : History Slot → Mask → Except Error Supervisor → Slot → Prop where
  | made {h : History Slot} {k' : Mask} (hrefused : refused h = false) : Attempted k h k' (.ok ⟨k.signals⟩) ⟨true⟩
  | failed {h : History Slot} {k' : Mask} {e : CallFault} (hrefused : refused h = true)
      (hk : restores h = true → k' = k) : Attempted k h k' (.error (.callFailed e)) ⟨false⟩

/-- What trapping signals comes to: the first that cannot be trapped is the last. -/
inductive Trapped : History Slot → Except Error PUnit → Prop where
  | all {h : History Slot} (hrefused : refused h = false) : Trapped h (.ok ⟨⟩)
  | stopped {h : History Slot} {e : CallFault} (hrefused : refused h = true) : Trapped h (.error (.callFailed e))

/-- By induction on the signals: the first that cannot be trapped ends it. -/
theorem assures_trapAll (signals : List Signal) :
    Assures Mask.world (fun _ _ _ _ => True) (signals.forM trapSignal) (fun h₁ _ res slot' =>
      slot' = slot ∧ ∃ h', h₁ = h ++ h' ∧ Trapped h' res) n h k slot := by
  refine assures_forM (fun _ h₁ _ slot' => slot' = slot ∧ ∃ h', h₁ = h ++ h' ∧ refused h' = false) signals
    ⟨rfl, [], (List.append_nil h).symm, rfl⟩ ?_ fun h₁ k₁ slot₁ hi => ?_
  · rintro _ k₁ _ _ s _ ⟨rfl, h', rfl, hrefused⟩
    refine assures_bind.mpr (Mask.assures_ask fun answer k₂ _ => ?_)
    cases answer with
    | ok _ =>
      refine ⟨rfl, _, List.append_assoc .., ?_⟩
      rw [refused_append, hrefused]
      rfl
    | error e =>
      refine ⟨rfl, _, List.append_assoc .., .stopped ?_⟩
      rw [refused_append, hrefused]
      rfl
  · obtain ⟨hslot, h', rfl, hrefused⟩ := hi
    exact ⟨hslot, h', rfl, .all hrefused⟩

/-- The mask is the first to be changed, and whatever fails after it ends with giving it back. -/
theorem assures_acquire :
    Assures Mask.world (fun _ _ _ _ => True) acquire (fun h₁ k' res slot' =>
      ∃ h', h₁ = h ++ h' ∧ Attempted k h' k' res slot') n h k ⟨false⟩ := by
  refine assures_bind.mpr (assures_get.mpr ?_)
  simp only [Bool.false_eq_true, if_false]
  refine assures_bind.mpr (assures_set.mpr (assures_bind.mpr (Mask.assures_ask fun answer k₁ ha => ?_)))
  cases answer with
  | error e =>
    obtain rfl : k₁ = k := ha
    exact ⟨_, rfl, .failed rfl fun _ => rfl⟩
  | ok old =>
    obtain ⟨rfl, rfl⟩ := ha
    refine assures_bind.mpr (assures_attempt.mpr ((assures_trapAll _).imp fun h₂ k₂ res slot₂ hm => ?_))
    obtain ⟨rfl, h', rfl, htrapped⟩ := hm
    cases htrapped with
    | all hrefused =>
      refine assures_bind.mpr (Mask.assures_ask fun _ k₃ _ => ?_)
      refine ⟨_, (List.append_assoc ..).trans (List.append_assoc ..), .made ?_⟩
      rw [refused_append, refused_append, hrefused]
      rfl
    | stopped hrefused =>
      refine assures_bind.mpr ((assures_release ⟨k.signals⟩).imp fun h₃ k₃ res slot₃ hm => ?_)
      obtain ⟨h'', rfl, rfl, rfl, hback⟩ := hm
      refine ⟨_, (List.append_assoc ..).trans (List.append_assoc ..), .failed ?_ fun hr => ?_⟩
      · rw [refused_append, refused_append, hrefused]
        rfl
      · exact hback (restores_of_append (restores_of_append hr).2).2 k rfl

/-- A creation is refused without any call where there is a supervisor. -/
theorem assures_acquire_taken :
    Assures Mask.world (fun _ _ _ _ => True) acquire (fun h₁ k' res slot' =>
      h₁ = h ∧ k' = k ∧ res = .error .alreadyInitialized ∧ slot' = ⟨true⟩) n h k ⟨true⟩ :=
  ⟨rfl, rfl, rfl, rfl⟩

/-! ## Any number of supervisors -/

/-- What is done about supervisors. -/
inductive Turn where
  | create
  /-- Drops the supervisor in the given place of those that are alive, if there is one. -/
  | drop (i : Nat)

/-- Does it, and answers the supervisors that are alive then. -/
def turn (alive : List Supervisor) : Turn → Action Slot (List Supervisor)
  | .create => do
    match ← Action.attempt acquire with
    | .ok sup => return alive ++ [sup]
    | .error _ => return alive
  | .drop i => do
    match alive[i]? with
    | some sup =>
      sup.release
      return alive.eraseIdx i
    | none => return alive

/-- Creates and drops supervisors one after the other, from the beginning on. -/
def succession (turns : List Turn) : Action Slot (List Supervisor) := turns.foldlM turn []

/-- There is one supervisor, as the slot shows, or none.  Unless a mask could not be given back, the one keeps the mask
from before, and where there is none, that is in force. -/
inductive Standing (before : Mask) (h : History Slot) (k : Mask) : List Supervisor → Slot → Prop where
  | none (hk : restores h = true → k = before) : Standing before h k [] ⟨false⟩
  | one {sup : Supervisor} (hsup : restores h = true → sup.savedMask = before.signals) :
      Standing before h k [sup] ⟨true⟩

/-- One creation or removal. -/
theorem Standing.assures_turn (hi : Standing before h k alive slot) (t : Turn) :
    Assures Mask.world (fun _ _ _ _ => True) (turn alive t) (fun h' k' res slot' =>
      ∃ alive', res = .ok alive' ∧ Standing before h' k' alive' slot') n h k slot := by
  cases t with
  | create =>
    refine assures_bind.mpr (assures_attempt.mpr ?_)
    cases hi with
    | none hk =>
      refine assures_acquire.imp fun h₁ k₁ res slot₁ hm => ?_
      obtain ⟨h', rfl, hm⟩ := hm
      cases hm with
      | made _ =>
        refine ⟨_, rfl, .one fun hr => ?_⟩
        rw [hk (restores_of_append hr).1]
      | failed _ hk₁ =>
        refine ⟨_, rfl, .none fun hr => ?_⟩
        obtain ⟨hr, hr'⟩ := restores_of_append hr
        exact (hk₁ hr').trans (hk hr)
    | one hsup =>
      refine assures_acquire_taken.imp fun h₁ k₁ res slot₁ hm => ?_
      obtain ⟨rfl, rfl, rfl, rfl⟩ := hm
      exact ⟨_, rfl, .one hsup⟩
  | drop i =>
    cases hi with
    | none hk => exact ⟨_, rfl, .none hk⟩
    | @one sup hsup =>
      cases i with
      | zero =>
        refine assures_bind.mpr ((assures_release sup).imp fun h₁ k₁ res slot₁ hm => ?_)
        obtain ⟨h', rfl, rfl, rfl, hback⟩ := hm
        refine ⟨_, rfl, .none fun hr => ?_⟩
        obtain ⟨hr, hr'⟩ := restores_of_append hr
        exact hback hr' before (hsup hr)
      | succ i => exact ⟨_, rfl, .one hsup⟩

/-- The induction is over the turns, each of which goes on from where the one before has left things. -/
theorem Standing.assures_succession (hi : Standing before h k alive slot) (turns : List Turn) :
    Assures Mask.world (fun _ _ _ _ => True) (turns.foldlM turn alive) (fun h' k' res slot' =>
      ∃ alive', res = .ok alive' ∧ Standing before h' k' alive' slot') n h k slot := by
  induction turns generalizing alive h k slot with
  | nil => exact ⟨alive, rfl, hi⟩
  | cons t turns ih =>
    rw [List.foldlM_cons]
    refine assures_bind.mpr ((hi.assures_turn t).imp fun h' k' res slot' hm => ?_)
    obtain ⟨alive', rfl, hi'⟩ := hm
    exact ih hi'

theorem halts_release (sup : Supervisor) : Halts sup.release := by
  refine (halts_ask _).bind fun answer => ?_
  cases answer with
  | ok old => exact halts_set _
  | error e => exact (halts_ask _).bind fun _ => halts_set _

theorem halts_trapSignal (s : Signal) : Halts (trapSignal s : Action Slot Unit) := by
  refine (halts_ask _).bind fun answer => ?_
  cases answer with
  | ok _ => exact halts_pure _
  | error e => exact halts_throw _

/-- There are only so many signals to be trapped. -/
theorem halts_acquire : Halts acquire := by
  refine halts_get.bind fun slot => ?_
  split
  · exact fun _ _ => trivial
  · refine (halts_set _).bind fun _ => (halts_ask _).bind fun answer => ?_
    cases answer with
    | error e => exact (halts_set _).bind fun _ => halts_throw _
    | ok mask =>
      refine (halts_forM _ halts_trapSignal).attempt.bind fun res => ?_
      cases res with
      | error e => exact (halts_release _).bind fun _ => halts_throw _
      | ok _ => exact (halts_ask _).bind fun _ => halts_pure _

theorem halts_turn (alive : List Supervisor) (t : Turn) : Halts (turn alive t) := by
  cases t with
  | create =>
    refine halts_acquire.attempt.bind fun res => ?_
    cases res <;> exact halts_pure _
  | drop i =>
    rw [turn]
    split
    · exact (halts_release _).bind fun _ => halts_pure _
    · exact halts_pure _

theorem halts_succession (turns : List Turn) : Halts (succession turns) :=
  halts_foldlM halts_turn [] turns

/-- How things stand between two turns: there is one supervisor at most, and the slot is taken if and only if there is
one; where there is none, the mask is the one from before, unless a mask could not be given back.  A further creation
is refused, with nothing changed, if and only if there is a supervisor; otherwise it only fails where a call of its
own does. -/
structure Sole (before : Mask) (h : History Slot) (k : Mask) (alive : List Supervisor) (slot : Slot) : Prop where
  length_le : alive.length ≤ 1
  taken_iff : slot.taken = true ↔ alive ≠ []
  mask_eq : restores h = true → alive = [] → k = before
  creation : ∀ n, Assures Mask.world (fun _ _ _ _ => True) acquire (fun h' k' res slot' =>
    (res = .error .alreadyInitialized ↔ alive ≠ []) ∧ (alive ≠ [] → h' = [] ∧ k' = k ∧ slot' = slot) ∧
      (alive = [] → ((∃ sup, res = .ok sup) ↔ refused h' = false))) n [] k slot

/-- There is one supervisor at most. -/
theorem Standing.sole (hi : Standing before h k alive slot) : Sole before h k alive slot := by
  cases hi with
  | none hk =>
    refine ⟨Nat.zero_le 1, iff_of_false nofun (· rfl), fun hr _ => hk hr, fun n => ?_⟩
    refine assures_acquire.imp fun h₁ k₁ res slot₁ hm => ?_
    obtain ⟨h', rfl, hm⟩ := hm
    cases hm with
    | made hrefused =>
      exact ⟨iff_of_false nofun (· rfl), (absurd rfl ·), fun _ => iff_of_true ⟨_, rfl⟩ hrefused⟩
    | failed hrefused _ =>
      refine ⟨iff_of_false nofun (· rfl), (absurd rfl ·), fun _ => iff_of_false nofun ?_⟩
      exact fun e => Bool.false_ne_true (e.symm.trans hrefused)
  | one hsup =>
    refine ⟨Nat.le_refl 1, iff_of_true rfl nofun, fun _ => nofun, fun n => ?_⟩
    refine assures_acquire_taken.imp fun h₁ k₁ res slot₁ hm => ?_
    obtain ⟨rfl, rfl, rfl, rfl⟩ := hm
    exact ⟨iff_of_true rfl nofun, fun _ => ⟨rfl, rfl, rfl⟩, nofun⟩

/-- Whatever calls fail while supervisors are created and dropped in any order, there is never more than one, and none
leaves anything behind that it could give back. -/
theorem succession_sole (turns : List Turn) (before : Mask) :
    Halts (succession turns) ∧ Halts acquire ∧ ∀ n, Assures Mask.world (fun _ _ _ _ => True) (succession turns)
      (fun h k res slot => ∃ alive, res = .ok alive ∧ Sole before h k alive slot) n [] before {} := by
  refine ⟨halts_succession turns, halts_acquire, fun n => ?_⟩
  have hstart : Standing before [] before [] {} := .none fun _ => rfl
  refine (hstart.assures_succession turns).imp fun h k res slot hm => ?_
  obtain ⟨alive, hres, hi⟩ := hm
  exact ⟨alive, hres, hi.sole⟩

end ContainerInit.Supervisor
