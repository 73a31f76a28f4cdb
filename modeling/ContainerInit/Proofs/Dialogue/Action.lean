import ContainerInit.Kernel.Action
import ContainerInit.Proofs.Dialogue.World

/-! # What actions assure

The rules for `Assures`, by which what holds of an action is put together from what holds of its parts, one rule
for each way in which actions are built.

An action is a dialogue once it has a bound for its loops and a state to start from.  A statement about it therefore
has a condition on its calls (`Asks`), which sees all that has been asked before with the answers, and a condition on
what it ends with (`Ends`), be that a value or an error.  Both see the state of the world as well, and the state of the
action.  What an action does when a loop runs out of its bound is left open: such a run has no end, and only the
condition on the calls says anything of it.

## Rules

The rules for two actions in a row and for a call are equivalences, so that nothing is lost by them; those for loops
ask for an invariant.  `yields` is for actions of which a failure does not matter.

## Moments

`Always` speaks of all the moments of all runs, the unfinished ones included, and is what the results about a whole
program are stated with.  `Halts` is what the world has no say in: the searches and traversals come to an end
whatever they are answered. -/

namespace ContainerInit.Action

open Relation

/-- What an action has asked so far, from which states, with the answers. -/
abbrev History (σ : Type) := List (Dialogue.Exchange (Kernel.signature.inState σ))

/-- A condition on a call, with what has happened before and the states of the world and of the action. -/
abbrev Asks (W : World Kernel.signature) (σ : Type) := History σ → W.State → Kernel.Call → σ → Prop

/-- A condition on a result, with what has happened before and the states that are left. -/
abbrev Ends (W : World Kernel.signature) (σ α : Type) :=
  History σ → W.State → Except Error α → σ → Prop

variable {σ α β : Type} {W : World Kernel.signature} {asks : Asks W σ} {n : Nat} {h : History σ}
  {k : W.State} {s : σ}

/-- From the state `s`, after the history `h` in a world in the state `k`, all calls of the action satisfy
`asks`, and its result satisfies `ends`. -/
def Assures (W : World Kernel.signature) (asks : Asks W σ) (x : Action σ α) (ends : Ends W σ α) (n : Nat)
    (h : History σ) (k : W.State) (s : σ) : Prop :=
  (x.dialogue n s).Assures (W.inState σ) (fun h k q => asks h k q.1 q.2) (fun h k a => ends h k a.1 a.2)
    h k

/-- The second action goes on from where the first has come to, unless that failed. -/
theorem dialogue_bind (x : Action σ α) (f : α → Action σ β) :
    (x >>= f).dialogue n s = x.dialogue n s >>= fun
      | (.ok a, s) => (f a).dialogue n s
      | (.error e, s) => .done (.error e, s) := by
  change (x.dialogue n s >>= fun a => ((ExceptT.bindCont f a.1).run a.2).run n) = _
  congr 1
  funext ⟨a, s⟩
  cases a <;> rfl

theorem Assures.imp {x : Action σ α} {ends ends' : Ends W σ α} (hx : Assures W asks x ends n h k s)
    (he : ∀ h k a s, ends h k a s → ends' h k a s) : Assures W asks x ends' n h k s :=
  Dialogue.Assures.imp hx fun h k a => he h k a.1 a.2

theorem Assures.imp_asks {asks' : Asks W σ} {x : Action σ α} {ends : Ends W σ α}
    (hx : Assures W asks x ends n h k s) (ha : ∀ h k c s, asks h k c s → asks' h k c s) :
    Assures W asks' x ends n h k s :=
  Dialogue.Assures.imp_asks hx fun h k q => ha h k q.1 q.2

/-- Two results assured under the same condition on the calls are assured together. -/
theorem Assures.and {asks' : Asks W σ} {x : Action σ α} {ends ends' : Ends W σ α}
    (hx : Assures W asks x ends n h k s) (hx' : Assures W asks' x ends' n h k s) :
    Assures W asks x (fun h k a s => ends h k a s ∧ ends' h k a s) n h k s :=
  Dialogue.Assures.and hx hx'

theorem assures_true {x : Action σ α} : Assures W (fun _ _ _ _ => True) x (fun _ _ _ _ => True) n h k s :=
  Dialogue.assures_true

/-- What histories keep for good once they show it is assured from there on. -/
theorem assures_of_kept {x : Action σ α} {ends : Ends W σ α} {P : History σ → Prop}
    (hP : ∀ h e, P h → P (h ++ [e])) (ha : ∀ h k c s, P h → asks h k c s) (he : ∀ h k a s, P h → ends h k a s)
    (hh : P h) : Assures W asks x ends n h k s :=
  Dialogue.assures_of_kept hP (fun h k q => ha h k q.1 q.2) (fun h k a => he h k a.1 a.2) hh

/-- What is assured in a world is assured in one that maps to it, as far as it answers calls that are asked. -/
theorem Assures.comap {V : World Kernel.signature} {f : V.State → W.State}
    (hd : ∀ {k k'}, V.Drifts k k' → ReflTransGen W.Drifts (f k) (f k'))
    (ha : ∀ {h k c s a k'}, asks h (f k) c s → V.Answers k c a k' → W.Answers (f k) c a (f k'))
    {k : V.State} {x : Action σ α} {ends : Ends W σ α} (hx : Assures W asks x ends n h (f k) s) :
    Assures V (fun h k c s => asks h (f k) c s) x (fun h k a s => ends h (f k) a s) n h k s :=
  Dialogue.Assures.comap (W := W.inState σ) (V := V.inState σ) hd (fun hc a => ha hc a) hx

/-- The calls of the second action come after the history of the first. -/
theorem assures_bind {x : Action σ α} {f : α → Action σ β} {ends : Ends W σ β} :
    Assures W asks (x >>= f) ends n h k s ↔ Assures W asks x (fun h k a s => match a with
      | .ok a => Assures W asks (f a) ends n h k s
      | .error e => ends h k (.error e) s) n h k s := by
  unfold Assures
  rw [dialogue_bind, Dialogue.assures_bind]
  constructor
  all_goals
    refine fun hx => Dialogue.Assures.imp hx fun h k a hm => ?_
    obtain ⟨a, s⟩ := a
    cases a <;> exact hm

/-- The same with something in between that is known after the first action. -/
theorem Assures.bind {x : Action σ α} {f : α → Action σ β} {mid : Ends W σ α} {ends : Ends W σ β}
    (hx : Assures W asks x mid n h k s)
    (hf : ∀ h k a s, mid h k (.ok a) s → Assures W asks (f a) ends n h k s)
    (he : ∀ h k e s, mid h k (.error e) s → ends h k (.error e) s) :
    Assures W asks (x >>= f) ends n h k s := by
  refine assures_bind.mpr (hx.imp fun h k a s hm => ?_)
  cases a with
  | ok a => exact hf h k a s hm
  | error e => exact he h k e s hm

theorem assures_pure {a : α} {ends : Ends W σ α} :
    Assures W asks (pure a) ends n h k s ↔ ends h k (.ok a) s := .rfl

/-- Unless the action fails, `Q` holds in the end. -/
def yields (Q : History σ → W.State → α → σ → Prop) : Ends W σ α := fun h k a s => match a with
  | .ok a => Q h k a s
  | .error _ => True

/-- What is assured of all results is assured of the values. -/
theorem Assures.yields {x : Action σ α} {ends : Ends W σ α} {Q : History σ → W.State → α → σ → Prop}
    (hx : Assures W asks x ends n h k s) (hq : ∀ h k a s, ends h k (.ok a) s → Q h k a s) :
    Assures W asks x (yields Q) n h k s := by
  refine hx.imp fun h k a s hm => ?_
  cases a with
  | ok a => exact hq h k a s hm
  | error e => trivial

/-- A failure of the first action is one of both, so that only its values have to be followed up. -/
theorem Assures.bind_yields {x : Action σ α} {f : α → Action σ β} {Q : History σ → W.State → α → σ → Prop}
    {Q' : History σ → W.State → β → σ → Prop} (hx : Assures W asks x (Action.yields Q) n h k s)
    (hf : ∀ h k a s, Q h k a s → Assures W asks (f a) (Action.yields Q') n h k s) :
    Assures W asks (x >>= f) (Action.yields Q') n h k s :=
  hx.bind (fun h k a s hm => hf h k a s hm) fun _ _ _ _ _ => trivial

/-- An action of which nothing has to be known. -/
theorem assures_then {x : Action σ α} {f : α → Action σ β} {Q : History σ → W.State → β → σ → Prop}
    (hf : ∀ h k a s, Assures W (fun _ _ _ _ => True) (f a) (Action.yields Q) n h k s) :
    Assures W (fun _ _ _ _ => True) (x >>= f) (Action.yields Q) n h k s :=
  assures_true.bind (fun h k a s _ => hf h k a s) fun _ _ _ _ _ => trivial

theorem assures_get {ends : Ends W σ σ} : Assures W asks get ends n h k s ↔ ends h k (.ok s) s := .rfl

theorem assures_set {t : σ} {ends : Ends W σ PUnit} :
    Assures W asks (set t) ends n h k s ↔ ends h k (.ok ⟨⟩) t := .rfl

theorem assures_ofExcept {x : Except Error α} {ends : Ends W σ α} :
    Assures W asks (ofExcept x) ends n h k s ↔ ends h k x s := .rfl

theorem assures_exhausted {ends : Ends W σ α} : Assures W asks exhausted ends n h k s := trivial

/-- A call is asked of whatever has become of the world by then, and each of its answers has to do. -/
theorem assures_ask {c : Kernel.Call} {ends : Ends W σ (Kernel.signature.Answer c)} :
    Assures W asks (ask c) ends n h k s ↔ ∀ k₁, ReflTransGen W.Drifts k k₁ → asks h k₁ c s ∧
      ∀ r k₂, W.Answers k₁ c r k₂ → ends (h ++ [⟨(c, s), r⟩]) k₂ (.ok r) s := .rfl

/-- In a world in which nothing happens by itself, a call is answered by the world as it is. -/
theorem assures_ask_of_still {c : Kernel.Call} {ends : Ends W σ (Kernel.signature.Answer c)}
    (hd : ∀ k k', ¬ W.Drifts k k') (hask : asks h k c s)
    (hends : ∀ r k₂, W.Answers k c r k₂ → ends (h ++ [⟨(c, s), r⟩]) k₂ (.ok r) s) :
    Assures W asks (ask c) ends n h k s := by
  refine assures_ask.mpr fun k₁ d => ?_
  obtain rfl := World.eq_of_drifts hd d
  exact ⟨hask, hends⟩

/-- An attempt does not fail: the error is its value. -/
theorem assures_attempt {x : Action σ α} {ends : Ends W σ (Except Error α)} :
    Assures W asks (attempt x) ends n h k s ↔
      Assures W asks x (fun h k a s => ends h k (.ok a) s) n h k s := by
  have e : (attempt x).dialogue n s = x.dialogue n s >>= fun a =>
      Dialogue.done (S := Kernel.signature.inState σ) (Except.ok a.1, a.2) := rfl
  unfold Assures
  rw [e, Dialogue.assures_bind]
  rfl

/-- The rounds of a loop, with an invariant of what goes from one to the next. -/
theorem assures_iterateFor {body : β → Action σ (Round β α)} {ends : Ends W σ α}
    (Inv : History σ → W.State → β → σ → Prop)
    (hbody : ∀ h k b s, Inv h k b s → Assures W asks (body b) (fun h k a s => match a with
      | .ok (.again b) => Inv h k b s
      | .ok (.finish a) => ends h k (.ok a) s
      | .error e => ends h k (.error e) s) n h k s) (m : Nat) {b : β} (hb : Inv h k b s) :
    Assures W asks (iterateFor body m b) ends n h k s := by
  induction m generalizing h k b s with
  | zero => exact assures_exhausted
  | succ m ih =>
    refine (hbody h k b s hb).bind (fun h k a s hm => ?_) fun h k e s hm => hm
    cases a with
    | again b => exact ih hm
    | finish a => exact hm

/-- A loop starts with the whole of its bound. -/
theorem assures_iterate {body : β → Action σ (Round β α)} {ends : Ends W σ α}
    (Inv : History σ → W.State → β → σ → Prop) {b : β} (hb : Inv h k b s)
    (hbody : ∀ h k b s, Inv h k b s → Assures W asks (body b) (fun h k a s => match a with
      | .ok (.again b) => Inv h k b s
      | .ok (.finish a) => ends h k (.ok a) s
      | .error e => ends h k (.error e) s) n h k s) :
    Assures W asks (iterate body b) ends n h k s :=
  assures_iterateFor Inv hbody n hb

/-- A loop over nothing, where the invariant is only about the history and the states. -/
theorem assures_repeatUntil {body : Action σ (Option α)} {ends : Ends W σ α}
    (Inv : History σ → W.State → σ → Prop) (hi : Inv h k s)
    (hbody : ∀ h k s, Inv h k s → Assures W asks body (fun h k a s => match a with
      | .ok none => Inv h k s
      | .ok (some a) => ends h k (.ok a) s
      | .error e => ends h k (.error e) s) n h k s) :
    Assures W asks (repeatUntil body) ends n h k s := by
  refine assures_iterate (fun h k _ s => Inv h k s) hi fun h k _ s hi => ?_
  refine (hbody h k s hi).bind (fun h k a s hm => ?_) fun h k e s hm => hm
  cases a <;> exact hm

/-- A loop of which only the values matter, since the failure of a round ends it. -/
theorem assures_iterate_yields {body : β → Action σ (Round β α)} {Q : History σ → W.State → α → σ → Prop}
    (Inv : History σ → W.State → β → σ → Prop) {b : β} (hb : Inv h k b s)
    (hbody : ∀ h k b s, Inv h k b s → Assures W asks (body b) (yields fun h k v s => match v with
      | .again b => Inv h k b s
      | .finish a => Q h k a s) n h k s) :
    Assures W asks (iterate body b) (yields Q) n h k s := by
  refine assures_iterate Inv hb fun h k b s hi => (hbody h k b s hi).imp fun h k v s hm => ?_
  rcases v with e | b | a
  · trivial
  · exact hm
  · exact hm

/-- The same where nothing goes from one round to the next. -/
theorem assures_repeatUntil_yields {body : Action σ (Option α)} {Q : History σ → W.State → α → σ → Prop}
    (Inv : History σ → W.State → σ → Prop) (hi : Inv h k s)
    (hbody : ∀ h k s, Inv h k s →
      Assures W asks body (yields fun h k v s => v.elim (Inv h k s) (Q h k · s)) n h k s) :
    Assures W asks (repeatUntil body) (yields Q) n h k s := by
  refine assures_repeatUntil Inv hi fun h k s hi => (hbody h k s hi).imp fun h k v s hm => ?_
  rcases v with e | _ | a
  · trivial
  · exact hm
  · exact hm

/-- One action after the other, with an invariant of those that are done; the first that fails is the last. -/
theorem assures_forM {f : β → Action σ PUnit} {ends : Ends W σ PUnit}
    (Inv : List β → History σ → W.State → σ → Prop) (l : List β) (hi : Inv [] h k s)
    (hf : ∀ h k s xs x, x ∈ l → Inv xs h k s → Assures W asks (f x) (fun h k a s => match a with
      | .ok _ => Inv (xs ++ [x]) h k s
      | .error e => ends h k (.error e) s) n h k s)
    (hl : ∀ h k s, Inv l h k s → ends h k (.ok ⟨⟩) s) : Assures W asks (l.forM f) ends n h k s := by
  have hall : ∀ rest xs h k s, xs ++ rest = l → Inv xs h k s → Assures W asks (rest.forM f) ends n h k s := by
    intro rest
    induction rest with
    | nil =>
      intro xs h k s hxs hi
      rw [List.append_nil] at hxs
      exact assures_pure.mpr (hl h k s (hxs ▸ hi))
    | cons x rest ih =>
      intro xs h k s hxs hi
      have hx : x ∈ l := hxs ▸ List.mem_append_right _ (.head _)
      refine (hf h k s xs x hx hi).bind (fun h k _ s hi => ?_) fun h k e s hm => hm
      exact ih (xs ++ [x]) h k s (by rw [List.append_assoc]; exact hxs) hi
  exact hall l [] h k s rfl hi

/-- The same with an invariant of the results, too. -/
theorem assures_mapM_ends {f : β → Action σ α} {ends : Ends W σ (List α)}
    (Inv : List β → List α → History σ → W.State → σ → Prop) (l : List β) (hi : Inv [] [] h k s)
    (hf : ∀ h k s xs x ys, Inv xs ys h k s → Assures W asks (f x) (fun h k a s => match a with
      | .ok y => Inv (xs ++ [x]) (ys ++ [y]) h k s
      | .error e => ends h k (.error e) s) n h k s)
    (hl : ∀ h k ys s, Inv l ys h k s → ends h k (.ok ys) s) : Assures W asks (l.mapM f) ends n h k s := by
  have hall : ∀ rest xs ys h k s, xs ++ rest = l → Inv xs ys h k s →
      Assures W asks (rest.mapM f) (fun h k a s => match a with
        | .ok zs => Inv l (ys ++ zs) h k s
        | .error e => ends h k (.error e) s) n h k s := by
    intro rest
    induction rest with
    | nil =>
      intro xs ys h k s hxs hi
      rw [List.append_nil] at hxs
      refine assures_pure.mpr (show Inv l (ys ++ []) h k s from ?_)
      rwa [List.append_nil, ← hxs]
    | cons x rest ih =>
      intro xs ys h k s hxs hi
      rw [List.mapM_cons]
      refine (hf h k s xs x ys hi).bind (fun h k y s hi => ?_) fun h k e s hm => hm
      have hrest := ih (xs ++ [x]) (ys ++ [y]) h k s (by rw [List.append_assoc]; exact hxs) hi
      refine hrest.bind (fun h k zs s hi => ?_) fun h k e s hm => hm
      refine assures_pure.mpr (show Inv l (ys ++ y :: zs) h k s from ?_)
      rwa [List.append_cons]
  refine (hall l [] [] h k s rfl hi).imp fun h k a s hm => ?_
  cases a with
  | ok ys => exact hl h k ys s hm
  | error e => exact hm

/-- One action after the other, where nothing has to be known of those that fail. -/
theorem assures_mapM {f : β → Action σ α} (Inv : List β → List α → History σ → W.State → σ → Prop)
    (l : List β) (hi : Inv [] [] h k s)
    (hf : ∀ h k s xs x ys, Inv xs ys h k s →
      Assures W asks (f x) (yields fun h k y s => Inv (xs ++ [x]) (ys ++ [y]) h k s) n h k s) :
    Assures W asks (l.mapM f) (yields fun h k ys s => Inv l ys h k s) n h k s :=
  assures_mapM_ends Inv l hi hf fun _ _ _ _ hi => hi

/-- What is assured in the world that answers anything holds of every history. -/
theorem Assures.runs {x : Action σ α} {asks : Asks (.anything _) σ} {ends : Ends (.anything _) σ α}
    (hx : Assures (.anything _) asks x ends n [] () s) {h : History σ} {a : Except Error α} {s' : σ}
    (run : (x.dialogue n s).Runs h (a, s')) : ends h () a s' := Dialogue.Assures.runs hx run

/-! ## All moments of all runs -/

/-- Where a run of an action has come to: a call that is about to be made, or the end. -/
inductive Moment (α : Type) where
  | asking (c : Kernel.Call)
  | ended (res : Except Error α)

/-- What is left of an action shows where its run has come to, and in which state. -/
inductive Shows :
    Dialogue (Kernel.signature.inState σ) (Except Error α × σ) → Moment α → σ → Prop where
  | asking {c : Kernel.Call} {s : σ} {next : Kernel.signature.Answer c → _} :
      Shows (.ask (c, s) next) (.asking c) s
  | ended {a : Except Error α} {s : σ} : Shows (.done (a, s)) (.ended a) s

/-- `P` holds at every moment of every run of the action, finished or not, from the given states. -/
def Always (W : World Kernel.signature) (x : Action σ α) (s : σ) (k : W.State)
    (P : History σ → W.State → Moment α → σ → Prop) : Prop :=
  ∀ ⦃n h q k' m s'⦄, Dialogue.Leads (W.inState σ) (x.dialogue n s) k h q k' → Shows q m s' → P h k' m s'

/-- What is assured, however the loops are bounded, holds at every moment. -/
theorem always_of_assures {x : Action σ α} {ends : Ends W σ α}
    {P : History σ → W.State → Moment α → σ → Prop} (hx : ∀ n, Assures W asks x ends n [] k s)
    (hasks : ∀ h k c s, asks h k c s → P h k (.asking c) s)
    (hends : ∀ h k₁ k₂ a s, ends h k₁ a s → ReflTransGen W.Drifts k₁ k₂ → P h k₂ (.ended a) s) :
    Always W x s k P := by
  intro n h q k' m s' run hm
  cases hm with
  | asking => exact hasks _ _ _ _ ((hx n).asks_of_leads run)
  | ended =>
    obtain ⟨k₁, he, hd⟩ := (hx n).ends_of_leads run
    exact hends _ _ _ _ _ he hd

/-! ## Actions that halt -/

/-- Whatever the answers are and however few rounds its loops have, the action comes to an end. -/
def Halts (x : Action σ α) : Prop := ∀ n s, (x.dialogue n s).Halts

theorem halts_pure (a : α) : Halts (pure a : Action σ α) := fun _ _ => trivial

theorem halts_throw (e : Error) : Halts (throw e : Action σ α) := fun _ _ => trivial

theorem halts_get : Halts (get : Action σ σ) := fun _ _ => trivial

theorem halts_set (t : σ) : Halts (set t : Action σ PUnit) := fun _ _ => trivial

theorem halts_modify (f : σ → σ) : Halts (modify f : Action σ PUnit) := fun _ _ => trivial

theorem halts_ofExcept (x : Except Error α) : Halts (ofExcept x : Action σ α) := fun _ _ => trivial

theorem halts_ask (c : Kernel.Call) : Halts (ask c : Action σ _) := fun _ _ _ => trivial

/-- Two actions that come to an end do so one after the other. -/
theorem Halts.bind {x : Action σ α} {f : α → Action σ β} (hx : Halts x) (hf : ∀ a, Halts (f a)) :
    Halts (x >>= f) := by
  intro n s
  rw [dialogue_bind]
  refine (hx n s).bind fun a => ?_
  obtain ⟨_ | a, s⟩ := a
  · trivial
  · exact hf a n s

theorem Halts.attempt {x : Action σ α} (hx : Halts x) : Halts (attempt x) :=
  fun n s => (hx n s).bind fun _ => trivial

theorem halts_forM {f : β → Action σ PUnit} (l : List β) (hf : ∀ b, Halts (f b)) : Halts (l.forM f) := by
  induction l with
  | nil => exact halts_pure _
  | cons b l ih => exact (hf b).bind fun _ => ih

theorem halts_foldlM {f : α → β → Action σ α} (hf : ∀ a b, Halts (f a b)) (a : α) (l : List β) :
    Halts (l.foldlM f a) := by
  induction l generalizing a with
  | nil => exact halts_pure a
  | cons b l ih =>
    rw [List.foldlM_cons]
    exact (hf a b).bind ih

theorem halts_mapM {f : β → Action σ α} (l : List β) (hf : ∀ b, Halts (f b)) : Halts (l.mapM f) := by
  induction l with
  | nil => exact halts_pure _
  | cons b l ih =>
    rw [List.mapM_cons]
    exact (hf b).bind fun _ => ih.bind fun _ => halts_pure _

end ContainerInit.Action
