import ContainerInit.Proofs.Dialogue.Action

/-! # Actions that come to an end

An action concludes in a world if each run of it comes to a result, whatever the world does: every call has an
answer, and no loop uses up its bound.  It succeeds if that result is a value each time, so that nothing fails.
Unlike `Assures`, which is silent about runs that are cut short, both say that there is a result.

A loop concludes if what goes from one round to the next tells how many rounds are left at most, and that number
is less than the bound.  The rules for the ways in which actions are built come in pairs: those for `Concludes`
deal with values and errors alike, and those for `Succeeds` leave the errors out.  `World.noting` keeps a list of
what the calls have been about, so that the condition on the result can speak of it. -/

namespace ContainerInit

open Relation

/-- Every question that the dialogue comes to has an answer, and whatever the answers are, it ends with a result
that satisfies `ends`. -/
def Dialogue.Completes {S : Signature} {α : Type} (W : World S) (ends : W.State → α → Prop) :
    Dialogue S α → W.State → Prop
  | .done a, k => ends k a
  | .ask c next, k => ∀ k₁, ReflTransGen W.Drifts k k₁ → (∃ r k₂, W.Answers k₁ c r k₂) ∧
      ∀ r k₂, W.Answers k₁ c r k₂ → (next r).Completes W ends k₂
  | .exhausted, _ => False

namespace Dialogue

variable {S : Signature} {α β : Type} {W : World S} {ends ends' : W.State → α → Prop} {p : Dialogue S α}
  {k : W.State}

theorem Completes.imp (hp : p.Completes W ends k) (he : ∀ k a, ends k a → ends' k a) :
    p.Completes W ends' k := by
  induction p generalizing k with
  | done a => exact he k a hp
  | ask c next ih => exact fun k₁ d => ⟨(hp k₁ d).1, fun r k₂ a => ih r ((hp k₁ d).2 r k₂ a)⟩
  | exhausted => exact hp

/-- Where the first dialogue ends, the second has to come to an end. -/
theorem completes_bind {f : α → Dialogue S β} {ends : W.State → β → Prop} :
    (p >>= f).Completes W ends k ↔ p.Completes W (fun k a => (f a).Completes W ends k) k := by
  induction p generalizing k with
  | done a => rfl
  | ask c next ih =>
    exact forall₂_congr fun k₁ d => and_congr_right fun _ => forall₃_congr fun r k₂ a => ih r
  | exhausted => rfl

end Dialogue

namespace Action

variable {σ α β : Type} {W : World Kernel.signature} {n : Nat} {k : W.State} {s : σ}

/-- From the state `s`, in a world in the state `k`, the action comes to a result, and `Q` holds then. -/
def Concludes (W : World Kernel.signature) (x : Action σ α) (Q : W.State → Except Error α → σ → Prop) (n : Nat)
    (k : W.State) (s : σ) : Prop :=
  (x.dialogue n s).Completes (W.inState σ) (fun k a => Q k a.1 a.2) k

/-- From the state `s`, in a world in the state `k`, the action ends with a value, and `Q` holds then. -/
def Succeeds (W : World Kernel.signature) (x : Action σ α) (Q : W.State → α → σ → Prop) (n : Nat)
    (k : W.State) (s : σ) : Prop :=
  (x.dialogue n s).Completes (W.inState σ) (fun k a => ∃ v, a.1 = .ok v ∧ Q k v a.2) k

/-- To succeed is to conclude with a value. -/
theorem succeeds_iff_concludes {x : Action σ α} {Q : W.State → α → σ → Prop} :
    Succeeds W x Q n k s ↔ Concludes W x (fun k res s => ∃ v, res = .ok v ∧ Q k v s) n k s := .rfl

/-! ## Actions in a row -/

theorem Concludes.imp {x : Action σ α} {Q Q' : W.State → Except Error α → σ → Prop} (hx : Concludes W x Q n k s)
    (hq : ∀ k res s, Q k res s → Q' k res s) : Concludes W x Q' n k s :=
  Dialogue.Completes.imp hx fun k a hm => hq k a.1 a.2 hm

theorem Succeeds.imp {x : Action σ α} {Q Q' : W.State → α → σ → Prop} (hx : Succeeds W x Q n k s)
    (hq : ∀ k v s, Q k v s → Q' k v s) : Succeeds W x Q' n k s :=
  succeeds_iff_concludes.mpr <| (succeeds_iff_concludes.mp hx).imp fun k _ s hm =>
    hm.imp fun v hv => ⟨hv.1, hq k v s hv.2⟩

/-- The second action is carried out where the first has come to a value, and an error of the first is that of
both. -/
theorem concludes_bind {x : Action σ α} {f : α → Action σ β} {Q : W.State → Except Error β → σ → Prop} :
    Concludes W (x >>= f) Q n k s ↔ Concludes W x (fun k res s => match res with
      | .ok v => Concludes W (f v) Q n k s
      | .error e => Q k (.error e) s) n k s := by
  unfold Concludes
  rw [dialogue_bind, Dialogue.completes_bind]
  constructor
  all_goals
    refine fun hx => Dialogue.Completes.imp hx fun k a hm => ?_
    obtain ⟨a, s⟩ := a
    cases a <;> exact hm

/-- The same with something in between that is known after the first action. -/
theorem Concludes.bind {x : Action σ α} {f : α → Action σ β} {mid : W.State → Except Error α → σ → Prop}
    {Q : W.State → Except Error β → σ → Prop} (hx : Concludes W x mid n k s)
    (hf : ∀ k v s, mid k (.ok v) s → Concludes W (f v) Q n k s)
    (he : ∀ k e s, mid k (.error e) s → Q k (.error e) s) : Concludes W (x >>= f) Q n k s := by
  refine concludes_bind.mpr (hx.imp fun k res s hm => ?_)
  cases res with
  | ok v => exact hf k v s hm
  | error e => exact he k e s hm

/-- Both actions have to succeed. -/
theorem succeeds_bind {x : Action σ α} {f : α → Action σ β} {Q : W.State → β → σ → Prop} :
    Succeeds W (x >>= f) Q n k s ↔ Succeeds W x (fun k v s => Succeeds W (f v) Q n k s) n k s := by
  rw [succeeds_iff_concludes, succeeds_iff_concludes, concludes_bind]
  constructor
  · refine fun hx => hx.imp fun k res s hm => ?_
    cases res with
    | ok v => exact ⟨v, rfl, hm⟩
    | error e =>
      obtain ⟨v, hv, -⟩ := hm
      cases hv
  · refine fun hx => hx.imp fun k res s hm => ?_
    obtain ⟨v, rfl, hm⟩ := hm
    exact hm

/-- What is known after the first action is known before the second. -/
theorem Succeeds.bind {x : Action σ α} {f : α → Action σ β} {mid : W.State → α → σ → Prop}
    {Q : W.State → β → σ → Prop} (hx : Succeeds W x mid n k s)
    (hf : ∀ k v s, mid k v s → Succeeds W (f v) Q n k s) : Succeeds W (x >>= f) Q n k s :=
  succeeds_bind.mpr (hx.imp hf)

/-- What follows on a success may still fail. -/
theorem concludes_bind_of_succeeds {x : Action σ α} {f : α → Action σ β} {Q : W.State → Except Error β → σ → Prop}
    (hx : Succeeds W x (fun k v s => Concludes W (f v) Q n k s) n k s) : Concludes W (x >>= f) Q n k s := by
  refine concludes_bind.mpr ((succeeds_iff_concludes.mp hx).imp fun k res s hm => ?_)
  obtain ⟨v, rfl, hm⟩ := hm
  exact hm

/-- A success may be followed by what only concludes. -/
theorem Succeeds.bind_concludes {x : Action σ α} {f : α → Action σ β} {mid : W.State → α → σ → Prop}
    {Q : W.State → Except Error β → σ → Prop} (hx : Succeeds W x mid n k s)
    (hf : ∀ k v s, mid k v s → Concludes W (f v) Q n k s) : Concludes W (x >>= f) Q n k s :=
  concludes_bind_of_succeeds (hx.imp hf)

theorem concludes_pure {a : α} {Q : W.State → Except Error α → σ → Prop} (h : Q k (.ok a) s) :
    Concludes W (pure a : Action σ α) Q n k s := h

theorem concludes_throw {e : Error} {Q : W.State → Except Error α → σ → Prop} (h : Q k (.error e) s) :
    Concludes W (throw e : Action σ α) Q n k s := h

theorem succeeds_pure {a : α} {Q : W.State → α → σ → Prop} (h : Q k a s) :
    Succeeds W (pure a : Action σ α) Q n k s := ⟨a, rfl, h⟩

theorem succeeds_get {Q : W.State → σ → σ → Prop} (h : Q k s s) : Succeeds W get Q n k s := ⟨s, rfl, h⟩

/-! ## Calls -/

/-- A call succeeds if it has an answer, at whatever moment the world gives it. -/
theorem succeeds_ask {c : Kernel.Call} {Q : W.State → Kernel.signature.Answer c → σ → Prop}
    (h : ∀ k₁, ReflTransGen W.Drifts k k₁ → (∃ a k₂, W.Answers k₁ c a k₂) ∧
      ∀ a k₂, W.Answers k₁ c a k₂ → Q k₂ a s) : Succeeds W (ask c : Action σ _) Q n k s :=
  fun k₁ d => ⟨(h k₁ d).1, fun a k₂ ha => ⟨a, rfl, (h k₁ d).2 a k₂ ha⟩⟩

/-- A call in a world that notes the answer. -/
theorem succeeds_ask_noting {ν : Type} {note : (c : Kernel.Call) → Kernel.signature.Answer c → List ν} {l : List ν}
    {c : Kernel.Call} {Q : W.State × List ν → Kernel.signature.Answer c → σ → Prop}
    (h : ∀ k₁, ReflTransGen W.Drifts k k₁ → (∃ a k₂, W.Answers k₁ c a k₂) ∧
      ∀ a k₂, W.Answers k₁ c a k₂ → Q (k₂, l ++ note c a) a s) :
    Succeeds (W.noting note) (ask c : Action σ _) Q n (k, l) s := by
  refine succeeds_ask fun k₁ d => ?_
  obtain ⟨k₁, l₁⟩ := k₁
  obtain ⟨d, rfl⟩ := World.of_drifts_noting d
  obtain ⟨⟨a, k₂, ha⟩, hall⟩ := h k₁ d
  refine ⟨⟨a, (k₂, _), ha, rfl⟩, ?_⟩
  rintro a ⟨k₂, _⟩ ⟨ha, rfl⟩
  exact hall a k₂ ha

/-- Writing a record like these to the log changes nothing. -/
def Logs (W : World Kernel.signature) (P : Log.Record → Prop) : Prop := ∀ record, P record → ∀ k k₁,
  ReflTransGen W.Drifts k k₁ → (∃ a k₂, W.Answers k₁ (.log record) a k₂) ∧
    ∀ a k₂, W.Answers k₁ (.log record) a k₂ → k₂ = k

/-- A record is written without further ado. -/
theorem Logs.succeeds {P : Log.Record → Prop} {record : Log.Record} {Q : W.State → Unit → σ → Prop} (hl : Logs W P)
    (hr : P record) (h : Q k () s) : Succeeds W (ask (.log record)) Q n k s := by
  refine succeeds_ask fun k₁ d => ⟨(hl record hr k k₁ d).1, fun _ k₂ ha => ?_⟩
  rw [(hl record hr k k₁ d).2 _ k₂ ha]
  exact h

theorem Logs.imp {P P' : Log.Record → Prop} (hl : Logs W P) (h : ∀ record, P' record → P record) : Logs W P' :=
  fun record hr => hl record (h record hr)

/-- Writing a record changes nothing where answers are noted, either, as long as nothing is noted of it. -/
theorem Logs.noting {ν : Type} {note : (c : Kernel.Call) → Kernel.signature.Answer c → List ν}
    {P : Log.Record → Prop} (hl : Logs W P) (hn : ∀ record u, P record → note (.log record) u = []) :
    Logs (W.noting note) P := by
  rintro record hr ⟨k, l⟩ ⟨k₁, l₁⟩ d
  obtain ⟨d, rfl⟩ := World.of_drifts_noting d
  obtain ⟨⟨u, k₂, ha⟩, hall⟩ := hl record hr k k₁ d
  refine ⟨⟨u, (k₂, _), ha, rfl⟩, ?_⟩
  rintro u ⟨k₂, l₂⟩ ⟨ha, hl₂⟩
  have e : l₂ = l₁ ++ note (.log record) u := hl₂
  rw [e, hn record u hr, List.append_nil, show k₂ = k from hall u k₂ ha]

theorem Succeeds.attempt {x : Action σ α} {Q : W.State → Except Error α → σ → Prop}
    (hx : Succeeds W x (fun k a s => Q k (.ok a) s) n k s) : Succeeds W (attempt x) Q n k s := by
  refine Dialogue.completes_bind.mpr (Dialogue.Completes.imp hx fun k a hm => ?_)
  obtain ⟨_, s⟩ := a
  obtain ⟨v, rfl, hm⟩ := hm
  exact ⟨_, rfl, hm⟩

/-! ## Series and loops -/

/-- One action after the other, with an invariant of those that are done and of their results. -/
theorem Succeeds.mapM {f : β → Action σ α} {Q : W.State → List α → σ → Prop}
    (Inv : List β → List α → W.State → σ → Prop) (l : List β) (hi : Inv [] [] k s)
    (hf : ∀ k s xs x ys, xs ++ [x] <+: l → Inv xs ys k s →
      Succeeds W (f x) (fun k y s => Inv (xs ++ [x]) (ys ++ [y]) k s) n k s)
    (hl : ∀ k ys s, Inv l ys k s → Q k ys s) : Succeeds W (l.mapM f) Q n k s := by
  have hall : ∀ rest xs ys k s, xs ++ rest = l → Inv xs ys k s →
      Succeeds W (rest.mapM f) (fun k zs s => Inv l (ys ++ zs) k s) n k s := by
    intro rest
    induction rest with
    | nil =>
      intro xs ys k s hxs hi
      refine succeeds_pure (show Inv l (ys ++ []) k s from ?_)
      rw [List.append_nil] at hxs ⊢
      rwa [← hxs]
    | cons x rest ih =>
      intro xs ys k s hxs hi
      have hxs : xs ++ [x] ++ rest = l := by rw [List.append_assoc]; exact hxs
      rw [List.mapM_cons]
      refine (hf k s xs x ys ⟨rest, hxs⟩ hi).bind fun k y s hi => ?_
      refine (ih (xs ++ [x]) (ys ++ [y]) k s hxs hi).bind fun k zs s hi => ?_
      refine succeeds_pure (show Inv l (ys ++ y :: zs) k s from ?_)
      rwa [List.append_cons]
  exact (hall l [] [] k s rfl hi).imp fun k ys s hi => hl k ys s hi

/-- The rounds of a loop, by induction on the bound: `m` rounds are left at most. -/
theorem Concludes.iterate {body : β → Action σ (Round β α)} {Q : W.State → Except Error α → σ → Prop}
    (Inv : Nat → W.State → β → σ → Prop)
    (hbody : ∀ m k b s, Inv m k b s → Concludes W (body b) (fun k res s => match res with
      | .ok (.again b) => ∃ m' < m, Inv m' k b s
      | .ok (.finish a) => Q k (.ok a) s
      | .error e => Q k (.error e) s) n k s) {m : Nat} {b : β} (hb : Inv m k b s) (hm : m < n) :
    Concludes W (iterate body b) Q n k s := by
  have hall : ∀ bound m k b s, Inv m k b s → m < bound → Concludes W (iterateFor body bound b) Q n k s := by
    intro bound
    induction bound with
    | zero => exact fun m k b s _ hm => absurd hm (Nat.not_lt_zero m)
    | succ bound ih =>
      intro m k b s hb hm
      refine (hbody m k b s hb).bind (fun k v s hv => ?_) fun k e s he => he
      cases v with
      | again b =>
        obtain ⟨m', hm', hb⟩ := hv
        exact ih m' k b s hb (Nat.lt_of_lt_of_le hm' (Nat.le_of_lt_succ hm))
      | finish a => exact concludes_pure hv
  exact hall n m k b s hb hm

/-- The same where nothing goes from one round to the next. -/
theorem Concludes.repeatUntil {body : Action σ (Option α)} {Q : W.State → Except Error α → σ → Prop}
    (Inv : Nat → W.State → σ → Prop)
    (hbody : ∀ m k s, Inv m k s → Concludes W body (fun k res s => match res with
      | .ok none => ∃ m' < m, Inv m' k s
      | .ok (some a) => Q k (.ok a) s
      | .error e => Q k (.error e) s) n k s) {m : Nat} (hi : Inv m k s) (hm : m < n) :
    Concludes W (repeatUntil body) Q n k s := by
  refine Concludes.iterate (fun m k _ s => Inv m k s) (fun m k _ s hi => ?_) hi hm
  refine (hbody m k s hi).bind (fun k v s hv => concludes_pure ?_) fun k e s he => he
  cases v <;> exact hv

/-- A loop succeeds if each round of it does. -/
theorem Succeeds.iterate {body : β → Action σ (Round β α)} {Q : W.State → α → σ → Prop}
    (Inv : Nat → W.State → β → σ → Prop)
    (hbody : ∀ m k b s, Inv m k b s → Succeeds W (body b) (fun k v s => match v with
      | .again b => ∃ m' < m, Inv m' k b s
      | .finish a => Q k a s) n k s) {m : Nat} {b : β} (hb : Inv m k b s) (hm : m < n) :
    Succeeds W (iterate body b) Q n k s := by
  refine succeeds_iff_concludes.mpr (Concludes.iterate Inv (fun m k b s hi => ?_) hb hm)
  refine (succeeds_iff_concludes.mp (hbody m k b s hi)).imp fun k res s hm => ?_
  obtain ⟨v, rfl, hv⟩ := hm
  cases v with
  | again b => exact hv
  | finish a => exact ⟨a, rfl, hv⟩

/-- The same where nothing goes from one round to the next. -/
theorem Succeeds.repeatUntil {body : Action σ (Option α)} {Q : W.State → α → σ → Prop}
    (Inv : Nat → W.State → σ → Prop)
    (hbody : ∀ m k s, Inv m k s → Succeeds W body (fun k v s => match v with
      | none => ∃ m' < m, Inv m' k s
      | some a => Q k a s) n k s) {m : Nat} (hi : Inv m k s) (hm : m < n) :
    Succeeds W (repeatUntil body) Q n k s := by
  refine Succeeds.iterate (fun m k _ s => Inv m k s) (fun m k _ s hi => ?_) hi hm
  refine (hbody m k s hi).bind fun k v s hv => succeeds_pure ?_
  cases v <;> exact hv

end Action

end ContainerInit
