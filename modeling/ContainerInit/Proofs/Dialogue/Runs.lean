import ContainerInit.Proofs.Dialogue.Action

/-! # Runs of actions

A run of an action is put together from runs of its parts.  A run of a loop that ends with a value shows its last
round.

Here an action is looked at by itself: any answer may follow on any call, and no world is involved.  The lemmas are
of two kinds.  Those with an equivalence take a given run apart.  Those about an existing run (`exists_runs_bind` and
so on) put one together, which is how it is shown that something does happen. -/

namespace ContainerInit

namespace Dialogue

variable {S : Signature} {α : Type}

/-- What comes to an end does so whatever the questions are answered by. -/
theorem Halts.exists_runs {p : Dialogue S α} (hp : p.Halts) (f : (c : S.Call) → S.Answer c) :
    ∃ h a, Runs p h a ∧ ∀ e ∈ h, e.2 = f e.1 := by
  induction p with
  | done a => exact ⟨[], a, .done a, nofun⟩
  | ask c next ih =>
    obtain ⟨h, a, hr, hf⟩ := ih (f c) (hp (f c))
    exact ⟨⟨c, f c⟩ :: h, a, .ask hr, List.forall_mem_cons.mpr ⟨rfl, hf⟩⟩
  | exhausted => exact hp.elim

end Dialogue

/-- The answers where every call that can fail does so, with the same error. -/
def Kernel.refusal (e : Errno) : (c : Kernel.Call) → Kernel.signature.Answer c
  | .initLog .. | .log _ | .sleep _ => ()
  | .monotonic => (0 : Nat)
  | .wallClock | .processId => (0 : Int)
  | .environment _ => none
  | .fork _ | .wait _ | .peek _ | .kill .. | .trapSignal _ | .changeDirectory _ | .awaitSignal _ | .setMask _
  | .readFile _ => .error e

namespace Action

variable {σ α β : Type} {n : Nat} {s s' : σ} {h : History σ}

/-- From the state `s`, the action comes to the result `res` and the state `s'` with exactly the history
`h`. -/
abbrev Runs (x : Action σ α) (n : Nat) (s : σ) (h : History σ) (res : Except Error α) (s' : σ) : Prop :=
  (x.dialogue n s).Runs h (res, s')

/-- A value is there at once, and the state is as it was. -/
theorem runs_pure_iff {a : α} {res : Except Error α} :
    Runs (pure a) n s h res s' ↔ h = [] ∧ res = .ok a ∧ s' = s := by
  constructor
  · intro hr
    cases hr
    exact ⟨rfl, rfl, rfl⟩
  · rintro ⟨rfl, rfl, rfl⟩
    exact .done _

theorem runs_get_iff {res : Except Error σ} : Runs get n s h res s' ↔ h = [] ∧ res = .ok s ∧ s' = s := by
  constructor
  · intro hr
    cases hr
    exact ⟨rfl, rfl, rfl⟩
  · rintro ⟨rfl, rfl, rfl⟩
    exact .done _

/-- A call is answered, and the state is as it was. -/
theorem runs_ask_iff {c : Kernel.Call} {res : Except Error (Kernel.signature.Answer c)} :
    Runs (ask c) n s h res s' ↔ ∃ a, h = [⟨(c, s), a⟩] ∧ res = .ok a ∧ s' = s := by
  constructor
  · intro hr
    cases hr with
    | ask rest =>
      cases rest
      exact ⟨_, rfl, rfl, rfl⟩
  · rintro ⟨a, rfl, rfl, rfl⟩
    exact .ask (.done _)

/-- A result is there at once, be it a value or an error. -/
theorem runs_ofExcept_iff {x res : Except Error α} :
    Runs (ofExcept x) n s h res s' ↔ h = [] ∧ res = x ∧ s' = s := by
  constructor
  · intro hr
    cases hr
    exact ⟨rfl, rfl, rfl⟩
  · rintro ⟨rfl, rfl, rfl⟩
    exact .done _

theorem runs_throw_iff {e : Error} {res : Except Error α} :
    Runs (throw e : Action σ α) n s h res s' ↔ h = [] ∧ res = .error e ∧ s' = s := by
  constructor
  · intro hr
    cases hr
    exact ⟨rfl, rfl, rfl⟩
  · rintro ⟨rfl, rfl, rfl⟩
    exact .done _

/-- A record is written, and the rest follows. -/
theorem runs_log_bind_iff {l : Log.Level} {source text : String} {f : Unit → Action σ α}
    {res : Except Error α} : Runs (log l source text >>= f) n s h res s' ↔
      ∃ h', h = ⟨(.log ⟨l, source, text⟩, s), ()⟩ :: h' ∧ Runs (f ()) n s h' res s' := by
  constructor
  · intro hr
    cases hr with
    | ask rest => exact ⟨_, rfl, rest⟩
  · rintro ⟨h', rfl, hr⟩
    exact .ask hr

/-- An attempt has the run of what is attempted, and its result for a value. -/
theorem runs_attempt_iff {x : Action σ α} {res : Except Error (Except Error α)} :
    Runs (attempt x) n s h res s' ↔ ∃ a, res = .ok a ∧ Runs x n s h a s' := by
  have e : (attempt x).dialogue n s = x.dialogue n s >>= fun a =>
      Dialogue.done (S := Kernel.signature.inState σ) (Except.ok a.1, a.2) := rfl
  unfold Runs
  rw [e, Dialogue.runs_bind_iff]
  constructor
  · rintro ⟨h₁, h₂, ⟨a, s₁⟩, rfl, hx, hd⟩
    cases hd
    exact ⟨a, rfl, by rwa [List.append_nil]⟩
  · rintro ⟨a, rfl, hx⟩
    exact ⟨h, [], (a, s'), (List.append_nil h).symm, hx, .done _⟩

/-- A run of two actions in a row ends in the second, unless the first fails. -/
theorem runs_bind_iff {x : Action σ α} {f : α → Action σ β} {res : Except Error β} :
    Runs (x >>= f) n s h res s' ↔
      (∃ h₁ h₂ a s₁, h = h₁ ++ h₂ ∧ Runs x n s h₁ (.ok a) s₁ ∧ Runs (f a) n s₁ h₂ res s') ∨
      ∃ e, res = .error e ∧ Runs x n s h (.error e) s' := by
  unfold Runs
  rw [dialogue_bind, Dialogue.runs_bind_iff]
  constructor
  · rintro ⟨h₁, h₂, ⟨a | a, s₁⟩, rfl, hx, hf⟩
    · cases hf
      exact .inr ⟨a, rfl, by rwa [List.append_nil]⟩
    · exact .inl ⟨h₁, h₂, a, s₁, rfl, hx, hf⟩
  · rintro (⟨h₁, h₂, a, s₁, rfl, hx, hf⟩ | ⟨e, rfl, hx⟩)
    · exact ⟨h₁, h₂, (.ok a, s₁), rfl, hx, hf⟩
    · exact ⟨h, [], (.error e, s'), (List.append_nil h).symm, hx, .done _⟩

/-- A run of two actions in a row that has not failed consists of two that have not. -/
theorem runs_bind_ok_iff {x : Action σ α} {f : α → Action σ β} {b : β} :
    Runs (x >>= f) n s h (.ok b) s' ↔
      ∃ h₁ h₂ a s₁, h = h₁ ++ h₂ ∧ Runs x n s h₁ (.ok a) s₁ ∧ Runs (f a) n s₁ h₂ (.ok b) s' := by
  rw [runs_bind_iff]
  exact or_iff_left fun ⟨e, he, _⟩ => nomatch he

/-- A run of an action of which the value is only put in another form. -/
theorem runs_bind_pure_iff {x : Action σ α} {f : α → β} {res : Except Error β} :
    Runs (x >>= fun a => pure (f a)) n s h res s' ↔ ∃ out, Runs x n s h out s' ∧ res = out.map f := by
  rw [runs_bind_iff]
  constructor
  · rintro (⟨h₁, h₂, a, s₁, rfl, hx, hend⟩ | ⟨e, rfl, hx⟩)
    · obtain ⟨rfl, rfl, rfl⟩ := runs_pure_iff.mp hend
      exact ⟨.ok a, (List.append_nil h₁).symm ▸ hx, rfl⟩
    · exact ⟨.error e, hx, rfl⟩
  · rintro ⟨a | a, hx, rfl⟩
    · exact .inr ⟨a, rfl, hx⟩
    · exact .inl ⟨h, [], a, s', (List.append_nil h).symm, hx, runs_pure_iff.mpr ⟨rfl, rfl, rfl⟩⟩

/-- The last round of a loop that has ended with a value. -/
theorem Runs.last_round {body : β → Action σ (Round β α)} {b : β} {a : α}
    (hr : Runs (iterate body b) n s h (.ok a) s') :
    ∃ h₁ h₂ b₁ s₁, h = h₁ ++ h₂ ∧ Runs (body b₁) n s₁ h₂ (.ok (.finish a)) s' := by
  have hfor : ∀ (m : Nat) (b : β) (s : σ) (h : History σ), Runs (iterateFor body m b) n s h (.ok a) s' →
      ∃ h₁ h₂ b₁ s₁, h = h₁ ++ h₂ ∧ Runs (body b₁) n s₁ h₂ (.ok (.finish a)) s' := by
    intro m
    induction m with
    | zero =>
      intro b s h hr
      cases hr
    | succ m ih =>
      intro b s h hr
      obtain ⟨h₁, h₂, round, s₁, rfl, hbody, hrest⟩ := runs_bind_ok_iff.mp hr
      cases round with
      | again b₁ =>
        obtain ⟨h₃, h₄, b₂, s₂, rfl, hlast⟩ := ih b₁ s₁ h₂ hrest
        exact ⟨h₁ ++ h₃, h₄, b₂, s₂, (List.append_assoc ..).symm, hlast⟩
      | finish a =>
        obtain ⟨rfl, e, rfl⟩ := runs_pure_iff.mp hrest
        cases e
        exact ⟨[], h₁, b, s, List.append_nil h₁, hbody⟩
  exact hfor n b s h hr

/-! ## Runs that exist -/

theorem exists_runs_ask {c : Kernel.Call} (a : Kernel.signature.Answer c) :
    ∃ h, Runs (ask c) n s h (.ok a) s := ⟨_, runs_ask_iff.mpr ⟨a, rfl, rfl, rfl⟩⟩

theorem exists_runs_log {l : Log.Level} {source text : String} :
    ∃ h, Runs (log l source text) n s h (.ok ()) s := exists_runs_ask (c := .log ⟨l, source, text⟩) ()

/-- A run of the second action may follow on one of the first. -/
theorem exists_runs_bind {x : Action σ α} {f : α → Action σ β} {s₁ : σ} {a : α} {res : Except Error β}
    (hx : ∃ h, Runs x n s h (.ok a) s₁) (hf : ∃ h, Runs (f a) n s₁ h res s') :
    ∃ h, Runs (x >>= f) n s h res s' := by
  obtain ⟨h₁, hx⟩ := hx
  obtain ⟨h₂, hf⟩ := hf
  exact ⟨h₁ ++ h₂, runs_bind_iff.mpr (.inl ⟨h₁, h₂, a, s₁, rfl, hx, hf⟩)⟩

/-- What has failed is not followed by anything. -/
theorem exists_runs_bind_error {x : Action σ α} {f : α → Action σ β} {e : Error}
    (hx : ∃ h, Runs x n s h (.error e) s') : ∃ h, Runs (x >>= f) n s h (.error e) s' :=
  hx.imp fun _ hx => runs_bind_iff.mpr (.inr ⟨e, rfl, hx⟩)

end Action

end ContainerInit
