import ContainerInit.Proofs.Dialogue.Runs

/-! # Beginnings of runs

What has been asked and answered at some moment is the beginning of a run, whether or not the run ever comes to an
end.  The beginning of two actions in a row is one of the first, or a run of the first and a beginning of the second.

A service manager is not meant to come to an end.  What is said of the order of its calls therefore has to hold of
beginnings, and it is proved of them by the same case distinctions as of runs: `Begins.of_bind` takes an action apart,
`Begins.of_iterateFor` a loop, and `always_of_begins` goes back to all the moments of all the runs in a world. -/

namespace ContainerInit

namespace Dialogue

variable {S : Signature} {α β : Type}

/-- The dialogue may begin with these questions and answers. -/
inductive Begins : Dialogue S α → List (Exchange S) → Prop where
  | nil (p : Dialogue S α) : Begins p []
  | ask {c : S.Call} {next : S.Answer c → Dialogue S α} {r : S.Answer c} {h : List (Exchange S)}
      (rest : Begins (next r) h) : Begins (.ask c next) (⟨c, r⟩ :: h)

/-- A run is a beginning, namely of itself. -/
theorem Runs.begins {p : Dialogue S α} {h : List (Exchange S)} {a : α} (hr : Runs p h a) : Begins p h := by
  induction hr with
  | done a => exact .nil _
  | ask _ ih => exact .ask ih

/-- What a run leads to is begun after its history. -/
theorem Leads.begins_append {W : World S} {p q : Dialogue S α} {k k' : W.State} {h es : List (Exchange S)}
    (run : Leads W p k h q k') (he : Begins q es) : Begins p (h ++ es) := by
  induction run generalizing es with
  | start => exact he
  | drift _ _ ih => exact ih he
  | answer _ _ ih =>
    rw [List.append_assoc]
    exact ih (.ask he)

/-- In every world, a run leads along beginnings. -/
theorem Leads.begins {W : World S} {p q : Dialogue S α} {k k' : W.State} {h : List (Exchange S)}
    (run : Leads W p k h q k') : Begins p h := by
  simpa using run.begins_append (.nil q)

/-- A beginning in which every answer is one that the world may give without a change leads there. -/
theorem Begins.leads {W : World S} {k : W.State} {p : Dialogue S α} {h : List (Exchange S)} (hb : Begins p h)
    (ha : ∀ e ∈ h, W.Answers k e.1 e.2 k) : ∃ q, Leads W p k h q k := by
  have hfrom : ∀ {p q : Dialogue S α} {es h : List (Exchange S)}, Leads W q k es p k → Begins p h →
      (∀ e ∈ h, W.Answers k e.1 e.2 k) → ∃ q', Leads W q k (es ++ h) q' k := by
    intro p q es h run hb ha
    induction hb generalizing es with
    | nil p => exact ⟨p, by rwa [List.append_nil]⟩
    | ask rest ih =>
      obtain ⟨hr, ha⟩ := List.forall_mem_cons.mp ha
      rw [List.append_cons]
      exact ih (run.answer hr) ha
  exact hfrom (.start p k) hb ha

/-- After a run of the first, the second is begun. -/
theorem Runs.bind_begins {p : Dialogue S α} {f : α → Dialogue S β} {h₁ h₂ : List (Exchange S)} {a : α}
    (hp : Runs p h₁ a) (hf : Begins (f a) h₂) : Begins (p >>= f) (h₁ ++ h₂) := by
  induction hp with
  | done a => exact hf
  | ask _ ih => exact .ask (ih hf)

/-- Either the first has not come to an end yet, or the second has begun. -/
theorem Begins.of_bind {p : Dialogue S α} {f : α → Dialogue S β} {h : List (Exchange S)}
    (hb : Begins (p >>= f) h) :
    Begins p h ∨ ∃ h₁ h₂ a, h = h₁ ++ h₂ ∧ Runs p h₁ a ∧ Begins (f a) h₂ := by
  induction p generalizing h with
  | done a => exact .inr ⟨[], h, a, rfl, .done a, hb⟩
  | ask c next ih =>
    cases hb with
    | nil => exact .inl (.nil _)
    | ask rest =>
      rcases ih _ rest with hp | ⟨h₁, h₂, a, rfl, hr, hf⟩
      · exact .inl (.ask hp)
      · exact .inr ⟨_ :: h₁, h₂, a, rfl, .ask hr, hf⟩
  | exhausted =>
    cases hb
    exact .inl (.nil _)

end Dialogue

namespace Action

variable {σ α β : Type} {n : Nat} {s : σ} {h : History σ}

/-- From the state `s`, the history `h` may come about at some moment of a run of the action. -/
abbrev Begins (x : Action σ α) (n : Nat) (s : σ) (h : History σ) : Prop := (x.dialogue n s).Begins h

/-- A value asks for nothing. -/
theorem begins_pure {a : α} (hb : Begins (pure a : Action σ α) n s h) : h = [] := by
  cases hb
  rfl

/-- The action after a call has its state and its answer. -/
theorem begins_ask_bind {c : Kernel.Call} {f : Kernel.signature.Answer c → Action σ α}
    (hb : Begins (ask c >>= f) n s h) : h = [] ∨ ∃ a es, h = ⟨(c, s), a⟩ :: es ∧ Begins (f a) n s es := by
  cases hb with
  | nil => exact .inl rfl
  | ask rest => exact .inr ⟨_, _, rfl, rest⟩

/-- After a run of the first action that has not failed, the second is begun. -/
theorem Runs.bind_begins {x : Action σ α} {f : α → Action σ β} {h₁ h₂ : History σ} {a : α} {s₁ : σ}
    (hx : Runs x n s h₁ (.ok a) s₁) (hf : Begins (f a) n s₁ h₂) : Begins (x >>= f) n s (h₁ ++ h₂) := by
  unfold Begins
  rw [dialogue_bind]
  exact Dialogue.Runs.bind_begins hx hf

/-- Either the first action is still being carried out or has failed, or the second has begun. -/
theorem Begins.of_bind {x : Action σ α} {f : α → Action σ β} (hb : Begins (x >>= f) n s h) :
    Begins x n s h ∨
      ∃ h₁ h₂ a s₁, h = h₁ ++ h₂ ∧ Runs x n s h₁ (.ok a) s₁ ∧ Begins (f a) n s₁ h₂ := by
  unfold Begins at hb
  rw [dialogue_bind] at hb
  rcases Dialogue.Begins.of_bind hb with hx | ⟨h₁, h₂, ⟨e | a, s₁⟩, rfl, hx, hf⟩
  · exact .inl hx
  · cases hf
    rw [List.append_nil]
    exact .inl hx.begins
  · exact .inr ⟨h₁, h₂, a, s₁, rfl, hx, hf⟩

/-- A loop begins with its first round, or goes on after the whole of it. -/
theorem Begins.of_iterateFor {body : β → Action σ (Round β α)} {m : Nat} {b : β}
    (hb : Begins (iterateFor body (m + 1) b) n s h) : Begins (body b) n s h ∨
      ∃ h₁ h₂ b₁ s₁, h = h₁ ++ h₂ ∧ Runs (body b) n s h₁ (.ok (.again b₁)) s₁ ∧
        Begins (iterateFor body m b₁) n s₁ h₂ := by
  rcases Begins.of_bind hb with hbody | ⟨h₁, h₂, round, s₁, rfl, hbody, hrest⟩
  · exact .inl hbody
  cases round with
  | again b₁ => exact .inr ⟨h₁, h₂, b₁, s₁, rfl, hbody, hrest⟩
  | finish a =>
    rw [begins_pure hrest, List.append_nil]
    exact .inl hbody.begins

/-- What holds at every moment of every run, where neither the world nor what comes next matters. -/
theorem always_of_begins {W : World Kernel.signature} {x : Action σ α} {k : W.State} {P : History σ → Prop}
    (hx : ∀ n h, Begins x n s h → P h) : Always W x s k fun h _ _ _ => P h :=
  fun n h _ _ _ _ run _ => hx n h run.begins

end Action

end ContainerInit
