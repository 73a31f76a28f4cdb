/-! # Dialogues

A computation that asks questions and goes on with the answers. Whoever answers is not part of it: a real system, a
simulated one, or a statement about all possible answers. `Runs` relates a dialogue to the history of questions and
answers that leads it to a result.

A dialogue is a tree with a branch for every answer, and every path through it is finite. So functions of a dialogue can
be defined by recursion, and statements about it proved by induction, with one case for a question and all that may
follow on it. To answer every question by a function of a monad is `Dialogue.interpret`, which is how dialogues are
carried out. -/

namespace ContainerInit

/-- The questions that can be asked, with the type of the answers to each. -/
structure Signature where
  Call : Type
  Answer : Call → Type

/-- The same questions, each asked from a state of the one who asks. The state shows in the history
only; the answers take no notice of it. -/
abbrev Signature.inState (S : Signature) (σ : Type) : Signature where
  Call := S.Call × σ
  Answer q := S.Answer q.1

/-- A dialogue that ends with a value. It is exhausted where a loop has used up its bound. -/
inductive Dialogue (S : Signature) (α : Type) where
  | done (a : α)
  | ask (call : S.Call) (next : S.Answer call → Dialogue S α)
  | exhausted

namespace Dialogue

variable {S : Signature} {α β γ σ τ : Type}

protected def bind : Dialogue S α → (α → Dialogue S β) → Dialogue S β
  | .done a, f => f a
  | .ask c next, f => .ask c fun r => (next r).bind f
  | .exhausted, _ => .exhausted

instance : Monad (Dialogue S) where
  pure := .done
  bind := Dialogue.bind

/-- Asks one question and ends with its answer. -/
def call (c : S.Call) : Dialogue S (S.Answer c) := .ask c .done

@[simp] theorem pure_eq (a : α) : (pure a : Dialogue S α) = .done a := rfl
@[simp] theorem done_bind (a : α) (f : α → Dialogue S β) : (Dialogue.done a >>= f) = f a := rfl
@[simp] theorem ask_bind (c : S.Call) (k : S.Answer c → Dialogue S α) (f : α → Dialogue S β) :
    (Dialogue.ask c k >>= f) = .ask c fun r => k r >>= f := rfl
@[simp] theorem exhausted_bind (f : α → Dialogue S β) :
    ((Dialogue.exhausted : Dialogue S α) >>= f) = .exhausted := rfl

theorem bind_done (p : Dialogue S α) : (p >>= Dialogue.done) = p := by
  induction p with
  | done a => rfl
  | ask c k ih => simp [ih]
  | exhausted => rfl

/-- What follows may be put together first. -/
theorem bind_bind (p : Dialogue S α) (f : α → Dialogue S β) (g : β → Dialogue S γ) :
    ((p >>= f) >>= g) = p >>= fun a => f a >>= g := by
  induction p with
  | done a => rfl
  | ask c k ih => simp [ih]
  | exhausted => rfl

instance : LawfulMonad (Dialogue S) :=
  LawfulMonad.mk' (Dialogue S) (fun p => bind_done p) (fun _ _ => rfl) bind_bind

/-- Asks everything from the state `s` instead of the states of its own. -/
def askedFrom (s : σ) : Dialogue (S.inState τ) α → Dialogue (S.inState σ) α
  | .done a => .done a
  | .ask q next => .ask (q.1, s) fun r => (next r).askedFrom s
  | .exhausted => .exhausted

/-- Answers every question by `handle`. -/
@[specialize] def interpret {m : Type → Type} [Monad m] (handle : (c : S.Call) → m (S.Answer c)) :
    Dialogue S α → m (Option α)
  | .done a => pure (some a)
  | .ask c next => do interpret handle (next (← handle c))
  | .exhausted => pure none

/-- A question with the answer it got. -/
abbrev Exchange (S : Signature) := (c : S.Call) × S.Answer c

/-- The dialogue ends with `a` after exactly the questions and answers of the history. -/
inductive Runs : Dialogue S α → List (Exchange S) → α → Prop where
  | done (a : α) : Runs (.done a) [] a
  | ask {c : S.Call} {next : S.Answer c → Dialogue S α} {r : S.Answer c} {h : List (Exchange S)} {a : α}
      (rest : Runs (next r) h a) : Runs (.ask c next) (⟨c, r⟩ :: h) a

/-- A run of the first dialogue and one of the second make one of both. -/
theorem Runs.bind {p : Dialogue S α} {f : α → Dialogue S β} {h₁ h₂ : List (Exchange S)} {a : α} {b : β}
    (hp : Runs p h₁ a) (hf : Runs (f a) h₂ b) : Runs (p >>= f) (h₁ ++ h₂) b := by
  induction hp with
  | done a => exact hf
  | ask _ ih => exact .ask (ih hf)

/-- A run of both falls into one of the first and one of the second. -/
theorem Runs.of_bind {p : Dialogue S α} {f : α → Dialogue S β} {h : List (Exchange S)} {b : β}
    (hr : Runs (p >>= f) h b) : ∃ h₁ h₂ a, h = h₁ ++ h₂ ∧ Runs p h₁ a ∧ Runs (f a) h₂ b := by
  induction p generalizing h with
  | done a => exact ⟨[], h, a, rfl, .done a, hr⟩
  | ask c k ih =>
    cases hr with
    | ask rest =>
      obtain ⟨h₁, h₂, a, rfl, h₃, h₄⟩ := ih _ rest
      exact ⟨_ :: h₁, h₂, a, rfl, .ask h₃, h₄⟩
  | exhausted => cases hr

theorem runs_bind_iff {p : Dialogue S α} {f : α → Dialogue S β} {h : List (Exchange S)} {b : β} :
    Runs (p >>= f) h b ↔ ∃ h₁ h₂ a, h = h₁ ++ h₂ ∧ Runs p h₁ a ∧ Runs (f a) h₂ b :=
  ⟨Runs.of_bind, fun ⟨_, _, _, e, hp, hf⟩ => e ▸ hp.bind hf⟩

end Dialogue

end ContainerInit
