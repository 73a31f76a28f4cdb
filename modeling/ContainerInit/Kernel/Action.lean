import ContainerInit.Error
import ContainerInit.Kernel.Call

/-! # Actions

An action talks to the kernel, keeps a state and may fail; a failure keeps the state that was reached. Every call is
made from the state at that moment, so that the history of an action shows its states too. The loops of an action are
bounded by a number that is given when the action is run.

## Loops

A loop of the program goes on until some round finishes it, which may be never. Here it has a bound, and a dialogue that
reaches the bound is exhausted: it has no result, neither a value nor an error. So the bound does not show in what an
action answers. A statement that holds for all bounds is about all runs of the unbounded loop up to any of their
moments, and one that an action comes to a result says from which bound on it does.

## States

Most actions work on the board of a registry. Where an action has a state of its own, as the creation of a supervisor
has, `Action.isolated` carries it out within another one, and its calls are made from the state of the latter. -/

namespace ContainerInit

/-- Actions over a state `σ`. -/
abbrev Action (σ : Type) := ExceptT Error (StateT σ (ReaderT Nat (Dialogue (Kernel.signature.inState σ))))

namespace Action

variable {σ α β : Type}

/-- The dialogue of an action from a state, with a bound on its loops. -/
def dialogue (x : Action σ α) (bound : Nat) (s : σ) :
    Dialogue (Kernel.signature.inState σ) (Except Error α × σ) :=
  (x.run.run s).run bound

/-- Carries out an action from a state, where every call is answered by `handle`. -/
@[specialize] def carryOut {m : Type → Type} [Monad m]
    (handle : (c : Kernel.Call) → m (Kernel.signature.Answer c)) (x : Action σ α) (bound : Nat) (s : σ) :
    m (Option (Except Error α × σ)) :=
  Dialogue.interpret (S := Kernel.signature.inState σ) (fun q => handle q.1) (x.dialogue bound s)

def ofDialogue (p : Dialogue (Kernel.signature.inState σ) α) : Action σ α :=
  ExceptT.lift (StateT.lift (fun _ => p))

def ask (c : Kernel.Call) : Action σ (Kernel.signature.Answer c) := do
  ofDialogue (Dialogue.call (S := Kernel.signature.inState σ) (c, ← get))

/-- The bound on loops is used up. -/
def exhausted : Action σ α := ofDialogue .exhausted

def ofExcept (x : Except Error α) : Action σ α := ExceptT.mk (pure x)

def log (level : Log.Level) (source text : String) : Action σ Unit := ask (.log ⟨level, source, text⟩)

/-- The outcome of an action as a value, whether it failed or not. -/
def attempt (x : Action σ α) : Action σ (Except Error α) := ExceptT.mk (Except.ok <$> x.run)

/-- The outcome of an action over a state of its own, with the state that it leaves. -/
def isolated {τ : Type} (x : Action τ α) (t : τ) : Action σ (Except Error α × τ) := do
  ofDialogue ((x.dialogue (← read) t).askedFrom (← get))

/-- How a round of a loop ends: with a value to go on from, or with the value of the loop. -/
inductive Round (β α : Type) where
  | again (b : β)
  | finish (a : α)

/-- At most `n` rounds. -/
def iterateFor (body : β → Action σ (Round β α)) : Nat → β → Action σ α
  | 0, _ => exhausted
  | n + 1, b => do
    match ← body b with
    | .again b => iterateFor body n b
    | .finish a => pure a

/-- Rounds until one finishes. -/
def iterate (body : β → Action σ (Round β α)) (b : β) : Action σ α := do
  iterateFor body (← read) b

/-- Rounds without anything to carry from one to the next, until one yields a value. -/
def repeatUntil (body : Action σ (Option α)) : Action σ α :=
  iterate (fun () => return (← body).elim (.again ()) .finish) ()

end Action

end ContainerInit
