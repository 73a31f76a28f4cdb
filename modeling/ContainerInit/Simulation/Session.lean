import ContainerInit.Kernel.Notice
import ContainerInit.Simulation.Answer
import ContainerInit.Supervision.Program

/-! # Sessions on the simulated machine

Actions are carried out on a simulated machine step by step. -/

namespace ContainerInit.Simulation

/-- More rounds than any loop on a simulated machine takes. -/
def loopBound : Nat := 1000000000

/-- Carries out an action from a state; there is no result if a loop has used up its bound. -/
def perform {σ α : Type} (x : Action σ α) (s : σ) (m : Machine) : Option (Except Error α × σ) × Machine :=
  x.carryOut (m := Sim) answer loopBound s m

/-- Time passes. -/
def passTime (nanos : Nat) (m : Machine) : Machine := m.advance (m.clock + nanos)

/-- A signal arrives now. -/
def raise (s : Signal) (sender : Pid) (m : Machine) : Machine := m.post s sender

/-- The process commits a fault that it cannot block. Its handler, if there is one, is removed and
run; answers whether there was one. -/
def commitFault (s : Signal) (m : Machine) : Bool × Machine :=
  if m.context.handlers.contains s then
    let m := { m with context := { m.context with handlers := m.context.handlers.filter (· ≠ s) } }
    let notice := Notice.bytes noticeLead.toUTF8.toList (Int32.ofNat s)
    let line := (String.fromUTF8? ⟨notice.dropLast.toArray⟩).getD ""
    (true, m.writeError line)
  else (false, m)

/-- Changes the log of the process. -/
def changeLog (f : Log.State → Log.Talk Log.State) (m : Machine) : Machine := (withLog f m).2

/-- The events since the last look, earliest first. -/
def takeEvents (m : Machine) : List Event × Machine := (m.events.reverse, { m with events := [] })

end ContainerInit.Simulation
