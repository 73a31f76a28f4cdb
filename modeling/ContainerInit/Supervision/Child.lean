import ContainerInit.Kernel.Call
import ContainerInit.Text.Quoted

/-! # Forked children

What a child does between the fork and its program: it returns to default signal dispositions and to the signal mask
it was given. A child whose program cannot be run ends with code 127.

A child has the supervisor's copy of everything at first, and a program inherits the mask and the ignored signals from
it. What fails on the way does not keep the child from its program. -/

namespace ContainerInit.Kernel.Child

abbrev Talk (α : Type) := Dialogue signature α

def log (level : Log.Level) (source text : String) : Talk Unit :=
  Dialogue.call (S := signature) (.log ⟨level, source, text⟩)

def resetSignal (s : Signal) : Talk Unit := do
  let r : Except Errno Unit ← Dialogue.call (S := signature) (.defaultSignal s)
  if let .error e := r then
    log .warn "basic::signal" ("Failed to reset signal " ++ Signal.nameOf s ++ ": " ++ e.message)

/-- Takes over the mask, or an empty one if that fails. -/
def restoreMask (mask : SignalSet) : Talk Unit := do
  let r : Except Errno Unit ← Dialogue.call (S := signature) (.setMask mask)
  if let .error _ := r then
    let r : Except Errno Unit ← Dialogue.call (S := signature) (.setMask [])
    if let .error e := r then
      log .warn "basic::signal" ("reset sigprocmask failed:" ++ e.message)

/-- The exit code of a child whose program cannot be run. -/
def notExecuted : Int := 127

/-- Runs the program of the child; answers an exit code if that fails. -/
def run (c : Child) : Talk (Option Int) := do
  Signal.catchable.forM resetSignal
  restoreMask c.mask
  let r : Except Errno Unit ← Dialogue.call (S := signature) (.exec c.argv)
  match r with
  | .ok () => return none
  | .error e =>
    log .error "cronit::supervisor"
      ("Failed to execute " ++ Text.quoteBytes (c.argv.headD "") ++ ": " ++ e.message)
    return some notExecuted

end ContainerInit.Kernel.Child
