import ContainerInit.Log.Sink

/-! # The log of a process

A process has one log. Its sinks are installed once; every initialization sets the threshold of the process. A record is
written when it passes both that threshold and the one of the installation.

An initialization opens its targets even if there are sinks already, and leaves them aside then. What it does change in
that case is the threshold of the process, be it up or down. -/

namespace ContainerInit.Log

/-- The sinks in use, with the threshold they were installed with. -/
structure Installation where
  threshold : Threshold
  sinks : List Sink
deriving DecidableEq, Repr

structure State where
  threshold : Threshold := none
  installed : Option Installation := none
deriving DecidableEq, Repr

namespace State

/-- Initializes the log for a program: opens each target once and installs the sinks if none are. -/
def init (s : State) (ident : String) (threshold : Threshold) (targets : List Target) : Talk State := do
  let sinks := (← targets.eraseDups.mapM (Sink.ofTarget ident)).filterMap id
  if sinks.isEmpty then writeLine (ident ++ ": no available log targets.")
  match s.installed with
  | none => return { threshold, installed := some ⟨threshold, sinks⟩ }
  | some i =>
    writeLine (ident ++ ": failed to set global logger: attempted to set a logger after the logging " ++
      "system was already initialized")
    return { threshold, installed := some i }

/-- Whether a record of level `l` is written. -/
def Admits (s : State) (l : Level) : Prop :=
  s.threshold.Admits l ∧ ∃ i ∈ s.installed, i.threshold.Admits l

/-- Writes a record to every sink. -/
def emit (s : State) (r : Record) : Talk State := do
  match s.installed with
  | none => return s
  | some i =>
    if s.threshold.Admits r.level ∧ i.threshold.Admits r.level then
      return { s with installed := some { i with sinks := ← i.sinks.mapM (·.deliver r) } }
    else return s

end State

end ContainerInit.Log
