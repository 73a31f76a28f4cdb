/-! # Restart policies

When a service whose process has ended is to be started again, and the names by which a configuration says so. -/

namespace ContainerInit

/-- Decides whether a service whose process has ended is started again. -/
inductive RestartPolicy where
  | never
  | always
  /-- Only after an exit code other than zero. -/
  | onFailure
  /-- Unless the last process ended after a stop request. -/
  | unlessStopped
deriving DecidableEq, Repr

namespace RestartPolicy

def name : RestartPolicy → String
  | .never => "no"
  | .always => "always"
  | .onFailure => "on-failure"
  | .unlessStopped => "unless-stopped"

def parse? : String → Option RestartPolicy
  | "no" => some .never
  | "always" => some .always
  | "on-failure" => some .onFailure
  | "unless-stopped" => some .unlessStopped
  | _ => none

/-- Each policy is known by its name. -/
theorem parse?_name (p : RestartPolicy) : parse? p.name = some p := by cases p <;> rfl

end RestartPolicy

end ContainerInit
