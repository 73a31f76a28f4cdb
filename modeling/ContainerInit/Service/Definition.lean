import ContainerInit.Cron.Schedule
import ContainerInit.Error

/-! # Services

A definition is what a configuration says about a service; a service is a definition that has been
found sound. -/

namespace ContainerInit

namespace Service

structure Definition where
  name : String
  argv : List String
  dependsOn : List String := []
  restart : RestartPolicy := .never
  schedule : List String := []
deriving DecidableEq, Repr

/-- The command line as one text, for messages. -/
def Definition.commandLine (d : Definition) : String := " ".intercalate d.argv

end Service

structure Service where
  name : String
  argv : List String
  argv_ne_nil : argv ≠ []
  dependsOn : List String
  restart : RestartPolicy
  schedule : Cron.Schedule

namespace Service

def ofDefinition (d : Definition) : Except Error Service := do
  if h : d.argv = [] then .error (.invalidCommand .empty)
  else
    let schedule ← (Cron.Schedule.parse d.schedule).mapError Error.invalidSchedule
    return ⟨d.name, d.argv, h, d.dependsOn, d.restart, schedule⟩

def commandLine (s : Service) : String := " ".intercalate s.argv

end Service

end ContainerInit
