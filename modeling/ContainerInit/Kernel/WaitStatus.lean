import ContainerInit.Kernel.Signal

/-! # Wait statuses -/

namespace ContainerInit

abbrev Pid := Int

/-- A process number as it appears inside other values. -/
def Pid.shown (p : Pid) : String := "Pid(" ++ toString p ++ ")"

/-- What a wait call reports about a child. -/
inductive WaitStatus where
  | exited (pid : Pid) (code : Int)
  | signaled (pid : Pid) (signal : Signal) (core : Bool)
  | stopped (pid : Pid) (signal : Signal)
  | continued (pid : Pid)
  | stillAlive
deriving DecidableEq, Repr

namespace WaitStatus

/-- The code recorded for a process that a signal ended. -/
def signaledCode : Int := -1

/-- The process the status is about. -/
def pid? : WaitStatus → Option Pid
  | .exited p _ | .signaled p _ _ | .stopped p _ | .continued p => some p
  | .stillAlive => none

/-- The exit code of a process that ended; none for any other state. -/
def exitCode? : WaitStatus → Option Int
  | .exited _ c => some c
  | .signaled _ _ _ => some signaledCode
  | _ => none

def shown : WaitStatus → String
  | .exited p c => "Exited(" ++ p.shown ++ ", " ++ toString c ++ ")"
  | .signaled p s core =>
    "Signaled(" ++ p.shown ++ ", " ++ Signal.nameOf s ++ ", " ++ (if core then "true" else "false") ++ ")"
  | .stopped p s => "Stopped(" ++ p.shown ++ ", " ++ Signal.nameOf s ++ ")"
  | .continued p => "Continued(" ++ p.shown ++ ")"
  | .stillAlive => "StillAlive"

end WaitStatus

/-- A value that may be absent, as it appears in messages. -/
def shownOption {α : Type} (shown : α → String) : Option α → String
  | none => "None"
  | some a => "Some(" ++ shown a ++ ")"

end ContainerInit
