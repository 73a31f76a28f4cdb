import ContainerInit.Kernel.Dialogue
import ContainerInit.Kernel.Errno
import ContainerInit.Log.Record

/-! # Log sinks

Where records go: lines on the console, datagrams to the system log, or nowhere. A sink of the system log that fails to
send drops its connection and opens a new one for the next record.

A record that cannot be delivered is lost, and a line on the console says so. No record is tried twice, so that a system
log that is out of order takes one connect or one send for each record and no more. -/

namespace ContainerInit.Log

/-- What logging needs from its surroundings. A failed call answers with its error number. -/
inductive Call where
  | wallClock
  | processId
  | connect
  | send (datagram : String)
  | writeLine (line : String)

/-- Wall clock times are in nanoseconds since the epoch. -/
def signature : Signature where
  Call := Call
  Answer
    | .wallClock => Int
    | .processId => Pid
    | .connect | .send _ => Except Int Unit
    | .writeLine _ => Unit

abbrev Talk (α : Type) := Dialogue signature α

def writeLine (line : String) : Talk Unit := Dialogue.call (S := signature) (.writeLine line)

inductive Target where
  | console | syslog | null
deriving DecidableEq, Repr

namespace Target

def parse? : String → Option Target
  | "console" | "terminal" | "output" => some .console
  | "syslog" => some .syslog
  | "null" => some .null
  | _ => none

/-- Reads the name of a target, or says why there is none. -/
def parse (s : String) : Except String Target :=
  match parse? s with
  | some t => .ok t
  | none => .error ("invalid log target '" ++ s ++ "'")

def name : Target → String
  | .console => "console"
  | .syslog => "syslog"
  | .null => "null"

end Target

/-- The connection to the system log, in the name of a program. -/
structure Syslog where
  ident : String
  connected : Bool
deriving DecidableEq, Repr

namespace Syslog

/-- Connects if there is no connection, then sends. -/
def deliver (s : Syslog) (r : Record) : Talk Syslog := do
  let pid : Pid ← Dialogue.call (S := signature) .processId
  let opened : Except Int Unit ←
    if s.connected then pure (.ok ()) else Dialogue.call (S := signature) .connect
  match opened with
  | .error e =>
    writeLine ("Failed to connect syslogger: " ++ Errno.libraryMessage e)
    return { s with connected := false }
  | .ok () =>
    let sent : Except Int Unit ← Dialogue.call (S := signature) (.send (r.datagram s.ident pid))
    match sent with
    | .error e =>
      writeLine ("Failed to send message to syslogger: " ++ Errno.libraryMessage e)
      return { s with connected := false }
    | .ok () => return { s with connected := true }

end Syslog

inductive Sink where
  | console
  | syslog (connection : Syslog)
  | null
deriving DecidableEq, Repr

namespace Sink

def deliver (r : Record) : Sink → Talk Sink
  | .console => do
    let now : Int ← Dialogue.call (S := signature) .wallClock
    writeLine (r.consoleLine now)
    return .console
  | .syslog s => return .syslog (← s.deliver r)
  | .null => return .null

/-- Opens a target for a program; the system log needs a connection from the start. -/
def ofTarget (ident : String) : Target → Talk (Option Sink)
  | .console => return some .console
  | .null => return some .null
  | .syslog => do
    let opened : Except Int Unit ← Dialogue.call (S := signature) .connect
    match opened with
    | .ok () => return some (.syslog ⟨ident, true⟩)
    | .error e =>
      writeLine (ident ++ " failed to create syslogger: " ++ Errno.libraryMessage e)
      return none

end Sink

end ContainerInit.Log
