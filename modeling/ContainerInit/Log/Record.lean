import ContainerInit.Calendar.Instant
import ContainerInit.Kernel.WaitStatus

/-! # Log records

A record has a level, the part of the program that it comes from and a text. It is written as a line on the console or
as a datagram of the system log.

The line has the time in front, which is asked for when it is written. The datagram has none, but the facility and
severity of the system log protocol, the name of the program and the number of its process. -/

namespace ContainerInit.Log

/-- The levels, gravest first. -/
inductive Level where
  | error | warn | info | debug | trace
deriving DecidableEq, Repr

namespace Level

def rank : Level → Nat
  | .error => 1
  | .warn => 2
  | .info => 3
  | .debug => 4
  | .trace => 5

def name : Level → String
  | .error => "ERROR"
  | .warn => "WARN"
  | .info => "INFO"
  | .debug => "DEBUG"
  | .trace => "TRACE"

/-- The severity of the system log protocol. -/
def severity : Level → Nat
  | .error => 3
  | .warn => 4
  | .info => 6
  | .debug | .trace => 7

def all : List Level := [.error, .warn, .info, .debug, .trace]

end Level

/-- The least grave level that is written; none stands for off. -/
abbrev Threshold := Option Level

namespace Threshold

def rank (t : Threshold) : Nat := t.elim 0 Level.rank

def Admits (t : Threshold) (l : Level) : Prop := l.rank ≤ t.rank

instance (t : Threshold) (l : Level) : Decidable (t.Admits l) := inferInstanceAs (Decidable (_ ≤ _))

def name (t : Threshold) : String := t.elim "OFF" Level.name

/-- Reads a level or `off` in any ASCII case. -/
def parse? (s : String) : Option Threshold :=
  ([none] ++ Level.all.map some).find? fun t =>
    (Threshold.name t).toList = s.toList.map Char.toUpper

end Threshold

structure Record where
  level : Level
  source : String
  text : String
deriving DecidableEq, Repr

/-- The time of day and the date as they lead a console line. -/
def timestamp (now : Int) : String :=
  let seconds := now / 1000000000
  let t := Calendar.Instant.ofEpochSeconds seconds
  let pad (width : Nat) (n : Int) := Text.padLeft width '0' (toString n)
  pad 4 t.year ++ "-" ++ pad 2 t.month ++ "-" ++ pad 2 t.day ++ " " ++
    pad 2 t.hour ++ ":" ++ pad 2 t.minute ++ ":" ++ pad 2 (seconds % 60)

namespace Record

/-- The line that the console shows, for a wall clock time in nanoseconds. -/
def consoleLine (r : Record) (now : Int) : String :=
  timestamp now ++ " " ++ Text.padRight 5 r.level.name ++ " " ++ r.source ++ " " ++ r.text

/-- The facility number of system services. -/
def facility : Nat := 3

/-- The datagram for the system log, sent in the name of a program. -/
def datagram (r : Record) (ident : String) (pid : Pid) : String :=
  "<" ++ toString (facility * 8 + r.level.severity) ++ ">" ++ ident ++ "[" ++ toString pid ++ "]: " ++ r.text

end Record

end ContainerInit.Log
