/-! # Signals

Signals are numbers; the first 31 have names. Two of these cannot be blocked, caught or ignored, and two of the numbers
without a name are reserved for the library. A process that one of the numbers without a name has ended is a special
case for whoever wants to know how it has ended, since a report is made with the name. -/

namespace ContainerInit

abbrev Signal := Nat

/-- A set of signals, as the ascending list of its members. -/
abbrev SignalSet := List Signal

namespace Signal

def hangup : Signal := 1
def interrupt : Signal := 2
def quit : Signal := 3
def kill : Signal := 9
def terminate : Signal := 15
def child : Signal := 17
def stop : Signal := 19

def names : List String :=
  ["SIGHUP", "SIGINT", "SIGQUIT", "SIGILL", "SIGTRAP", "SIGABRT", "SIGBUS", "SIGFPE", "SIGKILL",
    "SIGUSR1", "SIGSEGV", "SIGUSR2", "SIGPIPE", "SIGALRM", "SIGTERM", "SIGSTKFLT", "SIGCHLD",
    "SIGCONT", "SIGSTOP", "SIGTSTP", "SIGTTIN", "SIGTTOU", "SIGURG", "SIGXCPU", "SIGXFSZ",
    "SIGVTALRM", "SIGPROF", "SIGWINCH", "SIGIO", "SIGPWR", "SIGSYS"]

/-- The name of a number from 1 to 31. -/
def name? (n : Int) : Option String := if n ≤ 0 then none else names[(n - 1).toNat]?

/-- The name of a signal, and `SIG` with the number where there is no name. -/
def nameOf (n : Int) : String := (name? n).getD ("SIG" ++ toString n)

/-- The named signals. -/
def named : SignalSet := List.range' 1 31

/-- The named signals whose disposition can be changed. -/
def catchable : SignalSet := named.filter fun s => s ≠ kill && s ≠ stop

/-- All signals that a process can block, wait for or send; 32 and 33 are reserved. -/
def all : SignalSet := (List.range' 1 64).filter fun s => s ≠ 32 && s ≠ 33

example : catchable.length = 29 := rfl

end Signal

end ContainerInit
