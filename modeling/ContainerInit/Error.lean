import ContainerInit.Cron.Expression
import ContainerInit.Kernel.Errno
import ContainerInit.Service.State

/-! # Errors

Everything that can go wrong, by cause, with the wording in `Error.message`. Configuration errors are
fatal at the start; a recoverable error leaves the supervisor as it was, so that the running loop
reports it and tries again later. -/

namespace ContainerInit

/-- Why a text is no unsigned 64 bit number. -/
inductive NumberFault where
  | empty | invalidDigit | tooLarge
deriving DecidableEq, Repr

def NumberFault.message : NumberFault → String
  | .empty => "cannot parse integer from empty string"
  | .invalidDigit => "invalid digit found in string"
  | .tooLarge => "number too large to fit in target type"

/-- Why a command line cannot be run. -/
inductive CommandFault where
  | empty
  | unclosedQuote (command : String)
  | nulByte (argument : String)
deriving DecidableEq, Repr

def CommandFault.message : CommandFault → String
  | .empty => "empty command line"
  | .unclosedQuote c => "'" ++ c ++ "': missing closing quote"
  | .nulByte a => "'" ++ a ++ "' contains a nul byte"

/-- A failed call behind the supervisor's own set-up or its waiting for signals. -/
inductive CallFault where
  | errno (e : Errno)
  | syscall (name : String) (result : Int) (errno : Errno)
deriving DecidableEq, Repr

def CallFault.message : CallFault → String
  | .errno e => "Errno: " ++ e.message
  | .syscall n r e =>
    "Got an error: (ret=" ++ toString r ++ ", errno=" ++ toString e.code ++ ") for syscall: " ++ n

inductive Error where
  | unreadableConfig (path : String) (reason : String)
  | malformedConfig (path : String)
  | noServices (path : String)
  /-- The shutdown timeout in the environment is no number. -/
  | invalidTimeout (value : String) (fault : NumberFault)
  | invalidService (name : String) (cause : Error)
  | invalidCommand (fault : CommandFault)
  | invalidRestart (value : String)
  | invalidSchedule (cause : Cron.ParseError)
  | duplicateService (name : String)
  | serviceNotFound (name : String)
  | dependencyCycle (chain : List String)
  | dependencyBlocked (service dependency : String) (status : Service.Status)
  | notInit (pid : Pid)
  | alreadyInitialized
  | spawnFailed (command : String) (errno : Errno)
  | stillOwned (service : String) (pid : Pid)
  | callFailed (fault : CallFault)
  | system (errno : Errno)
deriving Repr

namespace Error

def message : Error → String
  | .unreadableConfig p r => "Failed to read config file '" ++ p ++ "': " ++ r
  | .malformedConfig p => "Failed to parse config file '" ++ p ++ "'"
  | .noServices p => "No services defined in '" ++ p ++ "'"
  | .invalidTimeout v f =>
    "Confique error: failed to deserialize value `Settings::shutdown_timeout` from environment " ++
      "variable `CRONIT_SHUTDOWN_TIMEOUT`: invalid value '" ++ v ++ "' for type u64: " ++ f.message
  | .invalidService n e => "Invalid service '" ++ n ++ "': " ++ e.message
  | .invalidCommand f => "Invalid command: " ++ f.message
  | .invalidRestart v => "Invalid restart policy '" ++ v ++ "'"
  | .invalidSchedule e => "Invalid schedule: " ++ e.message
  | .duplicateService n => "Duplicate service name '" ++ n ++ "'"
  | .serviceNotFound n => "Service '" ++ n ++ "' not found"
  | .dependencyCycle c => "Circular dependency detected: " ++ " -> ".intercalate c
  | .dependencyBlocked s d st =>
    "Service '" ++ s ++ "' cannot start: dependency '" ++ d ++ "' is " ++ st.name ++ " and cannot restart"
  | .notInit p => "Must run as the init process (pid 1), current pid is " ++ toString p
  | .alreadyInitialized => "A supervisor instance already exists"
  | .spawnFailed c e => "Failed to spawn '" ++ c ++ "': " ++ e.message
  | .stillOwned n p =>
    "Invalid process state of service '" ++ n ++ "': pid " ++ toString p ++ " exited but is still owned"
  | .callFailed f => "UtilError: " ++ f.message
  | .system e => "NixError: " ++ e.message

/-- The error comes from the configuration and not from the system. -/
def isConfig : Error → Bool
  | .unreadableConfig .. | .malformedConfig .. | .noServices .. | .invalidTimeout ..
  | .invalidService .. | .invalidCommand .. | .invalidRestart .. | .invalidSchedule ..
  | .duplicateService .. | .serviceNotFound .. | .dependencyCycle .. | .dependencyBlocked .. => true
  | _ => false

/-- The error leaves everything in order for another attempt. -/
def isRecoverable : Error → Bool
  | .spawnFailed .. | .dependencyBlocked .. => true
  | _ => false

end Error

end ContainerInit
