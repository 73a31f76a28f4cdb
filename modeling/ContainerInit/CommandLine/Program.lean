import ContainerInit.CommandLine.Options
import ContainerInit.Config.Load
import ContainerInit.Supervision.Program

/-! # The program by its arguments

From the arguments to the exit code: the log is set up, the configuration loaded, and its services are supervised until
the end. Whatever fails before that is reported as an error.

A supervisor exists for just as long as the registry is run, so that the signal mask is given back even where the run has
failed. The exit code tells apart a graceful and a forced shutdown, wrong arguments, and a program that could not do its
work. -/

namespace ContainerInit.CommandLine

/-- How the program ends, and the lines that it has printed. -/
structure Exit where
  code : Nat
  output : List String := []
deriving DecidableEq, Repr

namespace Exit

/-- The code of wrong arguments. -/
def usageCode : Nat := 2

/-- The code of a program that cannot do its work. -/
def fatalCode : Nat := 3

end Exit

def programName : String := "cronit"

def versionLine : String := programName ++ " 0.1.0"

def helpLines : List String := [versionLine,
  "Init process for containers: supervises services, restarts them, runs them on cron schedules and " ++
    "reaps zombies",
  "",
  "USAGE:",
  "    " ++ programName ++ " [OPTIONS] [--] [CMD]...",
  "",
  "OPTIONS:",
  "    -c, --config[=FILE]             Run the services of a configuration file",
  "    -n, --name NAME                 Name of the service in single service mode",
  "    -l, --log LEVEL                 Log level: error, warn, info, debug or trace",
  "    -L, --logger TARGET             Log target: console, syslog or null",
  "        --shutdown-timeout SECS     Seconds granted to the shutdown sequence",
  "    -h, --help                      Print help information",
  "    -V, --version                   Print version information"]

variable {σ : Type}

def loadMode : Mode → Action σ Config
  | .file path => Config.load path
  | .single name argv => Config.loadSingle name argv

/-- The registry of the given services. -/
def register (services : List Service.Definition) : Action σ Registry := do
  let (result, r) ← Action.isolated (services.forM Supervision.addService) Registry.empty
  Action.ofExcept result
  return r

/-- Runs a registry under a supervisor that exists for just as long. -/
def runSupervised (r : Registry) (p : Supervision.Plan) : Action σ Supervision.Outcome := do
  let (acquired, slot) ← Action.isolated Supervisor.acquire {}
  let sup ← Action.ofExcept acquired
  let (outcome, _) ← Action.isolated (Supervision.run sup p) (Board.initial : Board r)
  let _ ← Action.isolated sup.release slot
  Action.ofExcept outcome

/-- Does what the options say. A timeout among them goes before that of the configuration. -/
def supervise (o : Options) : Action σ Supervision.Outcome := do
  Supervision.ensureInit
  let config ← loadMode o.mode
  let settings := { config.settings with
    shutdownTimeout := o.shutdownTimeout.getD config.settings.shutdownTimeout }
  runSupervised (← register config.services) { settings }

/-- How an error that ends the program is reported. -/
def errorReport (e : Error) : String :=
  if e.isConfig then "Invalid configuration: " ++ e.message else e.message

/-- Does what the options say; answers the exit code. -/
def execute (o : Options) : Action σ Nat := do
  Action.ask (.initLog programName o.logLevel [o.logTarget])
  match ← Action.attempt (supervise o) with
  | .ok outcome => return outcome.exitCode
  | .error e =>
    Action.log .error "cronit" (errorReport e)
    return Exit.fatalCode

/-- The whole program. -/
def run (args : List String) : Action σ Exit := do
  match Options.ofArguments args with
  | .error .help => return { code := 0, output := helpLines }
  | .error .version => return { code := 0, output := [versionLine] }
  | .error .usage => return { code := Exit.usageCode }
  | .ok o => return { code := ← execute o }

end ContainerInit.CommandLine
