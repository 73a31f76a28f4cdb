import ContainerInit.CommandLine.Program
import ContainerInit.Log.State

/-! # The executable

The program on a real system, as far as that can be reached from here: files, the environment, clocks
and the error output. All other calls fail as not implemented. -/

namespace ContainerInit.Main

/-- The file as a text, empty if it cannot be read. -/
def readStatus (path : String) : IO String := do
  try IO.FS.readFile path catch _ => return ""

def leadingNumber (s : String) : Nat := Text.digitsValue (s.toList.takeWhile Char.isDigit)

def processId : IO Pid := return leadingNumber (← readStatus "/proc/self/stat")

def nanosPerCentisecond : Nat := 10000000

/-- The wall clock as the boot time and the time since then, which is known in hundredths of a second. -/
def wallClock : IO Int := do
  let lines := (← readStatus "/proc/stat").splitOn "\n"
  let booted := (lines.find? (·.startsWith "btime ")).elim 0 fun l =>
    leadingNumber (String.ofList (l.toList.drop "btime ".length))
  let uptime := ((← readStatus "/proc/uptime").splitOn " ").headD ""
  let centiseconds := leadingNumber (String.ofList (uptime.toList.filter (· ≠ '.')))
  return (booted * 100 + centiseconds) * nanosPerCentisecond

def answerLog : (c : Log.Call) → IO (Log.signature.Answer c)
  | .wallClock => wallClock
  | .processId => processId
  | .connect | .send _ => return .error Errno.notImplemented.code
  | .writeLine line => IO.eprintln line

/-- The error number of a failed reading. -/
def errnoOf : IO.Error → Errno
  | .noFileOrDirectory _ code _ | .permissionDenied _ code _ | .inappropriateType _ code _
  | .invalidArgument _ code _ | .resourceExhausted _ code _ => .ofCode code.toNat
  | .otherError code _ => .ofCode code.toNat
  | _ => .ofCode 5

def readFile (path : String) : IO (Except Errno ByteArray) := do
  try return .ok (← IO.FS.readBinFile path) catch e => return .error (errnoOf e)

/-- Runs something that changes the log. -/
def withLog (f : Log.State → Log.Talk Log.State) : StateT Log.State IO Unit := do
  let log : Option Log.State ← ((f (← get)).interpret answerLog : IO _)
  log.forM set

def answer : (c : Kernel.Call) → StateT Log.State IO (Kernel.signature.Answer c)
  | .initLog ident threshold targets => withLog (·.init ident threshold targets)
  | .log r => withLog (·.emit r)
  | .monotonic => (IO.monoNanosNow : IO Nat)
  | .wallClock => wallClock
  | .processId => processId
  | .sleep nanos => IO.sleep (nanos / 1000000).toUInt32
  | .readFile path => readFile path
  | .environment name => IO.getEnv name
  | .fork _ | .wait _ | .peek _ | .kill .. | .awaitSignal _ | .setMask _ | .trapSignal _ | .changeDirectory _ =>
    return .error .notImplemented

/-- More rounds than any loop of the program takes. -/
def loopBound : Nat := Nat.pow 2 64

def run (args : List String) : IO UInt32 := do
  let (result, _) ← ((CommandLine.run args).carryOut answer loopBound ()).run {}
  match result with
  | some (.ok exit, ()) =>
    exit.output.forM fun line => IO.println line
    if exit.code = CommandLine.Exit.usageCode then
      IO.eprintln (CommandLine.programName ++ ": invalid arguments, see --help")
    return exit.code.toUInt32
  | _ => return CommandLine.Exit.fatalCode.toUInt32

end ContainerInit.Main

def main (args : List String) : IO UInt32 := ContainerInit.Main.run args
