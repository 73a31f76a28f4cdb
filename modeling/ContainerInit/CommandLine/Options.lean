import ContainerInit.Config.Settings
import ContainerInit.Log.Sink
import ContainerInit.Text.Split

/-! # Options

The arguments of the program. Options come first; they end at the first argument that is none, or behind `--`, and all
that follows is the command to run.

The arguments are read from left to right, and the first thing that makes no sense ends the reading, as does a request
for help or for the version. What has been given is put together only after that: no option may come twice, and a
configuration file does not go with a command. -/

namespace ContainerInit.CommandLine

/-- Why a run does not take place. -/
inductive Stop where
  | help
  | version
  /-- The arguments make no sense. -/
  | usage
deriving DecidableEq, Repr

inductive Flag where
  | config | name | logLevel | logTarget | shutdownTimeout | help | version
deriving DecidableEq, Repr

namespace Flag

def all : List Flag := [config, name, logLevel, logTarget, shutdownTimeout, help, version]

def long : Flag → String
  | config => "config"
  | name => "name"
  | logLevel => "log"
  | logTarget => "logger"
  | shutdownTimeout => "shutdown-timeout"
  | help => "help"
  | version => "version"

def short? : Flag → Option Char
  | config => some 'c'
  | name => some 'n'
  | logLevel => some 'l'
  | logTarget => some 'L'
  | shutdownTimeout => none
  | help => some 'h'
  | version => some 'V'

end Flag

/-- An option as it was given, with its value. -/
abbrev Occurrence := Flag × Option String

/-! ### Reading arguments

Only the value of `config` may be left out, and is so unless an equals sign stands before it. The other
options that take a value may have it in the next argument. -/

/-- Reads a group of short options. Answers the options, and the one that waits for its value. -/
def readShort : List Char → Except Stop (List Occurrence × Option Flag)
  | [] => .ok ([], none)
  | c :: cs =>
    match Flag.all.find? (·.short? = some c) with
    | none => .error .usage
    | some .help => .error .help
    | some .version => .error .version
    | some .config =>
      match cs with
      | '=' :: value => .ok ([(.config, some (String.ofList value))], none)
      | cs => do
        let (given, waiting) ← readShort cs
        return ((.config, none) :: given, waiting)
    | some flag =>
      match cs with
      | [] => .ok ([], some flag)
      | '=' :: value => .ok ([(flag, some (String.ofList value))], none)
      | value => .ok ([(flag, some (String.ofList value))], none)

/-- Reads a long option behind its dashes, with the same answer. -/
def readLong (text : List Char) : Except Stop (List Occurrence × Option Flag) :=
  let (name, value) := Text.cut '=' text
  match Flag.all.find? (·.long.toList = name), value.map String.ofList with
  | none, _ => .error .usage
  | some .help, none => .error .help
  | some .version, none => .error .version
  | some .help, some _ | some .version, some _ => .error .usage
  | some .config, value => .ok ([(.config, value)], none)
  | some flag, some value => .ok ([(flag, some value)], none)
  | some flag, none => .ok ([], some flag)

/-- What was given: the options in their order and the command. -/
structure Given where
  options : List Occurrence := []
  command : List String := []
deriving DecidableEq, Repr

def Given.behind (g : Given) (options : List Occurrence) : Given := { g with options := options ++ g.options }

/-- Reads the arguments, while an option may wait for its value. -/
def readArguments (waiting : Option Flag) : List String → Except Stop Given
  | [] => .ok { options := waiting.toList.map (·, none) }
  | arg :: args =>
    let unanswered := waiting.toList.map (·, none)
    match arg.toList with
    | ['-', '-'] => .ok { options := unanswered, command := args }
    | '-' :: '-' :: text => do
      let (given, next) ← readLong text
      return (← readArguments next args).behind (unanswered ++ given)
    | '-' :: c :: cs => do
      let (given, next) ← readShort (c :: cs)
      return (← readArguments next args).behind (unanswered ++ given)
    | _ =>
      match waiting with
      | some flag => return (← readArguments none args).behind [(flag, some arg)]
      | none => .ok { command := arg :: args }

/-! ### What the arguments mean -/

/-- Where the services come from. -/
inductive Mode where
  | file (path : String)
  | single (name : String) (argv : List String)
deriving DecidableEq, Repr

structure Options where
  mode : Mode
  logLevel : Log.Threshold := some .info
  logTarget : Log.Target := .console
  shutdownTimeout : Option Nat := none
deriving DecidableEq, Repr

def defaultFile : String := "/etc/cronit.yaml"

def defaultName : String := "main"

namespace Given

/-- The value of an option, or a default where the option is not given. -/
def value {α : Type} (g : Given) (flag : Flag) (default : α) (read : String → Option α) : Option α :=
  match g.options.lookup flag with
  | none => some default
  | some text => text.bind read

/-- No option is given twice, and a file goes with no command. -/
def options? (g : Given) : Option Options :=
  let file := g.options.lookup .config
  if (g.options.map Prod.fst).Nodup ∧ (g.command = [] ∨ file = none) then do
    let name ← g.value .name defaultName some
    return { mode := if g.command = [] then .file (file.join.getD defaultFile) else .single name g.command
             logLevel := ← g.value .logLevel (some .info) Log.Threshold.parse?
             logTarget := ← g.value .logTarget .console Log.Target.parse?
             shutdownTimeout := ← g.value .shutdownTimeout none fun text =>
               (Settings.readNumber text.toList).toOption.map some }
  else none

end Given

def Options.ofArguments (args : List String) : Except Stop Options := do
  ((← readArguments none args).options?).elim (.error .usage) .ok

end ContainerInit.CommandLine
