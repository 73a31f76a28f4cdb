import ContainerInit.Config.Basic
import ContainerInit.Kernel.Action
import ContainerInit.Text.Quoted

/-! # Loading configurations

Configurations as the running program gets them: from a file, or for a single service, together with
the settings of the environment. -/

namespace ContainerInit.Config

variable {σ : Type}

def environment : Action σ Settings.Environment := do
  let workdir : Option String ← Action.ask (.environment "CRONIT_WORKDIR")
  let shutdownTimeout : Option String ← Action.ask (.environment "CRONIT_SHUTDOWN_TIMEOUT")
  return { workdir, shutdownTimeout }

/-- The text of a file. -/
def readText (path : String) : Action σ String := do
  if path.contains '\x00' then
    throw (.unreadableConfig path "file name contained an unexpected NUL byte")
  let content : Except Errno ByteArray ← Action.ask (.readFile path)
  match content with
  | .error e => throw (.unreadableConfig path (Errno.libraryMessage e.code))
  | .ok bytes => match String.fromUTF8? bytes with
    | none => throw (.unreadableConfig path "stream did not contain valid UTF-8")
    | some text => return text

/-- Loads a configuration file. Its working directory is relative to the directory of the file. -/
def load (path : String) : Action σ Config := do
  Action.log .debug "cronit::config" ("Loading configuration from " ++ Text.quote path)
  let content ← readText path
  Action.ofExcept (parse (← environment) path (Path.parent path) content)

def loadSingle (name : String) (argv : List String) : Action σ Config := do
  Action.ofExcept (single (← environment) name argv)

end ContainerInit.Config
