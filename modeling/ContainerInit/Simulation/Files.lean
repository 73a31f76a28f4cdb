import ContainerInit.Kernel.Errno
import ContainerInit.Text.Split

/-! # Simulated files

The files of a simulated system, as a table of absolute paths. The directories that lead to an entry of
the table exist as well. -/

namespace ContainerInit.Simulation

inductive Body where
  | file (bytes : List UInt8)
  | directory
deriving DecidableEq, Repr

/-- The entries of a file system, by the components of their paths. -/
abbrev Files := List (List String × Body)

namespace Files

def components (path : String) : List String := (Text.pieces '/' path.toList).map String.ofList

/-- Where the processes of a scenario run. -/
def home : List String := ["tmp", "home"]

/-- What is there besides the files of a scenario. -/
def outside : Files := [(["etc"], .directory), (["dev", "null"], .file []), (home, .directory)]

def ofRelative (files : List (String × Body)) : Files :=
  files.map (fun (path, body) => (home ++ components path, body)) ++ outside

/-- What is found at a place. -/
def body? (fs : Files) (place : List String) : Option Body :=
  match fs.lookup place with
  | some b => some b
  | none => if fs.any fun (path, _) => place.isPrefixOf path then some .directory else none

def maxName : Nat := 255
def maxPath : Nat := 4095

/-- Walks from a place along the components of a path. -/
def walk (fs : Files) : List String → List String → Except Errno Body
  | place, [] => (fs.body? place).elim (.error .noEntry) .ok
  | place, c :: cs =>
    if fs.body? place ≠ some .directory then .error .notDirectory
    else if c = "" || c = "." then fs.walk place cs
    else if c = ".." then fs.walk place.dropLast cs
    else if maxName < c.utf8ByteSize then .error .nameTooLong
    else if (fs.body? (place ++ [c])).isNone then .error .noEntry
    else fs.walk (place ++ [c]) cs

/-- The content of a file. -/
def read (fs : Files) (path : String) : Except Errno ByteArray :=
  if path = "" then .error .noEntry
  else if maxPath < path.utf8ByteSize then .error .nameTooLong
  else
    match fs.walk (if path.toList.head? = some '/' then [] else home) (components path) with
    | .ok (.file bytes) => .ok ⟨bytes.toArray⟩
    | .ok .directory => .error .isDirectory
    | .error e => .error e

end Files

end ContainerInit.Simulation
