import ContainerInit.Config.Command
import ContainerInit.Service.Definition
import ContainerInit.Yaml.Value

/-! # Service entries

What a configuration may say about a service: a command line, or a definition with a field for each part, either by the
names of the fields or in their order.

A value is taken for an entry in two steps. The first is about the shape only, and a document in which some value has no
shape of an entry cannot be read at all. The second makes a definition of the entry: a command line is split into words,
and a restart policy is looked up by its name. What fails there is a fault of the one service. -/

namespace ContainerInit.Config

open Yaml

/-- One text or a list of texts. -/
inductive Texts where
  | one (s : String)
  | many (ss : List String)
deriving DecidableEq, Repr

namespace Texts

def toList : Texts → List String
  | one s => [s]
  | many ss => ss

def text? : Value → Option String
  | .text s => some s
  | _ => none

def ofValue? : Value → Option Texts
  | .text s => some (one s)
  | .list items => (items.mapM text?).map many
  | _ => none

end Texts

/-- What a field says, unless it is null. -/
def unlessNull {α : Type} (read : Value → Option α) : Value → Option (Option α)
  | .null => some none
  | v => (read v).map some

/-- The fields of a definition. -/
inductive Field where
  | command | dependsOn | restart | schedule
deriving DecidableEq, Repr

namespace Field

def all : List Field := [command, dependsOn, restart, schedule]

def name : Field → String
  | command => "command"
  | dependsOn => "depends_on"
  | restart => "restart"
  | schedule => "schedule"

/-- A field is given by its name or by its number. -/
def ofKey? : Value → Option Field
  | .text s => all.find? (·.name = s)
  | .unsigned n => all[n]?
  | _ => none

end Field

structure Details where
  command : Texts
  dependsOn : Option Texts := none
  restart : Option String := none
  schedule : Option Texts := none
deriving DecidableEq, Repr

/-- Reads the fields of a definition, each of which is there at most once. -/
def Details.ofFields? (fields : List (Field × Value)) : Option Details :=
  if (fields.map Prod.fst).Nodup then do
    let optional {α : Type} (f : Field) (read : Value → Option α) : Option (Option α) :=
      (fields.lookup f).elim (some none) (unlessNull read)
    return { command := ← (fields.lookup .command).bind Texts.ofValue?
             dependsOn := ← optional .dependsOn Texts.ofValue?
             restart := ← optional .restart Texts.text?
             schedule := ← optional .schedule Texts.ofValue? }
  else none

inductive Entry where
  | line (command : String)
  | details (d : Details)
deriving DecidableEq, Repr

namespace Entry

def ofValue? : Value → Option Entry
  | .text s => some (.line s)
  | .map entries => do
    let fields ← entries.mapM fun (k, v) => return (← Field.ofKey? k, v)
    return .details (← Details.ofFields? fields)
  | .list items =>
    if items.length ≤ Field.all.length then (Details.ofFields? (Field.all.zip items)).map .details else none
  | _ => none

/-- The words of a command: those of a command line, or those given one by one. -/
def words : Texts → Except Error (List String)
  | .one command => splitCommand command
  | .many [] => .error (.invalidCommand .empty)
  | .many ss => .ok ss

def policy : Option String → Except Error RestartPolicy
  | none => .ok .never
  | some s => match RestartPolicy.parse? s with
    | some p => .ok p
    | none => .error (.invalidRestart s)

/-- The definition of a service of the given name. -/
def definition (name : String) : Entry → Except Error Service.Definition
  | .line command => return { name, argv := ← splitCommand command }
  | .details d => do
    return { name, argv := ← words d.command, dependsOn := d.dependsOn.elim [] Texts.toList,
             restart := ← policy d.restart, schedule := d.schedule.elim [] Texts.toList }

end Entry

end ContainerInit.Config
