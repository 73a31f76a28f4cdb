import ContainerInit.Config.Entry
import ContainerInit.Config.Path
import ContainerInit.Config.Settings
import ContainerInit.Yaml.Document

/-! # Configurations

A configuration is read from a document with a section of settings and a section of services. Other sections are not
looked at.

The entries of services come under their names. They are put in the order of the names before anything is made of them,
and where a name comes again the last entry takes the place of the one before. So neither the order of the document nor
an entry that has been replaced is seen by what follows. -/

namespace ContainerInit

structure Config where
  settings : Settings
  /-- In the order of their names. -/
  services : List Service.Definition
deriving DecidableEq, Repr

namespace Config

open Yaml

/-- The sections of a document. The services are in the order of the document, where the same name may
come again. -/
structure Sections where
  settings : Settings.Layer := {}
  services : Option (List (String × Entry)) := none
deriving DecidableEq, Repr

namespace Sections

/-- The entries of a mapping with the texts of their keys. -/
def fields (node : Node) : Visit (List (String × Node)) := do
  (← Visit.entries node).mapM fun (k, v) => return (← Visit.text k, v)

/-- What is found under a key, which may be there once. -/
def field {α : Type} (fields : List (String × Node)) (key : String) (read : Node → Visit (Option α)) :
    Visit (Option α) :=
  match fields.filter (·.1 = key) with
  | [] => pure none
  | [(_, node)] => read node
  | _ => failure

def readSettings (node : Node) : Visit Settings.Layer := do
  let fields ← fields node
  return { workdir := ← field fields "workdir" (Visit.optional Visit.text)
           shutdownTimeout := ← field fields "shutdown_timeout" (Visit.optional Visit.number) }

def readEntry (node : Node) : Visit Entry := do Entry.ofValue? (← Visit.value node)

def readServices (node : Node) : Visit (List (String × Entry)) := do
  (← fields node).mapM fun (name, node) => return (name, ← readEntry node)

def read (node : Node) : Visit Sections := do
  let fields ← fields node
  return { settings := (← field fields "settings" (Visit.optional readSettings)).getD {}
           services := ← field fields "services" (Visit.optional readServices) }

def ofDocument? (d : Document) : Option Sections :=
  match d.root with
  | none => some {}
  | some root => d.read (read root)

end Sections

/-- Puts an entry in its place by name, instead of the one that has the name already. -/
def place {α : Type} (name : String) (a : α) : List (String × α) → List (String × α)
  | [] => [(name, a)]
  | (m, b) :: rest =>
    if name < m then (name, a) :: (m, b) :: rest
    else if name = m then (name, a) :: rest
    else (m, b) :: place name a rest

/-- What is there after an entry has come to its place is that entry, or was there before. -/
theorem mem_place {α : Type} {name : String} {a : α} {entries : List (String × α)} {e : String × α}
    (h : e ∈ place name a entries) : e = (name, a) ∨ e ∈ entries := by
  induction entries with
  | nil => simpa [place] using h
  | cons d rest ih =>
    obtain ⟨m, b⟩ := d
    unfold place at h
    split at h
    · simpa using h
    · split at h
      · exact (List.mem_cons.1 h).imp_right (.tail _)
      · rcases List.mem_cons.1 h with rfl | h
        · exact .inr (.head _)
        · exact (ih h).imp_right (.tail _)

/-- An entry comes to a place in the order of names. -/
theorem pairwise_place {α : Type} {name : String} {a : α} {entries : List (String × α)}
    (h : entries.Pairwise fun d e => d.1 < e.1) : (place name a entries).Pairwise fun d e => d.1 < e.1 := by
  induction entries with
  | nil => simp [place]
  | cons d rest ih =>
    obtain ⟨m, b⟩ := d
    rw [List.pairwise_cons] at h
    unfold place
    split
    · next hlt => exact .cons (fun e he => (List.mem_cons.1 he).elim (· ▸ hlt) fun he =>
        String.lt_trans hlt (h.1 e he)) (.cons h.1 h.2)
    · next hlt =>
      split
      · next heq => exact .cons (heq ▸ h.1) h.2
      · next hne =>
        refine .cons (fun e he => ?_) (ih h.2)
        rcases mem_place he with rfl | he
        · exact Std.lt_of_le_of_ne (String.not_lt.1 hlt) (Ne.symm hne)
        · exact h.1 e he

/-- The entries in the order of their names; of several with one name the last is taken. -/
def byName {α : Type} (entries : List (String × α)) : List (String × α) :=
  entries.foldl (fun sorted (name, a) => place name a sorted) []

/-- The table is in the order of names. -/
theorem pairwise_byName {α : Type} (entries : List (String × α)) :
    (byName entries).Pairwise fun d e => d.1 < e.1 := by
  suffices ∀ sorted : List (String × α), sorted.Pairwise (fun d e => d.1 < e.1) →
      (entries.foldl (fun sorted e => place e.1 e.2 sorted) sorted).Pairwise fun d e => d.1 < e.1 from
    this [] .nil
  induction entries with
  | nil => exact fun _ h => h
  | cons e rest ih => exact fun sorted h => ih _ (pairwise_place h)

/-- The configuration of a file at `path`, whose working directory is relative to `base`. -/
def ofSections (env : Settings.Environment) (path base : String) (s : Sections) : Except Error Config := do
  let settings ← Settings.layered env s.settings
  let settings := { settings with workdir := settings.workdir.map (Path.join base) }
  match s.services with
  | none => .error (.noServices path)
  | some entries =>
    let services ← (byName entries).mapM fun (name, e) =>
      (e.definition name).mapError (Error.invalidService name)
    return { settings, services }

def parse (env : Settings.Environment) (path base content : String) : Except Error Config :=
  match (Document.ofText? content).bind Sections.ofDocument? with
  | none => .error (.malformedConfig path)
  | some s => ofSections env path base s

/-- The configuration for a single service that runs a command. -/
def single (env : Settings.Environment) (name : String) (argv : List String) : Except Error Config := do
  if argv = [] then .error (.invalidCommand .empty)
  else return { settings := ← Settings.layered env {}, services := [{ name, argv }] }

end Config

end ContainerInit
