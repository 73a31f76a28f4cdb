import ContainerInit.Service.Definition
import ContainerInit.Text.Quoted

/-! # Registries

A registry holds services in the order of their names, which are distinct.  The states of its services are kept apart
from it, in a board with one state for each service, so that the dependency graph cannot change while services come
and go.

A service is added by its definition, which is checked on the way; that the list stays ordered is part of the type.
A board belongs to one registry, and is read and written at the places of its services. -/

namespace ContainerInit

structure Registry where
  services : List Service
  ordered : services.Pairwise fun s t => s.name < t.name

namespace Registry

def empty : Registry := ⟨[], .nil⟩

/-- Puts a service in its place by name. -/
def place (s : Service) : List Service → List Service
  | [] => [s]
  | t :: ts => if s.name < t.name then s :: t :: ts else t :: place s ts

theorem mem_place {s u : Service} {ts : List Service} : u ∈ place s ts ↔ u = s ∨ u ∈ ts := by
  induction ts with
  | nil => simp [place]
  | cons t ts ih => by_cases h : s.name < t.name <;> simp [place, h, ih, or_left_comm]

/-- A list in the order of names is still in order with another name in its place. -/
theorem pairwise_place {s : Service} {ts : List Service} (h : ts.Pairwise fun s t => s.name < t.name)
    (hs : ∀ t ∈ ts, t.name ≠ s.name) : (place s ts).Pairwise fun s t => s.name < t.name := by
  induction ts with
  | nil => simp [place]
  | cons t ts ih =>
    rw [List.pairwise_cons] at h
    by_cases hst : s.name < t.name
    · simp only [place, hst, ite_true, List.pairwise_cons]
      exact ⟨fun u hu => (List.mem_cons.1 hu).elim (· ▸ hst) fun hu => String.lt_trans hst (h.1 u hu),
        h.1, h.2⟩
    · simp only [place, hst, ite_false, List.pairwise_cons]
      refine ⟨fun u hu => (mem_place.1 hu).elim (fun e => ?_) (h.1 u), ih h.2 fun u hu => hs u (.tail _ hu)⟩
      exact e ▸ Std.lt_of_le_of_ne (String.not_lt.1 hst) (hs t (.head _))

/-- Adds a service, unless its name is taken or its definition is unsound. -/
def add (r : Registry) (d : Service.Definition) : Except Error Registry :=
  if h : ∃ t ∈ r.services, t.name = d.name then .error (.duplicateService d.name)
  else match hs : Service.ofDefinition d with
    | .error e => .error (.invalidService d.name e)
    | .ok s =>
      have name_eq : s.name = d.name := by
        unfold Service.ofDefinition at hs
        split at hs
        · cases hs
        · revert hs
          cases (Cron.Schedule.parse d.schedule).mapError Error.invalidSchedule with
          | error e => intro hs; cases hs
          | ok sch => intro hs; cases hs; rfl
      .ok ⟨place s r.services, pairwise_place r.ordered fun t ht e => h ⟨t, ht, e.trans name_eq⟩⟩

/-- A service of the registry, by its place in the order of names. -/
abbrev Id (r : Registry) := Fin r.services.length

def ids (r : Registry) : List r.Id := List.finRange r.services.length

def service (r : Registry) (i : r.Id) : Service := r.services[i]

def find? (r : Registry) (name : String) : Option r.Id := r.services.findFinIdx? fun s => s.name = name

/-- Whether a service waits for times of day. -/
def hasTimed (r : Registry) : Bool := r.services.any (·.schedule.hasTimed)

end Registry

/-- The states of the services of a registry. -/
structure Board (r : Registry) where
  states : Vector Service.State r.services.length

namespace Board

variable {r : Registry}

instance : GetElem (Board r) r.Id Service.State fun _ _ => True where
  getElem b i _ := b.states.get i

/-- The board with another state for one service. -/
def set (b : Board r) (i : r.Id) (s : Service.State) : Board r := ⟨b.states.set i s⟩

/-- No service has been started. -/
def initial : Board r := ⟨Vector.replicate _ {}⟩

def isRunning (b : Board r) (i : r.Id) : Bool := b[i].isRunning

def anyRunning (b : Board r) : Bool := r.ids.any b.isRunning

def canRestart (b : Board r) (i : r.Id) : Bool := b[i].canRestart (r.service i).restart

def isBlocked (b : Board r) (i : r.Id) : Bool := b[i].isBlocked (r.service i).restart

/-- A service with its state as it appears in messages. -/
def shown (b : Board r) (i : r.Id) : String :=
  "Service \x7b name: " ++ Text.quote (r.service i).name ++ ", status: " ++ b[i].status.shown ++
    ", pid: " ++ shownOption Pid.shown b[i].pid ++ " \x7d"

/-- The first service by name that owns the process. -/
def owner? (b : Board r) (pid : Pid) : Option r.Id := r.ids.find? fun i => b[i].pid = some pid

end Board

end ContainerInit
