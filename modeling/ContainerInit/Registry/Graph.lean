import ContainerInit.Registry.Basic

/-! # The dependency graph

Validation, start planning and the stopping order are depth first searches along the dependencies.  Each of them ends
because the services that it is inside of, or that it has entered, are distinct.

The searches differ in what they remember.  The validation keeps the services that it has cleared, and does not enter
them again.  The planning keeps the plan, and turns back from nothing but what it is inside of, so that a service may
be entered more than once.  The walk for the stopping order keeps what it has entered and what it has left, and is
refused nothing. -/

namespace ContainerInit.Registry

variable {r : Registry}

/-- The number of services that a list leaves out. -/
def leftOut (r : Registry) (is : List r.Id) : Nat := (r.ids.filter (· ∉ is)).length

/-- To enter a service leaves fewer of them out. -/
theorem leftOut_cons_lt {is : List r.Id} {i : r.Id} (h : i ∉ is) : r.leftOut (i :: is) < r.leftOut is := by
  have e : r.ids.filter (· ∉ i :: is) = (r.ids.filter (· ∉ is)).filter (· ≠ i) := by
    rw [List.filter_filter]
    exact List.filter_congr fun j _ => by simp
  unfold leftOut
  rw [e, List.length_filter_lt_length_iff_exists]
  exact ⟨i, by simp [ids, h], by simp⟩

/-- The more is in a list, the less it leaves out. -/
theorem leftOut_le {is js : List r.Id} (h : is ⊆ js) : r.leftOut js ≤ r.leftOut is := by
  unfold leftOut
  rw [← List.countP_eq_length_filter, ← List.countP_eq_length_filter]
  exact List.countP_mono_left fun j _ hj => by
    simp only [decide_eq_true_eq] at hj ⊢
    exact fun hi => hj (h hi)

/-- The names from the first service of a path to its last, and the name that closes the circle. -/
def cycleError (path : List r.Id) (i : r.Id) : Error :=
  .dependencyCycle ((i :: path).reverse.map fun j => (r.service j).name)

mutual

/-- Searches for a circle through `i`, from inside of `path`, passing over the services in `cleared`.
Answers the services that are cleared thereafter. -/
def clear (path cleared : List r.Id) (i : r.Id) : Except Error (List r.Id) :=
  if i ∈ cleared then .ok cleared
  else if _h : i ∈ path then .error (cycleError path i)
  else do
    let cleared ← clearAll (i :: path) cleared (r.service i).dependsOn
    return i :: cleared
termination_by (r.leftOut path, 0)
decreasing_by exact Prod.Lex.left _ _ (leftOut_cons_lt _h)

/-- Searches through the dependencies with the given names. -/
def clearAll (path cleared : List r.Id) : List String → Except Error (List r.Id)
  | [] => .ok cleared
  | name :: names => match r.find? name with
    | none => .error (.serviceNotFound name)
    | some j => do
      let cleared ← clear path cleared j
      clearAll path cleared names
termination_by names => (r.leftOut path, 1 + names.length)
decreasing_by all_goals exact Prod.Lex.right _ (by simp +arith)

end

/-- The first service with a dependency that does not exist, with the first such dependency. -/
def unresolved? (r : Registry) : Option (Service × String) :=
  r.services.findSome? fun s => (s.dependsOn.find? fun n => (r.find? n).isNone).map (s, ·)

/-- Every dependency exists, and no service depends on itself through others. -/
def validate (r : Registry) : Except Error Unit := do
  if let some (s, name) := r.unresolved? then
    throw (.invalidService s.name (.serviceNotFound name))
  let _ ← r.ids.foldlM (fun cleared i => clear [] cleared i) []

mutual

/-- Extends a plan by what has to run before `i`, and by `i`, from inside of `path`. -/
def extendPlan (b : Board r) (path plan : List r.Id) (i : r.Id) : Except Error (List r.Id) :=
  if _h : i ∈ path then .error (cycleError path i)
  else do
    let plan ← extendPlanAll b (i :: path) plan i (r.service i).dependsOn
    return if i ∈ plan then plan else plan ++ [i]
termination_by (r.leftOut path, 0)
decreasing_by exact Prod.Lex.left _ _ (leftOut_cons_lt _h)

/-- Extends a plan by the dependencies of `i` with the given names. Running ones need no start; one
that has ended for good keeps `i` from starting. -/
def extendPlanAll (b : Board r) (path plan : List r.Id) (i : r.Id) : List String → Except Error (List r.Id)
  | [] => .ok plan
  | name :: names => match r.find? name with
    | none => .error (.serviceNotFound name)
    | some j =>
      if b.isRunning j then extendPlanAll b path plan i names
      else if b.isBlocked j then
        .error (.dependencyBlocked (r.service i).name (r.service j).name b[j].status)
      else do
        let plan ← extendPlan b path plan j
        extendPlanAll b path plan i names
termination_by names => (r.leftOut path, 1 + names.length)
decreasing_by all_goals exact Prod.Lex.right _ (by simp +arith)

end

/-- The services to be started for `i` to run, in the order of their start. -/
def plan (b : Board r) (i : r.Id) : Except Error (List r.Id) := extendPlan b [] [] i

/-- The services that a search has entered, and the ones that it has left again, in that order. -/
structure Walk (r : Registry) where
  entered : List r.Id := []
  left : List r.Id := []

mutual

/-- Walks through `i` unless that has been entered: its dependencies first, then itself. -/
def walk (w : Walk r) (i : r.Id) : { w' : Walk r // w.entered ⊆ w'.entered } :=
  if _h : i ∈ w.entered then ⟨w, List.Subset.refl _⟩
  else
    let w' := walkAll { w with entered := i :: w.entered } (r.service i).dependsOn
    ⟨{ w'.1 with left := w'.1.left ++ [i] }, fun _ hj => w'.2 (.tail _ hj)⟩
termination_by (r.leftOut w.entered, 0)
decreasing_by exact Prod.Lex.left _ _ (leftOut_cons_lt _h)

/-- Walks through the dependencies with the given names; names without a service are passed over. -/
def walkAll (w : Walk r) : List String → { w' : Walk r // w.entered ⊆ w'.entered }
  | [] => ⟨w, List.Subset.refl _⟩
  | name :: names => match r.find? name with
    | none => walkAll w names
    | some j =>
      have ⟨w₁, h₁⟩ := walk w j
      have ⟨w₂, h₂⟩ := walkAll w₁ names
      ⟨w₂, fun _ hk => h₂ (h₁ hk)⟩
termination_by names => (r.leftOut w.entered, 1 + names.length)
decreasing_by
  · exact Prod.Lex.right _ (by simp)
  · exact Prod.Lex.right _ (by simp +arith)
  · rcases Nat.lt_or_eq_of_le (leftOut_le h₁) with h | h
    · exact Prod.Lex.left _ _ h
    · rw [h]; exact Prod.Lex.right _ (by simp)

end

/-- The services in such an order that each comes after its dependencies, circles apart. -/
def startOrder (r : Registry) : List r.Id := (r.ids.foldl (fun w i => (walk w i).1) ({} : Walk r)).left

end ContainerInit.Registry
