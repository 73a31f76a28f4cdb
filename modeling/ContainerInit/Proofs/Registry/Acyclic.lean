import ContainerInit.Proofs.Registry.Board
import ContainerInit.Proofs.Registry.StartPlan
import Mathlib.Data.List.Chain

/-! # What validation decides

A registry is valid exactly if every dependency exists and no service depends on itself, through others or at once.
The services that the search has cleared stand in the reverse of an order of starts, whatever service the search has
begun with.  Where there is no such order, the path that the search is inside of closes a circle.

## Dependencies that do not exist

They are looked for first, in the order of names and in each list of dependencies from the left, so that which one is
reported does not depend on circles (`FirstLack`).

## Circles

What is proved of the search is one statement along its recursion (`searched_clear`): it comes from inside of a path
without repetitions that leads to the service in question, with services cleared that are in order, and it either
clears that service too or has found a circle.  An order of starts rules out that anything in it depends on itself,
and a chain that is reported is the path from the service that has been met again.  So the two outcomes exclude each
other, and `validate_decides` has both directions. -/

namespace ContainerInit

open Relation

/-- Before the first start every dependency is needed. -/
theorem Board.needs_initial_iff {r : Registry} {i j : r.Id} :
    (initial : Board r).Needs i j ↔ r.DependsOn i j := by
  rw [Needs, isRunning_eq_false_iff, getElem_initial]
  exact and_iff_left rfl

namespace Registry

variable {r : Registry} {i j : r.Id} {path cleared : List r.Id}

/-! ## Dependencies that do not exist -/

/-- `i` is the first service by name that lacks a dependency, and `name` is the first in its list. -/
structure FirstLack (r : Registry) (i : r.Id) (name : String) : Prop where
  lacks : r.Lacks i name
  before : ∀ j : r.Id, (r.service j).name < (r.service i).name → ∀ n, ¬ r.Lacks j n
  earlier : ∃ xs ys, (r.service i).dependsOn = xs ++ name :: ys ∧ ∀ n ∈ xs, ¬ r.Lacks i n

/-- A name is not found exactly if no service has it. -/
theorem isNone_find?_iff {name : String} :
    (r.find? name).isNone = true ↔ ∀ j : r.Id, (r.service j).name ≠ name := by
  rw [Option.isNone_iff_eq_none, find?_eq_none_iff]

/-- The first dependency of a service that does not exist. -/
theorem find?_isNone_eq_some_iff {names : List String} {name : String} :
    names.find? (fun n => (r.find? n).isNone) = some name ↔
      (∀ j : r.Id, (r.service j).name ≠ name) ∧
        ∃ xs ys, names = xs ++ name :: ys ∧ ∀ n ∈ xs, ∃ j : r.Id, (r.service j).name = n := by
  rw [List.find?_eq_some_iff_append, isNone_find?_iff]
  simp only [Bool.not_eq_true', ← Bool.not_eq_true, isNone_find?_iff, not_forall, not_not]

/-- All dependencies of a service are found exactly if it lacks none. -/
theorem find?_isNone_eq_none_iff :
    (r.service i).dependsOn.find? (fun n => (r.find? n).isNone) = none ↔ ∀ n, ¬ r.Lacks i n := by
  simp only [List.find?_eq_none, isNone_find?_iff, Lacks, not_and]

/-- No dependency is reported exactly if none is lacking. -/
theorem unresolved?_eq_none_iff : r.unresolved? = none ↔ ∀ i name, ¬ r.Lacks i name := by
  rw [unresolved?, List.findSome?_eq_none_iff]
  constructor
  · intro h i
    have hi := h _ (List.getElem_mem i.isLt)
    exact find?_isNone_eq_none_iff.mp (Option.map_eq_none_iff.mp hi)
  · intro h s hs
    obtain ⟨n, hn, rfl⟩ := List.getElem_of_mem hs
    exact Option.map_eq_none_iff.mpr (find?_isNone_eq_none_iff.mpr (h ⟨n, hn⟩))

/-- What is reported is the first lack. -/
theorem firstLack_of_unresolved? {s : Service} {name : String} (h : r.unresolved? = some (s, name)) :
    ∃ i, s = r.service i ∧ r.FirstLack i name := by
  obtain ⟨before, t, after, hr, ht, hbefore⟩ := List.findSome?_eq_some_iff.mp h
  obtain ⟨n, hn, hst⟩ := Option.map_eq_some_iff.mp ht
  obtain ⟨rfl, rfl⟩ := Prod.mk.inj hst
  obtain ⟨hnone, xs, ys, hdeps, hxs⟩ := find?_isNone_eq_some_iff.mp hn
  have hlt : before.length < r.services.length := by simp [hr]
  have hservice : r.service ⟨before.length, hlt⟩ = t := by simp [service, hr]
  refine ⟨⟨before.length, hlt⟩, hservice.symm, ⟨?_, hnone⟩, fun j hj => ?_, xs, ys, ?_, ?_⟩
  · simp [hservice, hdeps]
  · have hj : j.val < before.length := lt_of_name_lt_name hj
    have hmem : r.service j ∈ before := by
      simp [service, hr, List.getElem_append_left hj]
    exact find?_isNone_eq_none_iff.mp (Option.map_eq_none_iff.mp (hbefore _ hmem))
  · rw [hservice, hdeps]
  · intro n hn hl
    obtain ⟨k, hk⟩ := hxs n hn
    exact hl.2 k hk

/-! ## Circles -/

/-- A service with the first name has the second among its dependencies. -/
def Edge (r : Registry) (m n : String) : Prop :=
  ∃ i : r.Id, (r.service i).name = m ∧ n ∈ (r.service i).dependsOn

/-- The names follow the dependencies without coming back, until the last one closes a circle. -/
structure ClosesCircle (r : Registry) (chain : List String) : Prop where
  edges : chain.IsChain r.Edge
  nodup : chain.dropLast.Nodup
  closed : ∃ name ∈ chain.dropLast, chain.getLast? = some name

/-- The path, innermost service first, follows the dependencies to `i`. -/
def LeadsTo (path : List r.Id) (i : r.Id) : Prop := (i :: path).IsChain fun j k => r.DependsOn k j

/-- Along a path, whatever it is inside of depends on where it has come to. -/
theorem LeadsTo.transGen (h : LeadsTo path i) (hj : j ∈ path) : TransGen r.DependsOn j i := by
  have ht : (i :: path).IsChain fun k l => TransGen r.DependsOn l k := h.imp fun _ _ => .single
  have : IsTrans r.Id fun k l => TransGen r.DependsOn l k := ⟨fun _ _ _ hkl hlm => hlm.trans hkl⟩
  exact List.rel_of_pairwise_cons (List.isChain_iff_pairwise.mp ht) hj

/-- A path goes on by a dependency. -/
theorem LeadsTo.cons (h : LeadsTo path i) (hj : r.DependsOn i j) : LeadsTo (i :: path) j :=
  List.isChain_cons_cons.mpr ⟨hj, h⟩

/-- A path that comes back to one of its services is reported as a circle. -/
theorem LeadsTo.closesCircle (h : LeadsTo path i) (hp : path.Nodup) (hi : i ∈ path) :
    r.ClosesCircle ((i :: path).reverse.map fun j => (r.service j).name) := by
  have hlast : ((i :: path).reverse.map fun j => (r.service j).name) =
      (path.reverse.map fun j => (r.service j).name) ++ [(r.service i).name] := by simp
  constructor
  · rw [List.isChain_map, List.isChain_reverse]
    exact h.imp fun _ k hk => ⟨k, rfl, hk⟩
  · rw [hlast, List.dropLast_concat]
    exact (List.nodup_reverse.mpr hp).map name_injective
  · refine ⟨(r.service i).name, ?_, ?_⟩
    · rw [hlast, List.dropLast_concat]
      exact List.mem_map.mpr ⟨i, List.mem_reverse.mpr hi, rfl⟩
    · rw [hlast, List.getLast?_concat]

/-! ## The search -/

/-- The search ends with services that satisfy `good`, or it has found a circle and tells of it. -/
def Searched (r : Registry) (good : List r.Id → Prop) : Except Error (List r.Id) → Prop
  | .ok cleared => good cleared
  | .error e => ∃ chain, e = .dependencyCycle chain ∧ r.ClosesCircle chain ∧ ∃ i, TransGen r.DependsOn i i

/-- A search may go on from what another one has cleared. -/
theorem Searched.bind {good good' : List r.Id → Prop} {x : Except Error (List r.Id)}
    {f : List r.Id → Except Error (List r.Id)} (hx : r.Searched good x)
    (hf : ∀ cleared, good cleared → r.Searched good' (f cleared)) : r.Searched good' (x >>= f) := by
  cases x with
  | ok cleared => exact hf cleared hx
  | error e => exact hx

theorem Searched.imp {good good' : List r.Id → Prop} {x : Except Error (List r.Id)} (hx : r.Searched good x)
    (h : ∀ cleared, good cleared → good' cleared) : r.Searched good' x := by
  cases x with
  | ok cleared => exact h cleared hx
  | error e => exact hx

/-- The services cleared, last first, are in an order of starts. -/
abbrev InOrder (cleared : List r.Id) : Prop := (Board.initial : Board r).Ordered cleared.reverse

/-- From `cleared` on, the services that satisfy `new` have been cleared as well. -/
structure Grown (cleared cleared' : List r.Id) (new : r.Id → Prop) : Prop where
  inOrder : InOrder cleared'
  subset : cleared ⊆ cleared'
  mem : ∀ j, new j → j ∈ cleared'

/-- The search through `i` from inside of a path that leads to it. -/
theorem searched_clear (hr : ∀ i name, ¬ r.Lacks i name) (path cleared : List r.Id) (i : r.Id)
    (hp : path.Nodup) (hi : LeadsTo path i) (hc : InOrder cleared) :
    r.Searched (Grown cleared · (· = i)) (clear path cleared i) := by
  revert hp hi hc
  induction path, cleared, i using clear.induct _ (fun path cleared names => path.Nodup →
      (∀ name ∈ names, ∃ j : r.Id, (r.service j).name = name) →
      (∀ j : r.Id, (r.service j).name ∈ names → LeadsTo path j) → InOrder cleared →
      r.Searched (Grown cleared · fun j => (r.service j).name ∈ names) (clearAll path cleared names)) with
  | case1 path cleared i hi =>
    intro _ _ hc
    rw [clear, if_pos hi]
    exact ⟨hc, fun _ => id, fun j hj => hj ▸ hi⟩
  | case2 path cleared i hic hi =>
    intro hp hlead _
    rw [clear, if_neg hic, dif_pos hi]
    exact ⟨_, rfl, hlead.closesCircle hp hi, i, hlead.transGen hi⟩
  | case3 path cleared i hic hi ih =>
    intro hp hlead hc
    rw [clear, if_neg hic, dif_neg hi]
    have hexist : ∀ name ∈ (r.service i).dependsOn, ∃ j : r.Id, (r.service j).name = name := by
      intro name hn
      by_contra hnone
      exact hr i name ⟨hn, fun j hj => hnone ⟨j, hj⟩⟩
    refine (ih (List.nodup_cons.mpr ⟨hi, hp⟩) hexist (fun j hj => hlead.cons hj) hc).bind ?_
    intro cleared' h
    refine ⟨?_, fun j hj => .tail _ (h.subset hj), fun j hj => hj ▸ .head _⟩
    rw [InOrder, List.reverse_cons]
    apply h.inOrder.concat
    intro k hk
    exact List.mem_reverse.mpr (h.mem k (Board.needs_initial_iff.mp hk))
  | case4 path cleared _ _ _ hc =>
    rw [clearAll]
    exact ⟨hc, fun _ => id, nofun⟩
  | case5 path cleared name names hn _ hexist _ _ =>
    obtain ⟨j, hj⟩ := hexist name (.head _)
    exact absurd hj (find?_eq_none_iff.mp hn j)
  | case6 path cleared name names j hn ih ihs hp hexist hlead hc =>
    obtain rfl := find?_eq_some_iff.mp hn
    rw [clearAll, hn]
    refine (ih hp (hlead j (.head _)) hc).bind fun cleared₁ h₁ => ?_
    have hrest := ihs cleared₁ hp (fun name hn => hexist name (.tail _ hn))
      (fun k hk => hlead k (.tail _ hk)) h₁.inOrder
    refine hrest.imp fun cleared₂ h₂ => ⟨h₂.inOrder, fun k hk => h₂.subset (h₁.subset hk), ?_⟩
    intro k hk
    rcases List.mem_cons.mp hk with he | hk
    · exact h₂.subset (h₁.mem k (name_injective he))
    · exact h₂.mem k hk

/-- The search from one service after the other, which shares what has been cleared. -/
theorem searched_foldlM (hr : ∀ i name, ¬ r.Lacks i name) (is cleared : List r.Id) (hc : InOrder cleared) :
    r.Searched (Grown cleared · (· ∈ is)) (is.foldlM (fun cleared i => clear [] cleared i) cleared) := by
  induction is generalizing cleared with
  | nil => exact ⟨hc, fun _ => id, nofun⟩
  | cons i is ih =>
    rw [List.foldlM_cons]
    refine (searched_clear hr [] cleared i .nil (.singleton i) hc).bind fun cleared₁ h₁ => ?_
    refine (ih cleared₁ h₁.inOrder).imp fun cleared₂ h₂ => ⟨h₂.inOrder, fun k hk => h₂.subset (h₁.subset hk), ?_⟩
    intro k hk
    rcases List.mem_cons.mp hk with rfl | hk
    · exact h₂.subset (h₁.mem k rfl)
    · exact h₂.mem k hk

/-! ## The verdict -/

/-- A dependency that does not exist is reported with the service that has it. -/
theorem validate_of_unresolved? {s : Service} {name : String} (h : r.unresolved? = some (s, name)) :
    r.validate = .error (.invalidService s.name (.serviceNotFound name)) := by
  rw [validate, h]
  rfl

/-- Where all dependencies exist, the search decides. -/
theorem validate_cases (hr : ∀ i name, ¬ r.Lacks i name) :
    r.validate = .ok () ∧ (∀ i, ¬ TransGen r.DependsOn i i) ∨
      ∃ chain, r.validate = .error (.dependencyCycle chain) ∧ r.ClosesCircle chain ∧
        ∃ i, TransGen r.DependsOn i i := by
  have hs := searched_foldlM hr r.ids [] Board.ordered_nil
  rw [validate, unresolved?_eq_none_iff.mpr hr]
  cases hf : r.ids.foldlM (fun cleared i => clear [] cleared i) [] with
  | ok cleared =>
    rw [hf] at hs
    refine .inl ⟨rfl, fun i hi => ?_⟩
    have hmem : i ∈ cleared.reverse := List.mem_reverse.mpr (hs.mem i (List.mem_finRange i))
    exact hs.inOrder.not_transGen hmem (TransGen.mono (fun _ _ => Board.needs_initial_iff.mpr) _ _ hi)
  | error e =>
    rw [hf] at hs
    obtain ⟨chain, rfl, hchain, hi⟩ := hs
    exact .inr ⟨chain, rfl, hchain, hi⟩

/-- A registry is valid exactly if it lacks nothing and has no circle. -/
theorem validate_eq_ok_iff :
    r.validate = .ok () ↔ (∀ i name, ¬ r.Lacks i name) ∧ ∀ i, ¬ TransGen r.DependsOn i i := by
  constructor
  · intro hv
    have hr : ∀ i name, ¬ r.Lacks i name := by
      rw [← unresolved?_eq_none_iff]
      cases hu : r.unresolved? with
      | none => rfl
      | some u => cases hv.symm.trans (validate_of_unresolved? hu)
    refine ⟨hr, ?_⟩
    rcases validate_cases hr with ⟨-, hi⟩ | ⟨chain, he, -⟩
    · exact hi
    · cases hv.symm.trans he
  · rintro ⟨hr, hi⟩
    rcases validate_cases hr with ⟨hv, -⟩ | ⟨-, -, -, i, hc⟩
    · exact hv
    · exact absurd hc (hi i)

/-- A registry that is not valid is a fault of its configuration. -/
theorem isConfig_of_validate_eq_error {e : Error} (h : r.validate = .error e) : e.isConfig = true := by
  cases hu : r.unresolved? with
  | some u =>
    cases h.symm.trans (validate_of_unresolved? hu)
    rfl
  | none =>
    rcases validate_cases (unresolved?_eq_none_iff.mp hu) with ⟨hv, -⟩ | ⟨chain, hv, -⟩
    · cases h.symm.trans hv
    · cases h.symm.trans hv
      rfl

/-- A registry is valid exactly if every dependency exists and no service depends on itself through others.
The first dependency that does not exist is reported whatever circles there are; a circle is reported as a
chain of dependencies that closes it. -/
theorem validate_decides (r : Registry) :
    (r.validate = .ok () ↔ (∀ i, ∀ name ∈ (r.service i).dependsOn, ∃ j : r.Id, (r.service j).name = name) ∧
      ∀ i, ¬ TransGen r.DependsOn i i) ∧
    ((∃ i name, r.Lacks i name) → ∃ i name, r.FirstLack i name ∧
      r.validate = .error (.invalidService (r.service i).name (.serviceNotFound name))) ∧
    ((∀ i name, ¬ r.Lacks i name) → (∃ i, TransGen r.DependsOn i i) →
      ∃ chain, r.validate = .error (.dependencyCycle chain) ∧ r.ClosesCircle chain) := by
  refine ⟨?_, ?_, ?_⟩
  · simp only [validate_eq_ok_iff, Lacks, not_and, not_forall, not_not]
  · rintro ⟨i, name, hl⟩
    cases hu : r.unresolved? with
    | none => exact absurd hl (unresolved?_eq_none_iff.mp hu i name)
    | some u =>
      obtain ⟨s, n⟩ := u
      obtain ⟨j, rfl, hj⟩ := firstLack_of_unresolved? hu
      exact ⟨j, n, hj, validate_of_unresolved? hu⟩
  · rintro hr ⟨i, hi⟩
    rcases validate_cases hr with ⟨-, hno⟩ | ⟨chain, he, hchain, -⟩
    · exact absurd hi (hno i)
    · exact ⟨chain, he, hchain⟩

end Registry

end ContainerInit
