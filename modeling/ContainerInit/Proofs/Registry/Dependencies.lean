import ContainerInit.Registry.Graph
import Mathlib.Data.List.Nodup
import Mathlib.Logic.Relation

/-! # Names and dependencies

Services are looked up by name.  As the names of a registry are distinct, a look-up finds a service exactly if it has
the name, so that the edges of the dependency graph can be stated without it.

A registry keeps its services in the order of their names, and an `Id` is the place of one.  Whatever is said about
the graph is said with places, and `DependsOn` is the only link back to the names.  `PutsFirst` is the common part of
three orders: that of a plan, that of a search, and that in which services are stopped the other way round. -/

namespace ContainerInit.Registry

variable {r : Registry}

theorem name_lt_name {i j : r.Id} (h : i < j) : (r.service i).name < (r.service j).name :=
  List.pairwise_iff_getElem.mp r.ordered i j i.isLt j.isLt h

theorem name_ne_name {i j : r.Id} (h : i < j) : (r.service i).name ≠ (r.service j).name :=
  fun e => String.lt_irrefl _ (e ▸ name_lt_name h)

theorem lt_of_name_lt_name {i j : r.Id} (h : (r.service i).name < (r.service j).name) : i < j := by
  rcases Nat.lt_trichotomy i j with hlt | heq | hlt
  · exact hlt
  · rw [Fin.ext heq] at h
    exact absurd h (String.lt_irrefl _)
  · exact absurd h (String.lt_asymm (name_lt_name hlt))

/-- Services of one registry are told apart by their names. -/
theorem name_injective : Function.Injective fun i : r.Id => (r.service i).name := by
  intro i j h
  rcases Nat.lt_trichotomy i j with hlt | heq | hlt
  · exact absurd h (name_ne_name hlt)
  · exact Fin.ext heq
  · exact absurd h.symm (name_ne_name hlt)

/-- A look-up finds the service that has the name. -/
theorem find?_eq_some_iff {name : String} {i : r.Id} :
    r.find? name = some i ↔ (r.service i).name = name := by
  rw [find?, List.findFinIdx?_eq_some_iff]
  constructor
  · rintro ⟨h, -⟩
    simpa [service] using h
  · intro h
    refine ⟨by simpa [service] using h, fun j hj => ?_⟩
    have hne : (r.service j).name ≠ name := fun e => name_ne_name hj (e.trans h.symm)
    simpa [service] using hne

/-- A look-up finds nothing if no service has the name. -/
theorem find?_eq_none_iff {name : String} :
    r.find? name = none ↔ ∀ i : r.Id, (r.service i).name ≠ name := by
  constructor
  · intro h i hi
    rw [find?_eq_some_iff.mpr hi] at h
    cases h
  · intro h
    cases hf : r.find? name with
    | none => rfl
    | some i => exact absurd (find?_eq_some_iff.mp hf) (h i)

/-- `i` names `j` among its dependencies. -/
def DependsOn (r : Registry) (i j : r.Id) : Prop := (r.service j).name ∈ (r.service i).dependsOn

/-- `i` names a dependency that does not exist. -/
def Lacks (r : Registry) (i : r.Id) (name : String) : Prop :=
  name ∈ (r.service i).dependsOn ∧ ∀ j : r.Id, (r.service j).name ≠ name

/-! ## Lists in the order of a relation -/

/-- Whatever a service of the list is related to stands before it. -/
def PutsFirst (R : r.Id → r.Id → Prop) (is : List r.Id) : Prop :=
  ∀ ⦃xs j ys⦄, is = xs ++ j :: ys → ∀ ⦃k⦄, R j k → k ∈ xs

namespace PutsFirst

variable {R : r.Id → r.Id → Prop} {is : List r.Id} {i j k : r.Id}

theorem nil : PutsFirst R [] := by
  intro xs j ys h
  simp at h

/-- A list may be continued by a service if all it is related to is there. -/
theorem concat (h : PutsFirst R is) (hi : ∀ k, R i k → k ∈ is) : PutsFirst R (is ++ [i]) := by
  intro xs j ys e k hk
  rcases List.append_eq_append_iff.mp e with ⟨zs, rfl, hz⟩ | ⟨zs, rfl, hz⟩
  · rcases zs with _ | ⟨z, zs⟩
    · obtain ⟨rfl, -⟩ : i = j ∧ [] = ys := by simpa using hz
      simpa using hi k hk
    · simp at hz
  · rcases zs with _ | ⟨z, zs⟩
    · obtain ⟨rfl, -⟩ : j = i ∧ ys = [] := by simpa using hz
      simpa using hi k hk
    · obtain ⟨rfl, -⟩ : j = z ∧ ys = zs ++ [i] := by simpa using hz
      exact h rfl hk

/-- Whatever a service of the list is related to is in the list. -/
theorem mem (h : PutsFirst R is) (hj : j ∈ is) (hk : R j k) : k ∈ is := by
  obtain ⟨xs, ys, rfl⟩ := List.append_of_mem hj
  exact List.mem_append_left _ (h rfl hk)

/-- It even comes before that service. -/
theorem idxOf_lt (h : PutsFirst R is) (hj : j ∈ is) (hk : R j k) : is.idxOf k < is.idxOf j := by
  obtain ⟨xs, ys, rfl, hx⟩ := List.eq_append_cons_of_mem hj
  have hkx : k ∈ xs := h rfl hk
  rw [List.idxOf_append_of_mem hkx, List.idxOf_append_of_notMem hx, List.idxOf_cons_self]
  exact List.idxOf_lt_length_of_mem hkx

/-- In a list without repetitions, nothing comes before what it is related to. -/
theorem pairwise (h : PutsFirst R is) (hn : is.Nodup) : is.Pairwise fun j k => ¬ R j k := by
  refine List.pairwise_iff_forall_sublist.mpr fun {j k} hs hk => ?_
  obtain ⟨front, rest, rfl, hj, hrest⟩ := List.cons_sublist_iff.mp hs
  obtain ⟨xs, ys, rfl⟩ := List.append_of_mem hj
  have hkx : k ∈ xs := h (List.append_assoc ..) hk
  exact List.disjoint_of_nodup_append hn (List.mem_append_left _ hkx) (List.singleton_sublist.mp hrest)

end PutsFirst

end ContainerInit.Registry
