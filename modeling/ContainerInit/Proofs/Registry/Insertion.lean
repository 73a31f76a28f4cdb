import ContainerInit.Proofs.Registry.Addition
import Mathlib.Data.List.Perm.Basic

/-! # The order of insertion

A registry is settled by the services in it, in whatever order they have been added.

Each service is put in its place by name, so that a registry is a sorted list without repetitions, and there is just
one such list of given services (`eq_of_perm`).  It remains that each of the definitions is added in any order, which
is so if they are sound and no two of them have the same name. -/

namespace ContainerInit.Registry

open Service (Definition)

variable {r r' : Registry} {ds ds' : List Definition} {s : Service} {ss ts : List Service}

/-- A service that is put in its place is one more. -/
theorem perm_place : (place s ts).Perm (s :: ts) := by
  induction ts with
  | nil => exact .refl _
  | cons t ts ih =>
    unfold place
    split
    · exact .refl _
    · exact (ih.cons t).trans (.swap s t ts)

/-- Two registries with the same services are the same. -/
theorem eq_of_perm (h : r.services.Perm r'.services) : r = r' := by
  have hservices : r.services = r'.services :=
    h.eq_of_pairwise (fun s t _ _ hst hts => absurd hts (String.lt_asymm hst)) r.ordered r'.ordered
  cases r
  cases hservices
  rfl

/-- Sound definitions with names of their own are all added, in whatever order. -/
theorem exists_foldlM_add_eq_ok (hs : List.Forall₂ (fun d s => Service.ofDefinition d = .ok s) ds ss)
    (hnames : (ds.map (·.name) ++ r.services.map (·.name)).Nodup) :
    ∃ r', ds.foldlM add r = .ok r' ∧ r'.services.Perm (ss ++ r.services) := by
  induction hs generalizing r with
  | nil => exact ⟨r, rfl, .refl _⟩
  | @cons d s ds ss hs _ ih =>
    have hne : ∀ t ∈ r.services, t.name ≠ d.name := fun t ht e =>
      (List.nodup_cons.mp hnames).1 (List.mem_append_right _ (List.mem_map.mpr ⟨t, ht, e⟩))
    obtain ⟨r₁, hadd, hservices⟩ := exists_add_eq_ok hne hs
    have hplace : (r₁.services.map (·.name)).Perm (d.name :: r.services.map (·.name)) := by
      rw [hservices, ← Service.name_of_ofDefinition hs]
      exact perm_place.map _
    have hnames₁ : (ds.map (·.name) ++ r₁.services.map (·.name)).Nodup :=
      ((hplace.append_left _).trans List.perm_middle).nodup_iff.mpr hnames
    obtain ⟨r', hfold, hperm⟩ := ih hnames₁
    refine ⟨r', ?_, hperm.trans ?_⟩
    · rw [List.foldlM_cons, hadd]
      exact hfold
    · rw [hservices]
      exact (perm_place.append_left ss).trans List.perm_middle

/-- Sound definitions with distinct names make one registry, in whatever order they are added. -/
theorem exists_foldlM_add_eq (hnames : (ds.map (·.name)).Nodup)
    (hsound : ∀ d ∈ ds, ∃ s, Service.ofDefinition d = .ok s) :
    ∃ r, (∀ s, s ∈ r.services ↔ ∃ d ∈ ds, Service.ofDefinition d = .ok s) ∧
      ∀ ds', ds.Perm ds' → ds'.foldlM add empty = .ok r := by
  obtain ⟨ss, hss⟩ := exists_forall₂ hsound
  have hfold : ∀ {ds' ss'}, ds.Perm ds' → List.Forall₂ (fun d s => Service.ofDefinition d = .ok s) ds' ss' →
      ∃ r, ds'.foldlM add empty = .ok r ∧ r.services.Perm ss' := by
    intro ds' ss' hperm hss'
    have hnames' : (ds'.map (·.name)).Nodup := (hperm.map _).nodup_iff.mp hnames
    obtain ⟨r, hr, hservices⟩ := exists_foldlM_add_eq_ok (r := empty) hss' (by simpa [empty] using hnames')
    exact ⟨r, hr, by simpa [empty] using hservices⟩
  obtain ⟨r, hr, hservices⟩ := hfold (.refl ds) hss
  refine ⟨r, fun s => ?_, fun ds' hperm => ?_⟩
  · rw [hservices.mem_iff]
    constructor
    · exact fun hmem => exists_of_forall₂ (List.Forall₂.flip hss) hmem
    · rintro ⟨d, hd, hs⟩
      obtain ⟨s', hs', hd'⟩ := exists_of_forall₂ hss hd
      exact Except.ok.inj (hs.symm.trans hd') ▸ hs'
  · obtain ⟨ss', hss', hperm'⟩ := List.perm_comp_forall₂ hperm.symm hss
    obtain ⟨r', hr', hservices'⟩ := hfold hperm hss'
    rw [hr', eq_of_perm (hservices.trans (hperm'.symm.trans hservices'.symm))]

end ContainerInit.Registry
