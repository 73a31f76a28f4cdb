import ContainerInit.Proofs.Traversal
import ContainerInit.Registry.Basic

/-! # Registries built up

Definitions in the order of their names are added each behind the others.  Only a schedule can keep one with a command
from being added.

A definition may be refused for its name, for its command or for its schedule.  Names that come in order are never
taken, and a command is there by assumption, since nothing without one gets past the reader of a configuration.  What
remains is the schedule, and `foldlM_add_cases` says which of several faulty ones is reported: the first in the order
of names. -/

namespace ContainerInit

open Service (Definition)

variable {r : Registry} {d : Definition} {ds : List Definition} {s : Service} {ts : List Service}

namespace Service

/-- A definition with a command is read by reading its schedule. -/
theorem ofDefinition_eq (hargv : d.argv ≠ []) : ofDefinition d = (do
    let schedule ← (Cron.Schedule.parse d.schedule).mapError Error.invalidSchedule
    return ⟨d.name, d.argv, hargv, d.dependsOn, d.restart, schedule⟩) := by
  unfold ofDefinition
  rw [dif_neg hargv]

/-- A service has the name of its definition. -/
theorem name_of_ofDefinition (h : ofDefinition d = .ok s) : s.name = d.name := by
  by_cases hargv : d.argv = []
  · unfold ofDefinition at h
    rw [dif_pos hargv] at h
    cases h
  · rw [ofDefinition_eq hargv] at h
    obtain ⟨schedule, -, hs⟩ := bind_eq_ok_iff.mp h
    cases hs
    rfl

/-- A definition with a command makes a service, unless its schedule cannot be read. -/
theorem ofDefinition_cases (hargv : d.argv ≠ []) :
    (∃ schedule s, Cron.Schedule.parse d.schedule = .ok schedule ∧ ofDefinition d = .ok s) ∨
      ∃ fault, Cron.Schedule.parse d.schedule = .error fault ∧ ofDefinition d = .error (.invalidSchedule fault) := by
  rw [ofDefinition_eq hargv]
  cases Cron.Schedule.parse d.schedule with
  | ok schedule => exact .inl ⟨schedule, _, rfl, rfl⟩
  | error fault => exact .inr ⟨fault, rfl, rfl⟩

end Service

namespace Registry

/-- A service with the greatest name comes last. -/
theorem place_eq_concat (h : ∀ t ∈ ts, t.name < s.name) : place s ts = ts ++ [s] := by
  induction ts with
  | nil => rfl
  | cons t ts ih =>
    rw [List.forall_mem_cons] at h
    rw [place, if_neg (String.lt_asymm h.1), ih h.2, List.cons_append]

theorem not_taken (h : ∀ t ∈ r.services, t.name ≠ d.name) : ¬ ∃ t ∈ r.services, t.name = d.name := by
  rintro ⟨t, ht, heq⟩
  exact h t ht heq

/-- A definition that makes a service is added if its name is not taken. -/
theorem exists_add_eq_ok (hne : ∀ t ∈ r.services, t.name ≠ d.name) (hs : Service.ofDefinition d = .ok s) :
    ∃ r', r.add d = .ok r' ∧ r'.services = place s r.services := by
  unfold add
  rw [dif_neg (not_taken hne)]
  split
  · next hs' =>
    rw [hs] at hs'
    cases hs'
  · next s' hs' =>
    obtain rfl := Except.ok.inj (hs.symm.trans hs')
    exact ⟨_, rfl, rfl⟩

/-- A definition that makes none is reported with its name. -/
theorem add_eq_error {e : Error} (hne : ∀ t ∈ r.services, t.name ≠ d.name) (he : Service.ofDefinition d = .error e) :
    r.add d = .error (.invalidService d.name e) := by
  unfold add
  rw [dif_neg (not_taken hne)]
  split
  · next he' =>
    rw [he] at he'
    cases he'
    rfl
  · next hs =>
    rw [he] at hs
    cases hs

/-- The definitions become the services behind those of the registry, or the first with a schedule that cannot be
read is reported. -/
theorem foldlM_add_cases (hlt : (r.services.map (·.name) ++ ds.map (·.name)).Pairwise (· < ·))
    (hargv : ∀ d ∈ ds, d.argv ≠ []) :
    (∃ r' added, ds.foldlM add r = .ok r' ∧ r'.services = r.services ++ added ∧
        List.Forall₂ (fun d s => Service.ofDefinition d = .ok s) ds added) ∨
      ∃ d fault, FailsFirst (fun d => Cron.Schedule.parse d.schedule) ds d fault ∧
        ds.foldlM add r = .error (.invalidService d.name (.invalidSchedule fault)) := by
  induction ds generalizing r with
  | nil => exact .inl ⟨r, [], rfl, (List.append_nil _).symm, .nil⟩
  | cons d ds ih =>
    rw [List.forall_mem_cons] at hargv
    have hr : ∀ t ∈ r.services, t.name < d.name := fun t ht =>
      (List.pairwise_append.mp hlt).2.2 t.name (List.mem_map_of_mem ht) d.name (.head _)
    have hne : ∀ t ∈ r.services, t.name ≠ d.name := fun t ht => String.ne_of_lt (hr t ht)
    rw [List.foldlM_cons]
    rcases Service.ofDefinition_cases hargv.1 with ⟨schedule, s, hparse, hs⟩ | ⟨fault, hparse, he⟩
    · obtain ⟨r', hadd, hplace⟩ := exists_add_eq_ok hne hs
      have hservices : r'.services = r.services ++ [s] :=
        hplace.trans (place_eq_concat fun t ht => Service.name_of_ofDefinition hs ▸ hr t ht)
      have hlt' : (r'.services.map (·.name) ++ ds.map (·.name)).Pairwise (· < ·) := by
        rw [hservices, List.map_append, List.map_singleton, Service.name_of_ofDefinition hs, List.append_assoc]
        exact hlt
      rw [hadd]
      rcases ih hlt' hargv.2 with ⟨r'', added, hfold, hservices', hadded⟩ | ⟨d', fault, hfirst, hfold⟩
      · refine .inl ⟨r'', s :: added, hfold, ?_, .cons hs hadded⟩
        rw [hservices', hservices, List.append_assoc, List.singleton_append]
      · exact .inr ⟨d', fault, hfirst.cons hparse, hfold⟩
    · refine .inr ⟨d, fault, ⟨[], ds, rfl, nofun, hparse⟩, ?_⟩
      rw [add_eq_error hne he]
      rfl

/-- Adding to an empty registry. -/
theorem foldlM_add_empty_cases (hlt : ds.Pairwise fun d e => d.name < e.name) (hargv : ∀ d ∈ ds, d.argv ≠ []) :
    (∃ r, ds.foldlM add empty = .ok r ∧ List.Forall₂ (fun d s => Service.ofDefinition d = .ok s) ds r.services) ∨
      ∃ d fault, FailsFirst (fun d => Cron.Schedule.parse d.schedule) ds d fault ∧
        ds.foldlM add empty = .error (.invalidService d.name (.invalidSchedule fault)) := by
  rcases foldlM_add_cases (r := empty) (List.pairwise_map.mpr hlt) hargv with ⟨r, added, hfold, rfl, hadded⟩ | h
  · exact .inl ⟨r, hfold, hadded⟩
  · exact .inr h

end Registry

end ContainerInit
