import ContainerInit.Proofs.Config.ByName
import ContainerInit.Proofs.Config.Entry

/-! # The services of a document

The last entries of all names make the services of a configuration, in the order of the names.  If one of the
entries cannot be built, the first such one by name is reported.

The entries that count are a list in the order of names (`Config.byName`), and building them is a traversal of that
list.  So a configuration is there if each of them can be built, and otherwise the traversal stops at the first one that
cannot.  First in the list means least by name: `FirstFault` says this without the list, by the entries of the document
alone, and leaves aside where in the document they stand. -/

namespace ContainerInit.Config

open Yaml

variable {env : Settings.Environment} {path base : String} {s : Sections} {c : Config} {settings : Settings}
  {entries : List (String × Entry)} {e : String × Entry} {d : Service.Definition} {cause : Error}

/-- The definition of a service by its entry.  An error tells which service it is. -/
def build (e : String × Entry) : Except Error Service.Definition :=
  (e.2.definition e.1).mapError (Error.invalidService e.1)

/-- A service is built from an entry that defines it. -/
theorem build_eq_ok_iff : build e = .ok d ↔ e.2.definition e.1 = .ok d := mapError_eq_ok_iff

/-- An error says which service cannot be built, and why. -/
theorem build_eq_error_iff {error : Error} :
    build e = .error error ↔ ∃ cause, e.2.definition e.1 = .error cause ∧ error = .invalidService e.1 cause :=
  mapError_eq_error_iff

/-- The settings with a working directory that is not relative to the file any more. -/
def resolved (base : String) (settings : Settings) : Settings :=
  { settings with workdir := settings.workdir.map (Path.join base) }

/-- Where the settings are sound and there are services, all that is left is to build them. -/
theorem ofSections_eq (hsettings : Settings.layered env s.settings = .ok settings) (hentries : s.services = some entries) :
    ofSections env path base s = (do return ⟨resolved base settings, ← (byName entries).mapM build⟩) := by
  unfold ofSections
  rw [hsettings, hentries]
  rfl

/-- The sections of a text. -/
def Sections.ofText? (content : String) : Option Sections := (Document.ofText? content).bind ofDocument?

/-- A text is parsed as its sections. -/
theorem parse_eq {content : String} (hs : Sections.ofText? content = some s) :
    parse env path base content = ofSections env path base s := by
  unfold Sections.ofText? at hs
  unfold parse
  rw [hs]

/-- A text is accepted if it has sections that are. -/
theorem parse_eq_ok_iff {content : String} : parse env path base content = .ok c ↔
    ∃ s, Sections.ofText? content = some s ∧ ofSections env path base s = .ok c := by
  cases hs : Sections.ofText? content with
  | some s => simp [parse_eq hs]
  | none =>
    unfold Sections.ofText? at hs
    simp [parse, hs]

/-- All that it takes for the sections of a document to make a configuration. -/
theorem ofSections_eq_ok_iff : ofSections env path base s = .ok c ↔
    ∃ settings entries, Settings.layered env s.settings = .ok settings ∧ s.services = some entries ∧
      c.settings = resolved base settings ∧
        List.Forall₂ (fun e d => e.2.definition e.1 = .ok d) (byName entries) c.services := by
  constructor
  · intro h
    obtain ⟨settings, hsettings, hservices⟩ := bind_eq_ok_iff.mp h
    cases hentries : s.services with
    | none =>
      rw [hentries] at hservices
      cases hservices
    | some entries =>
      rw [ofSections_eq hsettings hentries] at h
      obtain ⟨services, hbuild, hc⟩ := bind_eq_ok_iff.mp h
      cases hc
      exact ⟨settings, entries, hsettings, rfl, rfl, (mapM_eq_ok_iff.mp hbuild).imp fun _ _ => build_eq_ok_iff.mp⟩
  · obtain ⟨_, services⟩ := c
    rintro ⟨settings, entries, hsettings, hentries, rfl, hservices⟩
    rw [ofSections_eq hsettings hentries, mapM_of_forall₂ (hservices.imp fun _ _ => build_eq_ok_iff.mpr)]
    rfl

/-- Of the last entries of their names, that of `name` cannot be built and those of lesser names can. -/
structure FirstFault (entries : List (String × Entry)) (name : String) (cause : Error) : Prop where
  exists_entry : ∃ entry, IsLast entries (name, entry) ∧ entry.definition name = .error cause
  exists_definition : ∀ e, IsLast entries e → e.1 < name → ∃ d, e.2.definition e.1 = .ok d

/-- The first entry of the list that cannot be built is the one with the least name. -/
theorem firstFault_of_failsFirst {error : Error} (h : FailsFirst build (byName entries) e error) :
    ∃ cause, FirstFault entries e.1 cause ∧ error = .invalidService e.1 cause := by
  obtain ⟨before, after, hsplit, hbefore, he⟩ := h
  obtain ⟨cause, hcause, rfl⟩ := build_eq_error_iff.mp he
  have hsorted := pairwise_byName entries
  rw [hsplit, List.pairwise_append, List.pairwise_cons] at hsorted
  have hlast : IsLast entries e := mem_byName_iff.mp (by simp [hsplit])
  refine ⟨cause, ⟨⟨e.2, hlast, hcause⟩, fun e' he' hlt => ?_⟩, rfl⟩
  have hmem := mem_byName_iff.mpr he'
  rw [hsplit, List.mem_append, List.mem_cons] at hmem
  rcases hmem with hmem | rfl | hmem
  · exact (hbefore e' hmem).imp fun _ => build_eq_ok_iff.mp
  · exact absurd hlt (String.lt_irrefl _)
  · exact absurd hlt (String.lt_asymm (hsorted.2.1.1 e' hmem))

/-- If some entry cannot be built, the error tells the least name of such an entry. -/
theorem exists_firstFault (hsettings : Settings.layered env s.settings = .ok settings)
    (hentries : s.services = some entries) (he : IsLast entries e) (hcause : e.2.definition e.1 = .error cause) :
    ∃ name cause, FirstFault entries name cause ∧
      ∀ path base, ofSections env path base s = .error (.invalidService name cause) := by
  rcases mapM_cases build (byName entries) with ⟨services, hservices⟩ | ⟨e', error, hfirst, hmap⟩
  · obtain ⟨d, -, hd⟩ := exists_of_forall₂ hservices (mem_byName_iff.mpr he)
    rw [build_eq_ok_iff, hcause] at hd
    cases hd
  · obtain ⟨cause, hfault, rfl⟩ := firstFault_of_failsFirst hfirst
    refine ⟨e'.1, cause, hfault, fun path base => ?_⟩
    rw [ofSections_eq hsettings hentries, hmap]
    rfl

end ContainerInit.Config
