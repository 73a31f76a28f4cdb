import ContainerInit.Proofs.Config.Services
import ContainerInit.Proofs.Registry.Addition

/-! # Configurations registered

The services of a configuration are added to an empty registry in their order.  Once the configuration has been
accepted, only the schedules are left to be found unsound.  A document with several entries of a name is
accepted too: the last of them is registered, and the others are dropped.

## What adding a service can refuse

A registry refuses a service for its name, if that is taken, for a command that is empty, and for a schedule that cannot
be read.  A configuration that has been `Accepted` gives no occasion for the first two: its
services have the names of a table, all different, and a command each (`Ordered`).  That is so whether it comes from a
document or from a command line, and so the one place where the registration can fail is a schedule (`AddsUp`).

## What becomes of entries

A document with two entries of one name never gets as far as a registry that could refuse the second.  The table of
entries keeps the last one, and `registered_last_of_each_name` says of every text what is registered of it. -/

namespace ContainerInit.Config

open Yaml

variable {env : Settings.Environment} {path base content name : String} {s : Sections} {c : Config} {settings : Settings}
  {entries : List (String × Entry)} {e : String × Entry} {r : Registry}

/-- The configuration comes from the sections of a document, from a text, or from a command line. -/
inductive Accepted (env : Settings.Environment) (c : Config) : Prop where
  | sections {path base : String} {s : Sections} (h : ofSections env path base s = .ok c) : Accepted env c
  | text {path base content : String} (h : parse env path base content = .ok c) : Accepted env c
  | single {name : String} {argv : List String} (h : single env name argv = .ok c) : Accepted env c

/-- The services are in the order of their names, all of them with commands. -/
structure Ordered (c : Config) : Prop where
  names : c.services.Pairwise fun d e => d.name < e.name
  argv_ne_nil : ∀ d ∈ c.services, d.argv ≠ []

/-- The services of a document are in order. -/
theorem ordered_of_ofSections (h : ofSections env path base s = .ok c) : c.Ordered := by
  obtain ⟨_, entries, -, -, -, hservices⟩ := ofSections_eq_ok_iff.mp h
  constructor
  · have hnames := List.pairwise_map.mpr (pairwise_byName entries)
    rw [← map_eq_of_forall₂ hservices fun _ _ hd => (Entry.definition_eq_ok_iff.mp hd).name_eq] at hnames
    exact List.pairwise_map.mp hnames
  · intro d hd
    obtain ⟨e, -, he⟩ := exists_of_forall₂ hservices.flip hd
    exact (Entry.definition_eq_ok_iff.mp he).argv_ne_nil

/-- So is the only service of a command line. -/
theorem ordered_of_single {argv : List String} (h : single env name argv = .ok c) : c.Ordered := by
  unfold single at h
  split at h
  · cases h
  · next hargv =>
    obtain ⟨settings, -, hc⟩ := bind_eq_ok_iff.mp h
    cases hc
    exact ⟨List.pairwise_singleton _ _, by simpa using hargv⟩

/-- Wherever a configuration comes from, its services are in order. -/
theorem Accepted.ordered (h : Accepted env c) : c.Ordered := by
  cases h with
  | sections h => exact ordered_of_ofSections h
  | text h =>
    obtain ⟨s, -, h⟩ := parse_eq_ok_iff.mp h
    exact ordered_of_ofSections h
  | single h => exact ordered_of_single h

/-! ## Definitions without faults -/

/-- Adding the services to an empty registry ends well, or with the first whose schedule cannot be read. -/
def AddsUp (ds : List Service.Definition) : Prop :=
  (∃ r, ds.foldlM Registry.add Registry.empty = .ok r) ∨
    ∃ d fault, FailsFirst (fun d => Cron.Schedule.parse d.schedule) ds d fault ∧
      ds.foldlM Registry.add Registry.empty = .error (.invalidService d.name (.invalidSchedule fault))

/-- The registration of an accepted configuration can only fail at a schedule. -/
theorem Accepted.addsUp (h : Accepted env c) : AddsUp c.services :=
  (Registry.foldlM_add_empty_cases h.ordered.names h.ordered.argv_ne_nil).imp_left fun ⟨r, hr, _⟩ => ⟨r, hr⟩

/-- What has been accepted has no fault left but those of schedules.  Of the faults of entries, the one with the least
name is told. -/
theorem accepted_adds_up_or_names_fault (env : Settings.Environment) :
    (∀ c, Accepted env c → c.Ordered ∧ AddsUp c.services) ∧
      ∀ s settings entries e cause, Settings.layered env s.settings = .ok settings → s.services = some entries →
        IsLast entries e → e.2.definition e.1 = .error cause →
          ∃ name cause, FirstFault entries name cause ∧
            ∀ path base, ofSections env path base s = .error (.invalidService name cause) ∧
              ∀ content, Sections.ofText? content = some s →
                parse env path base content = .error (.invalidService name cause) := by
  constructor
  · intro c h
    exact ⟨h.ordered, h.addsUp⟩
  · intro s settings entries e cause hsettings hentries he hcause
    obtain ⟨name, cause, hfault, herror⟩ := exists_firstFault hsettings hentries he hcause
    refine ⟨name, cause, hfault, fun path base => ⟨herror path base, fun content hs => ?_⟩⟩
    rw [parse_eq hs, herror]

/-- Two of the three services have no command. -/
def emptyCommands : List (String × Entry) := [("c", .line "run"), ("b", .line ""), ("a", .line " ")]

/-- One service from a command line, and a document of which two services have no command: the one with the lesser
name is told. -/
theorem accepted_adds_up_or_names_fault_empty :
    (∃ c, single {} "web" ["server"] = .ok c ∧ c.Ordered ∧ AddsUp c.services) ∧
      Entry.definition "b" (.line "") = .error (.invalidCommand .empty) ∧
        ∃ name cause, FirstFault emptyCommands name cause ∧
          ∀ path base, ofSections {} path base { services := some emptyCommands } =
            .error (.invalidService name cause) := by
  have hc : single {} "web" ["server"] = .ok ⟨{}, [{ name := "web", argv := ["server"] }]⟩ := rfl
  have hb : Entry.definition "b" (.line "") = .error (.invalidCommand .empty) := rfl
  have hlast : IsLast emptyCommands ("b", .line "") := rfl
  obtain ⟨name, cause, hfault, herror⟩ :=
    (accepted_adds_up_or_names_fault {}).2 { services := some emptyCommands } {} emptyCommands _ _ rfl rfl hlast hb
  exact ⟨⟨_, hc, (accepted_adds_up_or_names_fault {}).1 _ (.single hc)⟩, hb, name, cause, hfault,
    fun path base => (herror path base).1⟩

/-! ## Names that come again -/

/-- The registry of the services that a text has. -/
def registered (env : Settings.Environment) (path base content : String) : Except Error Registry := do
  (← parse env path base content).services.foldlM Registry.add Registry.empty

/-- The service is made from the entry. -/
def Makes (e : String × Entry) (s : Service) : Prop :=
  ∃ d, e.2.definition e.1 = .ok d ∧ Service.ofDefinition d = .ok s

theorem Makes.name_eq {t : Service} (h : Makes e t) : t.name = e.1 := by
  obtain ⟨d, hd, ht⟩ := h
  rw [Service.name_of_ofDefinition ht, (Entry.definition_eq_ok_iff.mp hd).name_eq]

/-- The services that are registered are made from the last entries of their names. -/
theorem makes_of_registered (h : registered env path base content = .ok r) :
    ∃ s settings entries, Sections.ofText? content = some s ∧ Settings.layered env s.settings = .ok settings ∧
      s.services = some entries ∧ List.Forall₂ Makes (byName entries) r.services := by
  obtain ⟨c, hparse, hadd⟩ := bind_eq_ok_iff.mp h
  obtain ⟨s, hs, hsections⟩ := parse_eq_ok_iff.mp hparse
  obtain ⟨settings, entries, hsettings, hentries, -, hservices⟩ := ofSections_eq_ok_iff.mp hsections
  have hc := ordered_of_ofSections hsections
  rcases Registry.foldlM_add_empty_cases hc.names hc.argv_ne_nil with ⟨r', hr', hadded⟩ | ⟨_, _, -, herror⟩
  · obtain rfl := Except.ok.inj (hr'.symm.trans hadd)
    exact ⟨s, settings, entries, hs, hsettings, hentries, forall₂_comp hservices hadded⟩
  · rw [herror] at hadd
    cases hadd

/-- It is enough that the last entries of all names make services. -/
theorem exists_registered (hs : Sections.ofText? content = some s)
    (hsettings : Settings.layered env s.settings = .ok settings) (hentries : s.services = some entries)
    (hmakes : ∀ e, IsLast entries e → ∃ t, Makes e t) : ∃ r, registered env path base content = .ok r := by
  obtain ⟨ds, hds⟩ : ∃ ds, List.Forall₂
      (fun e d => e.2.definition e.1 = .ok d ∧ ∃ t, Service.ofDefinition d = .ok t) (byName entries) ds :=
    exists_forall₂ fun e he => by
      obtain ⟨t, d, hd, ht⟩ := hmakes e (mem_byName_iff.mp he)
      exact ⟨d, hd, t, ht⟩
  have hsections : ofSections env path base s = .ok ⟨resolved base settings, ds⟩ :=
    ofSections_eq_ok_iff.mpr ⟨settings, entries, hsettings, hentries, rfl, hds.imp fun _ _ => And.left⟩
  have hc := ordered_of_ofSections hsections
  rcases Registry.foldlM_add_empty_cases hc.names hc.argv_ne_nil with ⟨r, hr, -⟩ | ⟨d, fault, hfirst, -⟩
  · exact ⟨r, bind_eq_ok_iff.mpr ⟨_, (parse_eq hs).trans hsections, hr⟩⟩
  · obtain ⟨hd, hfault⟩ := hfirst.eq_error
    obtain ⟨e, -, -, t, ht⟩ := exists_of_forall₂ hds.flip hd
    rcases Service.ofDefinition_cases (hc.argv_ne_nil d hd) with ⟨schedule, _, hschedule, -⟩ | ⟨_, -, he⟩
    · rw [hschedule] at hfault
      cases hfault
    · rw [ht] at he
      cases he

/-- A text is registered exactly if the last entries of all names make services.  They are all that is registered,
so that entries are missing if and only if a name comes again. -/
theorem registered_last_of_each_name (env : Settings.Environment) (path base content : String) :
    ((∃ r, registered env path base content = .ok r) ↔
      ∃ s settings entries, Sections.ofText? content = some s ∧ Settings.layered env s.settings = .ok settings ∧
        s.services = some entries ∧ ∀ e, IsLast entries e → ∃ t, Makes e t) ∧
    ∀ r s entries, registered env path base content = .ok r → Sections.ofText? content = some s →
      s.services = some entries →
        (∀ t ∈ r.services, ∃ entry, IsLast entries (t.name, entry) ∧ Makes (t.name, entry) t) ∧
        (r.services.map (·.name)).Perm (entries.map Prod.fst).dedup ∧
        (r.services.length = entries.length ↔ (entries.map Prod.fst).Nodup) := by
  constructor
  · constructor
    · rintro ⟨r, hr⟩
      obtain ⟨s, settings, entries, hs, hsettings, hentries, hmakes⟩ := makes_of_registered hr
      refine ⟨s, settings, entries, hs, hsettings, hentries, fun e he => ?_⟩
      obtain ⟨t, -, ht⟩ := exists_of_forall₂ hmakes (mem_byName_iff.mpr he)
      exact ⟨t, ht⟩
    · rintro ⟨s, settings, entries, hs, hsettings, hentries, hmakes⟩
      exact exists_registered hs hsettings hentries hmakes
  · intro r s entries hr hs hentries
    obtain ⟨s', _, entries', hs', -, hentries', hmakes⟩ := makes_of_registered hr
    obtain rfl := Option.some.inj (hs'.symm.trans hs)
    obtain rfl := Option.some.inj (hentries'.symm.trans hentries)
    refine ⟨fun t ht => ?_, ?_, ?_⟩
    · obtain ⟨e, he, hm⟩ := exists_of_forall₂ hmakes.flip ht
      have heq : e = (t.name, e.2) := Prod.ext (Makes.name_eq hm).symm rfl
      exact ⟨e.2, heq ▸ mem_byName_iff.mp he, heq ▸ hm⟩
    · rw [map_eq_of_forall₂ hmakes fun _ _ => Makes.name_eq]
      exact names_byName_perm
    · rw [← hmakes.length_eq]
      exact length_byName_eq_iff

/-- A text that says twice what the service is. -/
def repeatedText : String := "\x7b\"services\": \x7b\"a\": \"x\", \"a\": \"y\"\x7d\x7d"

def repeatedEntries : List (String × Entry) := [("a", .line "x"), ("a", .line "y")]

/-- Both entries are there in the sections of the text. -/
theorem ofText?_repeatedText : Sections.ofText? repeatedText = some { services := some repeatedEntries } := by
  decide +kernel

def repeatedRegistry : Registry :=
  ⟨[⟨"a", ["y"], List.cons_ne_nil _ _, [], .never, ⟨[]⟩⟩], List.pairwise_singleton _ _⟩

/-- Only the second entry is registered. -/
theorem registered_repeatedText : registered {} "cronit.yaml" "" repeatedText = .ok repeatedRegistry := by
  unfold registered
  rw [parse_eq ofText?_repeatedText]
  rfl

/-- Where the name comes twice there are fewer services than entries. -/
theorem registered_last_of_each_name_twice :
    registered {} "cronit.yaml" "" repeatedText = .ok repeatedRegistry ∧
      ¬ (repeatedEntries.map Prod.fst).Nodup ∧ repeatedRegistry.services.length ≠ repeatedEntries.length := by
  have hnodup : ¬ (repeatedEntries.map Prod.fst).Nodup := by decide
  obtain ⟨-, -, hlength⟩ := (registered_last_of_each_name {} "cronit.yaml" "" repeatedText).2 _ _ _
    registered_repeatedText ofText?_repeatedText rfl
  exact ⟨registered_repeatedText, hnodup, fun h => hnodup (hlength.mp h)⟩

/-- The name of a service comes again, and the text is registered all the same, with fewer services than entries. -/
theorem registered_drops_entry : ∃ s entries r, Sections.ofText? repeatedText = some s ∧ s.services = some entries ∧
    ¬ (entries.map Prod.fst).Nodup ∧ registered {} "cronit.yaml" "" repeatedText = .ok r ∧
      r.services.length < entries.length :=
  ⟨_, _, _, ofText?_repeatedText, rfl, by decide, registered_repeatedText, by decide⟩

end ContainerInit.Config
