import ContainerInit.Proofs.Config.Outline
import ContainerInit.Proofs.Config.Services

/-! # Documents accepted

A document is accepted exactly if each of its entries has one of the shapes, and those that count define services.
Not all the shapes are documented ones.

What a document says is taken in three steps.  First its outline: the settings, and a value under each name of the
section of services (`Outline`).  Then each value has to be that of an entry, be it in a documented shape or in
another one (`Entry.Shaped`); a value that comes under a name that occurs again has to have a shape as well, although
it does not count.  And last, the entries that do count have to define services (`Says`).

`parse_eq_ok_iff_shapes` puts these together, over all texts.  The lemmas before it are about one step each, where the
entries correspond one by one to what becomes of them, with the same names (`Alike`).

The last section has a document of a shape that nobody has written down: a list of two texts, of which the second is
taken for the name of a service to depend on. -/

namespace ContainerInit.Config

open Yaml

variable {env : Settings.Environment} {path base content : String} {s : Sections} {c : Config} {o : Outline}
  {written : List (String × Value)} {entries : List (String × Entry)} {e : String × Value}

/-- The value has the shape of the entry, be it a documented one or not. -/
def Entry.Shaped (v : Value) (entry : Entry) : Prop := Documented v entry ∨ Undocumented v entry

/-- Where the values are read and the names are kept, what comes of an entry has its name. -/
theorem mapM_values_eq_some_iff {α : Type} {read : Value → Option α} {as : List (String × α)} :
    (written.mapM fun e => (read e.2).map (e.1, ·)) = some as ↔
      List.Forall₂ (Alike fun _ v a => read v = some a) written as := by
  rw [mapM_eq_some_iff]
  refine iff_of_eq (congrArg (List.Forall₂ · written as) ?_)
  ext ⟨m, v⟩ ⟨n, a⟩
  simp [Alike, and_comm]

namespace Outline

/-- All values are read as entries if and only if each has the shape of its own. -/
theorem mapM_entry?_eq_some_iff :
    written.mapM entry? = some entries ↔ List.Forall₂ (Alike fun _ => Entry.Shaped) written entries := by
  unfold entry?
  simp only [mapM_values_eq_some_iff, Entry.ofValue?_eq_some_iff]
  rfl

/-- What becomes of an outline: its settings, and the entries that its values have the shapes of. -/
theorem sections?_eq_some_iff {layer : Settings.Layer} : o.sections? = some ⟨layer, some entries⟩ ↔
    layer = o.settings ∧ ∃ written, o.services = some written ∧
      List.Forall₂ (Alike fun _ => Entry.Shaped) written entries := by
  obtain ⟨settings, services⟩ := o
  cases services with
  | none => simp [sections?]
  | some written => simp [sections?, Option.bind_eq_some_iff, mapM_entry?_eq_some_iff, eq_comm (a := layer), and_comm]

end Outline

/-- The sections of a text come from its outline. -/
theorem ofText?_eq_some_iff : Sections.ofText? content = some s ↔
    ∃ o, Outline.ofText? content = some o ∧ o.sections? = some s := by
  unfold Sections.ofText?
  rw [Outline.sections_eq]
  exact Option.bind_eq_some_iff

/-- The value under the name of a service says what the definition has. -/
def Says (e : String × Value) (d : Service.Definition) : Prop := ∃ entry, Entry.Shaped e.2 entry ∧ entry.Defines e.1 d

/-- A value of the shape of an entry says what the entry says. -/
theorem says_iff {entry : Entry} {d : Service.Definition} (h : Entry.Shaped e.2 entry) :
    Says e d ↔ entry.definition e.1 = .ok d := by
  constructor
  · rintro ⟨entry', h', hd⟩
    have heq : entry' = entry := Option.some.inj
      ((Entry.ofValue?_eq_some_iff.mpr h').symm.trans (Entry.ofValue?_eq_some_iff.mpr h))
    exact Entry.definition_eq_ok_iff.mpr (heq ▸ hd)
  · intro hd
    exact ⟨entry, h, Entry.definition_eq_ok_iff.mp hd⟩

/-- The same for the values of all services. -/
theorem forall₂_says_iff {ds : List Service.Definition} (h : List.Forall₂ (Alike fun _ => Entry.Shaped) written entries) :
    List.Forall₂ Says written ds ↔ List.Forall₂ (fun e d => e.2.definition e.1 = .ok d) entries ds := by
  induction h generalizing ds with
  | nil => simp
  | @cons e e' written entries he _ ih =>
    obtain ⟨n, v⟩ := e
    obtain ⟨n', entry⟩ := e'
    obtain ⟨rfl, hv⟩ := he
    cases ds with
    | nil => simp
    | cons d ds => rw [List.forall₂_cons, List.forall₂_cons, ih, says_iff hv]

/-- A text is accepted exactly if each value under the name of a service has one of the shapes, and the last ones of
all names define services. -/
theorem parse_eq_ok_iff_shapes : parse env path base content = .ok c ↔
    ∃ o written settings, Outline.ofText? content = some o ∧ o.services = some written ∧
      Settings.layered env o.settings = .ok settings ∧ c.settings = resolved base settings ∧
      (∀ e ∈ written, ∃ entry, Entry.Shaped e.2 entry) ∧ List.Forall₂ Says (byName written) c.services := by
  rw [parse_eq_ok_iff]
  constructor
  · rintro ⟨⟨layer, services⟩, hs, hsections⟩
    obtain ⟨settings, entries, hsettings, rfl, hc, hservices⟩ := ofSections_eq_ok_iff.mp hsections
    obtain ⟨o, ho, hos⟩ := ofText?_eq_some_iff.mp hs
    obtain ⟨rfl, written, hwritten, hshaped⟩ := Outline.sections?_eq_some_iff.mp hos
    refine ⟨o, written, settings, ho, hwritten, hsettings, hc, fun e he => ?_, ?_⟩
    · obtain ⟨entry, -, -, hentry⟩ := exists_of_forall₂ hshaped he
      exact ⟨entry.2, hentry⟩
    · exact (forall₂_says_iff (forall₂_byName hshaped)).mpr hservices
  · rintro ⟨o, written, settings, ho, hwritten, hsettings, hc, hentries, hservices⟩
    obtain ⟨entries, hshaped⟩ : ∃ entries, List.Forall₂ (Alike fun _ => Entry.Shaped) written entries :=
      exists_forall₂ fun e he => by
        obtain ⟨entry, hentry⟩ := hentries e he
        exact ⟨(e.1, entry), rfl, hentry⟩
    have hos := Outline.sections?_eq_some_iff.mpr ⟨rfl, written, hwritten, hshaped⟩
    refine ⟨_, ofText?_eq_some_iff.mpr ⟨o, ho, hos⟩, ofSections_eq_ok_iff.mpr ?_⟩
    exact ⟨settings, entries, hsettings, rfl, hc, (forall₂_says_iff (forall₂_byName hshaped)).mp hservices⟩

/-! ## A list that leaves the names of the fields out -/

def listText : String := "\x7b\"services\": \x7b\"db\": \"run\", \"web\": [\"server\", \"db\"]\x7d\x7d"

/-- The values of a list of texts and of a text alone. -/
def listValues : List (String × Value) := [("db", .text "run"), ("web", .list [.text "server", .text "db"])]

/-- The outline of the text, with one value that is a list. -/
theorem outline_listText : ∃ o, Outline.ofText? listText = some o ∧ o.services = some listValues := by
  -- values cannot be compared, but the texts that are read from them can
  have htexts : ((Outline.ofText? listText).bind (·.services)).bind
      (·.mapM fun e => (Texts.ofValue? e.2).map (e.1, ·)) =
        some [("db", .one "run"), ("web", .many ["server", "db"])] := by decide +kernel
  obtain ⟨written, hwritten, htexts⟩ := Option.bind_eq_some_iff.mp htexts
  obtain ⟨o, ho, hservices⟩ := Option.bind_eq_some_iff.mp hwritten
  refine ⟨o, ho, hservices.trans (congrArg some ?_)⟩
  have hunique : Relator.LeftUnique (Alike fun _ v t => Texts.ofValue? v = some t) := by
    rintro ⟨m, v⟩ ⟨n, w⟩ ⟨l, t⟩ ⟨rfl, hv⟩ ⟨rfl, hw⟩
    cases Texts.ofValue?_eq_some_iff.mp hv <;> cases Texts.ofValue?_eq_some_iff.mp hw <;> rfl
  exact List.left_unique_forall₂' hunique (mapM_values_eq_some_iff.mp htexts)
    (.cons ⟨rfl, rfl⟩ (.cons ⟨rfl, rfl⟩ .nil))

/-- The text makes two services, of which the second depends on the first. -/
theorem parse_listText : parse {} "cronit.yaml" "" listText =
    .ok ⟨{}, [{ name := "db", argv := ["run"] }, { name := "web", argv := ["server"], dependsOn := ["db"] }]⟩ :=
  eq_ok_of_toOption (by decide +kernel)

/-- A list of two texts has none of the documented shapes, and is accepted as a command and a dependency. -/
theorem parse_accepts_list : ∃ o c, Outline.ofText? listText = some o ∧ o.services = some listValues ∧
    (∀ entry, ¬ Entry.Documented (.list [.text "server", .text "db"]) entry) ∧
      parse {} "cronit.yaml" "" listText = .ok c ∧
        { name := "web", argv := ["server"], dependsOn := ["db"] } ∈ c.services := by
  obtain ⟨o, ho, hservices⟩ := outline_listText
  exact ⟨o, _, ho, hservices, nofun, parse_listText, by simp⟩

end ContainerInit.Config
