import ContainerInit.Config.Entry
import ContainerInit.Proofs.Traversal

/-! # The shapes of entries

Two shapes of an entry are documented: a command line, and a mapping from names of fields.  There are two more.
The fields of a mapping may be given by their numbers, and a list is read as the fields in their order.

## From values to entries

The reader of an entry takes a value apart with the help of options.  The relations of this module say what it accepts,
without saying how: `Texts.Of` is a text or a list of texts, `Optionally` is a field that may be left out or null, and
`Details.From` are the fields of a definition as a function of what is given for each.  `Entry.Documented` and
`Entry.Undocumented` are the shapes, which differ only in how it is told which field a value is for.
`ofValue?_eq_some_iff` is what it comes to.

## From entries to definitions

An entry that has been read may still be wrong: a command can be empty or not be cut into words, and a policy can have
an unknown name.  `Entry.Defines` is the relation between an entry and the definition of a service that it makes. -/

namespace ContainerInit.Config

open Yaml

variable {v : Value} {s name : String} {ss argv : List String} {given : Option Value} {f : Field} {d : Details}
  {items : List Value} {entries : List (Value × Value)} {fields : List (Field × Value)}

/-! ## Texts -/

namespace Texts

/-- A text or a list of texts. -/
inductive Of : Value → Texts → Prop where
  | one (s : String) : Of (.text s) (.one s)
  | many (ss : List String) : Of (.list (ss.map .text)) (.many ss)

/-- Only a text is read as one. -/
theorem text?_eq_some_iff : text? v = some s ↔ v = .text s := by
  cases v <;> simp [text?]

/-- Only a list of texts is read as several. -/
theorem mapM_text?_eq_some_iff : items.mapM text? = some ss ↔ items = ss.map .text := by
  rw [mapM_eq_some_iff]
  constructor
  · intro h
    induction h with
    | nil => rfl
    | cons hs _ ih => rw [text?_eq_some_iff.mp hs, ih, List.map_cons]
  · rintro rfl
    induction ss with
    | nil => exact .nil
    | cons s ss ih => exact .cons rfl ih

/-- A text and a list of texts are all that is read as one of the two. -/
theorem ofValue?_eq_some_iff {t : Texts} : ofValue? v = some t ↔ Of v t := by
  constructor
  · intro h
    cases v with
    | text s =>
      cases h
      exact .one s
    | list items =>
      obtain ⟨ss, hss, rfl⟩ := Option.map_eq_some_iff.mp h
      obtain rfl := mapM_text?_eq_some_iff.mp hss
      exact .many ss
    | _ => cases h
  · intro h
    cases h with
    | one s => rfl
    | many ss => exact Option.map_eq_some_iff.mpr ⟨ss, mapM_text?_eq_some_iff.mpr rfl, rfl⟩

end Texts

/-! ## Fields -/

namespace Field

/-- The place of a field among all of them. -/
def number (f : Field) : Nat := all.idxOf f

/-- The key is the name of the field. -/
inductive Named : Value → Field → Prop where
  | intro (f : Field) : Named (.text f.name) f

/-- The key is the number of the field. -/
inductive Numbered : Value → Field → Prop where
  | intro (f : Field) : Numbered (.unsigned f.number) f

/-- The key says which field it is. -/
def IsKey (v : Value) (f : Field) : Prop := Named v f ∨ Numbered v f

/-- A key is the name of a field or its number. -/
theorem ofKey?_eq_some_iff : ofKey? v = some f ↔ IsKey v f := by
  constructor
  · intro h
    cases v with
    | text s =>
      obtain rfl : f.name = s := by simpa using List.find?_some h
      exact .inl (.intro f)
    | unsigned n =>
      obtain ⟨hn, rfl⟩ := List.getElem?_eq_some_iff.mp h
      have hnumber : (all[n]).number = n := List.Nodup.idxOf_getElem (by decide) n hn
      have hkey := Numbered.intro all[n]
      rw [hnumber] at hkey
      exact .inr hkey
    | _ => cases h
  · rintro (h | h)
    all_goals
      cases h
      cases f <;> rfl

end Field

/-- What is found under the keys of the entries, each of which is one of another field. -/
structure Keyed (Key : Value → Field → Prop) (entries : List (Value × Value)) (fields : List (Field × Value)) :
    Prop where
  keys : List.Forall₂ (fun e f => Key e.1 f.1 ∧ e.2 = f.2) entries fields
  nodup : (fields.map Prod.fst).Nodup

/-- A field may be left out or null; what it says otherwise is told by `P`. -/
inductive Optionally {α : Type} (P : Value → α → Prop) : Option Value → Option α → Prop where
  | absent : Optionally P none none
  | null : Optionally P (some .null) none
  | present {v : Value} {a : α} (h : P v a) : Optionally P (some v) (some a)

/-- What is not null is read. -/
theorem unlessNull_of_ne {α : Type} {read : Value → Option α} (h : v ≠ .null) :
    unlessNull read v = (read v).map some := by
  cases v <;> first | rfl | exact absurd rfl h

/-- A field that may be left out is read as what it says, or as nothing where it is absent or null. -/
theorem optional_eq_some_iff {α : Type} {read : Value → Option α} {P : Value → α → Prop} {o : Option α}
    (hread : ∀ v a, read v = some a ↔ P v a) (hnull : read .null = none) :
    given.elim (some none) (unlessNull read) = some o ↔ Optionally P given o := by
  constructor
  · intro h
    cases given with
    | none =>
      cases h
      exact .absent
    | some v =>
      by_cases hv : v = .null
      · subst hv
        cases h
        exact .null
      · rw [Option.elim_some, unlessNull_of_ne hv] at h
        obtain ⟨a, ha, rfl⟩ := Option.map_eq_some_iff.mp h
        exact .present ((hread v a).mp ha)
  · intro h
    cases h with
    | absent => rfl
    | null => rfl
    | @present v a h =>
      have ha := (hread v a).mpr h
      have hv : v ≠ .null := by
        rintro rfl
        rw [hnull] at ha
        cases ha
      rw [Option.elim_some, unlessNull_of_ne hv, ha, Option.map_some]

/-- The fields of a definition as they are documented, from the values that are given for them. -/
structure Details.From (given : Field → Option Value) (d : Details) : Prop where
  command : ∃ v, given .command = some v ∧ Texts.Of v d.command
  dependsOn : Optionally Texts.Of (given .dependsOn) d.dependsOn
  restart : Optionally (fun v s => v = .text s) (given .restart) d.restart
  schedule : Optionally Texts.Of (given .schedule) d.schedule

/-- The fields of a definition are read if none is given twice and each is of its kind. -/
theorem Details.ofFields?_eq_some_iff :
    ofFields? fields = some d ↔ (fields.map Prod.fst).Nodup ∧ d.From fun f => fields.lookup f := by
  have htexts (f : Field) (o : Option Texts) :
      (fields.lookup f).elim (some none) (unlessNull Texts.ofValue?) = some o ↔
        Optionally Texts.Of (fields.lookup f) o :=
    optional_eq_some_iff (fun _ _ => Texts.ofValue?_eq_some_iff) rfl
  have htext (f : Field) (o : Option String) :
      (fields.lookup f).elim (some none) (unlessNull Texts.text?) = some o ↔
        Optionally (fun v s => v = .text s) (fields.lookup f) o :=
    optional_eq_some_iff (fun _ _ => Texts.text?_eq_some_iff) rfl
  unfold ofFields?
  split
  · next hnodup =>
    simp only [Option.bind_eq_bind, Option.bind_eq_some_iff, htexts, htext, Texts.ofValue?_eq_some_iff]
    constructor
    · rintro ⟨command, ⟨v, hv, hcommand⟩, dependsOn, hdependsOn, restart, hrestart, schedule, hschedule, h⟩
      cases h
      exact ⟨hnodup, ⟨v, hv, hcommand⟩, hdependsOn, hrestart, hschedule⟩
    · rintro ⟨-, hcommand, hdependsOn, hrestart, hschedule⟩
      exact ⟨_, hcommand, _, hdependsOn, _, hrestart, _, hschedule, rfl⟩
  · next hnodup => exact iff_of_false nofun fun h => hnodup h.1

/-! ## Entries -/

/-- In a list, the value of a field is the one in its place. -/
theorem lookup_zip_all (items : List Value) (f : Field) : (Field.all.zip items).lookup f = items[f.number]? := by
  obtain _ | ⟨a, _ | ⟨b, _ | ⟨c, _ | ⟨d, rest⟩⟩⟩⟩ := items <;> cases f <;> rfl

/-- A list gives no field twice. -/
theorem nodup_zip_all (items : List Value) : ((Field.all.zip items).map Prod.fst).Nodup := by
  obtain _ | ⟨a, _ | ⟨b, _ | ⟨c, _ | ⟨d, rest⟩⟩⟩⟩ := items <;> simp [Field.all]

namespace Entry

/-- The documented shapes. -/
inductive Documented : Value → Entry → Prop where
  | line (command : String) : Documented (.text command) (.line command)
  | mapping {entries : List (Value × Value)} {fields : List (Field × Value)} {d : Details}
      (hkeys : Keyed Field.Named entries fields) (hd : d.From fun f => fields.lookup f) :
      Documented (.map entries) (.details d)

/-- The other shapes that are accepted: a mapping with the number of a field for a key, and a list that leaves the
names of the fields out. -/
inductive Undocumented : Value → Entry → Prop where
  | numbered {entries : List (Value × Value)} {fields : List (Field × Value)} {d : Details} {n : Nat} {v : Value}
      (hn : (.unsigned n, v) ∈ entries) (hkeys : Keyed Field.IsKey entries fields)
      (hd : d.From fun f => fields.lookup f) : Undocumented (.map entries) (.details d)
  | listed {items : List Value} {d : Details} (hlength : items.length ≤ Field.all.length)
      (hd : d.From fun f => items[f.number]?) : Undocumented (.list items) (.details d)

end Entry

/-- The keys are names all of them, or one is a number. -/
theorem Keyed.cases (h : Keyed Field.IsKey entries fields) :
    Keyed Field.Named entries fields ∨ ∃ n v, (.unsigned n, v) ∈ entries := by
  obtain ⟨hkeys, hnodup⟩ := h
  suffices List.Forall₂ (fun e f => Field.Named e.1 f.1 ∧ e.2 = f.2) entries fields ∨
      ∃ n v, (.unsigned n, v) ∈ entries from this.imp_left fun h => ⟨h, hnodup⟩
  clear hnodup
  induction hkeys with
  | nil => exact .inl .nil
  | @cons e f entries fields hef _ ih =>
    obtain ⟨hnamed | hnumbered, hv⟩ := hef
    · exact ih.imp (fun h => .cons ⟨hnamed, hv⟩ h) fun ⟨n, v, h⟩ => ⟨n, v, .tail _ h⟩
    · obtain ⟨k, v⟩ := e
      cases hnumbered
      exact .inr ⟨_, v, .head _⟩

/-- Names are keys. -/
theorem Keyed.of_named (h : Keyed Field.Named entries fields) : Keyed Field.IsKey entries fields :=
  ⟨h.keys.imp fun _ _ h => ⟨.inl h.1, h.2⟩, h.nodup⟩

/-- The keys of a mapping are read one by one, with the values that go with them. -/
theorem mapM_keys_eq_some_iff :
    (entries.mapM fun (k, v) => return (← Field.ofKey? k, v)) = some fields ↔
      List.Forall₂ (fun e f => Field.IsKey e.1 f.1 ∧ e.2 = f.2) entries fields := by
  rw [mapM_eq_some_iff]
  refine iff_of_eq (congrArg (List.Forall₂ · entries fields) ?_)
  ext ⟨k, v⟩ ⟨f, w⟩
  simp [Option.bind_eq_some_iff, Field.ofKey?_eq_some_iff]

namespace Entry

variable {e : Entry}

/-- A mapping is an entry if its keys are those of fields, and these make up a definition. -/
theorem ofValue?_map_eq_some_iff : ofValue? (.map entries) = some e ↔
    ∃ fields d, Keyed Field.IsKey entries fields ∧ d.From (fun f => fields.lookup f) ∧ e = .details d := by
  unfold ofValue?
  simp only [Option.bind_eq_bind, Option.bind_eq_some_iff]
  constructor
  · rintro ⟨fields, hkeys, d, hd, he⟩
    obtain ⟨hnodup, hd⟩ := Details.ofFields?_eq_some_iff.mp hd
    exact ⟨fields, d, ⟨mapM_keys_eq_some_iff.mp hkeys, hnodup⟩, hd, (Option.some.inj he).symm⟩
  · rintro ⟨fields, d, ⟨hkeys, hnodup⟩, hd, rfl⟩
    exact ⟨fields, mapM_keys_eq_some_iff.mpr hkeys, d, Details.ofFields?_eq_some_iff.mpr ⟨hnodup, hd⟩, rfl⟩

/-- A list is an entry if it has no more values than there are fields, and these make up a definition. -/
theorem ofValue?_list_eq_some_iff : ofValue? (.list items) = some e ↔
    ∃ d, items.length ≤ Field.all.length ∧ d.From (fun f => items[f.number]?) ∧ e = .details d := by
  have hfields (d : Details) : Details.ofFields? (Field.all.zip items) = some d ↔ d.From fun f => items[f.number]? := by
    rw [Details.ofFields?_eq_some_iff, and_iff_right (nodup_zip_all items)]
    simp only [lookup_zip_all]
  unfold ofValue?
  dsimp only
  split
  · next hlength => simp only [Option.map_eq_some_iff, hfields, hlength, true_and, eq_comm (b := e)]
  · next hlength => exact iff_of_false nofun fun ⟨_, h, _⟩ => hlength h

/-- An entry is read from a value exactly if the value has one of the four shapes. -/
theorem ofValue?_eq_some_iff : ofValue? v = some e ↔ Documented v e ∨ Undocumented v e := by
  cases v with
  | text s =>
    constructor
    · intro h
      cases h
      exact .inl (.line s)
    · rintro (⟨⟨⟩⟩ | ⟨⟨⟩⟩)
      rfl
  | map entries =>
    rw [ofValue?_map_eq_some_iff]
    constructor
    · rintro ⟨fields, d, hkeys, hd, rfl⟩
      rcases hkeys.cases with hnamed | ⟨n, v, hn⟩
      · exact .inl (.mapping hnamed hd)
      · exact .inr (.numbered hn hkeys hd)
    · rintro (h | h)
      · cases h with
        | mapping hnamed hd => exact ⟨_, _, hnamed.of_named, hd, rfl⟩
      · cases h with
        | numbered _ hkeys hd => exact ⟨_, _, hkeys, hd, rfl⟩
  | list items =>
    rw [ofValue?_list_eq_some_iff]
    constructor
    · rintro ⟨d, hlength, hd, rfl⟩
      exact .inr (.listed hlength hd)
    · rintro (h | h)
      · cases h
      · cases h with
        | listed hlength hd => exact ⟨_, hlength, hd, rfl⟩
  | _ =>
    refine iff_of_false nofun ?_
    rintro (h | h) <;> cases h

end Entry

/-! ## Definitions -/

/-- A command is cut into its words, and there has to be one. -/
theorem splitCommand_eq_ok_iff {command : String} :
    splitCommand command = .ok argv ↔ Text.commandWords? command = some argv ∧ argv ≠ [] := by
  unfold splitCommand
  split
  · next h => simp [h]
  · next h => simp [h, eq_comm]
  · next argv' hne h =>
    rw [h]
    constructor
    · intro e
      cases e
      exact ⟨rfl, hne⟩
    · rintro ⟨e, -⟩
      cases e
      rfl

/-- The words of a command, of which there is one at least. -/
inductive Texts.Commands : Texts → List String → Prop where
  | one {command : String} {argv : List String} (h : Text.commandWords? command = some argv) (hne : argv ≠ []) :
      Commands (.one command) argv
  | many {argv : List String} (hne : argv ≠ []) : Commands (.many argv) argv

/-- A command has a word. -/
theorem Texts.Commands.ne_nil {t : Texts} (h : t.Commands argv) : argv ≠ [] := by
  cases h <;> assumption

/-- A command is given as a text to be cut or as its words. -/
theorem Entry.words_eq_ok_iff {t : Texts} : Entry.words t = .ok argv ↔ t.Commands argv := by
  constructor
  · intro h
    cases t with
    | one command =>
      obtain ⟨hwords, hne⟩ := splitCommand_eq_ok_iff.mp h
      exact .one hwords hne
    | many ss =>
      cases ss with
      | nil => cases h
      | cons s ss =>
        cases h
        exact .many (List.cons_ne_nil _ _)
  · intro h
    cases h with
    | one hwords hne => exact splitCommand_eq_ok_iff.mpr ⟨hwords, hne⟩
    | many hne =>
      cases argv with
      | nil => exact absurd rfl hne
      | cons s ss => rfl

/-- A policy has one of the known names, and is `never` where nothing is said. -/
theorem Entry.policy_eq_ok_iff {o : Option String} {restart : RestartPolicy} :
    Entry.policy o = .ok restart ↔ o.elim (restart = .never) (RestartPolicy.parse? · = some restart) := by
  cases o with
  | none => simp [policy, eq_comm]
  | some s => cases h : RestartPolicy.parse? s <;> simp [policy, h]

/-- A command and, if anything is said about it, the name of a policy make a definition. -/
inductive Entry.Defines (name : String) : Entry → Service.Definition → Prop where
  | line {command : String} {argv : List String} (h : (Texts.one command).Commands argv) :
      Defines name (.line command) { name, argv }
  | details {d : Details} {argv : List String} {restart : RestartPolicy} (h : d.command.Commands argv)
      (hrestart : d.restart.elim (restart = .never) (RestartPolicy.parse? · = some restart)) :
      Defines name (.details d) { name, argv, restart, dependsOn := d.dependsOn.elim [] Texts.toList,
                                  schedule := d.schedule.elim [] Texts.toList }

namespace Entry

variable {e : Entry} {d : Service.Definition}

theorem Defines.name_eq (h : e.Defines name d) : d.name = name := by
  cases h <;> rfl

/-- A definition has a command. -/
theorem Defines.argv_ne_nil (h : e.Defines name d) : d.argv ≠ [] := by
  cases h with
  | line h => exact h.ne_nil
  | details h _ => exact h.ne_nil

/-- What is made of an entry is what it defines. -/
theorem definition_eq_ok_iff :
    e.definition name = .ok d ↔ e.Defines name d := by
  constructor
  · intro h
    cases e with
    | line command =>
      obtain ⟨argv, hargv, hd⟩ := bind_eq_ok_iff.mp h
      cases hd
      exact .line (words_eq_ok_iff.mp hargv)
    | details d =>
      obtain ⟨argv, hargv, hd⟩ := bind_eq_ok_iff.mp h
      obtain ⟨restart, hrestart, hd⟩ := bind_eq_ok_iff.mp hd
      cases hd
      exact .details (words_eq_ok_iff.mp hargv) (policy_eq_ok_iff.mp hrestart)
  · intro h
    cases h with
    | line h => exact bind_eq_ok_iff.mpr ⟨_, words_eq_ok_iff.mpr h, rfl⟩
    | details h hrestart =>
      exact bind_eq_ok_iff.mpr ⟨_, words_eq_ok_iff.mpr h,
        bind_eq_ok_iff.mpr ⟨_, policy_eq_ok_iff.mpr hrestart, rfl⟩⟩

end Entry

end ContainerInit.Config
