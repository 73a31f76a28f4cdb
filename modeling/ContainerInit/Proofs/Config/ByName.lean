import ContainerInit.Config.Basic
import Mathlib.Data.List.Dedup
import Mathlib.Data.List.Forall2
import Mathlib.Data.List.Induction

/-! # Entries by name

Entries are put in the order of their names one after the other, each in the place of one that has its name
already.  What is there in the end are the last entries of all the names that occur.

The table of entries is built from the left, so that the induction over a list of entries is at its end
(`byName_concat`), and so is the description of the last entry of a name (`isLast_concat_iff`): another entry is the
last of its own name, and changes nothing for the other names.

Nothing here depends on what the entries are.  The last section says so: what corresponds entry by entry still does
after both lists have been put in the order of names (`forall₂_byName`), since only names decide about the places. -/

namespace ContainerInit.Config

variable {α β : Type} {name : String} {a : α} {d e : String × α} {entries sorted : List (String × α)}

/-- The entry is the last one of its name. -/
def IsLast (entries : List (String × α)) (e : String × α) : Prop := entries.reverse.lookup e.1 = some e.2

theorem not_isLast_nil : ¬ IsLast [] e := nofun

/-- Another entry at the end is the last one of its name, and nothing else changes. -/
theorem isLast_concat_iff : IsLast (entries ++ [d]) e ↔ e = d ∨ e.1 ≠ d.1 ∧ IsLast entries e := by
  obtain ⟨m, b⟩ := d
  obtain ⟨n, a⟩ := e
  by_cases h : n = m
  · subst h
    simp [IsLast, eq_comm]
  · simp [IsLast, List.lookup_cons, beq_false_of_ne h, h]

theorem IsLast.mem (h : IsLast entries e) : e ∈ entries := by
  induction entries using List.reverseRecOn with
  | nil => exact absurd h not_isLast_nil
  | append_singleton entries d ih =>
    rcases isLast_concat_iff.mp h with rfl | ⟨-, h⟩
    · simp
    · exact List.mem_append_left _ (ih h)

/-- Every name that occurs has a last entry. -/
theorem exists_isLast (h : name ∈ entries.map Prod.fst) : ∃ a, IsLast entries (name, a) := by
  induction entries using List.reverseRecOn with
  | nil => simp at h
  | append_singleton entries d ih =>
    by_cases hd : name = d.1
    · exact ⟨d.2, isLast_concat_iff.mpr (.inl (Prod.ext hd rfl))⟩
    · have hmem : name ∈ entries.map Prod.fst := by simpa [hd] using h
      exact (ih hmem).imp fun a ha => isLast_concat_iff.mpr (.inr ⟨hd, ha⟩)

/-- An entry comes to its place, and only those of other names stay. -/
theorem mem_place_iff (h : sorted.Pairwise fun d e => d.1 < e.1) :
    e ∈ place name a sorted ↔ e = (name, a) ∨ e.1 ≠ name ∧ e ∈ sorted := by
  induction sorted with
  | nil => simp [place]
  | cons d rest ih =>
    rw [List.pairwise_cons] at h
    have hrest (hd : ¬ d.1 < name) (he : e ∈ rest) : e.1 ≠ name := fun hn => hd (hn ▸ h.1 e he)
    unfold place
    split
    · next hlt =>
      have hne : e ∈ d :: rest → e.1 ≠ name := fun he => by
        rcases List.mem_cons.mp he with rfl | he
        · exact (String.ne_of_lt hlt).symm
        · exact hrest (String.lt_asymm hlt) he
      rw [List.mem_cons]
      exact or_congr_right ⟨fun he => ⟨hne he, he⟩, And.right⟩
    · split
      · next heq =>
        subst heq
        have hne : e ∈ rest → e.1 ≠ d.1 := hrest (String.lt_irrefl _)
        have hd : e = d → ¬ e.1 ≠ d.1 := fun e hne => hne (by rw [e])
        grind
      · next hne =>
        have hd : e = d → e.1 ≠ name := fun e hn => hne (by rw [← hn, e])
        rw [List.mem_cons, List.mem_cons, ih h.2]
        grind

theorem byName_concat : byName (entries ++ [e]) = place e.1 e.2 (byName entries) := by
  simp [byName, List.foldl_append]

/-- The table has the last entries of their names, and no others. -/
theorem mem_byName_iff : e ∈ byName entries ↔ IsLast entries e := by
  induction entries using List.reverseRecOn generalizing e with
  | nil => simp [byName, not_isLast_nil]
  | append_singleton entries d ih => rw [byName_concat, mem_place_iff (pairwise_byName entries), isLast_concat_iff, ih]

/-- No name is in the table twice. -/
theorem nodup_names_byName : ((byName entries).map Prod.fst).Nodup :=
  List.pairwise_map.mpr ((pairwise_byName entries).imp String.ne_of_lt)

/-- Each name that occurs is there once. -/
theorem names_byName_perm : (byName entries).map Prod.fst |>.Perm (entries.map Prod.fst).dedup := by
  refine (List.perm_ext_iff_of_nodup nodup_names_byName (List.nodup_dedup _)).mpr fun n => ?_
  rw [List.mem_dedup]
  constructor
  · intro h
    obtain ⟨e, he, rfl⟩ := List.mem_map.mp h
    exact List.mem_map_of_mem (mem_byName_iff.mp he).mem
  · intro h
    obtain ⟨a, ha⟩ := exists_isLast h
    exact List.mem_map.mpr ⟨(n, a), mem_byName_iff.mpr ha, rfl⟩

/-- The table has as many entries as there are names. -/
theorem length_byName : (byName entries).length = (entries.map Prod.fst).dedup.length := by
  rw [← names_byName_perm.length_eq, List.length_map]

/-- Nothing is left out if and only if no name occurs again. -/
theorem length_byName_eq_iff : (byName entries).length = entries.length ↔ (entries.map Prod.fst).Nodup := by
  rw [length_byName, ← List.length_map (f := Prod.fst)]
  constructor
  · intro h
    exact List.dedup_eq_self.mp ((List.dedup_sublist _).eq_of_length h)
  · intro h
    rw [h.dedup]

section Related

variable {R : String → α → β → Prop} {as : List (String × α)} {bs : List (String × β)}

/-- The two have the same name and are related by it. -/
def Alike (R : String → α → β → Prop) (d : String × α) (e : String × β) : Prop := d.1 = e.1 ∧ R d.1 d.2 e.2

/-- Entries that correspond come to corresponding places. -/
theorem forall₂_place {a : α} {b : β} (h : List.Forall₂ (Alike R) as bs) (hr : R name a b) :
    List.Forall₂ (Alike R) (place name a as) (place name b bs) := by
  induction h with
  | nil => exact .cons ⟨rfl, hr⟩ .nil
  | @cons d e as bs hd hrest ih =>
    obtain ⟨m, x⟩ := d
    obtain ⟨m, y⟩ := e
    obtain ⟨rfl, hxy⟩ := hd
    unfold place
    split
    · exact .cons ⟨rfl, hr⟩ (.cons ⟨rfl, hxy⟩ hrest)
    · split
      · exact .cons ⟨rfl, hr⟩ hrest
      · exact .cons ⟨rfl, hxy⟩ ih

/-- What is related entry by entry is so in the order of names. -/
theorem forall₂_byName (h : List.Forall₂ (Alike R) as bs) : List.Forall₂ (Alike R) (byName as) (byName bs) := by
  refine List.rel_foldl (fun _ _ hs d e hd => ?_) .nil h
  obtain ⟨m, x⟩ := d
  obtain ⟨m, y⟩ := e
  obtain ⟨rfl, hxy⟩ := hd
  exact forall₂_place hs hxy

end Related

end ContainerInit.Config
