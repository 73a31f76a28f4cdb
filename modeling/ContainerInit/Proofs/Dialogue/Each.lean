import ContainerInit.Proofs.Dialogue.World

/-! # Runs over lists

A traversal of a list asks for one element after the other, a fold from what it has come to with those before.  Its
history is made of those of the elements.

`RunsEach` is a run of a traversal, taken apart: one run for each element, of which the histories come one after the
other and the values make up the result.  `RunsInTurn` is the same for a fold, where the histories are kept apart,
since it matters later which of them is whose. -/

namespace ContainerInit.Dialogue

variable {S : Signature} {α β : Type} {f : β → Dialogue S α} {xs : List β} {h : List (Exchange S)} {as : List α}

/-- A value asks for nothing, and is what it is. -/
@[simp] theorem runs_done_iff {a b : α} : Runs (.done a : Dialogue S α) h b ↔ h = [] ∧ b = a := by
  constructor
  · intro hr
    cases hr
    exact ⟨rfl, rfl⟩
  · rintro ⟨rfl, rfl⟩
    exact .done _

/-- A question has an answer first, and what follows on it. -/
@[simp] theorem runs_ask_iff {c : S.Call} {next : S.Answer c → Dialogue S α} {a : α} :
    Runs (.ask c next) h a ↔ ∃ answer h', h = ⟨c, answer⟩ :: h' ∧ Runs (next answer) h' a := by
  constructor
  · intro hr
    cases hr with
    | ask rest => exact ⟨_, _, rfl, rest⟩
  · rintro ⟨answer, h', rfl, rest⟩
    exact .ask rest

/-- One run for each element of the list, one after the other. -/
inductive RunsEach (f : β → Dialogue S α) : List β → List (Exchange S) → List α → Prop where
  | nil : RunsEach f [] [] []
  | cons {x : β} {xs : List β} {h h' : List (Exchange S)} {a : α} {as : List α} (hx : Runs (f x) h a)
      (hxs : RunsEach f xs h' as) : RunsEach f (x :: xs) (h ++ h') (a :: as)

/-- By induction on the list, along the runs of two dialogues in a row. -/
theorem runsEach_of_runs_mapM (hr : Runs (xs.mapM f) h as) : RunsEach f xs h as := by
  induction xs generalizing h as with
  | nil =>
    cases hr
    exact .nil
  | cons x xs ih =>
    rw [List.mapM_cons] at hr
    obtain ⟨h₁, h₂, a, rfl, hx, hr⟩ := runs_bind_iff.mp hr
    obtain ⟨h₃, h₄, as, rfl, hxs, hend⟩ := runs_bind_iff.mp hr
    cases hend
    rw [List.append_nil]
    exact .cons hx (ih hxs)

/-- Each element has its run in the history. -/
theorem RunsEach.exists_runs (hr : RunsEach f xs h as) {x : β} (hx : x ∈ xs) :
    ∃ h' ⊆ h, ∃ a ∈ as, Runs (f x) h' a := by
  induction hr with
  | nil => cases hx
  | cons hy _ ih =>
    rcases List.mem_cons.mp hx with rfl | hx
    · exact ⟨_, List.subset_append_left _ _, _, .head _, hy⟩
    · obtain ⟨h', hh, a, ha, hx⟩ := ih hx
      exact ⟨h', List.subset_append_of_subset_right _ hh, a, .tail _ ha, hx⟩

/-- Each value is that of an element. -/
theorem RunsEach.exists_of_mem (hr : RunsEach f xs h as) {a : α} (ha : a ∈ as) :
    ∃ x ∈ xs, ∃ h', Runs (f x) h' a := by
  induction hr with
  | nil => cases ha
  | cons hx _ ih =>
    rcases List.mem_cons.mp ha with rfl | ha
    · exact ⟨_, .head _, _, hx⟩
    · obtain ⟨x, hx, hr⟩ := ih ha
      exact ⟨x, .tail _ hx, hr⟩

theorem halts_mapM (hf : ∀ x, (f x).Halts) (xs : List β) : (xs.mapM f).Halts := by
  induction xs with
  | nil => trivial
  | cons x xs ih =>
    rw [List.mapM_cons]
    exact (hf x).bind fun _ => ih.bind fun _ => trivial

variable {f : α → β → Dialogue S α} {a a' : α}

/-- One run for each element of the list, from what the one before has come to, each with its history. -/
inductive RunsInTurn (f : α → β → Dialogue S α) : α → List β → List (List (Exchange S)) → α → Prop where
  | nil (a : α) : RunsInTurn f a [] [] a
  | cons {x : β} {xs : List β} {h : List (Exchange S)} {hs : List (List (Exchange S))} {a a₁ a' : α}
      (hx : Runs (f a x) h a₁) (hxs : RunsInTurn f a₁ xs hs a') : RunsInTurn f a (x :: xs) (h :: hs) a'

/-- A fold falls into a run for each element. -/
theorem runsInTurn_of_runs_foldlM (hr : Runs (xs.foldlM f a) h a') :
    ∃ hs, h = hs.flatten ∧ RunsInTurn f a xs hs a' := by
  induction xs generalizing a h with
  | nil =>
    obtain ⟨rfl, rfl⟩ := runs_done_iff.mp hr
    exact ⟨[], rfl, .nil a'⟩
  | cons x xs ih =>
    rw [List.foldlM_cons] at hr
    obtain ⟨h₁, h₂, a₁, rfl, hx, hrest⟩ := runs_bind_iff.mp hr
    obtain ⟨hs, rfl, hxs⟩ := ih hrest
    exact ⟨h₁ :: hs, rfl, .cons hx hxs⟩

theorem halts_foldlM (hf : ∀ a x, (f a x).Halts) (a : α) (xs : List β) : (xs.foldlM f a).Halts := by
  induction xs generalizing a with
  | nil => trivial
  | cons x xs ih => exact (hf a x).bind ih

end ContainerInit.Dialogue
