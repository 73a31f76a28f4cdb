import ContainerInit.Proofs.Registry.Dependencies

/-! # The order of starts

A walk through the dependencies leaves every service that it enters, and none of them twice.  Therefore the order of
starts, in whose reverse services are stopped, has each of them once.  What the walk is inside of leads to where it is,
so that a dependency which has no way back has been left before whatever depends on it.

The walk passes over services that it has entered, whether or not it has left them already, and so circles do not stop
it.  Within a circle there is no order to be expected, and the statement about the order leaves it out: `RestsOn` is
the dependency on a service that does not lead back.

The three parts of the result have an invariant each, which is carried through by one induction along the walk:
`Onward` for that nothing is left out, `Once` for that nothing comes twice, and `LeadsTo` for the order. -/

namespace ContainerInit.Registry

open Relation

variable {r : Registry} {w w' w₁ w₂ : Walk r}

/-- What the walk has entered on the way from `w` to `w'` it has left again. -/
structure Walk.Onward (w w' : Walk r) : Prop where
  left : w.left ⊆ w'.left
  entered : ∀ j ∈ w'.entered, j ∈ w.entered ∨ j ∈ w'.left

theorem Walk.Onward.refl (w : Walk r) : w.Onward w := ⟨fun _ => id, fun _ => .inl⟩

theorem Walk.Onward.trans (h₁ : w.Onward w₁) (h₂ : w₁.Onward w₂) : w.Onward w₂ where
  left := fun _ hj => h₂.left (h₁.left hj)
  entered j hj := by
    rcases h₂.entered j hj with hj | hj
    · exact (h₁.entered j hj).imp_right fun hj => h₂.left hj
    · exact .inr hj

/-- What is entered inside of a service is left before the service is. -/
theorem onward_walk (w : Walk r) (i : r.Id) : w.Onward (walk w i).1 := by
  induction w, i using walk.induct _ (fun w names => w.Onward (walkAll w names).1) with
  | case1 w i hi =>
    rw [walk, dif_pos hi]
    exact .refl w
  | case2 w i hi ih =>
    rw [walk, dif_neg hi]
    refine ⟨fun j hj => List.mem_append_left _ (ih.left hj), fun j hj => ?_⟩
    rcases ih.entered j hj with hj | hj
    · rcases List.mem_cons.mp hj with rfl | hj
      · exact .inr (List.mem_append_right _ (List.mem_singleton_self _))
      · exact .inl hj
    · exact .inr (List.mem_append_left _ hj)
  | case3 w =>
    rw [walkAll]
    exact .refl w
  | case4 w name names hn ih =>
    rw [walkAll, hn]
    exact ih
  | case5 w name names j hn w₁ h₁ e₁ w₂ h₂ e₂ ih₁ ih₂ =>
    rw [walkAll, hn]
    dsimp only
    rw [e₁] at ih₁ ⊢
    dsimp only
    rw [e₂] at ih₂ ⊢
    exact ih₁.trans ih₂

/-- After the walk through a service, it has been entered. -/
theorem mem_entered_walk (w : Walk r) (i : r.Id) : i ∈ (walk w i).1.entered := by
  rw [walk]
  split
  · assumption
  · exact (walkAll { w with entered := i :: w.entered } (r.service i).dependsOn).2 (List.mem_cons_self ..)

/-- The walk is inside of no service. -/
def Walk.Outside (w : Walk r) : Prop := w.entered ⊆ w.left

/-- A walk that is inside of nothing comes out again. -/
theorem Walk.Outside.walk (hw : w.Outside) (i : r.Id) : (walk w i).1.Outside := fun j hj =>
  ((onward_walk w i).entered j hj).elim (fun hj => (onward_walk w i).left (hw hj)) id

/-- No service is left out of the order. -/
theorem mem_startOrder (i : r.Id) : i ∈ r.startOrder := by
  have hall : ∀ (is : List r.Id) (w : Walk r), w.Outside →
      let w' := is.foldl (fun w i => (walk w i).1) w
      w.left ⊆ w'.left ∧ ∀ j ∈ is, j ∈ w'.left := by
    intro is
    induction is with
    | nil => exact fun w _ => ⟨fun _ => id, nofun⟩
    | cons i is ih =>
      intro w hw
      obtain ⟨hleft, his⟩ := ih (walk w i).1 (hw.walk i)
      refine ⟨fun j hj => hleft ((onward_walk w i).left hj), fun j hj => ?_⟩
      rcases List.mem_cons.mp hj with rfl | hj
      · exact hleft (hw.walk j (mem_entered_walk w j))
      · exact his j hj
  exact (hall r.ids {} fun _ => id).2 i (List.mem_finRange i)

/-- What the walk has left it has entered, and it has left nothing twice. -/
structure Walk.Once (w : Walk r) : Prop where
  nodup : w.left.Nodup
  entered : w.left ⊆ w.entered

/-- On the way from `w` to `w'` the walk leaves only what it had not entered before. -/
def Walk.Fresh (w w' : Walk r) : Prop := ∀ j ∈ w'.left, j ∈ w.left ∨ j ∉ w.entered

/-- The walk leaves only what it has entered itself, and that once. -/
theorem Walk.Once.walk (hw : w.Once) (i : r.Id) : (walk w i).1.Once ∧ w.Fresh (walk w i).1 := by
  induction w, i using walk.induct _
    (fun w names => w.Once → (walkAll w names).1.Once ∧ w.Fresh (walkAll w names).1) with
  | case1 w i hi =>
    rw [Registry.walk, dif_pos hi]
    exact ⟨hw, fun j => .inl⟩
  | case2 w i hi ih =>
    rw [Registry.walk, dif_neg hi]
    obtain ⟨hw', hfresh⟩ := ih ⟨hw.nodup, fun j hj => .tail _ (hw.entered hj)⟩
    have hout : i ∉ (walkAll { w with entered := i :: w.entered } (r.service i).dependsOn).1.left := fun hj =>
      (hfresh i hj).elim (fun hj => hi (hw.entered hj)) fun hj => hj (List.mem_cons_self ..)
    refine ⟨⟨?_, fun j hj => ?_⟩, fun j hj => ?_⟩
    · exact List.nodup_append.mpr ⟨hw'.nodup, List.pairwise_singleton .., fun j hj k hk e => by
        rw [List.mem_singleton.mp hk] at e
        exact hout (e ▸ hj)⟩
    · rcases List.mem_append.mp hj with hj | hj
      · exact hw'.entered hj
      · rw [List.mem_singleton.mp hj]
        exact (walkAll { w with entered := i :: w.entered } (r.service i).dependsOn).2 (List.mem_cons_self ..)
    · rcases List.mem_append.mp hj with hj | hj
      · exact (hfresh j hj).imp_right fun hn hj => hn (.tail _ hj)
      · rw [List.mem_singleton.mp hj]
        exact .inr hi
  | case3 w hw =>
    rw [walkAll]
    exact ⟨hw, fun j => .inl⟩
  | case4 w name names hn ih hw =>
    rw [walkAll, hn]
    exact ih hw
  | case5 w name names j hn w₁ h₁ e₁ w₂ h₂ e₂ ih₁ ih₂ hw =>
    rw [walkAll, hn]
    dsimp only
    rw [e₁] at ih₁ ⊢
    dsimp only
    rw [e₂] at ih₂ ⊢
    obtain ⟨hw₁, hfresh₁⟩ := ih₁ hw
    obtain ⟨hw₂, hfresh₂⟩ := ih₂ hw₁
    refine ⟨hw₂, fun j hj => ?_⟩
    rcases hfresh₂ j hj with hj | hj
    · exact hfresh₁ j hj
    · exact .inr fun he => hj (h₁ he)

/-- No service is twice in the order. -/
theorem nodup_startOrder (r : Registry) : r.startOrder.Nodup := by
  have hw : (r.ids.foldl (fun w i => (walk w i).1) ({} : Walk r)).Once :=
    List.foldlRecOn _ _ ⟨.nil, nofun⟩ fun w hw i _ => (hw.walk i).1
  exact hw.nodup

/-! ## Dependencies come first -/

/-- `i` depends on `j`, from which no way leads back. -/
def RestsOn (r : Registry) (i j : r.Id) : Prop := r.DependsOn i j ∧ ¬ ReflTransGen r.DependsOn j i

/-- Whatever the walk is inside of leads to `i`. -/
def Walk.LeadsTo (w : Walk r) (i : r.Id) : Prop :=
  ∀ j ∈ w.entered, j ∈ w.left ∨ ReflTransGen r.DependsOn j i

/-- What the walk has left meanwhile is not among what it is inside of. -/
theorem Walk.LeadsTo.onward {i : r.Id} (h : w.LeadsTo i) (ho : w.Onward w') : w'.LeadsTo i := by
  intro j hj
  rcases ho.entered j hj with hj | hj
  · exact (h j hj).imp_left fun hj => ho.left hj
  · exact .inl hj

/-- Entering `i` leads on to what it depends on. -/
theorem Walk.LeadsTo.enter {i j : r.Id} (h : w.LeadsTo i) (hij : r.DependsOn i j) :
    ({ w with entered := i :: w.entered } : Walk r).LeadsTo j := by
  intro k hk
  rcases List.mem_cons.mp hk with rfl | hk
  · exact .inr (.single hij)
  · exact (h k hk).imp_right fun hk => hk.tail hij

/-- What is entered through a list of names is left again. -/
theorem onward_walkAll (w : Walk r) (names : List String) : w.Onward (walkAll w names).1 := by
  induction names generalizing w with
  | nil =>
    rw [walkAll]
    exact .refl w
  | cons name names ih =>
    rw [walkAll]
    split
    · exact ih w
    · exact (onward_walk w _).trans (ih _)

/-- All services with these names have been entered. -/
theorem mem_entered_walkAll (w : Walk r) (names : List String) (j : r.Id) (hj : (r.service j).name ∈ names) :
    j ∈ (walkAll w names).1.entered := by
  induction names generalizing w with
  | nil => cases hj
  | cons name names ih =>
    rw [walkAll]
    rcases List.mem_cons.mp hj with rfl | hj
    · rw [find?_eq_some_iff.mpr rfl]
      exact (walkAll (walk w j).1 names).2 (mem_entered_walk w j)
    · split
      · exact ih w hj
      · exact ih _ hj

/-- Whatever a service depends on has been left when the service is, unless the walk is inside of it; and then
there is a way back. -/
theorem putsFirst_walk (w : Walk r) (i : r.Id) (hw : w.LeadsTo i) (hp : PutsFirst r.RestsOn w.left) :
    PutsFirst r.RestsOn (walk w i).1.left := by
  revert hw hp
  induction w, i using walk.induct _ (fun w names =>
    (∀ j : r.Id, (r.service j).name ∈ names → w.LeadsTo j) → PutsFirst r.RestsOn w.left →
      PutsFirst r.RestsOn (walkAll w names).1.left) with
  | case1 w i hi =>
    intro _ hp
    rwa [walk, dif_pos hi]
  | case2 w i hi ih =>
    intro hw hp
    rw [walk, dif_neg hi]
    refine (ih (fun j hj => hw.enter hj) hp).concat fun k hk => ?_
    have ho := onward_walkAll { w with entered := i :: w.entered } (r.service i).dependsOn
    rcases ho.entered k (mem_entered_walkAll _ _ k hk.1) with hin | hleft
    · rcases List.mem_cons.mp hin with rfl | hin
      · exact absurd .refl hk.2
      · exact ho.left ((hw k hin).resolve_right hk.2)
    · exact hleft
  | case3 w _ hp =>
    rwa [walkAll]
  | case4 w name names hn ih hw hp =>
    rw [walkAll, hn]
    exact ih (fun j hj => hw j (.tail _ hj)) hp
  | case5 w name names j hn w₁ h₁ e₁ w₂ h₂ e₂ ih₁ ih₂ hw hp =>
    obtain rfl := find?_eq_some_iff.mp hn
    have ho : w.Onward w₁ := by simpa [e₁] using onward_walk w j
    rw [walkAll, hn]
    dsimp only
    rw [e₁] at ih₁ ⊢
    dsimp only
    rw [e₂] at ih₂ ⊢
    exact ih₂ (fun k hk => (hw k (.tail _ hk)).onward ho) (ih₁ (hw j (.head _)) hp)

/-- In the order of starts, whatever a service rests on stands before it. -/
theorem putsFirst_startOrder (r : Registry) : PutsFirst r.RestsOn r.startOrder := by
  have hinit : ({} : Walk r).Outside ∧ PutsFirst r.RestsOn ({} : Walk r).left := ⟨fun _ => id, .nil⟩
  exact (List.foldlRecOn (motive := fun w => w.Outside ∧ PutsFirst r.RestsOn w.left) r.ids _ hinit
    fun w hw i _ => ⟨hw.1.walk i, putsFirst_walk w i (fun j hj => .inl (hw.1 hj)) hw.2⟩).2

end ContainerInit.Registry
