import ContainerInit.Proofs.Registry.Dependencies
import Mathlib.Data.List.Nodup

/-! # What a start is planned to do

The plan for a service lists exactly the services that have to be started for it, in an order in which each comes after
what it needs.  A plan is refused exactly if there is an obstacle among those services: a dependency that does not
exist, a circle, or a dependency that has ended for good.

## Who takes part

`Needs` is the dependency on a service that is not running, and `Requires` its closure.  A running service is not
looked into, so that an obstacle behind it does not count.

## Along the search

The induction follows the recursion of `extendPlan`.  `Extended` is the invariant: the plan has grown by just the
services required, in order and each once, and none of them has met an obstacle.  `Outcome` adds the case of an error,
which stands for an obstacle among what the service in question requires; for that the path has to be known to lead
from there.  At the top the two cases exclude each other (`not_obstacle_of_plan_eq_ok`), which makes
`plan_eq_error_iff` an equivalence. -/

namespace ContainerInit.Board

open Relation

variable {r : Registry} {b : Board r} {i j k : r.Id}

/-- `i` depends on `j`, which is not running. -/
def Needs (b : Board r) (i j : r.Id) : Prop := r.DependsOn i j ∧ b.isRunning j = false

/-- The services that take part in a start of `i`: itself, what it needs, what that needs in turn. -/
def Requires (b : Board r) : r.Id → r.Id → Prop := ReflTransGen b.Needs

/-- What is in the way of a start of `i`, with the error that tells of it. -/
inductive Obstacle (b : Board r) (i : r.Id) : Error → Prop where
  /-- A service that takes part has a dependency that does not exist. -/
  | missing {j : r.Id} {name : String} (hj : b.Requires i j) (h : r.Lacks j name) :
      Obstacle b i (.serviceNotFound name)
  /-- A service that takes part needs itself, through others or at once. -/
  | circle {j : r.Id} {chain : List String} (hj : b.Requires i j) (h : TransGen b.Needs j j) :
      Obstacle b i (.dependencyCycle chain)
  /-- A service that takes part needs one that has ended and may not start again. -/
  | blocked {j k : r.Id} (hj : b.Requires i j) (hk : b.Needs j k) (h : b.isBlocked k = true) :
      Obstacle b i (.dependencyBlocked (r.service j).name (r.service k).name b[k].status)

/-- Each service of the list comes after all that it needs. -/
def Ordered (b : Board r) (is : List r.Id) : Prop :=
  ∀ ⦃xs j ys⦄, is = xs ++ j :: ys → ∀ ⦃k⦄, b.Needs j k → k ∈ xs

/-- The services with the given names exist, and those that are not running may be started. -/
structure Clear (b : Board r) (names : List String) : Prop where
  exist : ∀ name ∈ names, ∃ k : r.Id, (r.service k).name = name
  unblocked : ∀ k, (r.service k).name ∈ names → b.isRunning k = false → b.isBlocked k = false

theorem Clear.nil : b.Clear [] := ⟨by simp, by simp⟩

/-- One more dependency that exists, and may be started if it has to be. -/
theorem Clear.cons {names : List String} (h : b.Clear names)
    (hk : b.isRunning k = false → b.isBlocked k = false) : b.Clear ((r.service k).name :: names) where
  exist := List.forall_mem_cons.mpr ⟨⟨k, rfl⟩, h.exist⟩
  unblocked l hl hr := (List.mem_cons.mp hl).elim
    (fun e => Registry.name_injective e ▸ hk (Registry.name_injective e ▸ hr)) (h.unblocked l · hr)

/-! ## Ordered lists -/

theorem ordered_nil : b.Ordered [] := Registry.PutsFirst.nil

theorem Ordered.concat {is : List r.Id} (h : b.Ordered is) (hi : ∀ k, b.Needs i k → k ∈ is) :
    b.Ordered (is ++ [i]) := Registry.PutsFirst.concat h hi

/-- In an ordered list what a service needs stands before it. -/
theorem Ordered.idxOf_lt {is : List r.Id} (h : b.Ordered is) (hj : j ∈ is) (hk : b.Needs j k) :
    is.idxOf k < is.idxOf j := Registry.PutsFirst.idxOf_lt h hj hk

/-- What a service of an ordered list needs is in the list. -/
theorem Ordered.mem {is : List r.Id} (h : b.Ordered is) (hj : j ∈ is) (hk : b.Needs j k) : k ∈ is :=
  Registry.PutsFirst.mem h hj hk

/-- So is what it needs through others, and it comes before. -/
theorem Ordered.idxOf_lt_of_transGen {is : List r.Id} (h : b.Ordered is) (hj : j ∈ is)
    (hk : TransGen b.Needs j k) : k ∈ is ∧ is.idxOf k < is.idxOf j := by
  induction hk with
  | single hk => exact ⟨h.mem hj hk, h.idxOf_lt hj hk⟩
  | tail _ hk ih => exact ⟨h.mem ih.1 hk, Nat.lt_trans (h.idxOf_lt ih.1 hk) ih.2⟩

/-- A service whose needs are all met by an ordered list is not part of a circle. -/
theorem Ordered.not_transGen {is : List r.Id} (h : b.Ordered is) (hj : j ∈ is) :
    ¬ TransGen b.Needs j j := fun hc => Nat.lt_irrefl _ (h.idxOf_lt_of_transGen hj hc).2

/-! ## Extending a plan -/

/-- A plan has grown by the services that satisfy `new`, each in its place, and none of them has met an
obstacle. -/
structure Extended (b : Board r) (plan plan' : List r.Id) (new : r.Id → Prop) : Prop where
  mem : ∀ j, j ∈ plan' ↔ j ∈ plan ∨ new j
  nodup : plan.Nodup → plan'.Nodup
  ordered : b.Ordered plan → b.Ordered plan'
  clear : ∀ j, new j → b.Clear (r.service j).dependsOn

/-- The services required by those of the given names that are not running. -/
def RequiredBy (b : Board r) (names : List String) (j : r.Id) : Prop :=
  ∃ k, (r.service k).name ∈ names ∧ b.isRunning k = false ∧ b.Requires k j

/-- A service requires itself and what its dependencies require. -/
theorem requires_iff : b.Requires i j ↔ j = i ∨ b.RequiredBy (r.service i).dependsOn j := by
  rw [Requires, ReflTransGen.cases_head_iff, eq_comm]
  exact or_congr_right (exists_congr fun k => and_assoc)

/-- A dependency that is not running has all its requirements taken in. -/
theorem requiredBy_cons_iff (hk : b.isRunning k = false) {names : List String} :
    b.RequiredBy ((r.service k).name :: names) j ↔ b.Requires k j ∨ b.RequiredBy names j := by
  simp only [RequiredBy, List.mem_cons, or_and_right, exists_or]
  refine or_congr_left ⟨?_, fun h => ⟨k, rfl, hk, h⟩⟩
  rintro ⟨l, hl, -, h⟩
  exact Registry.name_injective hl ▸ h

/-- A dependency that is running has nothing taken in. -/
theorem requiredBy_cons_of_running (hk : b.isRunning k = true) {names : List String} :
    b.RequiredBy ((r.service k).name :: names) j ↔ b.RequiredBy names j := by
  simp only [RequiredBy, List.mem_cons, or_and_right, exists_or]
  refine or_iff_right ?_
  rintro ⟨l, hl, h, -⟩
  rw [Registry.name_injective hl, hk] at h
  cases h

theorem Extended.refl (plan : List r.Id) {new : r.Id → Prop} (h : ∀ j, ¬ new j) :
    b.Extended plan plan new :=
  ⟨fun j => by simp [h j], id, id, fun j hj => absurd hj (h j)⟩

/-- A plan that has grown may go on to grow. -/
theorem Extended.trans {plan plan₁ plan₂ : List r.Id} {new₁ new₂ new : r.Id → Prop}
    (h₁ : b.Extended plan plan₁ new₁) (h₂ : b.Extended plan₁ plan₂ new₂)
    (h : ∀ j, new j ↔ new₁ j ∨ new₂ j) : b.Extended plan plan₂ new where
  mem j := by rw [h₂.mem, h₁.mem, h, or_assoc]
  nodup := h₂.nodup ∘ h₁.nodup
  ordered := h₂.ordered ∘ h₁.ordered
  clear j hj := ((h j).mp hj).elim (h₁.clear j) (h₂.clear j)

theorem Extended.congr {plan plan' : List r.Id} {new new' : r.Id → Prop} (h : b.Extended plan plan' new)
    (hn : ∀ j, new' j ↔ new j) : b.Extended plan plan' new' :=
  funext (fun j => propext (hn j)) ▸ h

/-- Where the dependencies of a service are clear, and those of all they require, so are those of all it requires.
-/
theorem Extended.clear_requires {plan plan' : List r.Id} (hc : b.Clear (r.service i).dependsOn)
    (h : b.Extended plan plan' (b.RequiredBy (r.service i).dependsOn)) (j : r.Id) (hj : b.Requires i j) :
    b.Clear (r.service j).dependsOn :=
  (requires_iff.mp hj).elim (fun e => e ▸ hc) (h.clear j)

/-- Once the needs of `i` are part of the plan, `i` takes its place behind them. -/
theorem Extended.concat {plan plan' : List r.Id} (hc : b.Clear (r.service i).dependsOn)
    (h : b.Extended plan plan' (b.RequiredBy (r.service i).dependsOn)) (hi : i ∉ plan') :
    b.Extended plan (plan' ++ [i]) (b.Requires i) := by
  have hneeds : ∀ k, b.Needs i k → k ∈ plan' := fun k hk =>
    (h.mem k).mpr (.inr ⟨k, hk.1, hk.2, .refl⟩)
  refine ⟨fun j => ?_, fun hp => ?_, fun hp => (h.ordered hp).concat hneeds, h.clear_requires hc⟩
  · rw [requires_iff, or_left_comm, ← h.mem, List.mem_append, List.mem_singleton, or_comm]
  · exact List.nodup_append.mpr ⟨h.nodup hp, List.nodup_singleton i, fun j hj k hk e =>
      hi (List.mem_singleton.mp hk ▸ e ▸ hj)⟩

/-- A service that has its place in the plan already keeps it. -/
theorem Extended.of_mem {plan plan' : List r.Id} (hc : b.Clear (r.service i).dependsOn)
    (h : b.Extended plan plan' (b.RequiredBy (r.service i).dependsOn)) (hi : i ∈ plan') :
    b.Extended plan plan' (b.Requires i) := by
  refine ⟨fun j => ?_, h.nodup, h.ordered, h.clear_requires hc⟩
  rw [requires_iff, or_left_comm, ← h.mem]
  exact ⟨.inr, fun hj => hj.elim (fun e => e ▸ hi) id⟩

/-- A search on behalf of `s` ends with a good plan, or it has found an obstacle. -/
def Outcome (b : Board r) (s : r.Id) (good : List r.Id → Prop) : Except Error (List r.Id) → Prop
  | .ok plan => good plan
  | .error e => b.Obstacle s e

theorem Outcome.imp {s : r.Id} {good good' : List r.Id → Prop} {x : Except Error (List r.Id)}
    (hx : b.Outcome s good x) (h : ∀ plan, good plan → good' plan) : b.Outcome s good' x := by
  cases x with
  | ok plan => exact h plan hx
  | error e => exact hx

/-- A search may go on from what another has planned. -/
theorem Outcome.bind {s : r.Id} {good good' : List r.Id → Prop} {x : Except Error (List r.Id)}
    {f : List r.Id → Except Error (List r.Id)} (hx : b.Outcome s good x)
    (hf : ∀ plan, good plan → b.Outcome s good' (f plan)) : b.Outcome s good' (x >>= f) := by
  cases x with
  | ok plan => exact hf plan hx
  | error e => exact hx

/-- The search through `i` from inside of `path`, all of which leads to `i`. -/
theorem outcome_extendPlan (s : r.Id) (path plan : List r.Id) (i : r.Id) (hs : b.Requires s i)
    (hp : ∀ p ∈ path, TransGen b.Needs p i) :
    b.Outcome s (b.Extended plan · (b.Requires i)) (Registry.extendPlan b path plan i) := by
  revert hs hp
  induction path, plan, i using Registry.extendPlan.induct b _
    (fun path plan i names => b.Requires s i → (∀ p ∈ path, b.Requires p i) →
      (∀ name ∈ names, name ∈ (r.service i).dependsOn) →
      b.Outcome s (fun plan' => b.Extended plan plan' (b.RequiredBy names) ∧ b.Clear names)
        (Registry.extendPlanAll b path plan i names)) with
  | case1 path plan i hi =>
    intro hs hp
    rw [Registry.extendPlan, dif_pos hi]
    exact .circle hs (hp i hi)
  | case2 path plan i hi ih =>
    intro hs hp
    rw [Registry.extendPlan, dif_neg hi]
    have hpath := List.forall_mem_cons.mpr ⟨.refl, fun p h => (hp p h).to_reflTransGen⟩
    refine (ih hs hpath fun _ h => h).bind fun plan' h => ?_
    split
    · exact h.1.of_mem h.2 ‹_›
    · exact h.1.concat h.2 ‹_›
  | case3 path plan i _ _ _ =>
    rw [Registry.extendPlanAll]
    refine ⟨Extended.refl plan ?_, Clear.nil⟩
    rintro j ⟨k, hk, -⟩
    cases hk
  | case4 path plan i name names hf hs _ hn =>
    rw [Registry.extendPlanAll, hf]
    exact .missing hs ⟨hn name (.head _), Registry.find?_eq_none_iff.mp hf⟩
  | case5 path plan i name names j hf hj ih hs hp hn =>
    obtain rfl := Registry.find?_eq_some_iff.mp hf
    rw [Registry.extendPlanAll, hf]
    simp only [hj, if_true]
    refine (ih hs hp fun _ h => hn _ (.tail _ h)).imp fun plan' h => ⟨?_, ?_⟩
    · exact h.1.congr fun k => requiredBy_cons_of_running hj
    · exact h.2.cons fun hr => absurd hr (by simp [hj])
  | case6 path plan i name names j hf hj hb hs _ hn =>
    obtain rfl := Registry.find?_eq_some_iff.mp hf
    rw [Registry.extendPlanAll, hf]
    simp only [hj, hb, if_true]
    exact .blocked hs ⟨hn _ (.head _), Bool.eq_false_iff.mpr hj⟩ hb
  | case7 path plan i name names j hf hj hb ih ih' hs hp hn =>
    obtain rfl := Registry.find?_eq_some_iff.mp hf
    have hneed : b.Needs i j := ⟨hn _ (.head _), Bool.eq_false_iff.mpr hj⟩
    rw [Registry.extendPlanAll, hf]
    simp only [hj, hb]
    refine (ih (hs.tail hneed) fun p h => .tail' (hp p h) hneed).bind fun plan₁ h₁ => ?_
    refine (ih' plan₁ hs hp fun _ h => hn _ (.tail _ h)).imp fun plan₂ h₂ => ⟨?_, ?_⟩
    · exact h₁.trans h₂.1 fun k => requiredBy_cons_iff hneed.2
    · exact h₂.2.cons fun _ => Bool.eq_false_iff.mpr hb

/-! ## Plans -/

/-- A list to start services by, so that `i` runs in the end. -/
structure IsPlan (b : Board r) (i : r.Id) (is : List r.Id) : Prop where
  mem_iff : ∀ j, j ∈ is ↔ b.Requires i j
  nodup : is.Nodup
  ordered : b.Ordered is
  last : is.getLast? = some i

/-- In a plan the service itself comes last: all others are needed by it, at once or through others. -/
theorem getLast?_of_ordered {is : List r.Id} (hm : ∀ j, j ∈ is ↔ b.Requires i j) (hn : is.Nodup)
    (ho : b.Ordered is) : is.getLast? = some i := by
  have hi : i ∈ is := (hm i).mpr .refl
  obtain ⟨front, l, rfl⟩ := List.eq_nil_or_concat' is |>.resolve_left (List.ne_nil_of_mem hi)
  have hl : l ∉ front := List.disjoint_singleton.mp (List.nodup_append'.mp hn).2.2
  rcases reflTransGen_iff_eq_or_transGen.mp ((hm l).mp (by simp)) with rfl | hil
  · simp
  · have hlt := (ho.idxOf_lt_of_transGen hi hil).2
    have hle := List.idxOf_lt_length_of_mem hi
    rw [List.idxOf_append_of_notMem hl, List.idxOf_cons_self] at hlt
    simp only [List.length_append, List.length_singleton] at hle
    omega

/-- The search from the service itself, with an empty plan. -/
theorem outcome_plan (b : Board r) (i : r.Id) : b.Outcome i (b.Extended [] · (b.Requires i)) (r.plan b i) :=
  outcome_extendPlan i [] [] i .refl (by simp)

/-- What is planned is a plan. -/
theorem isPlan_of_plan_eq_ok {is : List r.Id} (h : r.plan b i = .ok is) : b.IsPlan i is := by
  have hx : b.Extended [] is (b.Requires i) := by simpa [Outcome, h] using outcome_plan b i
  have hm : ∀ j, j ∈ is ↔ b.Requires i j := by simpa using hx.mem
  have hn := hx.nodup .nil
  have ho := hx.ordered ordered_nil
  exact ⟨hm, hn, ho, getLast?_of_ordered hm hn ho⟩

theorem obstacle_of_plan_eq_error {e : Error} (h : r.plan b i = .error e) : b.Obstacle i e := by
  simpa [Outcome, h] using outcome_plan b i

/-- Each obstacle is a fault of the configuration. -/
theorem isConfig_of_plan_eq_error {e : Error} (h : r.plan b i = .error e) : e.isConfig = true := by
  cases obstacle_of_plan_eq_error h <;> rfl

/-- Where there is a plan, there is no obstacle. -/
theorem not_obstacle_of_plan_eq_ok {is : List r.Id} (h : r.plan b i = .ok is) (e : Error) :
    ¬ b.Obstacle i e := by
  have hx : b.Extended [] is (b.Requires i) := by simpa [Outcome, h] using outcome_plan b i
  intro ho
  cases ho with
  | missing hj h =>
    obtain ⟨k, hk⟩ := (hx.clear _ hj).exist _ h.1
    exact h.2 k hk
  | circle hj h => exact (hx.ordered ordered_nil).not_transGen ((hx.mem _).mpr (.inr hj)) h
  | blocked hj hk h =>
    rw [(hx.clear _ hj).unblocked _ hk.1 hk.2] at h
    cases h

/-- There is no plan exactly if there is an obstacle. -/
theorem plan_eq_error_iff : (∃ e, r.plan b i = .error e) ↔ ∃ e, b.Obstacle i e := by
  constructor
  · exact fun ⟨e, h⟩ => ⟨e, obstacle_of_plan_eq_error h⟩
  · rintro ⟨e, ho⟩
    cases h : r.plan b i with
    | ok is => exact absurd ho (not_obstacle_of_plan_eq_ok h e)
    | error e => exact ⟨e, rfl⟩

end ContainerInit.Board
