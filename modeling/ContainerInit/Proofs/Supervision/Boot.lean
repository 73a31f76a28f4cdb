import ContainerInit.Proofs.Supervision.Attempt
import ContainerInit.Proofs.Supervision.ValidRegistry
import Mathlib.Data.List.Infix

/-! # The start of the system

The services that start with the system are started one by one, each with what it needs and does not run yet.  As long
as no fork fails, the services that run are at each moment those done with and all that they depend on, so that the
next start finds nothing in its way.  Each of them is forked once.

## The invariant

`Booted` says of the attempts so far that they have all succeeded, and that they were for the services done with and
all that these depend on.  From the attempts the board can be told (`Board.notingAll`), and so whatever a plan for the
next service depends on (`Booted.exists_plan`).  A valid registry has no circles and lacks nothing, and nobody ends
while services are being started, which leaves no obstacle.

The first fork that fails is the end of it (`BootFailed`).  An argument with a nul byte would be another, and the
registry is assumed to have none here. -/

namespace ContainerInit

open Relation

/-- The service starts with the system, or another one that does depends on it, through others or at once. -/
def Registry.BootClosure (r : Registry) (i : r.Id) : Prop :=
  ∃ j : r.Id, (r.service j).schedule.onBoot = true ∧ ReflTransGen r.DependsOn j i

namespace Board

variable {r : Registry} {b : Board r} {i j : r.Id}

/-- Where no service has been started, the board is that of the beginning. -/
theorem eq_initial (hs : b.Sound) (hb : ∀ i : r.Id, b[i].status = .notStarted) : b = initial := by
  refine ext fun i => ?_
  rw [getElem_initial]
  have hi := hb i
  obtain ⟨hcode, hpid⟩ := (hs i).notStarted hi
  have hstop := mt (hs i).stopRequested (by rw [hpid]; nofun)
  generalize b[i] = s at hi hcode hpid hstop
  obtain ⟨status, pid, code, stopRequested⟩ := s
  cases hi
  cases hcode
  cases hpid
  cases stopRequested with
  | false => rfl
  | true => exact absurd rfl hstop

/-- The states of services that have not been started are sound. -/
theorem sound_initial : (initial : Board r).Sound := fun i => by
  rw [getElem_initial]
  exact Service.State.sound_default

/-- A service that has not been attempted is as it was in the beginning. -/
theorem getElem_initial_notingAll {as : List (Attempt r)} (hi : i ∉ as.map Attempt.service) :
    ((initial : Board r).notingAll as)[i] = {} := by
  rw [getElem_notingAll_of_notMem hi, getElem_initial]

end Board

namespace Supervision

open ContainerInit.Action Board

variable {r : Registry} {sup : Supervisor} {b b' : Board r} {i j : r.Id} {done : List r.Id}
  {as as' : List (Attempt r)} {res : Except Error Unit}

/-- The services in `done` and all that they depend on have been started from the beginning on, each by one
attempt, and no others. -/
structure Booted (done : List r.Id) (as : List (Attempt r)) : Prop where
  succeeded : ∀ a ∈ as, a.Succeeded
  idle : (initial : Board r).EachTime Idle as
  mem_iff : ∀ i, i ∈ as.map Attempt.service ↔ ∃ j ∈ done, ReflTransGen r.DependsOn j i

/-- All attempts but the last have succeeded, and that one with the given error. -/
structure BootFailed (as : List (Attempt r)) (e : Error) : Prop where
  idle : (initial : Board r).EachTime Idle as
  last : ∃ done j errno, as = done ++ [⟨j, .error errno⟩] ∧
    e = .spawnFailed ((r.service j).argv.headD "") errno ∧ ∀ a ∈ done, a.Succeeded

namespace Booted

theorem nil : Booted ([] : List r.Id) [] := ⟨nofun, trivial, fun _ => ⟨nofun, nofun⟩⟩

variable (hd : Booted done as)

include hd

/-- The services that run are those that have been attempted. -/
theorem idle_iff : ((initial : Board r).notingAll as).Idle i ↔ i ∉ as.map Attempt.service := by
  constructor
  · intro hi hm
    obtain ⟨a, ha, rfl⟩ := List.mem_map.mp hm
    exact hi.not_isRunning (isRunning_notingAll_of_mem ha (hd.succeeded a ha))
  · intro hm
    rw [Idle, getElem_initial_notingAll hm]

/-- What a service that runs depends on runs as well. -/
theorem idle_of_dependsOn (hij : r.DependsOn i j) (hj : ((initial : Board r).notingAll as).Idle j) :
    ((initial : Board r).notingAll as).Idle i := by
  rw [hd.idle_iff, hd.mem_iff] at hj ⊢
  rintro ⟨k, hk, hki⟩
  exact hj ⟨k, hk, hki.tail hij⟩

/-- Nothing that a service depends on is in the way of its start. -/
theorem exists_plan (hv : r.validate = .ok ()) (i : r.Id) :
    ∃ is, r.plan ((initial : Board r).notingAll as) i = .ok is := by
  rcases Board.plan_cases hv ((initial : Board r).notingAll as) i with hp | ⟨_, _, _, hp⟩
  · exact hp
  · cases Board.obstacle_of_plan_eq_error hp with
    | blocked hj hk hb =>
      have hidle := hd.idle_iff.mp (isRunning_eq_false_iff.mp hk.2)
      rw [Board.isBlocked, getElem_initial_notingAll hidle] at hb
      cases hb

/-- What a service depends on runs already, or takes part in its start. -/
theorem requires_of_idle (hij : ReflTransGen r.DependsOn i j)
    (hj : ((initial : Board r).notingAll as).Idle j) : ((initial : Board r).notingAll as).Requires i j := by
  induction hij with
  | refl => exact .refl
  | tail _ hkj ih => exact (ih (hd.idle_of_dependsOn hkj hj)).tail ⟨hkj, isRunning_eq_false_iff.mpr hj⟩

/-- The start of one service more. -/
theorem launched (hv : r.validate = .ok ()) (hl : Launched ((initial : Board r).notingAll as) i as' res) :
    match res with
    | .ok _ => Booted (done ++ [i]) (as ++ as')
    | .error e => BootFailed (as ++ as') e := by
  have hidle := eachTime_append.mpr ⟨hd.idle, hl.eachTime_idle⟩
  cases hl with
  | refused hp =>
    obtain ⟨is, hp'⟩ := hd.exists_plan hv i
    cases hp.symm.trans hp'
  | @planned is _ _ hp hu =>
    have hplan := Board.isPlan_of_plan_eq_ok hp
    cases res with
    | error e =>
      obtain ⟨before, j, errno, -, rfl, he, hs⟩ := hu.of_error
      refine ⟨hidle, as ++ before, j, errno, (List.append_assoc ..).symm, he, fun a ha => ?_⟩
      exact (List.mem_append.mp ha).elim (hd.succeeded a) (hs a)
    | ok _ =>
      obtain ⟨hs, hmem, -⟩ := hu.of_ok
      refine ⟨fun a ha => (List.mem_append.mp ha).elim (hd.succeeded a) (hs a), hidle, fun j => ?_⟩
      rw [List.map_append, List.mem_append, hmem, hplan.mem_iff]
      constructor
      · rintro (hj | ⟨hj, -⟩)
        · obtain ⟨k, hk, hkj⟩ := (hd.mem_iff j).mp hj
          exact ⟨k, List.mem_append_left _ hk, hkj⟩
        · exact ⟨i, List.mem_append_right _ (.head _), hj.dependsOn⟩
      · rintro ⟨k, hk, hkj⟩
        by_cases hj : j ∈ as.map Attempt.service
        · exact .inl hj
        have hidle := hd.idle_iff.mpr hj
        rcases List.mem_append.mp hk with hk | hk
        · exact absurd ((hd.mem_iff j).mpr ⟨k, hk, hkj⟩) hj
        · obtain rfl := List.mem_singleton.mp hk
          exact .inr ⟨hd.requires_of_idle hkj hidle, hidle⟩

end Booted

/-- When all are done with, the services attempted are those of the closure. -/
theorem Booted.mem_iff_bootClosure (hd : Booted (r.ids.filter fun i => (r.service i).schedule.onBoot) as) :
    i ∈ as.map Attempt.service ↔ r.BootClosure i := by
  rw [hd.mem_iff]
  simp [Registry.BootClosure, Registry.ids]

/-- The run over all services that start with the system, by the invariant of those that are done with. -/
theorem assures_bootServices (hv : r.validate = .ok ()) (hf : r.NulFree) (sup : Supervisor) {n : Nat} :
    Assures (.anything _) (fun _ _ _ _ => True) (bootServices sup) (fun h _ res b' => ∃ as,
      Made sup [] initial as h b' ∧ (∀ a ∈ as, r.BootClosure a.service) ∧ match res with
        | .ok _ => Booted (r.ids.filter fun i => (r.service i).schedule.onBoot) as
        | .error e => BootFailed as e) n [] () initial := by
  refine assures_forM (W := .anything _) (fun done h _ b' => ∃ as, Made sup [] initial as h b' ∧
    (∀ a ∈ as, r.BootClosure a.service) ∧ Booted done as) _ ⟨[], .refl, nofun, .nil⟩ ?_ ?_
  · rintro h _ _ done i hi ⟨as, hm, hc, hd⟩
    refine assures_bind.mpr (assures_ask.mpr fun _ _ => ⟨trivial, fun _ _ _ => ?_⟩)
    refine (assures_start_launched hf sup i).imp ?_
    rintro h₁ _ res b₁ ⟨as', hm', hl⟩
    have hboot : (r.service i).schedule.onBoot = true := (List.mem_filter.mp hi).2
    have hc' : ∀ a ∈ as ++ as', r.BootClosure a.service := fun a ha =>
      (List.mem_append.mp ha).elim (hc a) fun ha => ⟨i, hboot, (hl.requires ha).dependsOn⟩
    have hm' := (hm.call rfl).trans hm'
    rw [hm.board_eq] at hl
    have hd' := hd.launched hv hl
    cases res with
    | ok _ => exact ⟨as ++ as', hm', hc', hd'⟩
    | error e => exact ⟨as ++ as', hm', hc', hd'⟩
  · exact fun h _ b' hi => hi

theorem halts_bootServices (sup : Supervisor) : Halts (bootServices sup : Operation r Unit) :=
  halts_forM _ fun i => (halts_ask _).bind fun _ => halts_start sup i

/-- If every fork succeeds, so does the start of the system. -/
theorem exists_runs_bootServices (hv : r.validate = .ok ()) (hf : r.NulFree) (sup : Supervisor) (n : Nat) :
    ∃ h b', Runs (bootServices sup : Operation r Unit) n initial h (.ok ()) b' := by
  obtain ⟨h, ⟨res, b'⟩, hr, hans⟩ := (halts_bootServices sup n initial).exists_runs forksOnly
  obtain ⟨as, hm, -, hres⟩ := (assures_bootServices hv hf sup).runs hr
  cases res with
  | ok _ => exact ⟨h, b', hr⟩
  | error e =>
    obtain ⟨-, done, j, errno, rfl, -⟩ := hres
    exact absurd (List.mem_append_right _ (.head _)) (hm.notMem_of_forksOnly hans j errno)

/-- In a valid registry whose arguments can all be given to a process, where no service has been started, the
start of the system ends, whatever the kernel answers.  It forks services of the boot closure only, none of
them twice.  If it succeeds, it has forked each of them, and those are the services that run, while all others
are not started.  If it fails, that is over the last fork, whose service is broken then; the services forked
before it run, and all others are not started. -/
theorem bootServices_starts_closure (sup : Supervisor) (hv : r.validate = .ok ()) (hf : r.NulFree)
    (hs : b.Sound) (hb : ∀ i : r.Id, b[i].status = .notStarted) :
    Halts (bootServices sup : Operation r Unit) ∧ ∀ n h res b', Runs (bootServices sup) n b h res b' →
      ∃ as, forkCalls h = calls sup b as ∧ b' = b.notingAll as ∧ b'.Sound ∧
        (∀ a ∈ as, r.BootClosure a.service) ∧ (as.map Attempt.service).Nodup ∧
        match res with
        | .ok _ => (∀ a ∈ as, a.Succeeded) ∧ ∀ i : r.Id,
            (r.BootClosure i → i ∈ as.map Attempt.service ∧ b'[i].status = .running) ∧
            (¬ r.BootClosure i → b'[i].status = .notStarted)
        | .error e => ∃ done j errno, as = done ++ [⟨j, .error errno⟩] ∧
            e = .spawnFailed ((r.service j).argv.headD "") errno ∧ b'[j].status = .broken ∧
            (∀ a ∈ done, a.Succeeded ∧ b'[a.service].status = .running) ∧
            ∀ i : r.Id, i ∉ as.map Attempt.service → b'[i].status = .notStarted := by
  obtain rfl := eq_initial hs hb
  refine ⟨halts_bootServices sup, fun n h res b' hr => ?_⟩
  obtain ⟨as, ⟨hcalls, rfl⟩, hc, hres⟩ := (assures_bootServices hv hf sup).runs hr
  have hothers : ∀ i, i ∉ as.map Attempt.service → (initial.notingAll as)[i].status = .notStarted := by
    intro i hi
    rw [getElem_initial_notingAll hi]
  refine ⟨as, hcalls, rfl, ?_, hc, ?_⟩
  · cases res with
    | ok _ => exact sound_initial.notingAll hres.idle
    | error e => exact sound_initial.notingAll hres.idle
  cases res with
  | ok _ =>
    have hd : Booted _ as := hres
    refine ⟨Attempt.nodup_map_service hd.idle fun a ha => hd.succeeded a (List.mem_of_mem_dropLast ha),
      hd.succeeded, fun i => ?_⟩
    refine ⟨fun hi => ⟨hd.mem_iff_bootClosure.mpr hi, ?_⟩, fun hi => hothers i (mt hd.mem_iff_bootClosure.mp hi)⟩
    obtain ⟨a, ha, rfl⟩ := List.mem_map.mp (hd.mem_iff_bootClosure.mpr hi)
    exact sound_initial.status_of_mem hd.idle ha (hd.succeeded a ha)
  | error e =>
    obtain ⟨hidle, done, j, errno, rfl, he, hdone⟩ := hres
    refine ⟨Attempt.nodup_map_service hidle ?_, done, j, errno, rfl, he, ?_, fun a ha => ?_, hothers⟩
    · rwa [List.dropLast_concat]
    · rw [notingAll_append, notingAll_cons, notingAll_nil, getElem_noting_self]
      rfl
    · exact ⟨hdone a ha, sound_initial.status_of_mem hidle (List.mem_append_left _ ha) (hdone a ha)⟩

def midnight : Cron.Expression where
  source := "0 0 * * *"
  minutes := [0]
  hours := [0]
  days := Cron.Field.day.values
  months := Cron.Field.month.values
  weekdays := Cron.Field.weekday.values
  stars := [.day, .weekday]

/-- A service `b` that starts with the system and depends on `a`, which waits for its time as `c` does. -/
def bootTrio : Registry where
  services := [⟨"a", ["a"], List.cons_ne_nil _ _, [], .never, ⟨[midnight]⟩⟩,
    ⟨"b", ["b"], List.cons_ne_nil _ _, ["a"], .never, ⟨[]⟩⟩,
    ⟨"c", ["c"], List.cons_ne_nil _ _, [], .never, ⟨[midnight]⟩⟩]
  ordered := .cons (List.forall_mem_cons.mpr ⟨show "a" < "b" by decide,
    List.forall_mem_singleton.mpr (show "a" < "c" by decide)⟩) (List.pairwise_pair.mpr (show "b" < "c" by decide))

/-- The service `a`. -/
def timedDependency : bootTrio.Id := (0 : Fin 3)

/-- The service `b`. -/
def bootService : bootTrio.Id := (1 : Fin 3)

/-- The service `c`. -/
def timedService : bootTrio.Id := (2 : Fin 3)

theorem validate_bootTrio : bootTrio.validate = .ok () := by cbv

theorem nulFree_bootTrio : bootTrio.NulFree := by
  intro i a ha
  match i with
  | ⟨0, _⟩ =>
    obtain rfl := List.mem_singleton.mp ha
    cbv
  | ⟨1, _⟩ =>
    obtain rfl := List.mem_singleton.mp ha
    cbv
  | ⟨2, _⟩ =>
    obtain rfl := List.mem_singleton.mp ha
    cbv

/-- The dependency of a service that starts with the system is started, too, although it waits for its time. -/
theorem bootServices_starts_closure_bootTrio :
    ∃ h b', Runs (bootServices ⟨[]⟩ : Operation bootTrio Unit) 0 initial h (.ok ()) b' ∧
      b'[timedDependency].status = .running ∧ b'[bootService].status = .running ∧
      b'[timedService].status = .notStarted := by
  have hv := validate_bootTrio
  have hf := nulFree_bootTrio
  have hb : ∀ i : bootTrio.Id, (initial : Board bootTrio)[i].status = .notStarted := fun i => by
    rw [getElem_initial]
  obtain ⟨h, b', hr⟩ := exists_runs_bootServices hv hf ⟨[]⟩ 0
  obtain ⟨as, -, -, -, -, -, -, hi⟩ := (bootServices_starts_closure ⟨[]⟩ hv hf sound_initial hb).2 _ _ _ _ hr
  have hdepends : bootTrio.DependsOn bootService timedDependency := .head _
  refine ⟨h, b', hr, ?_, ?_, ?_⟩
  · exact ((hi timedDependency).1 ⟨bootService, rfl, .single hdepends⟩).2
  · exact ((hi bootService).1 ⟨bootService, rfl, .refl⟩).2
  · refine (hi timedService).2 ?_
    rintro ⟨j, hj, hjc⟩
    rcases ReflTransGen.cases_tail hjc with e | ⟨k, -, hk⟩
    · subst e
      cases hj
    · match k with
      | ⟨0, _⟩ => cases hk
      | ⟨1, _⟩ =>
        have e := List.mem_singleton.mp hk
        revert e
        decide
      | ⟨2, _⟩ => cases hk

end Supervision

end ContainerInit
