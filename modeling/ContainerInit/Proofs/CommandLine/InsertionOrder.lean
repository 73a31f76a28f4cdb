import ContainerInit.Proofs.CommandLine.Register
import ContainerInit.Proofs.Registry.Insertion

/-! # Services in any order

The order in which services are registered shows in the announcements of them, and in nothing that is done with the
registry thereafter.

A registry has its services in the order of their names.  Whatever order the definitions come in, each service is put
in its place, so that the registry is the same in the end.  What is left of the order are the records that announce
each service when it is added (`announcing`).  They come first in the dialogue of the program, and what comes after
them is the dialogue over the registry (`dialogue_register_bind`).

`Errand` is what can be done with all services at once.  That two orders of registration make no difference is said
about any list of errands, of which each is carried out where the one before it has left the services
(`MadeInAnyOrder`).  A definition that cannot be added leaves the registry as it is. -/

namespace ContainerInit.CommandLine

open ContainerInit.Action

open Service (Definition)

variable {σ α β : Type} {n : Nat} {s : σ} {r r' : Registry} {d : Definition} {ds ds' : List Definition}

/-! ## Registration as a dialogue -/

/-- Announces the services to the log one after the other, and goes on with `p`. -/
def announcing (ds : List Definition) (s : σ) (p : Dialogue (Kernel.signature.inState σ) α) :
    Dialogue (Kernel.signature.inState σ) α :=
  ds.foldr (fun d p => .ask (.log ⟨.debug, "cronit::registry", "Added service '" ++ d.name ++ "'."⟩, s) fun _ => p) p

/-- The announcements come before whatever follows. -/
theorem announcing_bind (ds : List Definition) (p : Dialogue (Kernel.signature.inState σ) α)
    (f : α → Dialogue (Kernel.signature.inState σ) β) : (announcing ds s p >>= f) = announcing ds s (p >>= f) := by
  induction ds with
  | nil => rfl
  | cons d ds ih =>
    change Dialogue.ask _ _ = Dialogue.ask _ _
    congr 1
    funext _
    exact ih

/-- A service that cannot be added is not announced, and leaves the registry as it is. -/
theorem dialogue_addService : (Supervision.addService d).dialogue n r = match r.add d with
    | .error e => .done (.error e, r)
    | .ok r' => announcing [d] r (.done (.ok ⟨⟩, r')) := by
  unfold Supervision.addService
  rw [dialogue_bind]
  change Action.dialogue (match r.add d with | .error e => _ | .ok r => _) n r = _
  cases r.add d <;> rfl

/-- A definition that cannot be added changes nothing, and nothing is said about it. -/
theorem unchanged_of_runs_error {h : History Registry} {e : Error}
    (hr : Runs (Supervision.addService d) n r h (.error e) r') : h = [] ∧ r' = r := by
  unfold Runs at hr
  rw [dialogue_addService] at hr
  cases hadd : r.add d with
  | error e' =>
    rw [hadd] at hr
    cases hr
    exact ⟨rfl, rfl⟩
  | ok r₁ =>
    rw [hadd] at hr
    cases hr with
    | ask rest => cases rest

/-- Definitions that can be added one after the other are all added, and make the registry that adding them makes.
-/
theorem eq_of_runs_addServices {r₁ : Registry} {h : History Registry} {res : Except Error Unit}
    (hadd : ds.foldlM Registry.add r = .ok r₁) (hr : Runs (ds.forM Supervision.addService) n r h res r') :
    res = .ok ⟨⟩ ∧ r' = r₁ := by
  have hres := Supervision.foldlM_add_eq_of_runs hr
  rw [hadd] at hres
  cases res with
  | error e => cases hres
  | ok _ => exact ⟨rfl, (Except.ok.inj hres).symm⟩

/-- The induction is over the services, from the registry that those before have come to. -/
theorem askedFrom_addServices (hadd : ds.foldlM Registry.add r = .ok r') :
    ((ds.forM Supervision.addService).dialogue n r).askedFrom s = announcing ds s (.done (.ok ⟨⟩, r')) := by
  induction ds generalizing r with
  | nil =>
    cases hadd
    rfl
  | cons d ds ih =>
    rw [List.foldlM_cons] at hadd
    obtain ⟨r₁, hd, hds⟩ := bind_eq_ok_iff.mp hadd
    change ((Supervision.addService d >>= fun _ => ds.forM Supervision.addService).dialogue n r).askedFrom s = _
    rw [dialogue_bind, dialogue_addService, hd]
    change Dialogue.ask _ _ = Dialogue.ask _ _
    congr 1
    funext _
    exact ih hds

/-- What is done with the registry comes after the announcements. -/
theorem dialogue_register_bind (hadd : ds.foldlM Registry.add Registry.empty = .ok r) (f : Registry → Action σ α) :
    (register ds >>= f).dialogue n s = announcing ds s ((f r).dialogue n s) := by
  unfold register
  rw [bind_assoc, dialogue_bind, isolated_dialogue, askedFrom_addServices hadd, announcing_bind, announcing_bind]
  rfl

/-! ## What is done with a registry -/

/-- What is done with all services at once. -/
inductive Errand where
  | validate
  | boot
  /-- Starts what is due from the first minute to the last. -/
  | checkSchedule (first last : Calendar.Instant)
  /-- Starts again what has ended and may be started again. -/
  | sweep
  | reap (restart : Bool)
  | stop (deadline : Nat)

namespace Errand

/-- What comes of an errand unless it fails. -/
def Answer : Errand → Type
  | validate | boot => Unit
  | checkSchedule .. => List String
  | sweep | reap _ | stop _ => Bool

def carryOut (sup : Supervisor) : (e : Errand) → Supervision.Operation r e.Answer
  | validate => Action.ofExcept r.validate
  | boot => Supervision.bootServices sup
  | checkSchedule first last => Supervision.checkSchedule sup first last
  | sweep => Supervision.checkAll sup
  | reap restart => Supervision.reap sup restart
  | stop deadline => Supervision.stopAll deadline

end Errand

/-- Carries out errands one after the other, where no service has been started yet; answers what comes of each, be it
an error. -/
def runErrands (sup : Supervisor) (errands : List Errand) (r : Registry) :
    Action σ (List ((e : Errand) × Except Error e.Answer)) := do
  let each := errands.mapM fun e => do return ⟨e, ← Action.attempt (e.carryOut sup)⟩
  let (outcomes, _) ← Action.isolated each (Board.initial : Board r)
  Action.ofExcept outcomes

/-- The definitions make the registry in whatever order they are added, and once they have been announced, the
errands that are carried out talk with the kernel as they do over that registry. -/
structure MadeInAnyOrder (r : Registry) (ds : List Definition) : Prop where
  mem_iff : ∀ s, s ∈ r.services ↔ ∃ d ∈ ds, Service.ofDefinition d = .ok s
  added : ∀ ds', ds.Perm ds' → Halts (ds'.forM Supervision.addService) ∧ ∀ ⦃n h res r'⦄,
    Runs (ds'.forM Supervision.addService) n Registry.empty h res r' → res = .ok ⟨⟩ ∧ r' = r
  errands : ∀ ds', ds.Perm ds' → ∀ ⦃σ : Type⦄ (sup : Supervisor) (errands : List Errand) (n : Nat) (s : σ),
    (register ds' >>= runErrands sup errands).dialogue n s =
      announcing ds' s ((runErrands sup errands r).dialogue n s)

/-- A service that cannot be added leaves the registry as it is, and those that can be added may come in any order. -/
theorem register_in_any_order :
    (∀ ⦃d n r h e r'⦄, Runs (Supervision.addService d) n r h (.error e) r' → h = [] ∧ r' = r) ∧
    ∀ ds : List Definition, (ds.map (·.name)).Nodup → (∀ d ∈ ds, ∃ s, Service.ofDefinition d = .ok s) →
      ∃ r, MadeInAnyOrder r ds := by
  refine ⟨fun d n r h e r' hr => unchanged_of_runs_error hr, fun ds hnames hsound => ?_⟩
  obtain ⟨r, hmem, hadd⟩ := Registry.exists_foldlM_add_eq hnames hsound
  refine ⟨r, hmem, fun ds' hperm => ⟨halts_forM ds' Supervision.halts_addService, ?_⟩, fun ds' hperm => ?_⟩
  · intro n h res r' hr
    exact eq_of_runs_addServices (hadd ds' hperm) hr
  · intro σ sup errands n s
    exact dialogue_register_bind (hadd ds' hperm) _

/-- A server, and after it what it depends on. -/
def serverAndDatabase : List Definition :=
  [{ name := "web", argv := ["httpd"], dependsOn := ["db"] },
    { name := "db", argv := ["postgres"], restart := .always }]

/-- A server may be registered before the database on which it depends. -/
theorem register_in_any_order_serverAndDatabase :
    (serverAndDatabase.map (·.name)).Nodup ∧ (∀ d ∈ serverAndDatabase, ∃ s, Service.ofDefinition d = .ok s) ∧
      ∃ r, MadeInAnyOrder r serverAndDatabase := by
  have hnames : (serverAndDatabase.map (·.name)).Nodup := by decide
  have hsound : ∀ d ∈ serverAndDatabase, ∃ s, Service.ofDefinition d = .ok s :=
    List.forall_mem_cons.mpr ⟨⟨_, rfl⟩, List.forall_mem_singleton.mpr ⟨_, rfl⟩⟩
  exact ⟨hnames, hsound, register_in_any_order.2 _ hnames hsound⟩

end ContainerInit.CommandLine
