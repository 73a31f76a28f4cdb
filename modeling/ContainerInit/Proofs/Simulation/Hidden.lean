import ContainerInit.Proofs.Simulation.Drift

/-! # What a simulated machine does unseen

Much of what a simulated machine does is of no concern to the kernel that it shows: it counts the calls that it is
asked, writes down what an observer gets to see, keeps the log and the mask of the process, and runs a child up to
the start of its program.  Two machines that differ in such things only are `Alike`, and a computation is `Hidden`
if it leaves the machine like it was, whichever that is.

Hidden computations are closed under sequence (`Hidden.bind`) and so under the interpretation of a dialogue all
answers of which are hidden (`hidden_interpret`).  With these the answers to the log and to a child are hidden,
since each of their steps is. -/

namespace ContainerInit.Simulation

open Kernel

namespace Machine

variable {m m' m'' : Machine}

/-- The kernel that the machines show is the same, and so is what will become of it as time passes. -/
structure Alike (m m' : Machine) : Prop where
  scenario_eq : m'.scenario = m.scenario
  clock_eq : m'.clock = m.clock
  children_eq : m'.children = m.children
  nextPid_eq : m'.nextPid = m.nextPid
  pending_eq : m'.pending = m.pending

theorem Alike.refl (m : Machine) : m.Alike m := ⟨rfl, rfl, rfl, rfl, rfl⟩

theorem Alike.trans (h : m.Alike m') (h' : m'.Alike m'') : m.Alike m'' where
  scenario_eq := h'.scenario_eq.trans h.scenario_eq
  clock_eq := h'.clock_eq.trans h.clock_eq
  children_eq := h'.children_eq.trans h.children_eq
  nextPid_eq := h'.nextPid_eq.trans h.nextPid_eq
  pending_eq := h'.pending_eq.trans h.pending_eq

/-- Nothing has happened in the kernel if the machines are alike. -/
theorem Alike.drifts (h : m.Alike m') (hm : m.Sound) : m.Drifts m' :=
  hm.drifts_of_eq h.scenario_eq h.clock_eq.ge h.children_eq h.nextPid_eq h.pending_eq

theorem alike_observe (m : Machine) (e : Event) : m.Alike (m.observe e) := ⟨rfl, rfl, rfl, rfl, rfl⟩

theorem alike_writeError (m : Machine) (line : String) : m.Alike (m.writeError line) := by
  unfold writeError
  generalize line.splitOn "\n" = ls
  induction ls generalizing m with
  | nil => exact .refl m
  | cons l ls ih => exact (m.alike_observe _).trans (ih _)

end Machine

open Machine

variable {α β : Type}

/-- The computation changes nothing that a kernel shows. -/
def Hidden (x : Sim α) : Prop := ∀ m : Machine, m.Alike (x.run m).2

namespace Hidden

theorem pure (a : α) : Hidden (Pure.pure a) := fun m => .refl m

theorem get : Hidden get := fun m => .refl m

theorem modify {f : Machine → Machine} (hf : ∀ m : Machine, m.Alike (f m)) : Hidden (modify f) := hf

/-- Two hidden computations are hidden one after the other. -/
theorem bind {x : Sim α} {f : α → Sim β} (hx : Hidden x) (hf : ∀ a, Hidden (f a)) : Hidden (x >>= f) :=
  fun m => (hx m).trans (hf _ _)

end Hidden

/-- A dialogue is hidden if the answers to it are. -/
theorem hidden_interpret {S : Signature} {handle : (c : S.Call) → Sim (S.Answer c)} (hh : ∀ c, Hidden (handle c))
    (p : Dialogue S α) : Hidden (p.interpret handle) := by
  induction p with
  | done a => exact .pure _
  | ask c next ih => exact (hh c).bind ih
  | exhausted => exact .pure _

/-- The same where something else is kept beside the machine. -/
theorem hidden_interpret_run {S : Signature} {σ : Type} {handle : (c : S.Call) → StateT σ Sim (S.Answer c)}
    (hh : ∀ c s, Hidden ((handle c).run s)) (p : Dialogue S α) (s : σ) : Hidden ((p.interpret handle).run s) := by
  induction p generalizing s with
  | done a => exact .pure _
  | ask c next ih => exact (hh c s).bind fun r => ih r.1 r.2
  | exhausted => exact .pure _

/-! ## The faults -/

theorem hidden_fault? (k : CallKind) : Hidden (fault? k) := fun _ => ⟨rfl, rfl, rfl, rfl, rfl⟩

/-- Whether a call fails is hidden in the machine, and an error comes from a fault of the scenario. -/
theorem exists_fault? (k : CallKind) (m : Machine) : ∃ f m₁, (fault? k).run m = Pure.pure (f, m₁) ∧ m.Alike m₁ ∧
    ∀ e, f = some e → ∃ x ∈ m.scenario.faults, x.kind = k ∧ x.errno = e := by
  refine ⟨_, _, rfl, hidden_fault? k m, fun e he => ?_⟩
  obtain ⟨x, hx, rfl⟩ := Option.map_eq_some_iff.mp he
  have hkind := List.find?_some hx
  simp only [Bool.and_eq_true, decide_eq_true_eq] at hkind
  exact ⟨x, List.mem_of_find?_eq_some hx, hkind.1.1, rfl⟩

/-- A call that fails changes nothing. -/
theorem Hidden.unlessFault {k : CallKind} {x : Sim (Except Errno α)} (hx : Hidden x) : Hidden (unlessFault k x) :=
  (hidden_fault? k).bind fun f => by
    cases f with
    | none => exact hx
    | some e => exact .pure _

/-! ## The log -/

/-- The log is written outside of the kernel. -/
theorem hidden_answerLog (c : Log.Call) : Hidden (answerLog c) := by
  cases c with
  | wallClock => exact Hidden.get.bind fun _ => .pure _
  | processId => exact Hidden.get.bind fun _ => .pure _
  | connect =>
    refine (hidden_fault? _).bind fun f => ?_
    cases f with
    | some e => exact .pure _
    | none => exact Hidden.get.bind fun _ => .pure _
  | send datagram =>
    refine (hidden_fault? _).bind fun f => ?_
    cases f with
    | some e => exact .pure _
    | none => exact (Hidden.modify fun m => m.alike_observe _).bind fun _ => .pure _
  | writeLine line => exact .modify fun m => m.alike_writeError line

theorem hidden_withLog (f : Log.State → Log.Talk Log.State) : Hidden (withLog f) := by
  refine Hidden.get.bind fun m => (hidden_interpret hidden_answerLog _).bind fun log => ?_
  cases log with
  | none => exact .pure _
  | some log => exact .modify fun _ => ⟨rfl, rfl, rfl, rfl, rfl⟩

/-! ## The state of the process -/

theorem hidden_setMask (mask : SignalSet) : Hidden (setMask mask) :=
  Hidden.unlessFault fun _ => ⟨rfl, rfl, rfl, rfl, rfl⟩

theorem hidden_setHandler (s : Signal) (installed : Bool) : Hidden (setHandler s installed) :=
  Hidden.unlessFault fun _ => ⟨rfl, rfl, rfl, rfl, rfl⟩

theorem hidden_exec (argv : List String) : Hidden (exec argv) := fun _ => ⟨rfl, rfl, rfl, rfl, rfl⟩

theorem hidden_changeDirectory (path : String) : Hidden (changeDirectory path) :=
  (hidden_fault? _).bind fun _ => (Hidden.modify fun m => m.alike_observe _).bind fun _ => .pure _

/-! ## The children -/

/-- What a child does before its program runs stays in the child. -/
theorem hidden_answerChild (c : Kernel.Child.Call) (b : Option Behaviour) : Hidden ((answerChild c).run b) := by
  cases c with
  | log r => exact fun m => hidden_withLog (·.emit r) m
  | defaultSignal s => exact fun m => hidden_setHandler s false m
  | setMask mask => exact fun m => hidden_setMask mask m
  | exec argv =>
    have hexec : Hidden ((liftM (exec argv) : StateT (Option Behaviour) Sim _).run b) := hidden_exec argv
    rw [answerChild, StateT.run_bind]
    refine hexec.bind fun r => ?_
    cases r.1 with
    | ok b => exact .pure _
    | error e => exact .pure _

/-- What a child does before it starts its program is nothing that a kernel shows. -/
theorem hidden_runChild (c : Kernel.Child) : Hidden (runChild c) :=
  Hidden.get.bind fun m => (hidden_interpret_run hidden_answerChild _ _).bind fun _ =>
    Hidden.bind (x := modify fun m' => { m' with context := m.context })
      (.modify fun _ => ⟨rfl, rfl, rfl, rfl, rfl⟩) fun _ => .pure _

end ContainerInit.Simulation
