import ContainerInit.Proofs.Dialogue.Interpretation
import ContainerInit.Proofs.Kernel.Clock
import ContainerInit.Proofs.Kernel.Steady
import ContainerInit.Proofs.Simulation.Hidden
import ContainerInit.Simulation.Session

/-! # A simulated machine is a kernel

What is proved of the supervisor is proved in worlds, which leave open how a kernel answers.  A simulated machine
answers in one way.  This module shows that it is a way that the worlds have foreseen: the machine realizes the
world of the children with the pending signals (`realizes_signalled`), and so that of the children alone, and the
world of steady clocks (`realizes_steady`), and so that of a clock which only goes forward.  What holds in those
worlds at the end of an action is true where the action has been carried out on a machine (`exists_of_perform`).

## The answers

Each call is answered in the same order.  First what is due happens, which is nothing but what may happen in a
kernel by itself; then the call fails because the scenario says so, or does what it does.  `Replies` is what is to
be shown of that, and there is one lemma for each call of which a kernel takes notice:

* a fork makes a child with a number that has been free,
* a wait and a look find an ended child among those that the machine selects, or that there is none,
* a kill is something that happens to the children, which see to the signal by themselves,
* a wait for a signal takes one that has been pending, or lets time pass.

## The conditions

The failures of a scenario can be anything, also such as a kernel has another meaning for.  A scenario that says
there were no children where there are some is not `Honest`.  And the machine selects by the numbers of groups,
where a kernel knows that of the supervisor as 0, so that a wait for it by its number is not `Addressed` as it has
to be.  No such wait exists where the supervisor is the first of all processes.

## What has no counterpart

There are worlds of which the machine is not an instance.  The processes further down exist in it only from the
end of their parents on, where the family of the supervisor has them before.  And it keeps all of a mask that it is
asked for, where a kernel leaves out what cannot be blocked. -/

namespace ContainerInit.Simulation

open Kernel Machine Relation

variable {α : Type} {m m' : Machine} {q : Process} {target own : Pid}

/-- No failure looks like an answer: a wait does not say that there is nobody, or nobody who has ended, and a wait for
a signal does not say that its time is over. -/
structure Scenario.Honest (s : Scenario) : Prop where
  wait : ∀ f ∈ s.faults, f.kind = .waitpid ∨ f.kind = .waitid → f.errno ≠ 0 ∧ Errno.ofCode f.errno ≠ .noChild
  awaitSignal : ∀ f ∈ s.faults, f.kind = .sigwait → Errno.ofCode f.errno ≠ .tryAgain

/-- The machine has answered the call as a kernel may, after something that may have happened there by itself. -/
structure Replies (m : Machine) (c : Kernel.Call) (a : Kernel.signature.Answer c) (m' : Machine) : Prop where
  sound : m'.Sound
  scenario_eq : m'.scenario = m.scenario
  clock_le : m.clock ≤ m'.clock
  answers : ∃ m₁, m.Drifts m₁ ∧ Signalled.world.Answers m₁.signalled c a m'.signalled

/-- Whatever happens before an answer might have happened by itself. -/
theorem Machine.Drifts.replies {m₁ : Machine} {c : Kernel.Call} {a : Kernel.signature.Answer c} (h : m.Drifts m₁)
    (hr : Replies m₁ c a m') : Replies m c a m' where
  sound := hr.sound
  scenario_eq := hr.scenario_eq.trans h.scenario_eq
  clock_le := h.clock_le.trans hr.clock_le
  answers := hr.answers.imp fun _ ⟨d, ha⟩ => ⟨h.trans d, ha⟩

/-- An answer that changes nothing. -/
theorem Machine.Drifts.replies_same {c : Kernel.Call} {a : Kernel.signature.Answer c} (h : m.Drifts m')
    (ha : ∀ k, Signalled.world.Answers k c a k) : Replies m c a m' := ⟨h.sound, h.scenario_eq, h.clock_le, m', h, ha _⟩

/-! ## Failures -/

/-- A call fails on a machine that is alike, or does what it does there. -/
theorem unlessFault_cases {k : CallKind} {x : Sim (Except Errno α)} {P : Except Errno α → Machine → Prop}
    (hfault : ∀ f ∈ m.scenario.faults, f.kind = k → ∀ m' : Machine, m.Alike m' → P (.error (.ofCode f.errno)) m')
    (hx : ∀ m' : Machine, m.Alike m' → P (x.run m').1 (x.run m').2) :
    P ((unlessFault k x).run m).1 ((unlessFault k x).run m).2 := by
  obtain ⟨f, m₁, hrun, ha, hsome⟩ := exists_fault? k m
  simp only [unlessFault, StateT.run_bind, hrun, pure_bind]
  cases f with
  | some e =>
    obtain ⟨x, hmem, hkind, rfl⟩ := hsome e rfl
    exact hfault x hmem hkind m₁ ha
  | none => exact hx m₁ ha

/-- Where it is seen to by itself whether a call fails, what is due happens before that. -/
theorem Machine.Sound.exists_fault (hm : m.Sound) (k : CallKind) : ∃ f m₁, (fault? k).run m.settle = pure (f, m₁) ∧
    m.Drifts m₁ ∧ ∀ e, f = some e → ∃ x ∈ m.scenario.faults, x.kind = k ∧ x.errno = e := by
  obtain ⟨f, m₁, hrun, ha, hsome⟩ := exists_fault? k m.settle
  refine ⟨f, m₁, hrun, hm.drifts_settle.trans (ha.drifts hm.drifts_settle.sound), fun e he => ?_⟩
  rw [← hm.drifts_settle.scenario_eq]
  exact hsome e he

/-! ## Forks -/

/-- A new process is a child with a number that has been free. -/
theorem Machine.Sound.replies_create (hm : m.Sound) (c : Kernel.Child) (b : Behaviour) :
    Replies m (.fork c) (.ok m.nextPid) (m.create b) where
  sound := hm.create b
  scenario_eq := rfl
  clock_le := le_rfl
  answers := by
    obtain ⟨g, hg⟩ := hm.signalled_create b
    refine ⟨m, hm.drifts_refl, ?_⟩
    rw [hg]
    exact ⟨⟨hm.nextPid_pos, hm.process_nextPid, g, rfl⟩, rfl⟩

theorem Machine.Sound.replies_fork (hm : m.Sound) (c : Kernel.Child) :
    Replies m (.fork c) ((fork c).run m).1 ((fork c).run m).2 := by
  have hd : m.Drifts { m.settle with forks := m.settle.forks + 1 } :=
    hm.drifts_settle.trans (hm.drifts_settle.sound.drifts_of_eq rfl le_rfl rfl rfl rfl)
  refine hd.replies (unlessFault_cases (P := Replies _ (.fork c)) (fun _ _ _ m₁ h => ?_) fun m₁ h => ?_)
  · exact (h.drifts hd.sound).replies_same fun _ => ⟨rfl, rfl⟩
  · simp only [StateT.run_bind, StateT.run_get, pure_bind]
    split
    · exact (h.drifts hd.sound).replies_same fun _ => ⟨rfl, rfl⟩
    · have hchild : m₁.Alike ((runChild c).run (m₁.observe (.fork m₁.nextPid))).2 :=
        (m₁.alike_observe _).trans (hidden_runChild c _)
      have hstart := (h.trans hchild).drifts hd.sound
      have hcreate := hstart.sound.replies_create c ((runChild c).run (m₁.observe (.fork m₁.nextPid))).1
      rw [hchild.nextPid_eq] at hcreate
      exact hstart.replies hcreate

/-! ## Waits -/

theorem Machine.Sound.mem_selected_iff (hm : m.Sound) (ht : Plain m.scenario.pid target) : q ∈ m.selected target ↔
    q ∈ m.children ∧ Children.Covers target q.pid (q.shown m.scenario.pid) := by
  rw [selected, List.mem_filter, decide_eq_true_iff]
  exact and_congr_right (hm.selects_iff ht)

/-- Everybody whom a wait for the target is about is one of those that the machine selects. -/
theorem Machine.Sound.exists_selected (hm : m.Sound) (ht : Plain m.scenario.pid target) {p : Pid}
    {q : Kernel.Process} (hp : m.signalled.children.process p = some q) (hc : Children.Covers target p q) :
    ∃ q' ∈ m.selected target, q = q'.shown m.scenario.pid := by
  obtain ⟨q', hq', rfl, rfl⟩ := exists_of_process hp
  exact ⟨q', (hm.mem_selected_iff ht).mpr ⟨hq', hc⟩, rfl⟩

theorem Machine.Sound.reveals_ended (hm : m.Sound) (ht : Plain m.scenario.pid target) {e : Ending}
    (hq : q ∈ m.selected target) (he : q.ended = some e) :
    m.signalled.children.Reveals target (some q.pid) (report q.pid e) := by
  obtain ⟨hmem, hc⟩ := (hm.mem_selected_iff ht).mp hq
  rw [report_eq]
  exact .ended (hm.process_pid hmem) hc (by rw [Process.shown, he]; rfl)

theorem Machine.Sound.reveals_stillAlive (hm : m.Sound) (ht : Plain m.scenario.pid target) (hq : q ∈ m.selected target)
    (hlive : ∀ q ∈ m.selected target, q.ended = none) :
    m.signalled.children.Reveals target none (.ok .stillAlive) := by
  obtain ⟨hmem, hc⟩ := (hm.mem_selected_iff ht).mp hq
  refine .stillAlive (hm.process_pid hmem) hc fun p q' hp hc' => ?_
  obtain ⟨q'', hq'', rfl⟩ := hm.exists_selected ht hp hc'
  rw [Process.shown, hlive q'' hq'']
  rfl

theorem Machine.Sound.reveals_noChild (hm : m.Sound) (ht : Plain m.scenario.pid target) (hnil : m.selected target = []) :
    m.signalled.children.Reveals target none (.error .noChild) :=
  .noChild fun p q hp hc => by
    obtain ⟨q', hq', -⟩ := hm.exists_selected ht hp hc
    rw [hnil] at hq'
    cases hq'

/-- A look at the children fails, or finds what there is: one that has ended, which is then dealt with, or that
there is none. -/
theorem Machine.Sound.exists_waitFor (hm : m.Sound) (hh : m.scenario.Honest) (ht : Plain m.scenario.pid target)
    {k : CallKind} (hk : k = .waitpid ∨ k = .waitid) (collect : Pid → Ending → Sim Unit) :
    ∃ m₁, m.Drifts m₁ ∧
      ((∃ a, m₁.signalled.children.Finds target none a ∧ (waitFor k target collect).run m = (a, m₁)) ∨
        ∃ p e, m₁.signalled.children.Finds target (some p) (report p e) ∧
          (waitFor k target collect).run m = (report p e, ((collect p e).run m₁).2)) := by
  obtain ⟨f, m₁, hfault, hd, hsome⟩ := hm.exists_fault k
  have hplain : Plain m₁.scenario.pid target := hd.scenario_eq ▸ ht
  refine ⟨m₁, hd, ?_⟩
  simp only [waitFor, StateT.run_bind, StateT.run_modify, pure_bind, hfault]
  cases f with
  | some e =>
    obtain ⟨x, hx, hkind, rfl⟩ := hsome e rfl
    obtain ⟨h₀, hne⟩ := hh.wait x hx (hkind ▸ hk)
    refine .inl ⟨_, .failed hne, ?_⟩
    split
    · exact absurd (Option.some.inj ‹_›) h₀
    · cases ‹some x.errno = some _›
      rfl
    · cases ‹some x.errno = none›
  | none =>
    simp only [StateT.run_bind, StateT.run_get, pure_bind]
    split
    · have hnil := List.isEmpty_iff.mp ‹_›
      exact .inl ⟨_, .revealed (hd.sound.reveals_noChild hplain hnil), rfl⟩
    · rename_i hne
      split
      · rename_i hnone
        have hlive : ∀ q ∈ m₁.selected target, q.ended = none := by
          simpa only [List.findSome?_eq_none_iff, Option.map_eq_none_iff] using hnone
        obtain ⟨q, hq⟩ := List.exists_mem_of_ne_nil _ fun e => hne (List.isEmpty_iff.mpr e)
        exact .inl ⟨_, .revealed (hd.sound.reveals_stillAlive hplain hq hlive), rfl⟩
      · rename_i hsome
        obtain ⟨q, hq, he⟩ := List.exists_of_findSome?_eq_some hsome
        obtain ⟨e, he, heq⟩ := Option.map_eq_some_iff.mp he
        cases heq
        exact .inr ⟨_, _, .revealed (hd.sound.reveals_ended hplain hq he), rfl⟩

theorem Machine.Sound.filter (hm : m.Sound) (f : Process → Bool) : Machine.Sound { m with children := m.children.filter f } where
  distinct := hm.distinct.sublist (List.filter_sublist.map _)
  positive := fun q hq => hm.positive q (List.mem_of_mem_filter hq)
  used := fun q hq => hm.used q (List.mem_of_mem_filter hq)
  nextPid_pos := hm.nextPid_pos
  planned := fun q hq => hm.planned q (List.mem_of_mem_filter hq)

theorem Machine.Sound.replies_wait (hm : m.Sound) (hh : m.scenario.Honest) (ht : Plain m.scenario.pid target) :
    Replies m (.wait target) ((wait target).run m).1 ((wait target).run m).2 := by
  obtain ⟨m₁, hd, ⟨a, hf, hrun⟩ | ⟨p, e, hf, hrun⟩⟩ := hm.exists_waitFor hh ht (.inl rfl) (fun pid e => modify fun m =>
    { m with children := m.children.filter (·.pid ≠ pid) }.observe (.reap pid e))
  · rw [wait, hrun]
    exact ⟨hd.sound, hd.scenario_eq, hd.clock_le, m₁, hd, ⟨none, hf, rfl⟩, rfl⟩
  · rw [wait, hrun]
    refine ⟨(hd.sound.filter _).congr rfl rfl, hd.scenario_eq, hd.clock_le, m₁, hd, ⟨some p, hf, ?_⟩, rfl⟩
    exact children_remove rfl rfl

theorem Machine.Sound.replies_peek (hm : m.Sound) (hh : m.scenario.Honest) (ht : Plain m.scenario.pid target) :
    Replies m (.peek target) ((peek target).run m).1 ((peek target).run m).2 := by
  obtain ⟨m₁, hd, ⟨a, hf, hrun⟩ | ⟨p, e, hf, hrun⟩⟩ := hm.exists_waitFor hh ht (.inr rfl) fun _ _ => pure ()
  · rw [peek, hrun]
    exact ⟨hd.sound, hd.scenario_eq, hd.clock_le, m₁, hd, ⟨⟨none, hf⟩, rfl⟩, rfl⟩
  · rw [peek, hrun]
    exact ⟨hd.sound, hd.scenario_eq, hd.clock_le, m₁, hd, ⟨⟨some p, hf⟩, rfl⟩, rfl⟩

/-! ## Kills -/

/-- A signal to a target is pending for the supervisor if the target covers it, and reaches the children that the
target selects. -/
theorem Machine.Sound.drifts_sendTo (hm : m.Sound) (target : Pid) (s : Signal) : m.Drifts ((sendTo target s).run m).2 := by
  simp only [sendTo, StateT.run_bind, StateT.run_get, pure_bind]
  split
  · exact hm.drifts_refl
  · split
    · have hpost := hm.drifts_post s m.scenario.pid
      exact hpost.trans (hpost.sound.drifts_delivers s _)
    · exact hm.drifts_delivers s _

/-- The children see to a signal by themselves. -/
theorem Machine.Sound.drifts_kill (hm : m.Sound) (target : Pid) (s : Signal) : m.Drifts ((kill target s).run m).2 := by
  obtain ⟨f, m₁, hfault, hd, -⟩ := hm.exists_fault .kill
  simp only [kill, StateT.run_bind, StateT.run_modify, pure_bind, hfault]
  cases f with
  | some e => exact hd.trans ((m₁.alike_observe _).drifts hd.sound)
  | none =>
    have hsend := hd.trans (hd.sound.drifts_sendTo target s)
    exact hsend.trans ((alike_observe _ _).drifts hsend.sound)

/-! ## Waits for signals -/

theorem mem_pending_of_nextPending? {s : Signal} {sender : Pid} (h : m.nextPending? = some (s, sender)) :
    (s, sender) ∈ m.pending := by
  obtain ⟨s', -, hs'⟩ := List.exists_of_findSome?_eq_some h
  exact List.mem_of_find?_eq_some hs'

/-- A signal that has been taken is pending no more. -/
theorem Machine.Sound.replies_take (hm : m.Sound) {s : Signal} {sender : Pid} (h : (s, sender) ∈ m.pending)
    (timeout : Option Nat) :
    Replies m (.awaitSignal timeout) (.ok ⟨s, sender⟩) { m with pending := m.pending.filter (·.1 ≠ s) } where
  sound := hm.congr rfl rfl
  scenario_eq := rfl
  clock_le := le_rfl
  answers := by
    refine ⟨m, hm.drifts_refl, rfl, ⟨sender, h⟩, .inl ?_⟩
    ext x
    change (∃ y, (x, y) ∈ m.pending.filter (·.1 ≠ s)) ↔ (∃ y, (x, y) ∈ m.pending) ∧ x ≠ s
    simp only [List.mem_filter, decide_eq_true_eq, exists_and_right]

theorem Machine.Sound.replies_takeSignal (hm : m.Sound) (timeout : Option Nat) (deadline n : Nat) :
    Replies m (.awaitSignal timeout) ((takeSignal timeout deadline n).run m).1
      ((takeSignal timeout deadline n).run m).2 := by
  induction n generalizing m with
  | zero => exact hm.drifts_refl.replies_same fun _ => ⟨rfl, rfl⟩
  | succ n ih =>
    simp only [takeSignal, StateT.run_bind, StateT.run_get, pure_bind]
    split
    · exact hm.replies_take (mem_pending_of_nextPending? ‹_›) timeout
    · split
      · have hd := hm.drifts_advance ‹_›
        exact hd.replies (ih hd.sound)
      · split
        · exact (hm.drifts_advance deadline).replies_same fun _ => ⟨rfl, rfl⟩
        · exact hm.drifts_refl.replies_same fun _ => ⟨rfl, rfl⟩

theorem Machine.Sound.replies_awaitSignal (hm : m.Sound) (timeout : Option Nat) :
    Replies m (.awaitSignal timeout) ((awaitSignal timeout).run m).1 ((awaitSignal timeout).run m).2 := by
  refine unlessFault_cases (P := Replies m (.awaitSignal timeout)) (fun _ _ _ m' h => ?_) fun m' h => ?_
  · exact (h.drifts hm).replies_same fun _ => ⟨rfl, rfl⟩
  · have hd := (h.drifts hm).trans (h.drifts hm).sound.drifts_settle
    exact hd.replies (hd.sound.replies_takeSignal _ _ _)

/-! ## All calls -/

/-- A call that is answered without notice. -/
theorem Hidden.replies {c : Kernel.Call} {x : Sim (Kernel.signature.Answer c)} (hx : Hidden x) (hm : m.Sound)
    (hc : ∀ a k, Signalled.world.Answers k c a k) : Replies m c (x.run m).1 (x.run m).2 :=
  ((hx m).drifts hm).replies_same (hc _)

/-- The machine answers each call as a kernel may. -/
theorem Machine.Sound.replies (hm : m.Sound) (hh : m.scenario.Honest) (c : Kernel.Call)
    (hc : ∀ target, c = .wait target ∨ c = .peek target → Plain m.scenario.pid target) :
    Replies m c ((answer c).run m).1 ((answer c).run m).2 := by
  cases c with
  | initLog ident threshold targets => exact (hidden_withLog _).replies hm fun _ _ => ⟨rfl, rfl⟩
  | log r => exact (hidden_withLog _).replies hm fun _ _ => ⟨rfl, rfl⟩
  | monotonic => exact (Hidden.get.bind fun _ => .pure _).replies hm fun _ _ => ⟨rfl, rfl⟩
  | wallClock => exact (Hidden.get.bind fun _ => .pure _).replies hm fun _ _ => ⟨rfl, rfl⟩
  | processId => exact (Hidden.get.bind fun _ => .pure _).replies hm fun _ _ => ⟨rfl, rfl⟩
  | sleep nanos => exact (hm.drifts_advance _).replies_same fun _ => ⟨rfl, rfl⟩
  | fork c => exact hm.replies_fork c
  | wait target => exact hm.replies_wait hh (hc target (.inl rfl))
  | peek target => exact hm.replies_peek hh (hc target (.inr rfl))
  | kill target s => exact (hm.drifts_kill target s).replies_same fun _ => ⟨rfl, rfl⟩
  | awaitSignal timeout => exact hm.replies_awaitSignal timeout
  | setMask mask =>
    refine (hidden_setMask mask).replies hm fun a k => ?_
    cases a with
    | error e => exact ⟨rfl, rfl⟩
    | ok old => exact ⟨rfl, subset_rfl, fun _ hs _ => hs⟩
  | trapSignal s => exact (hidden_setHandler s true).replies hm fun _ _ => ⟨rfl, rfl⟩
  | changeDirectory path => exact (hidden_changeDirectory path).replies hm fun _ _ => ⟨rfl, rfl⟩
  | readFile path => exact (Hidden.get.bind fun _ => .pure _).replies hm fun _ _ => ⟨rfl, rfl⟩
  | environment name => exact (Hidden.get.bind fun _ => .pure _).replies hm fun _ _ => ⟨rfl, rfl⟩

/-- The machine shows a kernel in the state, and has nothing to hide. -/
structure Shows (own : Pid) (m : Machine) (k : Signalled) : Prop where
  sound : m.Sound
  honest : m.scenario.Honest
  pid_eq : m.scenario.pid = own
  state_eq : k = m.signalled

/-- The machine shows a kernel from the start. -/
theorem shows_start {s : Scenario} (hs : 0 < s.nextPid) (hh : s.Honest) :
    Shows s.pid (start s) (start s).signalled where
  sound := sound_start hs
  honest := by rwa [start_scenario]
  pid_eq := by rw [start_scenario]
  state_eq := rfl

/-- The call is not a wait for the group of the supervisor by the number of that. -/
def Addressed (own : Pid) (c : Kernel.Call) : Prop := ∀ target, c = .wait target ∨ c = .peek target → Plain own target

/-- The machine is a kernel with its children and pending signals. -/
theorem realizes_signalled (own : Pid) : Dialogue.Realizes Signalled.world answer (Shows own) (Addressed own) := by
  rintro m k c ⟨hm, hh, rfl, rfl⟩ hc
  obtain ⟨hsound, hscenario, -, m₁, hd, ha⟩ := hm.replies hh c hc
  exact ⟨m₁.signalled, _, _, hd.drifts, ha, .refl, hsound, hscenario ▸ hh, congrArg (·.pid) hscenario, rfl⟩

/-- So it is one with its children alone. -/
theorem realizes_children (own : Pid) :
    Dialogue.Realizes Children.world answer (fun m c => ∃ k, Shows own m k ∧ c = k.children) (Addressed own) :=
  (realizes_signalled own).map (fun d => by
    cases d with
    | children d => exact .single d
    | signal => exact .refl) fun ha => ha.1

/-! ## Clocks -/

/-- What the clocks of the machine show. -/
def Machine.steady (m : Machine) : Steady := ⟨m.clock, m.wallClock.toNat⟩

/-- Both clocks go on by the time that has passed. -/
theorem steady_eq_after (h₀ : 0 ≤ m.scenario.epoch) (hs : m'.scenario = m.scenario) (hc : m.clock ≤ m'.clock) :
    m'.steady = m.steady.after (m'.clock - m.clock) := by
  simp only [steady, Steady.after, wallClock, hs, Steady.mk.injEq]
  omega

/-- A wait for a signal is over by its deadline, and it is given up at the deadline only. -/
theorem Machine.Sound.takeSignal_clock (hm : m.Sound) (timeout n : Nat) {deadline : Nat} (hd : m.clock ≤ deadline) :
    ((takeSignal (some timeout) deadline n).run m).2.clock ≤ deadline ∧
      (((takeSignal (some timeout) deadline n).run m).1 = .error .tryAgain →
        ((takeSignal (some timeout) deadline n).run m).2.clock = deadline) := by
  induction n generalizing m with
  | zero => exact ⟨hd, fun e => absurd (Except.error.inj e) (by decide)⟩
  | succ n ih =>
    simp only [takeSignal, StateT.run_bind, StateT.run_get, pure_bind]
    split
    · exact ⟨hd, nofun⟩
    · split
      · rename_i t ht
        obtain ⟨-, hlimit⟩ := Option.filter_eq_some_iff.mp ht
        refine ih (hm.drifts_advance t).sound ?_
        have hdeadline : t ≤ deadline := by
          rw [decide_eq_true_iff, if_pos Option.isSome_some] at hlimit
          exact hlimit.trans (Nat.min_le_left ..)
        rw [hm.advance_clock]
        exact Nat.max_le.mpr ⟨hd, hdeadline⟩
      · have hadvance : (m.advance deadline).clock = deadline := (hm.advance_clock deadline).trans (Nat.max_eq_right hd)
        split
        · exact ⟨hadvance.le, fun _ => hadvance⟩
        · exact ⟨hd, fun e => absurd (Except.error.inj e) (by decide)⟩

theorem Machine.Sound.awaitSignal_clock (hm : m.Sound) (hh : m.scenario.Honest) (timeout : Nat) :
    ((awaitSignal (some timeout)).run m).2.clock ≤ m.clock + timeout ∧
      (((awaitSignal (some timeout)).run m).1 = .error .tryAgain →
        ((awaitSignal (some timeout)).run m).2.clock = m.clock + timeout) := by
  refine unlessFault_cases (P := fun a m' => m'.clock ≤ m.clock + timeout ∧
    (a = .error .tryAgain → m'.clock = m.clock + timeout)) (fun f hf hkind m' h => ?_) fun m' h => ?_
  · rw [h.clock_eq]
    exact ⟨Nat.le_add_right .., fun e => absurd (Except.error.inj e) (hh.awaitSignal f hf hkind)⟩
  · have hsettle := (h.drifts hm).sound.settle_clock.trans h.clock_eq
    have hd := (h.drifts hm).sound.drifts_settle
    rw [← hsettle]
    exact hd.sound.takeSignal_clock timeout _ (Nat.le_add_right ..)

/-- The machine shows what there is on the clocks. -/
structure ShowsTime (own : Pid) (m : Machine) (k : Steady) : Prop where
  sound : m.Sound
  honest : m.scenario.Honest
  pid_eq : m.scenario.pid = own
  epoch_nonneg : 0 ≤ m.scenario.epoch
  state_eq : k = m.steady

/-- The machine is a kernel with its clocks. -/
theorem realizes_steady (own : Pid) : Dialogue.Realizes Steady.world answer (ShowsTime own) (Addressed own) := by
  rintro m k c ⟨hm, hh, rfl, h₀, rfl⟩ hc
  have hr := hm.replies hh c hc
  have hafter := steady_eq_after h₀ hr.scenario_eq hr.clock_le
  refine ⟨m.steady, _, _, .refl, ?_, .refl, hr.sound, hr.scenario_eq ▸ hh, congrArg (·.pid) hr.scenario_eq,
    hr.scenario_eq ▸ h₀, rfl⟩
  cases c with
  | monotonic => exact ⟨rfl, rfl⟩
  | wallClock =>
    have hwall : 0 ≤ m.wallClock := Int.add_nonneg h₀ (Int.natCast_nonneg _)
    exact ⟨(Int.toNat_of_nonneg hwall).symm, rfl⟩
  | awaitSignal timeout =>
    cases timeout with
    | none => exact ⟨_, hafter⟩
    | some timeout =>
      obtain ⟨hle, htry⟩ := hm.awaitSignal_clock hh timeout
      exact ⟨_, Nat.sub_le_of_le_add (Nat.add_comm .. ▸ hle), hafter, fun e => Nat.sub_eq_of_eq_add' (htry e)⟩
  | _ => exact ⟨_, hafter⟩

/-- What steady clocks show when a call is answered is what a clock may show. -/
theorem clock_answers {k k' : Steady} {c : Kernel.Call} {a : Kernel.signature.Answer c} (ha : Steady.Answers k c a k') :
    Clock.Answers k.monotonic c a k'.monotonic := by
  cases c with
  | monotonic =>
    obtain ⟨rfl, rfl⟩ := ha
    exact ⟨le_rfl, le_rfl⟩
  | wallClock =>
    obtain ⟨-, rfl⟩ := ha
    exact Nat.le_refl k'.monotonic
  | awaitSignal timeout =>
    cases timeout with
    | none =>
      obtain ⟨nanos, rfl⟩ := ha
      exact Nat.le_add_right k.monotonic nanos
    | some timeout =>
      obtain ⟨nanos, -, rfl, htry⟩ := ha
      unfold Clock.Answers
      split
      · contradiction
      · cases ‹Kernel.Call.awaitSignal (some _) = .awaitSignal (some _)›
        exact Nat.le_of_eq (htry rfl ▸ rfl)
      · exact Nat.le_add_right k.monotonic nanos
  | _ =>
    obtain ⟨nanos, rfl⟩ := ha
    exact Nat.le_add_right k.monotonic nanos

/-- So it is one that takes its time, as far as deadlines are measured. -/
theorem realizes_clock (own : Pid) :
    Dialogue.Realizes Clock.world answer (fun m t => ∃ k, ShowsTime own m k ∧ t = k.monotonic) (Addressed own) :=
  (realizes_steady own).map nofun clock_answers

/-! ## Actions -/

/-- What holds in all the worlds of a kernel holds of what is carried out on a machine. -/
theorem exists_of_perform {σ : Type} {x : Action σ α} {P : Action.History σ → Signalled → Action.Moment α → σ → Prop}
    {s s' : σ} {res : Except Error α} (hx : Action.Always Signalled.world x s m.signalled P) (hm : m.Sound)
    (hh : m.scenario.Honest) (hpid : m.scenario.pid = 1) (he : perform x s m = (some (res, s'), m')) :
    Shows 1 m' m'.signalled ∧ ∃ h, P h m'.signalled (.ended res) s' := by
  have hgood : Action.Always Signalled.world x s m.signalled fun _ _ moment _ => ∀ c, moment = .asking c → Addressed 1 c :=
    fun _ _ _ _ _ _ _ _ _ _ target _ => Decidable.em (target = -1)
  obtain ⟨h, k', hP, ha⟩ := hx.of_carryOut (realizes_signalled 1) hgood ⟨hm, hh, hpid, rfl⟩ he
  obtain rfl := ha.state_eq
  exact ⟨ha, h, hP⟩

end ContainerInit.Simulation
