import ContainerInit.Proofs.Simulation.View

/-! # What happens in a simulated machine

Time passes in a simulated machine, and with it signals arrive, processes end and leave their orphans behind.  All
of this is what may happen in a kernel by itself (`Machine.Drifts`): each step that the machine takes is matched by
some drifts of `Signalled.world`, from the kernel that it shows before to the one that it shows afterwards, and
the machine stays sound.

The machine tells the supervisor of the end of a process after the orphans have come to exist.  A kernel may have
it the other way round, with the notice before the end.  That is the order in which `drifts_finish` has the parts,
since `SIGCHLD` has to be pending by the time a child has ended. -/

namespace ContainerInit.Simulation

/-- The process after its end. -/
def Process.over (q : Process) (e : Ending) : Process := { q with planned := none, ended := some e }

namespace Machine

open Kernel Relation

variable {m m' m'' : Machine} {p : Pid} {q : Process} {e : Ending} {s : Signal} {sender : Pid} {b : Behaviour}

/-- From one machine to the other, nothing has happened that might not happen in a kernel by itself. -/
structure Drifts (m m' : Machine) : Prop where
  sound : m'.Sound
  scenario_eq : m'.scenario = m.scenario
  clock_le : m.clock ≤ m'.clock
  drifts : ReflTransGen Signalled.Drifts m.signalled m'.signalled

theorem Drifts.trans (h : m.Drifts m') (h' : m'.Drifts m'') : m.Drifts m'' :=
  ⟨h'.sound, h'.scenario_eq.trans h.scenario_eq, h.clock_le.trans h'.clock_le, h.drifts.trans h'.drifts⟩

/-- What a kernel shows depends on the children and the pending signals only. -/
theorem signalled_congr (hs : m'.scenario = m.scenario) (hc : m'.children = m.children)
    (hp : m'.pending = m.pending) : m'.signalled = m.signalled := by
  ext p : 3
  · rw [process_signalled, process_signalled, child?, child?, hs, hc]
  · rw [signalled, signalled, hp]

/-- A machine with the same children, which has lost no number that is still to be given, is as sound. -/
theorem Sound.congr (hm : m.Sound) (hc : m'.children = m.children) (hn : m'.nextPid = m.nextPid) : m'.Sound where
  distinct := hc ▸ hm.distinct
  positive := hc ▸ hm.positive
  used := hc ▸ hn ▸ hm.used
  nextPid_pos := hn ▸ hm.nextPid_pos
  planned := hc ▸ hm.planned

/-- Nothing happens where only the time, the signals to come and what else is hidden from a kernel change. -/
theorem Sound.drifts_of_eq (hm : m.Sound) (hs : m'.scenario = m.scenario) (ht : m.clock ≤ m'.clock)
    (hc : m'.children = m.children) (hn : m'.nextPid = m.nextPid) (hp : m'.pending = m.pending) : m.Drifts m' :=
  ⟨hm.congr hc hn, hs, ht, by rw [signalled_congr hs hc hp]⟩

theorem Sound.drifts_refl (hm : m.Sound) : m.Drifts m := ⟨hm, rfl, le_rfl, .refl⟩

/-! ## Signals -/

/-- A signal that is pending already is not pending twice, but that does not show. -/
theorem signalled_post : (m.post s sender).signalled = ⟨m.signalled.children, insert s m.signalled.pending⟩ := by
  unfold post
  split
  · rename_i h
    obtain ⟨⟨s', sender'⟩, hmem, hs⟩ := List.any_eq_true.mp h
    obtain rfl : s' = s := by simpa using hs
    have hpending : s' ∈ m.signalled.pending := ⟨sender', hmem⟩
    rw [Set.insert_eq_of_mem hpending]
  · ext x : 2
    · rfl
    · change (∃ y, (x, y) ∈ m.pending ++ [(s, sender)]) ↔ x = s ∨ ∃ y, (x, y) ∈ m.pending
      simp only [List.mem_append, List.mem_singleton, Prod.mk.injEq, exists_or, exists_and_left, exists_eq, and_true]
      exact or_comm

theorem post_children : (m.post s sender).children = m.children := by
  unfold post
  split <;> rfl

theorem post_nextPid : (m.post s sender).nextPid = m.nextPid := by
  unfold post
  split <;> rfl

theorem post_scenario : (m.post s sender).scenario = m.scenario := by
  unfold post
  split <;> rfl

theorem post_clock : (m.post s sender).clock = m.clock := by
  unfold post
  split <;> rfl

/-- A signal that arrives is pending afterwards, whether or not it has been before. -/
theorem Sound.drifts_post (hm : m.Sound) (s : Signal) (sender : Pid) : m.Drifts (m.post s sender) where
  sound := hm.congr post_children post_nextPid
  scenario_eq := post_scenario
  clock_le := post_clock.ge
  drifts := by
    rw [signalled_post]
    exact .single (.signal s)

/-! ## Processes -/

/-- The number of the next process is free. -/
theorem Sound.process_nextPid (hm : m.Sound) : m.signalled.children.process m.nextPid = none := by
  cases h : m.signalled.children.process m.nextPid with
  | none => rfl
  | some q =>
    obtain ⟨q', hq', hp, -⟩ := exists_of_process h
    exact absurd hp (Int.ne_of_lt (hm.used q' hq'))

/-- A new process is a child that lives. -/
theorem Sound.signalled_create (hm : m.Sound) (b : Behaviour) : ∃ g, (m.create b).signalled =
    ⟨m.signalled.children.insert m.nextPid hm.nextPid_pos ⟨g, none⟩, m.signalled.pending⟩ := by
  have hfree : ∀ q ∈ m.children, q.pid ≠ m.nextPid := fun q hq => Int.ne_of_lt (hm.used q hq)
  have hchildren := children_append (m.create b) hm.nextPid_pos hfree rfl rfl
  exact ⟨_, Signalled.ext hchildren rfl⟩

/-- A process with the next number leaves the machine sound. -/
theorem Sound.create (hm : m.Sound) (b : Behaviour) : (m.create b).Sound where
  distinct := by
    have hnew : m.nextPid ∉ m.children.map (·.pid) := fun h => by
      obtain ⟨q, hq, hp⟩ := List.mem_map.mp h
      exact absurd hp (Int.ne_of_lt (hm.used q hq))
    rw [Machine.create, List.map_append, List.nodup_append']
    exact ⟨hm.distinct, List.nodup_singleton _, List.disjoint_singleton.mpr hnew⟩
  positive := List.forall_mem_append.mpr ⟨hm.positive, List.forall_mem_singleton.mpr hm.nextPid_pos⟩
  used := by
    refine List.forall_mem_append.mpr ⟨fun q hq => ?_, List.forall_mem_singleton.mpr (Int.lt_succ _)⟩
    exact Int.lt_trans (hm.used q hq) (Int.lt_succ _)
  nextPid_pos := Int.lt_trans hm.nextPid_pos (Int.lt_succ _)
  planned := List.forall_mem_append.mpr ⟨hm.planned, List.forall_mem_singleton.mpr nofun⟩

/-- Nobody has ended by the appearance of a child that lives. -/
theorem drifts_adopts {c : Children} {g : Pid} (hp : 0 < p) (hnone : c.process p = none) (s : Set Signal) :
    Signalled.Drifts ⟨c, s⟩ ⟨c.insert p hp ⟨g, none⟩, s⟩ := by
  refine .children (.adopts hnone hp) subset_rfl fun p' h hnot => absurd ?_ hnot
  obtain ⟨q, t, hq, ht⟩ := h
  rcases Children.process_insert_cases hq with ⟨-, rfl⟩ | hq
  · cases ht
  · exact ⟨q, t, hq, ht⟩

theorem creates_clock (bs : List Behaviour) : (bs.foldl Machine.create m).clock = m.clock := by
  induction bs generalizing m with
  | nil => rfl
  | cons b bs ih => exact ih

theorem creates_scenario (bs : List Behaviour) : (bs.foldl Machine.create m).scenario = m.scenario := by
  induction bs generalizing m with
  | nil => rfl
  | cons b bs ih => exact ih

/-- Orphans become children, whatever signals are pending. -/
theorem Sound.creates (bs : List Behaviour) (hm : m.Sound) : (bs.foldl Machine.create m).Sound ∧
    (bs.foldl Machine.create m).signalled.pending = m.signalled.pending ∧
    ∀ s, ReflTransGen Signalled.Drifts ⟨m.signalled.children, s⟩
      ⟨(bs.foldl Machine.create m).signalled.children, s⟩ := by
  induction bs generalizing m with
  | nil => exact ⟨hm, rfl, fun _ => .refl⟩
  | cons b bs ih =>
    obtain ⟨hs, hpending, hd⟩ := ih (hm.create b)
    obtain ⟨g, hg⟩ := hm.signalled_create b
    refine ⟨hs, hpending, fun s => .trans (.single ?_) (hd s)⟩
    rw [hg]
    exact drifts_adopts hm.nextPid_pos hm.process_nextPid s

/-- The machine is sound when it starts. -/
theorem sound_start {s : Scenario} (hs : 0 < s.nextPid) : (start s).Sound := by
  have hempty : Machine.Sound { scenario := s, arrivals := s.arrivals, nextPid := s.nextPid, context := { mask := s.mask } } :=
    ⟨.nil, nofun, nofun, hs, nofun⟩
  exact (hempty.creates s.orphans).1

theorem start_scenario (s : Scenario) : (start s).scenario = s := creates_scenario s.orphans

/-- The machine stays sound when its children are changed, as long as those who have ended have nothing more to do.
-/
theorem Sound.map (hm : m.Sound) {f : Process → Process} (hpid : ∀ q, (f q).pid = q.pid)
    (hplanned : ∀ q ∈ m.children, (f q).ended.isSome → (f q).planned = none)
    (hc : m'.children = m.children.map f) (hn : m'.nextPid = m.nextPid) : m'.Sound where
  distinct := by
    rw [hc, List.map_map, show (·.pid) ∘ f = (·.pid) from funext hpid]
    exact hm.distinct
  positive := by
    rw [hc]
    exact List.forall_mem_map.mpr fun q hq => (hpid q).symm ▸ hm.positive q hq
  used := by
    rw [hc, hn]
    exact List.forall_mem_map.mpr fun q hq => (hpid q).symm ▸ hm.used q hq
  nextPid_pos := hn ▸ hm.nextPid_pos
  planned := by
    rw [hc]
    exact List.forall_mem_map.mpr hplanned

/-- The process has ended, which has had no consequences yet. -/
def marked (m : Machine) (p : Pid) (e : Ending) : Machine :=
  { m with children := m.children.map fun q => if q.pid = p then q.over e else q }

/-- The end of a process is noted first, then its orphans come to exist, and at last the notice arrives. -/
theorem finish_eq : m.finish p e =
    (((m.child? p).elim [] (·.behaviour.orphans)).foldl Machine.create (m.marked p e)).post .child p := rfl

theorem finish_clock : (m.finish p e).clock = m.clock := by
  rw [finish_eq, post_clock, creates_clock]
  rfl

/-- The end of a process leaves the machine sound. -/
theorem Sound.marked (hm : m.Sound) (p : Pid) (e : Ending) : (m.marked p e).Sound := by
  refine hm.map (fun q => ?_) (fun q hq => ?_) rfl rfl
  · split <;> rfl
  · split
    · exact fun _ => rfl
    · exact hm.planned q hq

/-- A child that lives ends, where the notice of that is pending. -/
theorem Sound.drifts_marked (hm : m.Sound) (hq : m.child? p = some q) (hlive : q.ended = none) (e : Ending)
    {s : Set Signal} (hs : Signal.child ∈ s) :
    Signalled.Drifts ⟨m.signalled.children, s⟩ ⟨(m.marked p e).signalled.children, s⟩ := by
  have hpos : 0 < p := pid_of_child? hq ▸ hm.positive q (mem_of_child? hq)
  have hended : (q.shown m.scenario.pid).ended = none := by
    rw [Process.shown, hlive]
    rfl
  have htable : (m.marked p e).signalled.children =
      m.signalled.children.insert p hpos ((q.over e).shown m.scenario.pid) :=
    children_replace hpos hq (f := (·.over e)) (fun _ => rfl) rfl rfl
  rw [htable]
  exact .children (.ends (process_of_child? hpos hq) hended) subset_rfl fun _ _ _ => hs

/-- A child that lives ends, leaves its orphans behind, and the supervisor is told. -/
theorem Sound.drifts_finish (hm : m.Sound) (hq : m.child? p = some q) (hlive : q.ended = none) (e : Ending) :
    m.Drifts (m.finish p e) := by
  obtain ⟨hsound, hpending, hadopts⟩ := (hm.marked p e).creates ((m.child? p).elim [] (·.behaviour.orphans))
  have hclock : m.clock ≤ (m.finish p e).clock := Nat.le_of_eq finish_clock.symm
  rw [finish_eq] at hclock ⊢
  refine ⟨(hsound.drifts_post _ _).sound, post_scenario.trans (creates_scenario _), hclock, ?_⟩
  -- the notice first, then the end, then the orphans
  refine .trans (.single (.signal .child)) (.trans (.single (hm.drifts_marked hq hlive e (.inl rfl))) ?_)
  rw [signalled_post, hpending]
  exact hadopts _

/-! ## The passage of time -/

/-- The next end is one that is planned. -/
theorem exists_of_nextEnding? {t : Nat} (h : m.nextEnding? = some (t, p, e)) :
    ∃ q ∈ m.children, q.pid = p ∧ q.planned = some (t, e) := by
  have hall : ∀ t p e, m.nextEnding? = some (t, p, e) → ∃ q ∈ m.children, q.pid = p ∧ q.planned = some (t, e) := by
    unfold nextEnding?
    refine List.foldlRecOn (motive := fun best => ∀ t p e, best = some (t, p, e) →
      ∃ q ∈ m.children, q.pid = p ∧ q.planned = some (t, e)) m.children _ nofun fun best ih q hq => ?_
    intro t p e h
    split at h
    · exact ih t p e h
    · cases h
      exact ⟨q, hq, rfl, ‹_›⟩
    · split at h
      · cases h
        exact ⟨q, hq, rfl, ‹_›⟩
      · exact ih t p e h
  exact hall t p e h

/-- A process that is to end next lives. -/
theorem Sound.drifts_nextEnding (hm : m.Sound) {t : Nat} (h : m.nextEnding? = some (t, p, e)) :
    m.Drifts (m.finish p e) := by
  obtain ⟨q, hq, rfl, hplanned⟩ := exists_of_nextEnding? h
  refine hm.drifts_finish (hm.child?_pid hq) ?_ e
  cases hlive : q.ended with
  | none => rfl
  | some e' => cases hplanned.symm.trans (hm.planned q hq (by rw [hlive]; rfl))

/-- A signal that is due arrives. -/
theorem Sound.drifts_arrival (hm : m.Sound) (t : Nat) (a : Arrival) :
    m.Drifts (({ m with clock := max m.clock t, arrivals := m.arrivals.erase a }).post a.signal a.sender) := by
  have htime : m.Drifts { m with clock := max m.clock t, arrivals := m.arrivals.erase a } :=
    hm.drifts_of_eq rfl (Nat.le_max_left ..) rfl rfl rfl
  exact htime.trans (htime.sound.drifts_post _ _)

/-- A process that is due ends. -/
theorem Sound.drifts_ending (hm : m.Sound) (t' : Nat) {t : Nat} (h : m.nextEnding? = some (t, p, e)) :
    m.Drifts (({ m with clock := max m.clock t' }).finish p e) := by
  have htime : m.Drifts { m with clock := max m.clock t' } :=
    hm.drifts_of_eq rfl (Nat.le_max_left ..) rfl rfl rfl
  exact htime.trans (htime.sound.drifts_nextEnding h)

/-- The next event is the arrival of a signal or the end of a process, and due. -/
theorem step?_cases {time : Nat} (h : m.step? time = some m') :
    (∃ a : Arrival, a.time ≤ time ∧
      m' = ({ m with clock := max m.clock a.time, arrivals := m.arrivals.erase a }).post a.signal a.sender) ∨
    ∃ t p e, m.nextEnding? = some (t, p, e) ∧ t ≤ time ∧ m' = ({ m with clock := max m.clock t }).finish p e := by
  unfold step? at h
  grind

/-- A step of the machine is the arrival of a signal or the end of a process. -/
theorem Sound.drifts_step (hm : m.Sound) {time : Nat} (h : m.step? time = some m') : m.Drifts m' := by
  obtain ⟨a, -, rfl⟩ | ⟨t, p, e, hnext, -, rfl⟩ := step?_cases h
  · exact hm.drifts_arrival a.time a
  · exact hm.drifts_ending t hnext

/-- By induction on the number of steps. -/
theorem Sound.drifts_steps (hm : m.Sound) (time n : Nat) : m.Drifts (steps time n m) := by
  induction n generalizing m with
  | zero => exact hm.drifts_refl
  | succ n ih =>
    rw [steps]
    split
    · exact hm.drifts_refl
    · have hstep := hm.drifts_step ‹_›
      exact hstep.trans (ih hstep.sound)

/-- Nothing but what may happen by itself happens as time passes. -/
theorem Sound.drifts_advance (hm : m.Sound) (time : Nat) : m.Drifts (m.advance time) :=
  let hsteps := hm.drifts_steps time m.eventsToCome
  hsteps.trans (hsteps.sound.drifts_of_eq rfl (Nat.le_max_left ..) rfl rfl rfl)

theorem Sound.drifts_settle (hm : m.Sound) : m.Drifts m.settle := hm.drifts_advance m.clock

/-- A step does not go beyond the time that it is taken for. -/
theorem step?_clock_le {time : Nat} (h : m.step? time = some m') : m'.clock ≤ max m.clock time := by
  obtain ⟨a, ha, rfl⟩ | ⟨t, p, e, -, ht, rfl⟩ := step?_cases h
  · rw [post_clock]
    exact Nat.max_le.mpr ⟨Nat.le_max_left .., ha.trans (Nat.le_max_right ..)⟩
  · rw [finish_clock]
    exact Nat.max_le.mpr ⟨Nat.le_max_left .., ht.trans (Nat.le_max_right ..)⟩

/-- Nor do any number of steps. -/
theorem steps_clock_le (time n : Nat) : (steps time n m).clock ≤ max m.clock time := by
  induction n generalizing m with
  | zero => exact Nat.le_max_left ..
  | succ n ih =>
    rw [steps]
    split
    · exact Nat.le_max_left ..
    · exact ih.trans (max_le (step?_clock_le ‹_›) (Nat.le_max_right ..))

/-- The clock shows the time up to which time has passed. -/
theorem Sound.advance_clock (hm : m.Sound) (time : Nat) : (m.advance time).clock = max m.clock time := by
  have hlow := (hm.drifts_steps time m.eventsToCome).clock_le
  have hhigh := steps_clock_le (m := m) time m.eventsToCome
  change max (steps time m.eventsToCome m).clock time = max m.clock time
  omega

/-- Settling takes no time. -/
theorem Sound.settle_clock (hm : m.Sound) : m.settle.clock = m.clock :=
  (hm.advance_clock m.clock).trans (Nat.max_self _)

/-! ## Signals to the children -/

/-- A process ends another time than it would have, which does not show yet. -/
theorem planEnd_pid (t : Nat) (e : Ending) (q : Process) : (planEnd t e q).pid = q.pid := by
  unfold planEnd
  split
  · split <;> rfl
  · rfl

theorem planEnd_ended (t : Nat) (e : Ending) (q : Process) : (planEnd t e q).ended = q.ended := by
  unfold planEnd
  split
  · split <;> rfl
  · rfl

theorem planEnd_shown (own : Pid) (t : Nat) (e : Ending) (q : Process) :
    (planEnd t e q).shown own = q.shown own := by
  unfold planEnd
  split
  · split <;> rfl
  · rfl

/-- What a process is going to do does not show. -/
theorem Sound.drifts_planEnd (hm : m.Sound) (hq : m.child? p = some q) (hlive : q.ended = none) (t : Nat) (e : Ending) :
    m.Drifts { m with children := m.children.map fun q => if q.pid = p then planEnd t e q else q } := by
  have hpid : ∀ q : Process, (if q.pid = p then planEnd t e q else q).pid = q.pid := fun q => by
    split
    · exact planEnd_pid t e q
    · rfl
  refine ⟨hm.map hpid (fun q' hq' => ?_) rfl rfl, rfl, le_rfl, ?_⟩
  · split
    · rename_i hp
      obtain rfl : q' = q := Option.some.inj ((hm.child?_pid hq').symm.trans (hp ▸ hq))
      rw [planEnd_ended, hlive]
      nofun
    · exact hm.planned q' hq'
  · have hchildren : ({ m with children := m.children.map fun q => if q.pid = p then planEnd t e q else q } : Machine).signalled
        = m.signalled := Signalled.ext (children_congr hpid (fun q' _ => by
          split
          · exact planEnd_shown ..
          · rfl) rfl rfl) rfl
    rw [hchildren]

/-- A signal that reaches a child ends it, or has it end some time, or is not noticed. -/
theorem Sound.drifts_deliver (hm : m.Sound) (s : Signal) (p : Pid) : m.Drifts (deliver s m p) := by
  unfold deliver
  split
  · exact hm.drifts_refl
  · rename_i q hq
    split
    · exact hm.drifts_refl
    · rename_i hnoticed
      have hlive : q.ended = none := by
        cases h : q.ended with
        | none => rfl
        | some e => exact absurd (by rw [h]; rfl) hnoticed
      dsimp only
      split
      · split
        · exact hm.drifts_finish hq hlive _
        · exact hm.drifts_planEnd hq hlive _ _
      · split
        · exact hm.drifts_finish hq hlive _
        · exact hm.drifts_refl
        · exact hm.drifts_planEnd hq hlive _ _

theorem Sound.drifts_delivers (hm : m.Sound) (s : Signal) (ps : List Pid) : m.Drifts (ps.foldl (deliver s) m) := by
  induction ps generalizing m with
  | nil => exact hm.drifts_refl
  | cons p ps ih =>
    have hd := hm.drifts_deliver s p
    exact hd.trans (ih hd.sound)

end Machine

end ContainerInit.Simulation
