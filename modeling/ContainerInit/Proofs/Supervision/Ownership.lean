import ContainerInit.Proofs.Dialogue.History
import ContainerInit.Proofs.Kernel.Children
import ContainerInit.Proofs.Supervision.Operation
import ContainerInit.Proofs.Supervision.Session

/-! # The ownership of processes

In a kernel that keeps its children until they are collected, every process that a service holds is such a
child, and belongs to that service alone.  Therefore no status is lost, and each one that is collected is
recorded with the service that owned the process.

## Waits that fail

What the kernel of `uncollected` is spared is a wait that fails and has collected its child all the same.  The
kernel as it is does that with a child whose end cannot be reported.  The service keeps the number of a process
then that is nobody's any more, and the kernel may give it to somebody else, so that even the numbers that
services hold need not be distinct any longer once a process has been forked.

As long as none is forked, less is lost.  That is what the parameter `lossy` is for, which says whether such
waits may happen: if they may, a process that a service holds is a child, or a wait for it has failed in this
way (`Unreported`).  What has to be shown for the stopping of services is shown for both kinds of kernel at
once, and what involves forks for the one without such losses.

## The order of events

A status is collected by one call and recorded after others, since the log is written to in between.  `Asked`
is what holds at a call, also in the middle of that, and `Owned` what holds between operations; `Collecting` is
the time from the one to the other. -/

namespace ContainerInit.Supervision

open ContainerInit.Action Kernel Relation

variable {r : Registry} {sup : Supervisor} {lossy : Prop} {n : Nat} {h : History (Board r)} {k k' : Children}
  {b : Board r} {i : r.Id} {p : Pid} {t : Termination}

/-- No process belongs to two services. -/
def Distinct (b : Board r) : Prop :=
  ∀ (i j : r.Id) p, b[i].pid = some p → b[j].pid = some p → i = j

/-- The last call has collected the process from the board, with its status. -/
def JustCollected (h : History (Board r)) (b : Board r) (p : Pid) (t : Termination) : Prop :=
  ∃ target, lastCall h = some ⟨(.wait target, b), .ok (t.status p)⟩

/-- From one state of a service to the other, the end of the process is recorded if it is that of the
service, and nothing else happens to its process. -/
def Recorded (p : Pid) (t : Termination) (s s' : Service.State) : Prop :=
  if s.pid = some p then s'.pid = none ∧ s'.exitCode = t.code
  else s'.pid = s.pid ∧ s'.exitCode = s.exitCode

/-- A wait for the process of the service has failed because its end could not be reported. -/
def Unreported (h : History (Board r)) (i : r.Id) (p : Pid) : Prop :=
  0 < p ∧ ∃ b : Board r, b[i].pid = some p ∧ ⟨(.wait p, b), .error .invalid⟩ ∈ h

/-- Every service holds a child of its own, or one that a wait may have lost, and what the last call has
collected is recorded. -/
structure Owned (lossy : Prop) (h : History (Board r)) (k : Children) (b : Board r) : Prop where
  distinct : Distinct b
  held : ∀ (i : r.Id) p, b[i].pid = some p → k.Has p ∨ lossy ∧ Unreported h i p
  recorded : ∀ b₀ p t, JustCollected h b₀ p t → ∀ i : r.Id, Recorded p t b₀[i] b[i]

/-- What holds at a call: also in between, while an end is written to the log before it is recorded. -/
structure Asked (lossy : Prop) (h : History (Board r)) (k : Children) (c : Kernel.Call) (b : Board r) : Prop where
  distinct : Distinct b
  held : ∀ (i : r.Id) p, b[i].pid = some p →
    (k.Has p ∨ lossy ∧ Unreported h i p) ∨ isLog c = true ∧ ∃ t, JustCollected h b p t
  recorded : isLog c = false → ∀ b₀ p t, JustCollected h b₀ p t → ∀ i : r.Id, Recorded p t b₀[i] b[i]
  notLost : ¬ lossy → ∀ name pid, c ≠ .log (lossRecord name pid)

/-- The call has failed, and has collected a child nevertheless. -/
def Loses (k : Children) : (c : Kernel.Call) → Kernel.signature.Answer c → Children → Prop
  | .wait _, .error _, k' => k' ≠ k
  | _, _, _ => False

/-- The kernel with its children, as far as not everything is collected at once.  Nothing is lost in it, unless
it is lossy. -/
def collecting (lossy : Prop) : World Kernel.signature where
  State := Children
  Drifts := Children.Drifts
  Answers k c a k' := c ≠ .wait (-1) ∧ k.answers c a k' ∧ (Loses k c a k' → lossy)

/-- The kernel in which nothing is lost. -/
abbrev uncollected : World Kernel.signature := collecting False

def ownership (r : Registry) (lossy : Prop) : Regime (collecting lossy) (Board r) where
  asks := Asked lossy
  inv := Owned lossy
  errors e := ∀ name pid, e ≠ .stillOwned name pid

/-! ## Processes are held -/

theorem Unreported.append (hu : Unreported h i p) (h' : History (Board r)) : Unreported (h ++ h') i p :=
  ⟨hu.1, hu.2.imp fun _ hb => ⟨hb.1, List.mem_append_left _ hb.2⟩⟩

theorem owned_initial (k : Children) : Owned lossy ([] : History (Board r)) k Board.initial where
  distinct i j p hi := by
    rw [Board.getElem_initial] at hi
    cases hi
  held i p hi := by
    rw [Board.getElem_initial] at hi
    cases hi
  recorded := fun _ _ _ ⟨_, ht⟩ => nomatch ht

/-- Services that hold children of their own are owned at the beginning of any operation. -/
theorem owned_of_distinct (hd : Distinct b) (hheld : ∀ (i : r.Id) p, b[i].pid = some p → k.Has p) :
    Owned lossy [] k b :=
  ⟨hd, fun i p hi => .inl (hheld i p hi), fun _ _ _ ⟨_, ht⟩ => nomatch ht⟩

/-- Where nothing is lost a service holds a child. -/
theorem Owned.has (hb : Owned False h k b) (hi : b[i].pid = some p) : k.Has p :=
  (hb.held i p hi).resolve_right fun hl => hl.1

theorem Owned.positive (hb : Owned lossy h k b) (hi : b[i].pid = some p) : 0 < p := by
  rcases hb.held i p hi with hp | ⟨-, hu⟩
  · exact hp.positive
  · exact hu.1

/-- What happens to the children by itself takes none of them away. -/
theorem Owned.drifts (hb : Owned lossy h k b) (d : ReflTransGen Children.Drifts k k') : Owned lossy h k' b where
  distinct := hb.distinct
  held i p hp := (hb.held i p hp).imp_left fun hp => hp.drifts d
  recorded := hb.recorded

/-- What holds between operations holds at any call that does not tell of a loss. -/
theorem Owned.asked (hb : Owned lossy h k b) {c : Kernel.Call}
    (hc : ¬ lossy → ∀ name pid, c ≠ .log (lossRecord name pid)) : Asked lossy h k c b :=
  ⟨hb.distinct, fun i p hp => .inl (hb.held i p hp), fun _ => hb.recorded, hc⟩

/-- The last call has collected one process at most. -/
theorem JustCollected.unique {b₀ b₁ : Board r} {p₀ p₁ : Pid} {t₀ t₁ : Termination}
    (h₀ : JustCollected h b₀ p₀ t₀) (h₁ : JustCollected h b₁ p₁ t₁) : b₀ = b₁ ∧ p₀ = p₁ ∧ t₀ = t₁ := by
  obtain ⟨target, h₀⟩ := h₀
  obtain ⟨target', h₁⟩ := h₁
  rw [h₀, Option.some.injEq, Sigma.mk.injEq, Prod.mk.injEq] at h₁
  obtain ⟨⟨hw, rfl⟩, ha⟩ := h₁
  cases hw
  obtain ⟨rfl, rfl⟩ := Termination.status_inj.mp (Except.ok.inj (eq_of_heq ha))
  exact ⟨rfl, rfl, rfl⟩

/-- A call that is not a wait collects nothing. -/
theorem not_justCollected {c : Kernel.Call} {a : Kernel.signature.Answer c} (hl : isLog c = false)
    (hc : ∀ target, c ≠ .wait target) {b₀ : Board r} : ¬ JustCollected (h ++ [⟨(c, b), a⟩]) b₀ p t := by
  rintro ⟨target, ht⟩
  rw [lastCall_append hl] at ht
  cases ht
  exact hc target rfl

theorem not_justCollected_wait {target : Pid} {a : Except Errno WaitStatus}
    (ha : ∀ p (t : Termination), a ≠ .ok (t.status p)) {b₀ : Board r} :
    ¬ JustCollected (h ++ [⟨(.wait target, b), a⟩]) b₀ p t := by
  rintro ⟨target', ht⟩
  rw [lastCall_append rfl] at ht
  cases ht
  exact ha p t rfl

/-- A call that collects nothing leaves nothing to be recorded. -/
theorem Owned.call (hb : Owned lossy h k b) {c : Kernel.Call} {a : Kernel.signature.Answer c}
    (hc : isLog c = false → ∀ b₀ p t, ¬ JustCollected (h ++ [⟨(c, b), a⟩]) b₀ p t)
    (hk : ∀ p, k.Has p → k'.Has p) : Owned lossy (h ++ [⟨(c, b), a⟩]) k' b where
  distinct := hb.distinct
  held i p hp := (hb.held i p hp).imp (hk p) fun hl => ⟨hl.1, hl.2.append _⟩
  recorded b₀ p t ht := by
    cases hl : isLog c with
    | true =>
      obtain ⟨l, rfl⟩ := isLog_eq_true_iff.mp hl
      rw [JustCollected, lastCall_append_log] at ht
      exact hb.recorded b₀ p t ht
    | false => exact absurd ht (hc hl b₀ p t)

/-- A call that is neither a fork nor a wait, and whose record is not that of a loss. -/
theorem Owned.call_of_ne (hb : Owned lossy h k b) {c : Kernel.Call} {a : Kernel.signature.Answer c}
    (hc : ∀ target, c ≠ .wait target) (hk : ∀ p, k.Has p → k'.Has p) :
    Owned lossy (h ++ [⟨(c, b), a⟩]) k' b :=
  hb.call (fun hl _ _ _ => not_justCollected hl hc) hk

/-- A wait that has collected nothing. -/
theorem Owned.call_wait (hb : Owned lossy h k b) {target : Pid} {a : Except Errno WaitStatus}
    (ha : ∀ p (t : Termination), a ≠ .ok (t.status p)) : Owned lossy (h ++ [⟨(.wait target, b), a⟩]) k b :=
  hb.call (fun _ _ _ _ => not_justCollected_wait ha) fun _ => id

/-- A wait loses the process of a service, which holds it still. -/
theorem Owned.call_lost (hb : Owned lossy h k b) (hl : lossy) (hpos : 0 < p) :
    Owned lossy (h ++ [⟨(.wait p, b), .error .invalid⟩]) (k.remove p) b where
  distinct := hb.distinct
  held i q hq := by
    by_cases e : q = p
    · subst e
      exact .inr ⟨hl, hpos, b, hq, List.mem_append_right _ (List.mem_singleton_self _)⟩
    · exact (hb.held i q hq).imp (Children.Has.remove · e) fun hl => ⟨hl.1, hl.2.append _⟩
  recorded b₀ q t ht := absurd ht (not_justCollected_wait (a := .error .invalid) nofun)

/-- What has to hold of the new state of a service if its process stays the same. -/
theorem Owned.set_of_eq (hb : Owned lossy h k b) {s : Service.State} (hp : s.pid = b[i].pid)
    (hc : s.exitCode = b[i].exitCode) : Owned lossy h k (b.set i s) := by
  have hpid : ∀ j : r.Id, (b.set i s)[j].pid = b[j].pid := fun j => by
    by_cases e : i = j
    · subst e; rw [Board.getElem_set_self, hp]
    · rw [Board.getElem_set_ne _ _ e]
  have hcode : ∀ j : r.Id, (b.set i s)[j].exitCode = b[j].exitCode := fun j => by
    by_cases e : i = j
    · subst e; rw [Board.getElem_set_self, hc]
    · rw [Board.getElem_set_ne _ _ e]
  refine ⟨fun j l p hj hl => ?_, fun j p hj => ?_, fun b₀ p t ht j => ?_⟩
  · rw [hpid] at hj hl
    exact hb.distinct j l p hj hl
  · rw [hpid] at hj
    exact hb.held j p hj
  · rw [Recorded, hpid, hcode]
    exact hb.recorded b₀ p t ht j

/-- A service gives up its process where there is nothing to be recorded. -/
theorem Owned.freed (hb : Owned lossy h k b) (hj : ∀ b₀ q t, ¬ JustCollected h b₀ q t) (i : r.Id) (code : Int) :
    Owned lossy h k (b.set i (b[i].ended code)) := by
  have hpid : ∀ {j : r.Id} {q : Pid}, (b.set i (b[i].ended code))[j].pid = some q → b[j].pid = some q :=
    fun {j q} hj => by
      by_cases e : i = j
      · subst e; rw [Board.getElem_set_self] at hj; cases hj
      · rwa [Board.getElem_set_ne _ _ e] at hj
  exact ⟨fun j l q hj hl => hb.distinct j l q (hpid hj) (hpid hl), fun j q hj => hb.held j q (hpid hj),
    fun b₀ q t ht => absurd ht (hj b₀ q t)⟩

/-- Calls that leave the children alone, and do not say that a status was lost. -/
theorem keeps_ask_of_ne (c : Kernel.Call) (hf : ∀ child, c ≠ .fork child) (hw : ∀ target, c ≠ .wait target)
    (hl : ∀ name pid, c ≠ .log (lossRecord name pid)) : Keeps (ownership r lossy) (Action.ask c) := by
  intro n h k b hb
  refine assures_ask.mpr fun k₁ d => ⟨(hb.drifts d).asked fun _ => hl, fun a k₂ ha => ⟨?_, trivial⟩⟩
  obtain rfl := Children.eq_of_answers hf hw ha.2.1
  exact (hb.drifts d).call_of_ne hw fun _ => id

theorem admits_ownership : Admits (ownership r lossy) where
  errors _ _ := id
  ask c hc := by
    refine keeps_ask_of_ne c ?_ ?_ ?_
    · rintro child rfl; exact hc
    · rintro target rfl; exact hc
    · rintro name pid rfl; exact hc name pid rfl

/-- A new process is that of no service yet. -/
theorem Owned.assures_supervisor_spawn {argv : List String} (hb : Owned False h k b) :
    Assures uncollected (ownership r False).asks (sup.spawn argv) (fun h' k' res b' => b' = b ∧ Owned False h' k' b ∧
      match res with
      | .ok p => k'.Has p ∧ (∀ i : r.Id, b[i].pid ≠ some p) ∧ ∀ b₀ q t, ¬ JustCollected h' b₀ q t
      | .error e => ∀ name pid, e ≠ .stillOwned name pid) n h k b := by
  refine assures_bind.mpr (assures_ofExcept.mpr ?_)
  cases hp : Supervisor.program argv with
  | error e =>
    refine ⟨rfl, hb, ?_⟩
    obtain ⟨fault, rfl⟩ := exists_fault_of_program_eq_error hp
    nofun
  | ok command =>
    refine assures_bind.mpr (assures_ask.mpr fun k₁ d => ?_)
    have hb := hb.drifts d
    refine ⟨hb.asked nofun, fun answer k₂ ha => ?_⟩
    cases answer with
    | error e =>
      obtain rfl : k₂ = k₁ := ha.2.1
      exact ⟨rfl, hb.call_of_ne nofun fun _ => id, nofun⟩
    | ok p =>
      obtain ⟨-, ⟨hp, hfresh, g, rfl⟩, -⟩ := ha
      refine assures_bind.mpr (assures_ask.mpr fun k₃ d₃ => ?_)
      have hb₂ : Owned False (h ++ [⟨(.fork ⟨argv, sup.savedMask⟩, b), .ok p⟩]) (k₁.insert p hp ⟨g, none⟩) b :=
        hb.call_of_ne nofun fun _ => Children.Has.insert
      have hb₃ := hb₂.drifts d₃
      refine ⟨hb₃.asked nofun, fun _ k₄ ha => ?_⟩
      obtain rfl : k₄ = k₃ := ha.2.1
      refine ⟨rfl, hb₃.call_of_ne nofun fun _ => id, ?_, fun i hi => ?_, ?_⟩
      · exact Children.Has.drifts ⟨_, Children.process_insert_self⟩ d₃
      · obtain ⟨q, hq⟩ := hb.has hi
        cases hq.symm.trans hfresh
      · rintro b₀ q t ⟨target, ht⟩
        rw [lastCall_append_log, lastCall_append rfl] at ht
        cases ht

/-- A new process is taken by a service that has none. -/
theorem Owned.started (hb : Owned False h k b) (hc : k.Has p) (hne : ∀ i : r.Id, b[i].pid ≠ some p)
    (hj : ∀ b₀ q t, ¬ JustCollected h b₀ q t) (i : r.Id) :
    Owned False h k (b.set i (b[i].started p)) := by
  have hpid : ∀ {j : r.Id} {q : Pid}, (b.set i (b[i].started p))[j].pid = some q →
      i = j ∧ q = p ∨ i ≠ j ∧ b[j].pid = some q := fun {j q} hq => by
    by_cases e : i = j
    · subst e
      rw [Board.getElem_set_self] at hq
      exact .inl ⟨rfl, (Option.some.inj hq).symm⟩
    · rw [Board.getElem_set_ne _ _ e] at hq
      exact .inr ⟨e, hq⟩
  refine ⟨fun j l q hq hq' => ?_, fun j q hq => ?_, fun b₀ q t ht => absurd ht (hj b₀ q t)⟩
  · rcases hpid hq with ⟨rfl, rfl⟩ | ⟨-, hq⟩ <;> rcases hpid hq' with ⟨rfl, e⟩ | ⟨-, hq'⟩
    · rfl
    · exact absurd hq' (hne l)
    · exact absurd (e ▸ hq) (hne j)
    · exact hb.distinct j l q hq hq'
  · rcases hpid hq with ⟨-, rfl⟩ | ⟨-, hq⟩
    · exact .inl hc
    · exact hb.held j q hq

/-- A service takes a new process, or is left as it is. -/
theorem Owned.assures_spawned (hb : Owned False h k b) (i : r.Id) {argv : List String} :
    Assures uncollected (ownership r False).asks (sup.spawn argv) (fun h k res b => match res with
      | .ok p => Owned False h k (b.set i (b[i].started p))
      | .error e => Owned False h k (b.set i b[i].failed) ∧ ∀ name pid, e ≠ .stillOwned name pid) n h k b := by
  refine hb.assures_supervisor_spawn.imp ?_
  rintro h k res b' ⟨rfl, hb, hres⟩
  cases res with
  | ok p =>
    obtain ⟨hc, hne, hj⟩ := hres
    exact hb.started hc hne hj i
  | error e => exact ⟨hb.set_of_eq rfl rfl, hres⟩

/-! ## Children are collected -/

/-- A child has been collected, and its end is not recorded yet. -/
structure Collecting (lossy : Prop) (h : History (Board r)) (k : Children) (b : Board r) (p : Pid)
    (t : Termination) : Prop where
  last : JustCollected h b p t
  distinct : Distinct b
  others : ∀ (i : r.Id) q, b[i].pid = some q → q ≠ p → k.Has q ∨ lossy ∧ Unreported h i q

/-- A wait that may collect something, case by case. -/
theorem Owned.collected (hb : Owned lossy h k b) (target : Pid) :
    Collecting lossy (h ++ [⟨(.wait target, b), .ok (t.status p)⟩]) (k.remove p) b p t where
  last := ⟨target, lastCall_append rfl⟩
  distinct := hb.distinct
  others i q hq hne := (hb.held i q hq).imp (Children.Has.remove · hne) fun hl => ⟨hl.1, hl.2.append _⟩

namespace Collecting

variable (hb : Collecting lossy h k b p t)

include hb

theorem drifts (d : ReflTransGen Children.Drifts k k') : Collecting lossy h k' b p t :=
  ⟨hb.last, hb.distinct, fun i q hq hne => (hb.others i q hq hne).imp_left fun hq => hq.drifts d⟩

theorem asked {l : Log.Record} (hl : ∀ name pid, l ≠ lossRecord name pid) : Asked lossy h k (.log l) b where
  distinct := hb.distinct
  held i q hq := by
    by_cases hne : q = p
    · exact .inr ⟨rfl, t, hne ▸ hb.last⟩
    · exact .inl (hb.others i q hq hne)
  recorded := nofun
  notLost _ name pid e := hl name pid (Kernel.Call.log.inj e)

theorem log {l : Log.Record} : Collecting lossy (h ++ [⟨(.log l, b), ()⟩]) k b p t where
  last := by rw [JustCollected, lastCall_append_log]; exact hb.last
  distinct := hb.distinct
  others i q hq hne := (hb.others i q hq hne).imp_right fun hl => ⟨hl.1, hl.2.append _⟩

/-- The end is recorded with the service that owned the process. -/
theorem ended (hp : b[i].pid = some p) : Owned lossy h k (b.set i (b[i].ended t.code)) := by
  have hne : ∀ {j : r.Id}, i ≠ j → b[j].pid ≠ some p := fun e hj => e (hb.distinct _ _ p hp hj)
  have hpid : ∀ {j : r.Id} {q : Pid}, (b.set i (b[i].ended t.code))[j].pid = some q →
      i ≠ j ∧ b[j].pid = some q := fun {j q} hj => by
    by_cases e : i = j
    · subst e; rw [Board.getElem_set_self] at hj; cases hj
    · rw [Board.getElem_set_ne _ _ e] at hj; exact ⟨e, hj⟩
  refine ⟨fun j l q hj hl => ?_, fun j q hj => ?_, fun b₀ q u ht j => ?_⟩
  · exact hb.distinct j l q (hpid hj).2 (hpid hl).2
  · refine hb.others j q (hpid hj).2 ?_
    rintro rfl
    exact hne (hpid hj).1 (hpid hj).2
  · obtain ⟨rfl, rfl, rfl⟩ := ht.unique hb.last
    by_cases e : i = j
    · subst e
      rw [Recorded, if_pos hp, Board.getElem_set_self]
      exact ⟨rfl, rfl⟩
    · rw [Recorded, if_neg (hne e), Board.getElem_set_ne _ _ e]
      exact ⟨rfl, rfl⟩

/-- There is nothing to record for an orphan. -/
theorem orphan (hp : ∀ i : r.Id, b[i].pid ≠ some p) : Owned lossy h k b where
  distinct := hb.distinct
  held i q hq := hb.others i q hq fun e => hp i (e ▸ hq)
  recorded b₀ q u ht i := by
    obtain ⟨rfl, rfl, rfl⟩ := ht.unique hb.last
    rw [Recorded, if_neg (hp i)]
    exact ⟨rfl, rfl⟩

end Collecting

/-- What the attempt to collect a process has come to, where `E` says that it had ended: it has been collected,
or it lives, or it was there no more, because it had been lost before. -/
inductive Sought (lossy E : Prop) (h : History (Board r)) (k : Children) (b : Board r) (p : Pid) :
    Supervisor.Collected → Prop where
  | collected {t : Termination} (hb : Collecting lossy h k b p t) : Sought lossy E h k b p ⟨true, some (t.status p)⟩
  | alive (hb : Owned lossy h k b) (hE : ¬ E) : Sought lossy E h k b p ⟨false, none⟩
  | gone (hb : Owned lossy h k b) (hE : ¬ E) (hl : lossy) (hj : ∀ b₀ q t, ¬ JustCollected h b₀ q t) :
      Sought lossy E h k b p ⟨true, none⟩

/-- A child is collected if it has ended, which it has at the latest if `E` holds, or else lives on. -/
theorem Owned.assures_collect {E : Prop} (hb : Owned lossy h k b) (hpos : 0 < p) (hp : k.Has p ∨ lossy)
    (hE : E → k.HasEnded p) :
    Assures (collecting lossy) (ownership r lossy).asks (Supervisor.collect p) (fun h' k' res b' => b' = b ∧
      match res with
      | .ok c => Sought lossy E h' k' b p c
      | .error e => Owned lossy h' k' b ∧ ∀ name pid, e ≠ .stillOwned name pid) n h k b := by
  refine assures_iterate (fun h (k : Children) last b' => b' = b ∧ last = none ∧ Owned lossy h k b ∧
    (k.Has p ∨ lossy) ∧ (E → k.HasEnded p)) ⟨rfl, rfl, hb, hp, hE⟩ ?_
  rintro h (k : Children) last b' ⟨rfl, rfl, hb, hp, hE⟩
  refine assures_bind.mpr (assures_ask.mpr fun k₁ d => ?_)
  have hb := hb.drifts d
  have hE := fun h => (hE h).drifts d
  have hp : Children.Has k₁ p ∨ lossy := hp.imp_left fun hp => hp.drifts d
  refine ⟨hb.asked nofun, fun answer k₂ ⟨_, ⟨found, hf, hk⟩, hlossy⟩ => ?_⟩
  subst hk
  cases hf with
  | revealed hr =>
    cases hr with
    | @ended p' q t hq hc ht =>
      obtain rfl := hc.eq hpos
      by_cases hrep : t.Reportable
      · rw [Termination.report_of_reportable hrep]
        dsimp only
        split
        case h_1 heq => cases t <;> cases heq
        case h_2 status _ heq =>
          obtain rfl := Except.ok.inj heq
          refine assures_bind.mpr (assures_ask.mpr fun k₃ d₃ => ?_)
          have hcol := (hb.collected (t := t) p').drifts d₃
          refine ⟨hcol.asked nofun, fun _ k₄ ha => ?_⟩
          obtain rfl : k₄ = k₃ := ha.2.1
          dsimp only
          rw [if_pos Termination.pid?_status]
          exact ⟨rfl, .collected hcol.log⟩
        case h_3 heq => cases heq
      · rw [Termination.report_of_not_reportable hrep] at hlossy ⊢
        have hl : lossy := hlossy fun e => by
          have hnone : (k₁.remove p').process p' = none := Children.process_remove_self
          rw [show k₁.remove p' = k₁ from e] at hnone
          cases hq.symm.trans hnone
        exact ⟨rfl, hb.call_lost hl hpos, nofun⟩
    | @stillAlive p' q hq hc hne =>
      refine ⟨rfl, .alive ?_ fun h => ?_⟩
      · exact hb.call_wait fun _ _ e => Termination.status_ne_stillAlive (Except.ok.inj e).symm
      · obtain ⟨q, t, hq, ht⟩ := hE h
        rw [hne p q hq Children.covers_self] at ht
        cases ht
    | noChild hn =>
      have hnot : ¬ Children.Has k₁ p := fun ⟨q, hq⟩ => hn p q hq Children.covers_self
      refine ⟨rfl, .gone (hb.call_wait nofun) (fun h => hnot (hE h).has) (hp.resolve_left hnot) fun _ _ _ => ?_⟩
      exact not_justCollected_wait (a := .error .noChild) nofun
  | @failed e he =>
    have hb : Owned lossy (h ++ [⟨(.wait p, b'), .error e⟩]) k₁ b' := hb.call_wait nofun
    dsimp only
    rw [if_neg he]
    split
    · exact ⟨rfl, rfl, hb, hp, hE⟩
    · exact ⟨rfl, hb, nofun⟩

theorem finalCode_status (i : r.Id) (p : Pid) (t : Termination) :
    finalCode i p (some (t.status p)) = pure t.code := by simp [finalCode]

/-- To record an end is to update the state and to write to the log. -/
theorem assures_recordEnd {code : Int} (hb : Owned lossy h k (b.set i (b[i].ended code))) :
    Assures (collecting lossy) (ownership r lossy).asks (recordEnd i p code)
      ((ownership r lossy).ends fun _ _ _ _ => True) n h k b := by
  refine assures_bind.mpr (assures_update.mpr (assures_bind.mpr (assures_stateOf.mpr ?_)))
  exact admits_ownership.ask _ (routine_log_of_level (by decide)) hb

/-- A process that has ended is found to be gone. -/
theorem Owned.assures_checkProcess {E : Prop} (hb : Owned lossy h k b)
    (hE : E → ∀ p, b[i].pid = some p → k.HasEnded p) :
    Assures (collecting lossy) (ownership r lossy).asks (checkProcess i)
      ((ownership r lossy).ends fun _ _ running _ => E → running = false) n h k b := by
  refine assures_bind.mpr (assures_stateOf.mpr ?_)
  dsimp only
  cases hp : b[i].pid with
  | none => exact ⟨hb, fun _ => rfl⟩
  | some p =>
    refine (hb.assures_collect (hb.positive hp) ((hb.held i p hp).imp_right And.left) fun h => hE h p hp).bind ?_ ?_
    · rintro h k c b' ⟨rfl, hc⟩
      cases hc with
      | collected hcol =>
        dsimp only
        rw [finalCode_status]
        exact (assures_recordEnd (hcol.ended hp)).bind_ends fun h k _ b' hb _ => ⟨hb, fun _ => rfl⟩
      | alive hb hE => exact ⟨hb, fun h => absurd h hE⟩
      | gone hb _ hl hj =>
        -- the process was lost before, and so is its status
        refine assures_bind.mpr (assures_bind.mpr (assures_ask.mpr fun k₁ d => ?_))
        refine ⟨(hb.drifts d).asked fun hn => absurd hl hn, fun _ k₂ ha => ?_⟩
        obtain rfl : k₂ = k₁ := ha.2.1
        have hlog := (hb.drifts d).call_of_ne (c := .log (lossRecord (r.service i).name p)) (a := ()) nofun fun _ => id
        refine (assures_recordEnd (hlog.freed (fun b₀ q t => ?_) i _)).bind_ends fun h k _ b' hb _ => ⟨hb, fun _ => rfl⟩
        rw [JustCollected, lastCall_append_log]
        exact hj b₀ q t
    · rintro h k e b' ⟨rfl, hb, he⟩
      exact ⟨hb, he⟩

theorem Owned.keeps_checkProcess (i : r.Id) : Keeps (ownership r lossy) (checkProcess i) := by
  intro n h k b hb
  refine (hb.assures_checkProcess False.elim).imp fun h k res b hm => ?_
  cases res with
  | ok running => exact ⟨hm.1, trivial⟩
  | error e => exact hm

/-! ## Ended children are found -/

/-- The children that a look has found are there. -/
def Present (k : Children) : Supervisor.ChildState → Prop
  | .exited p => k.HasReportable p
  | .running => ∃ p, k.Has p
  | .noChildren => True

section Found

variable {R : Regime (collecting lossy) (Board r)} (hR : Admits R)

include hR

/-- A look finds nobody who is not there. -/
theorem assures_peek (hi : R.inv h k b) (target : Pid) :
    Assures (collecting lossy) R.asks (Supervisor.peek target)
      (R.ends fun _ k' state _ => Present k' state) n h k b := by
  refine assures_repeatUntil R.inv hi ?_
  intro h (k : Children) b hi
  refine assures_bind.mpr (assures_ask.mpr fun k₁ d => ?_)
  obtain ⟨hask, hans⟩ := assures_ask.mp (hR.ask (.peek target) trivial (n := n) hi) k₁ d
  refine ⟨hask, fun answer k₂ ha => ?_⟩
  have hi := (hans answer k₂ ha).1
  obtain ⟨-, ⟨⟨found, hf⟩, rfl⟩, -⟩ := ha
  cases hf with
  | revealed hr =>
    cases hr with
    | @ended p q t hq hc ht =>
      by_cases hrep : t.Reportable
      · rw [Termination.report_of_reportable hrep] at hi ⊢
        have he : (t.status p).pid?.elim .running .exited = Supervisor.ChildState.exited p := by
          rw [Termination.pid?_status, Option.elim_some]
        dsimp only
        rw [he]
        exact ⟨hi, q, t, hq, ht, hrep⟩
      · rw [Termination.report_of_not_reportable hrep] at hi ⊢
        exact ⟨hi, hR.errors _ rfl fun _ _ => nofun⟩
    | stillAlive hq _ _ => exact ⟨hi, _, _, hq⟩
    | noChild _ => exact ⟨hi, trivial⟩
  | @failed e he =>
    dsimp only
    rw [if_neg he]
    split
    · exact hi
    · exact ⟨hi, hR.errors _ rfl fun _ _ => nofun⟩

theorem assures_awaitExit (hi : R.inv h k b) (target : Pid) :
    Assures (collecting lossy) R.asks (Supervisor.awaitExit target none)
      (R.ends fun _ k' state _ => Present k' state) n h k b := by
  refine assures_repeatUntil R.inv hi ?_
  intro h (k : Children) b hi
  refine (assures_peek hR hi target).bind ?_ fun _ _ _ _ hm => hm
  intro h k state b hm
  cases state <;> exact hm

/-- Only children that have ended in a way that can be reported are collected one by one, and in the end a child is
left or there is none. -/
theorem assures_reapEnded (hone : ∀ ⦃p n h k b⦄, R.inv h k b → Children.HasReportable k p →
    Assures (collecting lossy) R.asks (reapOne p) (R.ends fun _ _ _ _ => True) n h k b) (hi : R.inv h k b) :
    Assures (collecting lossy) R.asks reapEnded
      (R.ends fun _ (k' : Children) found _ => found = false → ∃ p, k'.Has p) n h k b := by
  refine assures_repeatUntil R.inv hi ?_
  intro h (k : Children) b hi
  refine (assures_awaitExit hR hi (-1)).bind ?_ fun _ _ _ _ hm => hm
  rintro h k state b ⟨hi, hs⟩
  cases state with
  | noChildren => exact ⟨hi, nofun⟩
  | running => exact ⟨hi, fun _ => hs⟩
  | exited p =>
    refine (hone hi hs).bind ?_ fun _ _ _ _ hm => hm
    exact fun h k _ b hm => hm.1

theorem keeps_reapEnded (hone : ∀ ⦃p n h k b⦄, R.inv h k b → Children.HasReportable k p →
    Assures (collecting lossy) R.asks (reapOne p) (R.ends fun _ _ _ _ => True) n h k b) : Keeps R reapEnded := by
  intro n h k b hi
  refine (assures_reapEnded hR hone hi).imp fun h k res b hm => ?_
  cases res with
  | ok found => exact ⟨hm.1, trivial⟩
  | error e => exact hm

end Found

/-- An ended child is collected, and its end recorded with the service that owned it if there is one. -/
theorem Owned.assures_reapOne (hb : Owned lossy h k b) (hp : k.HasEnded p) :
    Assures (collecting lossy) (ownership r lossy).asks (reapOne p)
      ((ownership r lossy).ends fun _ _ _ _ => True) n h k b := by
  refine assures_bind.mpr (assures_get.mpr ?_)
  dsimp only
  cases ho : b.owner? p with
  | some i =>
    have hi : b[i].pid = some p := by simpa using List.find?_some ho
    have hE : True → ∀ q, b[i].pid = some q → k.HasEnded q := fun _ q hq => by
      rwa [← Option.some.inj (hi.symm.trans hq)]
    refine (hb.assures_checkProcess hE).bind_ends fun h k running b hb hr => ?_
    obtain rfl := hr trivial
    exact ⟨hb, trivial⟩
  | none =>
    have hne : ∀ i : r.Id, b[i].pid ≠ some p := fun i => by
      simpa using List.find?_eq_none.mp ho i (List.mem_finRange i)
    refine (hb.assures_collect hp.has.positive (.inl hp.has) fun _ : True => hp).bind ?_ ?_
    · rintro h k c b' ⟨rfl, hc⟩
      cases hc with
      | collected hcol => exact admits_ownership.ask _ (routine_log_of_source (by decide)) (hcol.orphan hne)
      | alive _ hE => exact absurd trivial hE
      | gone _ hE => exact absurd trivial hE
    · rintro h k e b' ⟨rfl, hb, he⟩
      exact ⟨hb, he⟩

/-- Services are stopped under the ownership of processes, also where some are lost. -/
theorem enduresStops_ownership : EnduresStops (ownership r lossy) where
  toAdmits := admits_ownership
  terminate _ p _ _ _ _ _ := keeps_ask_of_ne (.kill p _) nofun nofun nofun
  checkProcess := Owned.keeps_checkProcess
  stopRequested _ _ _ _ hb _ := hb.set_of_eq rfl rfl
  stopWithdrawn _ _ _ _ hb := hb.set_of_eq rfl rfl
  reapEnded := keeps_reapEnded admits_ownership fun _ _ _ _ _ hb hp => Owned.assures_reapOne hb hp.hasEnded

/-! ## Sessions -/

theorem Owned.keeps_collectAll : Keeps (ownership r False) (Supervisor.collect (-1)) := by
  refine .iterate (fun last n h k b hb => ?_) none
  refine assures_bind.mpr (assures_ask.mpr fun k₁ d => ⟨(hb.drifts d).asked nofun, fun _ _ ha => ?_⟩)
  exact absurd rfl ha.1

theorem endures_ownership (sup : Supervisor) : Endures (ownership r False) sup where
  toEnduresStops := enduresStops_ownership
  spawned i _ _ _ _ hb _ := hb.assures_spawned i

theorem servesAll_ownership (sup : Supervisor) : ServesAll (ownership r False) sup where
  toServes := (endures_ownership sup).serves (by rintro _ he name pid rfl; cases he)
  kill target s := keeps_ask_of_ne (.kill target s) nofun nofun nofun
  awaitSignal timeout := keeps_ask_of_ne (.awaitSignal timeout) nofun nofun nofun
  collectAll := Owned.keeps_collectAll

/-- At every moment of every session, in a kernel that keeps its children, no process belongs to two
services, and the process of a service is a child that has not been collected, apart from records of the
log about one that the last call has collected.  Outside of those records, what the last call has
collected is recorded with the service that owned it and with no other.  No status is ever lost, and no
process is found to be owned after it should be gone. -/
theorem session_owned (sup : Supervisor) (qs : List (Request r)) (k : Children) :
    Always uncollected (session sup qs) Board.initial k fun h k moment b =>
      (∀ (i j : r.Id) p, b[i].pid = some p → b[j].pid = some p → i = j) ∧
      (∀ (i : r.Id) p, b[i].pid = some p → k.Has p ∨
        (∃ l, moment = .asking (.log l)) ∧ ∃ t, JustCollected h b p t) ∧
      ((∀ l, moment ≠ .asking (.log l)) →
        ∀ b₀ p t, JustCollected h b₀ p t → ∀ i : r.Id, Recorded p t b₀[i] b[i]) ∧
      (∀ name pid, moment ≠ .asking (.log (lossRecord name pid))) ∧
      ∀ results, moment = .ended (.ok results) → ∀ name pid, .error (.stillOwned name pid) ∉ results := by
  have hs := servesAll_ownership (r := r) sup
  refine always_of_assures (fun n => hs.session qs (owned_initial k)) (fun h k c b hb => ?_) ?_
  · refine ⟨hb.distinct, fun i p hp => ?_, fun hc => hb.recorded ?_,
      fun name pid e => hb.notLost id name pid (Moment.asking.inj e), nofun⟩
    · refine (hb.held i p hp).imp (fun hk => hk.resolve_right And.left) fun ⟨hl, hj⟩ => ⟨?_, hj⟩
      exact (isLog_eq_true_iff.mp hl).imp fun l e => congrArg _ e
    · exact isLog_eq_false_iff.mpr fun l e => hc l (congrArg _ e)
  · rintro h k₁ k₂ res b ⟨hb, l, rfl, hl⟩ d
    have hb := hb.drifts d
    refine ⟨hb.distinct, fun i p hp => .inl (hb.has hp), fun _ => hb.recorded, nofun, ?_⟩
    rintro results ⟨⟩ name pid hm
    exact hl _ hm name pid rfl

end ContainerInit.Supervision
