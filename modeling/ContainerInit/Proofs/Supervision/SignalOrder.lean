import ContainerInit.Proofs.Kernel.Clock
import ContainerInit.Proofs.Supervision.Shutdown

/-! # The order of signals

The signals of a shutdown come in three stages: the services are asked to end, each at most once, then the target of
the forceful part is, once, and then it is killed.  Nobody is killed before the deadline, as long as a wait for a
signal takes the whole of its time before it is given up; and no process is started meanwhile.

## Stages

`HasSent` says exactly which signals have been sent so far, and since when.  Within a stage nothing is sent, and the
regime `quiet` covers all of it at once; it is kept by every operation that neither forks nor signals.  What leads from
one stage to the next is a single call, and is looked at by itself.

## Time

The clock of this world only goes forward.  That the deadline has been reached is known once a wait until then has been
given up, and every kill comes after such a wait; so the kills come late enough, however long all else has taken. -/

namespace ContainerInit.Supervision

open ContainerInit.Action Kernel

variable {r : Registry} {n : Nat} {h : History (Board r)} {t t' start time : Nat} {b b₀ : Board r} {i : r.Id}
  {is : List r.Id} {p : Plan} {c : Call} {q target : Pid} {s : Signal} {l : List (Pid × Signal)} {kills : Nat}

/-! ## What has been sent -/

/-- Whom a call sends a signal, and which. -/
def signalOf? : Call → Option (Pid × Signal)
  | .kill target s => some (target, s)
  | _ => none

/-- The signals that have been sent, in their order. -/
def sent (h : History (Board r)) : List (Pid × Signal) := h.filterMap fun e => signalOf? e.1.1

theorem sent_concat {a : signature.Answer c} :
    sent (h ++ [⟨(c, b), a⟩]) = sent h ++ (signalOf? c).toList := by
  cases hc : signalOf? c <;> simp [sent, hc]

/-- The processes that these services have on the board are asked to end. -/
def requests (b : Board r) (is : List r.Id) : List (Pid × Signal) :=
  is.filterMap fun i => b[i].pid.map (·, Signal.terminate)

theorem requests_concat (hq : b[i].pid = some q) :
    requests b (is ++ [i]) = requests b is ++ [(q, Signal.terminate)] := by
  simp [requests, hq]

/-- After that the target is asked to end, and killed a number of times. -/
def requestsAndKills (b : Board r) (target : Pid) (is : List r.Id) (kills : Nat) : List (Pid × Signal) :=
  requests b is ++ (target, Signal.terminate) :: List.replicate kills (target, Signal.kill)

theorem requestsAndKills_succ : requestsAndKills b target is (kills + 1) =
    requestsAndKills b target is kills ++ [(target, Signal.kill)] := by
  simp [requestsAndKills, List.replicate_succ']

/-- Services have been asked to end, none of them twice, through the processes that they have on the board. -/
def ServicesAsked (b : Board r) (l : List (Pid × Signal)) : Prop :=
  ∃ is : List r.Id, is.Nodup ∧ l = requests b is

/-- After the services the target has been asked to end, once, and then killed any number of times. -/
def TargetAsked (b : Board r) (target : Pid) (l : List (Pid × Signal)) : Prop :=
  ∃ (is : List r.Id) (kills : Nat), is.Nodup ∧ l = requestsAndKills b target is kills

/-- The signals are those of a shutdown up to some moment. -/
def Disciplined (b : Board r) (target : Pid) (l : List (Pid × Signal)) : Prop :=
  ServicesAsked b l ∨ TargetAsked b target l

/-- Where every process is that of one service, no process is asked twice. -/
theorem ServicesAsked.nodup (hb : Distinct b) (hl : ServicesAsked b l) : l.Nodup := by
  obtain ⟨is, hn, rfl⟩ := hl
  refine hn.filterMap fun i j x hi hj => ?_
  obtain ⟨q, hq, rfl⟩ := Option.map_eq_some_iff.mp hi
  obtain ⟨q', hq', e⟩ := Option.map_eq_some_iff.mp hj
  cases e
  exact hb i j q hq hq'

/-! ## Between signals -/

/-- What a shutdown that has begun at `start`, from the board `b₀`, may ask: anything but a new process, and a
signal only if it is its turn. -/
structure Allowed (p : Plan) (b₀ : Board r) (start : Nat) (h : History (Board r)) (t : Nat) (c : Call)
    (_ : Board r) : Prop where
  ne_fork : ∀ child, c ≠ .fork child
  disciplined : Disciplined b₀ p.killTarget (sent h ++ (signalOf? c).toList)
  late : ∀ target, c = .kill target .kill → p.deadline start ≤ t ∧ ∃ rest, h = ⟨(.monotonic, b₀), start⟩ :: rest

/-- Since the shutdown has begun exactly these signals have been sent, the services have come to no other
processes, and the clock has reached `time`. -/
structure HasSent (b₀ : Board r) (start : Nat) (l : List (Pid × Signal)) (time : Nat) (h : History (Board r))
    (t : Nat) (b : Board r) : Prop where
  begun : ∃ rest, h = ⟨(.monotonic, b₀), start⟩ :: rest
  sent_eq : sent h = l
  reached : time ≤ t
  within : Within b b₀

/-- The shutdown goes on without a signal. -/
def quiet (p : Plan) (b₀ : Board r) (start : Nat) (l : List (Pid × Signal)) (time : Nat) :
    Regime Clock.world (Board r) where
  asks := Allowed p b₀ start
  inv := HasSent b₀ start l time
  errors _ := True

namespace HasSent

/-- The board may be updated as long as no service comes to a process. -/
theorem set (hs : HasSent b₀ start l time h t b) {state : Service.State}
    (hp : state.pid = none ∨ state.pid = b[i].pid) : HasSent b₀ start l time h t (b.set i state) :=
  { hs with within := hs.within.set hp }

theorem at_time (hs : HasSent b₀ start l time h t b) {time' : Nat} (ht : time' ≤ t) :
    HasSent b₀ start l time' h t b :=
  { hs with reached := ht }

/-- A call that sends nothing. -/
theorem call (hs : HasSent b₀ start l time h t b) (ht : t ≤ t') {a : signature.Answer c} :
    HasSent b₀ start (l ++ (signalOf? c).toList) time (h ++ [⟨(c, b), a⟩]) t' b where
  begun := by
    obtain ⟨rest, rfl⟩ := hs.begun
    exact ⟨rest ++ [⟨(c, b), a⟩], rfl⟩
  sent_eq := by rw [sent_concat, hs.sent_eq]
  reached := hs.reached.trans ht
  within := hs.within

end HasSent

section Quiet

variable (hl : Disciplined b₀ p.killTarget l)

include hl

/-- Anything may be asked but a fork or a signal. -/
theorem keeps_quiet_ask (hf : ∀ child, c ≠ .fork child) (hc : signalOf? c = none) :
    Keeps (quiet p b₀ start l time) (Action.ask c) := by
  intro n h t b hs
  refine assures_ask.mpr fun t₁ d => ⟨⟨hf, ?_, ?_⟩, fun a t₂ ha => ⟨?_, trivial⟩⟩
  · rwa [hc, Option.toList_none, List.append_nil, hs.sent_eq]
  · rintro target rfl
    cases hc
  · have hcall := hs.call (a := a) ((Clock.le_of_drifts d).trans (Clock.le_of_answers ha))
    rwa [hc, Option.toList_none, List.append_nil] at hcall

theorem admits_quiet : Admits (quiet p b₀ start l time) where
  errors _ _ _ := trivial
  ask c hc := by
    refine keeps_quiet_ask hl ?_ ?_
    · rintro child rfl
      exact hc
    · cases c with
      | kill target s => exact hc.elim
      | _ => rfl

theorem keeps_quiet_checkProcess (i : r.Id) : Keeps (quiet p b₀ start l time) (checkProcess i) :=
  (admits_quiet hl).checkProcess i (fun q _ _ _ _ _ => keeps_quiet_ask hl (c := .wait q) nofun rfl)
    (fun _ _ => keeps_quiet_ask hl (c := .log _) nofun rfl) fun _ _ _ _ hs => hs.set (.inl rfl)

theorem keeps_quiet_awaitStopped (i : r.Id) (deadline : Nat) :
    Keeps (quiet p b₀ start l time) (awaitStopped i deadline) :=
  (admits_quiet hl).awaitStopped i deadline (keeps_quiet_checkProcess hl i) fun _ _ _ hs => hs.set (.inr rfl)

theorem keeps_quiet_reapEnded : Keeps (quiet p b₀ start l time) reapEnded :=
  (admits_quiet hl).reapEnded fun q => (admits_quiet hl).reapOne (fun _ _ => trivial)
    (keeps_quiet_checkProcess hl) (keeps_quiet_ask hl (c := .wait q) nofun rfl)

theorem keeps_quiet_takeSignal (timeout : Option Nat) :
    Keeps (quiet p b₀ start l time) (Action.ask (.awaitSignal timeout)) :=
  keeps_quiet_ask hl nofun rfl

end Quiet

/-- Whether it fails or not, an action that keeps quiet sends nothing. -/
theorem HasSent.assures {α : Type} {x : Operation r α} (hs : HasSent b₀ start l time h t b)
    (hx : Keeps (quiet p b₀ start l time) x) :
    Assures Clock.world (Allowed p b₀ start) x (fun h t _ b => HasSent b₀ start l time h t b) n h t b :=
  (hx hs).imp fun _ _ _ _ => And.left

/-! ## Asking the services -/

/-- A signal that is next in turn. -/
theorem HasSent.assures_send (hs : HasSent b₀ start l time h t b)
    (hl : Disciplined b₀ p.killTarget (l ++ [(target, s)])) (hk : s = .kill → p.deadline start ≤ time) :
    Assures Clock.world (Allowed p b₀ start) (Supervisor.send target s)
      (fun h t _ b => HasSent b₀ start (l ++ [(target, s)]) time h t b) n h t b := by
  refine assures_bind.mpr (assures_ask.mpr fun t₁ d => ⟨⟨nofun, ?_, ?_⟩, fun a t₂ ha => ?_⟩)
  · rwa [hs.sent_eq]
  · rintro _ ⟨⟩
    exact ⟨(hk rfl).trans (hs.reached.trans (Clock.le_of_drifts d)), hs.begun⟩
  · have hcall : HasSent b₀ start (l ++ [(target, s)]) time (h ++ [⟨(.kill target s, b), a⟩]) t₂ b :=
      hs.call (c := .kill target s) (a := a) ((Clock.le_of_drifts d).trans (Clock.le_of_answers ha))
    cases a with
    | ok _ => exact hcall
    | error e =>
      dsimp only
      split
      · exact hcall
      · exact hcall

/-- A service that has not been asked to end is asked at most once. -/
theorem HasSent.assures_requestStop (hs : HasSent b₀ start (requests b₀ is) time h t b)
    (hn : (is ++ [i]).Nodup) : Assures Clock.world (Allowed p b₀ start) (requestStop i)
      (fun h t _ b => ∃ js, js.Sublist [i] ∧ HasSent b₀ start (requests b₀ (is ++ js)) time h t b) n h t b := by
  have hl : Disciplined b₀ p.killTarget (requests b₀ is) := .inl ⟨is, hn.of_append_left, rfl⟩
  have hl' : Disciplined b₀ p.killTarget (requests b₀ (is ++ [i])) := .inl ⟨_, hn, rfl⟩
  have hunasked : ∀ {h t b}, HasSent b₀ start (requests b₀ is) time h t b →
      ∃ js, js.Sublist [i] ∧ HasSent b₀ start (requests b₀ (is ++ js)) time h t b := fun hs =>
    ⟨[], List.nil_sublist _, by rwa [List.append_nil]⟩
  refine (hs.assures (keeps_quiet_checkProcess hl i)).bind (fun h t running b hs => ?_) fun h t e b hs =>
    hunasked hs
  split
  · exact hunasked hs
  · refine assures_bind.mpr (assures_stateOf.mpr ?_)
    dsimp only
    cases hq : b[i].pid with
    | none => exact hunasked hs
    | some q =>
      have he : requests b₀ (is ++ [i]) = requests b₀ is ++ [(q, .terminate)] :=
        requests_concat (hs.within i q hq)
      refine ((admits_quiet hl).logService (by decide)).ask_bind hs fun _ h t hs => ?_
      refine assures_bind.mpr (assures_update.mpr ?_)
      have hrequested :
          HasSent b₀ start (requests b₀ is) time h t (b.set i { b[i] with stopRequested := true }) :=
        hs.set (.inr rfl)
      have hsend := hrequested.assures_send (n := n) (he ▸ hl') fun e => absurd e (by decide)
      rw [← he] at hsend
      refine hsend.bind (fun h t delivered b hs => ?_) fun h t e b hs => ⟨[i], .refl _, hs⟩
      refine (hs.assures (.ite (fun _ => ?_) fun _ => keeps_pure _)).imp fun h t _ b hs => ⟨[i], .refl _, hs⟩
      exact ((admits_quiet hl').logService (by decide)).bind fun _ => keeps_pure _

/-- A failure is reported without a signal. -/
theorem HasSent.assures_reported (hs : HasSent b₀ start (requests b₀ is) time h t b)
    (hn : (is ++ [i]).Nodup) : Assures Clock.world (Allowed p b₀ start) (reported i (requestStop i))
      (fun h t _ b => ∃ js, js.Sublist [i] ∧ HasSent b₀ start (requests b₀ (is ++ js)) time h t b) n h t b := by
  refine assures_bind.mpr (assures_attempt.mpr ((hs.assures_requestStop hn).imp fun h t a b hm => ?_))
  obtain ⟨js, hjs, hs⟩ := hm
  have hl : Disciplined b₀ p.killTarget (requests b₀ (is ++ js)) :=
    .inl ⟨_, hn.sublist ((List.Sublist.refl is).append hjs), rfl⟩
  cases a with
  | ok asked => exact ⟨js, hjs, hs⟩
  | error e =>
    refine (hs.assures ?_).imp fun h t _ b hs => ⟨js, hjs, hs⟩
    exact ((admits_quiet hl).logRegistry _ _).bind fun _ => keeps_pure _

/-- The services are asked one after the other, each at most once. -/
theorem HasSent.assures_requestAll (is' : List r.Id) (hs : HasSent b₀ start (requests b₀ is) time h t b)
    (hn : (is ++ is').Nodup) : Assures Clock.world (Allowed p b₀ start)
      (is'.mapM fun i => return (i, ← reported i (requestStop i)))
      (fun h t _ b => ∃ js, js.Sublist is' ∧ HasSent b₀ start (requests b₀ (is ++ js)) time h t b) n h t b := by
  induction is' generalizing is h t b with
  | nil => exact ⟨[], .slnil, by rwa [List.append_nil]⟩
  | cons i is' ih =>
    rw [← List.singleton_append, ← List.append_assoc] at hn
    rw [List.mapM_cons]
    have hfirst : Assures Clock.world (Allowed p b₀ start) (do return (i, ← reported i (requestStop i)))
        (fun h t _ b => ∃ js, js.Sublist [i] ∧ HasSent b₀ start (requests b₀ (is ++ js)) time h t b) n h t b :=
      (hs.assures_reported hn.of_append_left).bind (fun _ _ _ _ => id) fun _ _ _ _ => id
    refine hfirst.bind ?_ ?_
    · rintro h t asked b ⟨js, hjs, hs⟩
      have hn' : (is ++ js ++ is').Nodup :=
        hn.sublist (((List.Sublist.refl is).append hjs).append (.refl is'))
      have hall : ∀ {h t b js'}, js'.Sublist is' →
          HasSent b₀ start (requests b₀ (is ++ js ++ js')) time h t b →
          ∃ js, js.Sublist (i :: is') ∧ HasSent b₀ start (requests b₀ (is ++ js)) time h t b := fun hjs' hs =>
        ⟨_, hjs.append hjs', by rwa [← List.append_assoc]⟩
      refine (ih hs hn').bind ?_ ?_
      · rintro h t rest b ⟨js', hjs', hs⟩
        exact hall hjs' hs
      · rintro h t e b ⟨js', hjs', hs⟩
        exact hall hjs' hs
    · rintro h t e b ⟨js, hjs, hs⟩
      exact ⟨js, hjs.trans (List.sublist_append_left [i] is'), hs⟩

/-- While the services are stopped, each is asked to end at most once. -/
theorem HasSent.assures_stopAll (hs : HasSent b₀ start [] time h t b) (deadline : Nat) :
    Assures Clock.world (Allowed p b₀ start) (stopAll deadline)
      (fun h t _ b => ∃ is : List r.Id, is.Nodup ∧ HasSent b₀ start (requests b₀ is) time h t b) n h t b := by
  have hn : r.startOrder.reverse.Nodup := List.nodup_reverse.mpr r.nodup_startOrder
  have hs : HasSent b₀ start (requests b₀ []) time h t b := hs
  refine (hs.assures_requestAll _ hn).bind ?_ ?_
  · rintro h t asked b ⟨is, his, hs⟩
    have hl : Disciplined b₀ p.killTarget (requests b₀ is) := .inl ⟨is, hn.sublist his, rfl⟩
    refine (hs.assures (.bind (keeps_mapM _ fun d => ?_) fun _ => keeps_pure _)).imp fun h t _ b hs =>
      ⟨is, hn.sublist his, hs⟩
    exact (admits_quiet hl).reported d.1 (keeps_quiet_awaitStopped hl d.1 deadline)
  · rintro h t e b ⟨is, his, hs⟩
    exact ⟨is, hn.sublist his, hs⟩

/-- The services are asked to end, in their order. -/
theorem HasSent.assures_stopServices (hs : HasSent b₀ start [] time h t b) (deadline : Nat) :
    Assures Clock.world (Allowed p b₀ start) (stopServices deadline)
      (fun h t _ b => ∃ is : List r.Id, is.Nodup ∧ HasSent b₀ start (requests b₀ is) time h t b) n h t b := by
  have hl : Disciplined b₀ p.killTarget [] := .inl ⟨[], .nil, rfl⟩
  refine ((admits_quiet hl).logProgram _ _).ask_bind hs fun _ h t hs => ?_
  refine (hs.assures_stopAll deadline).bind ?_ fun _ _ _ _ => id
  rintro h t stopped b ⟨is, hn, hs⟩
  have hl : Disciplined b₀ p.killTarget (requests b₀ is) := .inl ⟨is, hn, rfl⟩
  have hR : Admits (quiet p b₀ start (requests b₀ is) time) := admits_quiet hl
  refine (hs.assures (.ite (fun _ => keeps_pure _) fun _ => ?_)).imp fun h t _ b hs => ⟨is, hn, hs⟩
  exact (hR.logProgram _ _).bind fun _ =>
    hR.awaitServices (keeps_quiet_takeSignal hl) (keeps_quiet_reapEnded hl) deadline

/-! ## Killing what is left -/

/-- A wait for a signal is given up only at the deadline. -/
theorem assures_awaitSignal_none (deadline : Nat) : Assures Clock.world (fun _ _ _ _ => True)
    (Supervisor.awaitSignal (some deadline) : Operation r _)
    (yields fun _ (t : Nat) info _ => info = none → deadline ≤ t) n h t b := by
  refine assures_repeatUntil_yields (fun _ _ _ => True) trivial fun h t b _ => ?_
  refine Assures.bind_yields
    (Q := fun _ (t : Nat) left _ => ∃ now : Nat, now ≤ t ∧ left = some (deadline - now)) ?_ ?_
  · exact assures_bind.mpr (assures_ask.mpr fun t₁ _ => ⟨trivial, fun now t₂ ha => ⟨now, ha.2, rfl⟩⟩)
  rintro h t _ b ⟨now, hnow, rfl⟩
  refine assures_bind.mpr (assures_ask.mpr fun t₁ d => ⟨trivial, fun a t₂ ha => ?_⟩)
  cases a with
  | ok info => exact nofun
  | error e =>
    dsimp only
    split
    case isTrue he =>
      subst he
      exact fun _ => Clock.le_of_tryAgain (hnow.trans (Clock.le_of_drifts d)) ha
    case isFalse =>
      split
      · trivial
      · trivial

/-- A wait that is given up has reached its deadline. -/
theorem HasSent.assures_awaitSignal (hs : HasSent b₀ start l time h t b)
    (hl : Disciplined b₀ p.killTarget l) (deadline : Nat) : Assures Clock.world (Allowed p b₀ start)
      (Supervisor.awaitSignal (some deadline)) (fun h t res b => HasSent b₀ start l time h t b ∧
        (res = .ok none → deadline ≤ t)) n h t b := by
  have hkeep := hs.assures (n := n) ((admits_quiet hl).awaitSignal (keeps_quiet_takeSignal hl) (some deadline))
  refine (hkeep.and (assures_awaitSignal_none deadline)).imp fun h t res b hm => ⟨hm.1, ?_⟩
  rintro rfl
  exact hm.2 rfl

/-- The clock shows no time that was over before. -/
theorem HasSent.assures_monotonic (hs : HasSent b₀ start l time h t b) (hl : Disciplined b₀ p.killTarget l) :
    Assures Clock.world (Allowed p b₀ start) (Action.ask .monotonic) (fun h t res b =>
      HasSent b₀ start l time h t b ∧ ∀ now : Nat, res = .ok now → time ≤ now) n h t b := by
  have hkeep := hs.assures (n := n) (keeps_quiet_ask hl (c := .monotonic) nofun rfl)
  have hnow : Assures Clock.world (fun _ _ _ _ => True) (Action.ask .monotonic)
      (fun _ _ res _ => ∀ now : Nat, res = .ok now → time ≤ now) n h t b := by
    refine assures_ask.mpr fun t₁ d => ⟨trivial, fun now t₂ ha => ?_⟩
    rintro _ ⟨⟩
    exact (hs.reached.trans (Clock.le_of_drifts d)).trans ha.1
  exact hkeep.and hnow

/-- After the services, the target. -/
theorem targetAsked_requestsAndKills (hn : is.Nodup) (kills : Nat) :
    Disciplined b target (requestsAndKills b target is kills) := .inr ⟨is, kills, hn, rfl⟩

/-- A round kills the target at most once, and not before the deadline. -/
theorem HasSent.assures_killOnce (hn : is.Nodup)
    (hs : HasSent b₀ start (requestsAndKills b₀ p.killTarget is kills) 0 h t b) {deadline : Nat}
    (hd : p.deadline start ≤ deadline) (killed : Bool) :
    Assures Clock.world (Allowed p b₀ start) (killOnce p.killTarget (deadline, killed)) (fun h t res b =>
      (∃ kills, HasSent b₀ start (requestsAndKills b₀ p.killTarget is kills) 0 h t b) ∧
        ∀ d, res = .ok (.again d) → p.deadline start ≤ d.1) n h t b := by
  have hl : ∀ kills, Disciplined b₀ p.killTarget (requestsAndKills b₀ p.killTarget is kills) :=
    targetAsked_requestsAndKills hn
  refine (hs.assures_awaitSignal (hl kills) deadline).bind (fun h t info b hm => ?_) fun h t e b hm =>
    ⟨⟨kills, hm.1⟩, nofun⟩
  obtain ⟨hs, hnone⟩ := hm
  cases info with
  | none =>
    have hs := hs.at_time (hd.trans (hnone rfl))
    refine ((admits_quiet (hl kills)).logProgram _ _).ask_bind hs fun _ h t hs => ?_
    have hsend := hs.assures_send (n := n) (requestsAndKills_succ ▸ hl (kills + 1)) fun _ => le_rfl
    rw [← requestsAndKills_succ] at hsend
    have hdone : ∀ {h t b},
        HasSent b₀ start (requestsAndKills b₀ p.killTarget is (kills + 1)) (p.deadline start) h t b →
        ∃ kills, HasSent b₀ start (requestsAndKills b₀ p.killTarget is kills) 0 h t b := fun hs =>
      ⟨kills + 1, hs.at_time (Nat.zero_le _)⟩
    refine hsend.bind (fun h t delivered b hs => ?_) fun h t e b hs => ⟨hdone hs, nofun⟩
    split
    · exact ((admits_quiet (hl _)).logProgram _ _).ask_bind hs fun _ h t hs => ⟨hdone hs, nofun⟩
    · refine (hs.assures (keeps_quiet_reapEnded (hl _))).bind (fun h t none b hs => ?_) fun h t e b hs =>
        ⟨hdone hs, nofun⟩
      split
      · exact ⟨hdone hs, nofun⟩
      · refine (hs.assures_monotonic (hl _)).bind (fun h t now b hm => ⟨hdone hm.1, ?_⟩) fun h t e b hm =>
          ⟨hdone hm.1, nofun⟩
        rintro _ ⟨⟩
        exact (hm.2 now rfl).trans (Nat.le_add_right ..)
  | some info =>
    refine ((admits_quiet (hl kills)).logProgram _ _).ask_bind hs fun _ h t hs => ?_
    split
    · refine (hs.assures (keeps_quiet_reapEnded (hl _))).bind (fun h t none b hs => ?_) fun h t e b hs =>
        ⟨⟨kills, hs⟩, nofun⟩
      split
      · exact ⟨⟨kills, hs⟩, nofun⟩
      · exact ⟨⟨kills, hs⟩, fun d e => by cases e; exact hd⟩
    · exact ⟨⟨kills, hs⟩, fun d e => by cases e; exact hd⟩

/-- The target is asked to end, once, whether that fails or not. -/
theorem HasSent.assures_endProcesses (hn : is.Nodup) (hs : HasSent b₀ start (requests b₀ is) time h t b) :
    Assures Clock.world (Allowed p b₀ start) (endProcesses p.killTarget (p.deadline start)) (fun h t _ b =>
      ∃ kills, HasSent b₀ start (requestsAndKills b₀ p.killTarget is kills) 0 h t b) n h t b := by
  have hl : ∀ kills, Disciplined b₀ p.killTarget (requestsAndKills b₀ p.killTarget is kills) :=
    targetAsked_requestsAndKills hn
  have hs := hs.at_time (Nat.zero_le _)
  refine ((admits_quiet (.inl ⟨is, hn, rfl⟩)).logProgram _ _).ask_bind hs fun _ h t hs => ?_
  refine (hs.assures_send (hl 0) fun e => absurd e (by decide)).bind (fun h t delivered b hs => ?_)
    fun h t e b hs => ⟨0, hs⟩
  have hs : HasSent b₀ start (requestsAndKills b₀ p.killTarget is 0) 0 h t b := hs
  split
  · exact ((admits_quiet (hl 0)).logProgram _ _).ask_bind hs fun _ h t hs => ⟨0, hs⟩
  refine assures_iterate (fun h t d b => (∃ kills,
    HasSent b₀ start (requestsAndKills b₀ p.killTarget is kills) 0 h t b) ∧ p.deadline start ≤ d.1)
    ⟨⟨0, hs⟩, le_rfl⟩ ?_
  rintro h t ⟨deadline, killed⟩ b ⟨⟨kills, hs⟩, hd⟩
  refine (hs.assures_killOnce hn hd killed).imp fun h t res b hm => ?_
  obtain ⟨hs, hagain⟩ := hm
  rcases res with e | d | killed
  · exact hs
  · exact ⟨hs, hagain d rfl⟩
  · exact hs

/-! ## The shutdown -/

/-- The clock has reached the deadline of the shutdown, which began at `t₀` or later with a look at the clock. -/
def Due (p : Plan) (b : Board r) (t₀ : Nat) (h : History (Board r)) (t : Nat) : Prop :=
  ∃ (start : Nat) (rest : History (Board r)),
    h = ⟨(.monotonic, b), start⟩ :: rest ∧ t₀ ≤ start ∧ p.deadline start ≤ t

/-- All stages, one after the other. -/
theorem assures_shutdown (p : Plan) (b : Board r) (t₀ : Nat) :
    Assures Clock.world (fun h t c _ => (∀ child, c ≠ .fork child) ∧
      Disciplined b p.killTarget (sent h ++ (signalOf? c).toList) ∧
      ∀ target, c = .kill target .kill → Due p b t₀ h t) (shutdown p)
      (fun h _ res _ => Disciplined b p.killTarget (sent h) ∧
        ∀ outcome, res = .ok outcome → TargetAsked b p.killTarget (sent h)) n [] t₀ b := by
  refine assures_bind.mpr (assures_ask.mpr fun t₁ d =>
    ⟨⟨nofun, .inl ⟨[], .nil, rfl⟩, nofun⟩, fun start t₂ ha => ?_⟩)
  have hstart : t₀ ≤ start := (Clock.le_of_drifts d).trans ha.1
  refine (?_ : Assures Clock.world (Allowed p b start) _ _ n _ t₂ b).imp_asks fun h t c _ hc =>
    ⟨hc.ne_fork, hc.disciplined, fun target e => ?_⟩
  · have hs : HasSent b start [] 0 [⟨(.monotonic, b), start⟩] t₂ b := ⟨⟨[], rfl⟩, rfl, Nat.zero_le _, .refl b⟩
    refine (hs.assures_stopServices (p.deadline start)).bind ?_ ?_
    · rintro h t graceful b₁ ⟨is, hn, hs⟩
      have hdone : ∀ {h t b₁ kills}, HasSent b start (requestsAndKills b p.killTarget is kills) 0 h t b₁ →
          TargetAsked b p.killTarget (sent h) := fun {_ _ _ kills} hs => ⟨is, kills, hn, hs.sent_eq⟩
      refine (hs.assures_endProcesses hn).bind ?_ ?_
      · -- what is left is only collected
        rintro h t killed b₁ ⟨kills, hs⟩
        have hl : Disciplined b p.killTarget (requestsAndKills b p.killTarget is kills) :=
          targetAsked_requestsAndKills hn kills
        have hcollect : Keeps (quiet p b start _ 0) (Supervisor.collect (-1)) :=
          (admits_quiet hl).collect (keeps_quiet_ask hl nofun rfl)
        refine (hs.assures (hcollect.bind fun collected => ?_)).imp fun h t res b₁ hs =>
          ⟨.inr (hdone hs), fun _ _ => hdone hs⟩
        obtain ⟨gone, status | status⟩ := collected
        · exact keeps_pure _
        · exact ((admits_quiet hl).logProgram _ _).bind fun _ => keeps_pure _
      · rintro h t e b₁ ⟨kills, hs⟩
        exact ⟨.inr (hdone hs), nofun⟩
    · rintro h t e b₁ ⟨is, hn, hs⟩
      exact ⟨.inl ⟨is, hn, hs.sent_eq⟩, nofun⟩
  · obtain ⟨hlate, rest, rfl⟩ := hc.late target e
    exact ⟨start, rest, rfl, hstart, hlate⟩

/-- A shutdown never starts a process.  At every moment the signals that it has sent, with the one that it is
about to send, are requests to end to services, each of which is asked at most once, then to the target, which
is asked at most once, and after that kills of the target, none of which comes before the deadline.  When it has
not failed the target has been asked.  Where no two services share a process, no process of a service is asked
twice for it. -/
theorem shutdown_signals (p : Plan) (b : Board r) (t₀ : Nat) :
    (Always Clock.world (shutdown p) b t₀ fun h t moment _ => match moment with
      | .asking c => (∀ child, c ≠ .fork child) ∧ Disciplined b p.killTarget (sent h ++ (signalOf? c).toList) ∧
          ∀ target, c = .kill target .kill → Due p b t₀ h t
      | .ended res => Disciplined b p.killTarget (sent h) ∧
          ∀ outcome, res = .ok outcome → TargetAsked b p.killTarget (sent h)) ∧
    (Distinct b → ∀ l, ServicesAsked b l → l.Nodup) := by
  refine ⟨always_of_assures (fun n => assures_shutdown p b t₀) (fun _ _ _ _ => id) ?_,
    fun hb l hl => hl.nodup hb⟩
  exact fun _ _ _ _ _ he _ => he

end ContainerInit.Supervision
