import ContainerInit.Proofs.Kernel.Timed
import ContainerInit.Proofs.Registry.StopOrder
import ContainerInit.Proofs.Supervision.Checking
import ContainerInit.Proofs.Supervision.StopAll

/-! # One budget for all services

When all services are stopped, no time passes while they are asked.  The waits share one deadline.  Each of them takes
time only as long as its process lives and the deadline is ahead, and looks at the process once more when there is no
time left; so whatever has ended by then is found, even where the wait for another service has used the time up.

The kernel is one in which nothing but sleep takes time, and in which no call fails as long as there is somebody whom it
concerns (`Timed`).  So this is about the best case, and says that in it no time is wasted.

## Turns

`RequestTurn` and `WaitTurn` say what a turn does to the kernel, to the board and to the list of deeds, as equations
wherever that is possible.  A turn concerns one process, and the others are aside: since no two services hold the same
one, the turns of a pass can be added up (`Requesting`, `Waiting`).

## The deadline

A wait that begins after the deadline takes no time, but still looks once.  That makes the end of the whole pass the
later of the deadline and the moment at which it began, and a process that has ended by then has its end recorded. -/

namespace ContainerInit.Supervision

open ContainerInit.Action Kernel Timed

variable {σ : Type} {r : Registry} {n deadline : Nat} {k k₀ : Timed} {l : List Deed} {s : σ} {b b₀ : Board r}
  {i : r.Id} {p g : Pid}

/-! ## A single process -/

/-- A child is collected if it has ended. -/
theorem succeeds_collect_timed (hp : k.group p = some g) (hn : 0 < n) :
    Succeeds watched (Supervisor.collect p) (fun k' found s' => s' = s ∧
      found = ⟨(k.ended p).isSome, (k.ended p).map (·.status p)⟩ ∧ k' = (k.reaped p, l)) n (k, l) s := by
  refine Succeeds.iterate (fun _ (k₁ : Timed × List Deed) last s' => k₁ = (k, l) ∧ last = none ∧ s' = s) ?_
    ⟨rfl, rfl, rfl⟩ hn
  rintro _ _ _ _ ⟨rfl, rfl, rfl⟩
  refine succeeds_bind.mpr (succeeds_call trivial fun a k' ha => ?_)
  obtain ⟨rfl, rfl⟩ := eq_of_answers_wait hp ha
  rw [deedOf_wait, List.append_nil]
  cases k.ended p with
  | none => exact succeeds_pure ⟨rfl, rfl, rfl⟩
  | some t =>
    cases t
    all_goals
      refine succeeds_bind.mpr (logs_watched.succeeds nofun ?_)
      rw [Option.elim_some, if_pos Termination.pid?_status]
      exact succeeds_pure ⟨rfl, rfl, rfl⟩

/-- A look at a child tells whether it has ended. -/
theorem succeeds_peek_timed (hp : k.group p = some g) (hn : 0 < n) :
    Succeeds watched (Supervisor.peek p) (fun k' state s' => k' = (k, l) ∧ s' = s ∧
      state = (k.ended p).elim .running fun _ => .exited p) n (k, l) s := by
  refine Succeeds.repeatUntil (fun _ (k₁ : Timed × List Deed) s' => k₁ = (k, l) ∧ s' = s) ?_ ⟨rfl, rfl⟩ hn
  rintro _ _ _ ⟨rfl, rfl⟩
  refine succeeds_bind.mpr (succeeds_call trivial fun a k' ha => ?_)
  obtain ⟨rfl, rfl⟩ := eq_of_answers_peek hp ha
  rw [deedOf_peek, List.append_nil]
  refine succeeds_pure ⟨rfl, rfl, ?_⟩
  cases k'.ended p with
  | none => rfl
  | some t => simp

/-- Time has passed, up to the deadline at most, and nothing has been done but to sleep meanwhile. -/
structure Passed (deadline : Nat) (k k' : Timed × List Deed) : Prop where
  group_eq : k'.1.group = k.1.group
  ends_eq : k'.1.ends = k.1.ends
  le_now : k.1.now ≤ k'.1.now
  now_le : k'.1.now ≤ max deadline k.1.now
  slept : ∃ pauses : List Nat, k'.2 = k.2 ++ pauses.map .slept ∧ (deadline ≤ k.1.now → pauses = [])

theorem Passed.refl (deadline : Nat) (k : Timed × List Deed) : Passed deadline k k :=
  ⟨rfl, rfl, Nat.le_refl _, Nat.le_max_right .., [], by simp⟩

/-- A pause does not go beyond the deadline. -/
theorem Passed.sleep {k k' : Timed × List Deed} {nanos : Nat} (h : Passed deadline k k') (hnow : k'.1.now < deadline)
    (hle : nanos ≤ deadline - k'.1.now) :
    Passed deadline k ({ k'.1 with now := k'.1.now + nanos }, k'.2 ++ [.slept nanos]) where
  group_eq := h.group_eq
  ends_eq := h.ends_eq
  le_now := Nat.le_trans h.le_now (Nat.le_add_right ..)
  now_le := by
    simp only
    omega
  slept := by
    obtain ⟨pauses, he, -⟩ := h.slept
    refine ⟨pauses ++ [nanos], by simp [he], fun hd => ?_⟩
    exact absurd (Nat.le_trans hd h.le_now) (Nat.not_le.mpr hnow)

/-- As long as the child lives and the deadline is ahead, the wait goes on.  When it is over, the child has ended
exactly if it does so before the time is up. -/
theorem succeeds_awaitExit_timed (hp : k.group p = some g) (hn : deadline - k.now < n) :
    Succeeds watched (Supervisor.awaitExit p (some deadline)) (fun k' _ s' => s' = s ∧ Passed deadline (k, l) k' ∧
      k'.1.ended p = k.endedBy (max deadline k.now) p) n (k, l) s := by
  refine Succeeds.repeatUntil (fun m (k₁ : Timed × List Deed) s' => s' = s ∧ Passed deadline (k, l) k₁ ∧
    m = deadline - k₁.1.now) ?_ ⟨rfl, .refl _ _, rfl⟩ hn
  rintro _ ⟨(k₁ : Timed), l₁⟩ _ ⟨rfl, hpassed, rfl⟩
  have hby : ∀ t, endedBy k₁ t p = k.endedBy t p := fun t => endedBy_congr (congrFun hpassed.ends_eq p)
  have hle : k₁.now ≤ max deadline k.now := hpassed.now_le
  refine (succeeds_peek_timed (hpassed.group_eq ▸ hp) (Nat.zero_lt_of_lt hn)).bind ?_
  rintro _ state _ ⟨rfl, rfl, rfl⟩
  cases he : k₁.ended p with
  | some t =>
    refine succeeds_pure ⟨rfl, hpassed, he.trans ?_⟩
    rw [← hby]
    exact (endedBy_of_le he hle).symm
  | none =>
    refine succeeds_bind.mpr (succeeds_call trivial fun now k₂ ha => ?_)
    obtain ⟨rfl, rfl⟩ := ha
    rw [deedOf_monotonic, List.append_nil]
    split
    -- the child was looked at when the clock had come to the deadline, and not before
    case isTrue hlate =>
      have hnow : k₂.now = max deadline k.now := by
        have := hpassed.le_now
        simp only at this
        omega
      refine succeeds_pure ⟨rfl, hpassed, ?_⟩
      rw [Timed.ended, hby, hnow]
    case isFalse hearly =>
      refine succeeds_bind.mpr (succeeds_call trivial fun _ k₃ ha => ?_)
      obtain rfl : k₃ = _ := ha
      have hsleep := hpassed.sleep (Nat.not_le.mp hearly) (Nat.min_le_right Supervisor.pollInterval _)
      refine succeeds_pure ⟨_, ?_, rfl, hsleep, rfl⟩
      simp only [Supervisor.pollInterval]
      omega

/-! ## A single service -/

/-- A check records the end of a process that has ended. -/
theorem succeeds_checkProcess_timed (hi : b[i].pid = some p) (hp : k.group p = some g) (hn : 0 < n) :
    Succeeds watched (checkProcess i) (fun k' running b' => running = (k.ended p).isNone ∧
      b' = b.set i (b[i].checked (k.ended p)) ∧ k' = (k.reaped p, l)) n (k, l) b :=
  succeeds_checkProcess _ logs_watched hi (succeeds_collect_timed hp hn)

/-- The process of a service, if it lives. -/
def living (k : Timed) (b : Board r) (i : r.Id) : Option Pid := b[i].pid.filter fun p => (k.ended p).isNone

/-- A process that lives is held by its service and has not ended. -/
theorem living_eq_some_iff : living k b i = some p ↔ b[i].pid = some p ∧ k.ended p = none := by
  simp [living, Option.filter_eq_some_iff]

/-- The state of a service after the request to stop, which a process gets that lives. -/
def afterRequest (k : Timed) (b : Board r) (i : r.Id) : Service.State :=
  if (living k b i).isSome then { b[i] with stopRequested := true } else b[i].checked (b[i].pid.bind k.ended)

/-- A service whose process lives has been asked to stop. -/
theorem afterRequest_of_living (h : living k b i = some p) :
    afterRequest k b i = { b[i] with stopRequested := true } := by
  simp [afterRequest, h]

/-- Any other has at most had an end recorded. -/
theorem afterRequest_of_none (h : living k b i = none) :
    afterRequest k b i = b[i].checked (b[i].pid.bind k.ended) := by
  simp [afterRequest, h]

/-- After the request a service holds a process exactly if that lives. -/
theorem pid_afterRequest (k : Timed) (b : Board r) (i : r.Id) : (afterRequest k b i).pid = living k b i := by
  cases hl : living k b i with
  | some p =>
    rw [afterRequest_of_living hl]
    exact (living_eq_some_iff.mp hl).1
  | none =>
    rw [afterRequest_of_none hl]
    cases hi : b[i].pid with
    | none => exact hi
    | some p =>
      cases he : k.ended p with
      | none => cases hl.symm.trans (living_eq_some_iff.mpr ⟨hi, he⟩)
      | some t =>
        rw [Option.bind_some, he]
        rfl

theorem living_congr (hb : b[i] = b₀[i]) (hk : ∀ p, b₀[i].pid = some p → k.ended p = k₀.ended p) :
    living k b i = living k₀ b₀ i := by
  ext p
  simp only [living_eq_some_iff, hb]
  exact and_congr_right fun hp => by rw [hk p hp]

theorem afterRequest_congr (hb : b[i] = b₀[i]) (hk : ∀ p, b₀[i].pid = some p → k.ended p = k₀.ended p) :
    afterRequest k b i = afterRequest k₀ b₀ i := by
  have hbind : b₀[i].pid.bind k.ended = b₀[i].pid.bind k₀.ended := by
    cases hi : b₀[i].pid with
    | none => rfl
    | some p => exact hk p hi
  rw [afterRequest, afterRequest, living_congr hb hk, hb, hbind]

/-- The turn of a service when all are asked to stop. -/
structure RequestTurn (i : r.Id) (k : Timed × List Deed) (b : Board r) (k' : Timed × List Deed) (b' : Board r) :
    Prop where
  board_eq : b' = b.set i (afterRequest k.1 b i)
  deeds_eq : k'.2 = k.2 ++ ((living k.1 b i).map (Deed.sent · .terminate)).toList
  now_eq : k'.1.now = k.1.now
  kept : ∀ p, living k.1 b i = some p → k'.1.group p = k.1.group p
  aside : ∀ p, b[i].pid ≠ some p → k'.1.group p = k.1.group p ∧ k'.1.ends p = k.1.ends p

/-- A request takes no time. -/
theorem succeeds_requestStop_timed (hheld : ∀ p, b[i].pid = some p → ∃ g, k.group p = some g) (hn : 0 < n) :
    Succeeds watched (requestStop i) (fun k' answer b' => answer = (living k b i).isSome ∧
      RequestTurn i (k, l) b k' b') n (k, l) b := by
  cases hi : b[i].pid with
  | none =>
    have hl : living k b i = none := by simp [living, hi]
    refine succeeds_bind.mpr (succeeds_checkProcess_of_none hi (succeeds_pure ⟨by simp [hl], ?_⟩))
    refine ⟨?_, by simp [hl], rfl, fun _ _ => rfl, fun _ _ => ⟨rfl, rfl⟩⟩
    simp [afterRequest, hl, hi, Service.State.checked, Board.set_self]
  | some p =>
    obtain ⟨g, hp⟩ := hheld p hi
    refine (succeeds_checkProcess_timed hi hp hn).bind ?_
    rintro _ _ _ ⟨rfl, rfl, rfl⟩
    cases he : k.ended p with
    | some t =>
      have hl : living k b i = none := by simp [living, hi, he]
      refine succeeds_pure ⟨by simp [hl], ?_, by simp [hl], by simp, by simp [hl], fun p' hp' => ?_⟩
      · simp [afterRequest, hl, hi, he]
      · have hne : p' ≠ p := fun e => hp' (e ▸ hi)
        exact ⟨reaped_group_of_ne hne, by simp⟩
    | none =>
      have hl : living k b i = some p := by simp [living, hi, he]
      rw [reaped_of_none he, Service.State.checked, Option.elim_none, Board.set_self]
      refine succeeds_bind.mpr (succeeds_stateOf ?_)
      rw [hi]
      refine succeeds_bind.mpr (logs_watched.succeeds nofun ?_)
      refine succeeds_bind.mpr (succeeds_update ?_)
      refine succeeds_bind.mpr (succeeds_bind.mpr (succeeds_call trivial fun a k' ha => ?_))
      obtain ⟨rfl, hnow, hgroup, hends⟩ := of_answers_kill hp ha
      refine succeeds_pure (succeeds_pure ⟨by simp [hl], ?_, ?_, hnow, ?_, fun p' hp' => ?_⟩)
      · simp [afterRequest, hl]
      · simp [hl, deedOf]
      · exact fun p _ => congrFun hgroup p
      · have hne : p' ≠ p := fun e => hp' (e ▸ hi)
        exact ⟨congrFun hgroup p', hends p' hne⟩

/-- The warning about a process that is still there when the time is up. -/
def lateText (i : r.Id) (p : Pid) : String :=
  "Service '" ++ (r.service i).name ++ "' (pid " ++ toString p ++ ") did not stop in time."

/-- What is done while services are waited for: pauses as long as the deadline is ahead, and warnings about
processes that are late. -/
inductive WaitDeed (deadline now : Nat) (late : r.Id → Pid → Prop) : Deed → Prop where
  | slept (nanos : Nat) (h : now < deadline) : WaitDeed deadline now late (.slept nanos)
  | warned {i : r.Id} {p : Pid} (h : late i p) : WaitDeed deadline now late (.warned (lateText i p))

/-- The state of a service after its process was waited for, and how that has ended in time. -/
def afterWait (s : Service.State) (found : Option Termination) : Service.State :=
  found.elim { s with stopRequested := false } (s.ended ·.code)

/-- The turn of a service when all are waited for. -/
structure WaitTurn (deadline : Nat) (i : r.Id) (p : Pid) (k : Timed × List Deed) (b : Board r)
    (k' : Timed × List Deed) (b' : Board r) : Prop where
  board_eq : b' = b.set i (afterWait b[i] (k.1.endedBy (max deadline k.1.now) p))
  ends_eq : k'.1.ends = k.1.ends
  le_now : k.1.now ≤ k'.1.now
  now_le : k'.1.now ≤ max deadline k.1.now
  aside : ∀ p' ≠ p, k'.1.group p' = k.1.group p'
  deeds : ∃ rest, k'.2 = k.2 ++ rest ∧ ∀ d ∈ rest, WaitDeed deadline k.1.now
    (fun j q => j = i ∧ q = p ∧ k.1.endedBy (max deadline k.1.now) p = none) d

/-- What has been done while time passed, and a last look. -/
theorem Passed.waitTurn {k k₁ : Timed × List Deed} {b' : Board r} {l : List Deed} (h : Passed deadline k k₁)
    (hb : b' = b.set i (afterWait b[i] (k.1.endedBy (max deadline k.1.now) p)))
    (hl : ∀ d ∈ l, WaitDeed deadline k.1.now
      (fun j q => j = i ∧ q = p ∧ k.1.endedBy (max deadline k.1.now) p = none) d) :
    WaitTurn deadline i p k b (k₁.1.reaped p, k₁.2 ++ l) b' where
  board_eq := hb
  ends_eq := reaped_ends.trans h.ends_eq
  le_now := by simpa using h.le_now
  now_le := by simpa using h.now_le
  aside p' hne := (reaped_group_of_ne hne).trans (congrFun h.group_eq p')
  deeds := by
    obtain ⟨pauses, hpauses, hnone⟩ := h.slept
    refine ⟨pauses.map .slept ++ l, by simp [hpauses], fun d hd => ?_⟩
    rcases List.mem_append.mp hd with hd | hd
    · obtain ⟨nanos, hnanos, rfl⟩ := List.mem_map.mp hd
      refine .slept nanos (Nat.lt_of_not_le fun hle => ?_)
      rw [hnone hle] at hnanos
      cases hnanos
    · exact hl d hd

/-- A wait takes the time that is left at most. -/
theorem succeeds_awaitStopped_timed (hi : b[i].pid = some p) (hp : k.group p = some g)
    (hn : deadline - k.now < n) : Succeeds watched (awaitStopped i deadline) (fun k' gone b' =>
      gone = (k.endedBy (max deadline k.now) p).isSome ∧ WaitTurn deadline i p (k, l) b k' b') n (k, l) b := by
  refine succeeds_bind.mpr (succeeds_stateOf ?_)
  rw [hi]
  refine (succeeds_awaitExit_timed hp hn).bind ?_
  rintro ⟨(k₁ : Timed), l₁⟩ _ _ ⟨rfl, hpassed, hended⟩
  refine (succeeds_checkProcess_timed hi (hpassed.group_eq ▸ hp) (Nat.zero_lt_of_lt hn)).bind ?_
  rintro _ _ _ ⟨rfl, rfl, rfl⟩
  cases hby : k.endedBy (max deadline k.now) p with
  | some t =>
    rw [hended, hby]
    refine succeeds_pure ⟨rfl, ?_⟩
    rw [← List.append_nil l₁]
    refine hpassed.waitTurn ?_ nofun
    rw [hby]
    rfl
  | none =>
    rw [hended, hby, Service.State.checked, Option.elim_none, Board.set_self]
    refine succeeds_bind.mpr (succeeds_call trivial fun u k₂ ha => ?_)
    obtain rfl : k₂ = _ := ha
    refine succeeds_bind.mpr (succeeds_update (succeeds_pure ⟨rfl, hpassed.waitTurn ?_ fun d hd => ?_⟩))
    · rw [hby]
      rfl
    · obtain rfl := List.mem_singleton.mp hd
      exact .warned ⟨rfl, rfl, hby⟩

/-! ## All services -/

section All

variable {is : List r.Id} {k k' k₁ : Timed × List Deed} {b' b₁ : Board r}

/-- These services have had their turns to be asked, since the kernel was `k₀` and the board `b₀`. -/
structure Requesting (k₀ : Timed) (b₀ : Board r) (is : List r.Id) (k : Timed × List Deed) (b : Board r) :
    Prop where
  now_eq : k.1.now = k₀.now
  deeds_eq : k.2 = (is.filterMap (living k₀ b₀)).map (Deed.sent · .terminate)
  state : ∀ i ∈ is, b[i] = afterRequest k₀ b₀ i
  kept : ∀ i ∈ is, ∀ p, living k₀ b₀ i = some p → k.1.group p = k₀.group p
  rest : ∀ i ∉ is, b[i] = b₀[i] ∧ ∀ p, b₀[i].pid = some p → k.1.group p = k₀.group p ∧ k.1.ends p = k₀.ends p

theorem Requesting.nil (k₀ : Timed) (b₀ : Board r) : Requesting k₀ b₀ [] (k₀, []) b₀ :=
  ⟨rfl, rfl, nofun, nofun, fun _ _ => ⟨rfl, fun _ _ => ⟨rfl, rfl⟩⟩⟩

theorem Requesting.concat (h : Requesting k₀ b₀ is k b) (hd : Distinct b₀) (hi : i ∉ is)
    (ht : RequestTurn i k b k' b') : Requesting k₀ b₀ (is ++ [i]) k' b' := by
  obtain ⟨hb, hk⟩ := h.rest i hi
  have hended : ∀ p, b₀[i].pid = some p → k.1.ended p = k₀.ended p := fun p hp => ended_congr h.now_eq (hk p hp).2
  have hliving := living_congr hb hended
  have hne : ∀ j ∈ is, i ≠ j := fun j hj e => hi (e ▸ hj)
  have hstate : ∀ j, i ≠ j → b'[j] = b[j] := fun j hij => by rw [ht.board_eq, Board.getElem_set_ne _ _ hij]
  -- no other service holds the process that is collected or signalled
  have haside : ∀ j p, i ≠ j → b₀[j].pid = some p → k'.1.group p = k.1.group p ∧ k'.1.ends p = k.1.ends p :=
    fun j p hij hp => ht.aside p fun hp' => hij (hd i j p (hb ▸ hp') hp)
  constructor
  case now_eq => exact ht.now_eq.trans h.now_eq
  case deeds_eq =>
    rw [ht.deeds_eq, h.deeds_eq, hliving]
    cases hl : living k₀ b₀ i <;> simp [hl]
  case state =>
    intro j hj
    rcases List.mem_append.mp hj with hj | hj
    · exact (hstate j (hne j hj)).trans (h.state j hj)
    · obtain rfl := List.mem_singleton.mp hj
      rw [ht.board_eq, Board.getElem_set_self, afterRequest_congr hb hended]
  case kept =>
    intro j hj p hp
    rcases List.mem_append.mp hj with hj | hj
    · exact (haside j p (hne j hj) (living_eq_some_iff.mp hp).1).1.trans (h.kept j hj p hp)
    · obtain rfl := List.mem_singleton.mp hj
      exact (ht.kept p (hliving.trans hp)).trans (hk p (living_eq_some_iff.mp hp).1).1
  case rest =>
    intro j hj
    obtain ⟨hj, hij⟩ := not_or.mp (mt List.mem_append.mpr hj)
    have hij : i ≠ j := fun e => hij (List.mem_singleton.mpr e.symm)
    refine ⟨(hstate j hij).trans (h.rest j hj).1, fun p hp => ?_⟩
    obtain ⟨hgroup, hends⟩ := haside j p hij hp
    exact ⟨hgroup.trans ((h.rest j hj).2 p hp).1, hends.trans ((h.rest j hj).2 p hp).2⟩

theorem WaitDeed.imp {now now' : Nat} {late late' : r.Id → Pid → Prop} {d : Deed} (h : WaitDeed deadline now late d)
    (hnow : now' ≤ now) (hlate : ∀ i p, late i p → late' i p) : WaitDeed deadline now' late' d := by
  cases h with
  | slept nanos h => exact .slept nanos (Nat.lt_of_le_of_lt hnow h)
  | warned h => exact .warned (hlate _ _ h)

/-- These services have been waited for, since the kernel was `k₁` and the board `b₁`. -/
structure Waiting (deadline : Nat) (k₁ : Timed × List Deed) (b₁ : Board r) (is : List r.Id) (k : Timed × List Deed)
    (b : Board r) : Prop where
  ends_eq : k.1.ends = k₁.1.ends
  le_now : k₁.1.now ≤ k.1.now
  now_le : k.1.now ≤ max deadline k₁.1.now
  deeds : ∃ rest, k.2 = k₁.2 ++ rest ∧ ∀ d ∈ rest, WaitDeed deadline k₁.1.now
    (fun (i : r.Id) p => b₁[i].pid = some p ∧ k₁.1.endedBy (max deadline k₁.1.now) p = none) d
  state : ∀ i ∈ is, ∀ p, b₁[i].pid = some p → b[i] = afterWait b₁[i] (k₁.1.endedBy (max deadline k₁.1.now) p)
  rest : ∀ i ∉ is, b[i] = b₁[i] ∧ ∀ p, b₁[i].pid = some p → k.1.group p = k₁.1.group p

theorem Waiting.nil (deadline : Nat) (k₁ : Timed × List Deed) (b₁ : Board r) : Waiting deadline k₁ b₁ [] k₁ b₁ :=
  ⟨rfl, Nat.le_refl _, Nat.le_max_right .., ⟨[], by simp⟩, nofun, fun _ _ => ⟨rfl, fun _ _ => rfl⟩⟩

/-- The time is up for all of them at once. -/
theorem Waiting.limit_eq (h : Waiting deadline k₁ b₁ is k b) :
    max deadline k.1.now = max deadline k₁.1.now := by
  have := h.le_now
  have := h.now_le
  omega

/-- How and when processes end is settled by then. -/
theorem Waiting.endedBy_eq (h : Waiting deadline k₁ b₁ is k b) (t : Nat) (p : Pid) :
    k.1.endedBy t p = k₁.1.endedBy t p := endedBy_congr (congrFun h.ends_eq p)

theorem Waiting.concat (h : Waiting deadline k₁ b₁ is k b) (hd : Distinct b₁) (hi : i ∉ is)
    (hp : b₁[i].pid = some p) (ht : WaitTurn deadline i p k b k' b') :
    Waiting deadline k₁ b₁ (is ++ [i]) k' b' := by
  have hby := h.endedBy_eq (max deadline k₁.1.now) p
  constructor
  case ends_eq => exact ht.ends_eq.trans h.ends_eq
  case le_now => exact Nat.le_trans h.le_now ht.le_now
  case now_le => exact h.limit_eq ▸ ht.now_le
  case deeds =>
    obtain ⟨rest, he, hrest⟩ := h.deeds
    obtain ⟨rest', he', hrest'⟩ := ht.deeds
    refine ⟨rest ++ rest', by rw [he', he, List.append_assoc], fun d hmem => ?_⟩
    rcases List.mem_append.mp hmem with hmem | hmem
    · exact hrest d hmem
    · refine (hrest' d hmem).imp h.le_now ?_
      rintro _ _ ⟨rfl, rfl, hlate⟩
      rw [h.limit_eq, hby] at hlate
      exact ⟨hp, hlate⟩
  case state =>
    intro j hj q hq
    rcases List.mem_append.mp hj with hj | hj
    · rw [ht.board_eq, Board.getElem_set_ne _ _ fun e : i = j => hi (e ▸ hj)]
      exact h.state j hj q hq
    · obtain rfl := List.mem_singleton.mp hj
      obtain rfl := Option.some.inj (hp.symm.trans hq)
      rw [ht.board_eq, Board.getElem_set_self, (h.rest j hi).1, h.limit_eq, hby]
  case rest =>
    intro j hj
    obtain ⟨hj, hij⟩ := not_or.mp (mt List.mem_append.mpr hj)
    have hij : i ≠ j := fun e => hij (List.mem_singleton.mpr e.symm)
    obtain ⟨hb, hk⟩ := h.rest j hj
    refine ⟨?_, fun q hq => ?_⟩
    · rw [ht.board_eq, Board.getElem_set_ne _ _ hij, hb]
    · refine (ht.aside q ?_).trans (hk q hq)
      rintro rfl
      exact hij (hd i j q hp hq)

theorem notMem_of_begins {α : Type} {x : α} {xs l : List α} (h : xs ++ [x] <+: l) (hn : l.Nodup) : x ∉ xs :=
  fun hmem => List.disjoint_of_nodup_append (h.sublist.nodup hn) hmem (List.mem_singleton_self x)

/-- The requests take no time. -/
theorem succeeds_requestAll {k : Timed} (hd : Distinct b)
    (hheld : ∀ (i : r.Id) p, b[i].pid = some p → ∃ g, k.group p = some g) (hnodup : is.Nodup) (hn : 0 < n) :
    Succeeds watched (is.mapM fun i => return (i, ← reported i (requestStop i))) (fun k' answers b' =>
      Requesting k b is k' b' ∧ answers = is.map fun i => (i, some (living k b i).isSome)) n (k, []) b := by
  refine Succeeds.mapM (fun is answers (k' : Timed × List Deed) b' => Requesting k b is k' b' ∧
    answers = is.map fun i => (i, some (living k b i).isSome)) _ ⟨.nil k b, rfl⟩ ?_ fun _ _ _ h => h
  rintro ⟨(k₁ : Timed), l₁⟩ b₁ is i _ hbegin ⟨hreq, rfl⟩
  have hi := notMem_of_begins hbegin hnodup
  obtain ⟨hb, hk⟩ := hreq.rest i hi
  have hheld₁ : ∀ p, b₁[i].pid = some p → ∃ g, k₁.group p = some g := fun p hp => by
    rw [hb] at hp
    exact (hheld i p hp).imp fun g hg => (hk p hp).1.trans hg
  refine succeeds_bind.mpr (succeeds_reported ((succeeds_requestStop_timed hheld₁ hn).imp ?_))
  rintro k₂ answer b₂ ⟨rfl, ht⟩
  refine succeeds_pure ⟨hreq.concat hd hi ht, ?_⟩
  rw [List.map_append, living_congr hb fun p hp => ended_congr hreq.now_eq (hk p hp).2]
  rfl

/-- The waits share the time that is left. -/
theorem succeeds_awaitAll {waits : List (r.Id × Option Bool)} (hd : Distinct b₁)
    (hnodup : (waits.map Prod.fst).Nodup)
    (hheld : ∀ d ∈ waits, ∃ p g, b₁[d.1].pid = some p ∧ k₁.1.group p = some g) (hn : deadline - k₁.1.now < n) :
    Succeeds watched (waits.mapM fun d => reported d.1 (awaitStopped d.1 deadline)) (fun k' answers b' =>
      Waiting deadline k₁ b₁ (waits.map Prod.fst) k' b' ∧ answers = waits.map fun d =>
        some (b₁[d.1].pid.bind (k₁.1.endedBy (max deadline k₁.1.now))).isSome) n k₁ b₁ := by
  refine Succeeds.mapM (fun waits answers (k' : Timed × List Deed) b' =>
    Waiting deadline k₁ b₁ (waits.map Prod.fst) k' b' ∧ answers = waits.map fun d =>
      some (b₁[d.1].pid.bind (k₁.1.endedBy (max deadline k₁.1.now))).isSome) _ ⟨.nil _ _ _, rfl⟩ ?_ fun _ _ _ h => h
  rintro ⟨(k₂ : Timed), l₂⟩ b₂ before d _ hbegin ⟨hwait, rfl⟩
  have hi : d.1 ∉ before.map Prod.fst := notMem_of_begins (by simpa using hbegin.map Prod.fst) hnodup
  obtain ⟨p, g, hp, hg⟩ := hheld d (hbegin.subset (List.mem_append_right _ (.head _)))
  obtain ⟨hb, hk⟩ := hwait.rest d.1 hi
  have hn₂ : deadline - k₂.now < n := by
    have := hwait.le_now
    simp only at this
    omega
  refine succeeds_reported ((succeeds_awaitStopped_timed (hb ▸ hp) ((hk p hp).trans hg) hn₂).imp ?_)
  rintro k₃ gone b₃ ⟨rfl, ht⟩
  refine ⟨?_, ?_⟩
  · rw [List.map_append]
    exact hwait.concat hd hi hp ht
  · have hlimit := hwait.limit_eq
    have hby := hwait.endedBy_eq (max deadline k₁.1.now) p
    simp only at hlimit hby
    rw [hlimit, hby, List.map_append, List.map_singleton, hp, Option.bind_some]

/-- After the requests, the services hold the processes that live. -/
theorem Requesting.pid_eq {k : Timed} (h : Requesting k b is k₁ b₁) (hi : i ∈ is) : b₁[i].pid = living k b i := by
  rw [h.state i hi, pid_afterRequest]

/-- No two of them hold the same process. -/
theorem Requesting.distinct {k : Timed} (h : Requesting k b is k₁ b₁) (hall : ∀ i, i ∈ is) (hd : Distinct b) :
    Distinct b₁ := by
  intro i j p hi hj
  rw [h.pid_eq (hall i), living_eq_some_iff] at hi
  rw [h.pid_eq (hall j), living_eq_some_iff] at hj
  exact hd i j p hi.1 hj.1

/-! ## What becomes of them -/

/-- The process lives, and has not ended when the time is up. -/
def Late (deadline : Nat) (k : Timed) (b : Board r) (k' : Timed) (i : r.Id) (p : Pid) : Prop :=
  living k b i = some p ∧ k'.endedBy (max deadline k.now) p = none

/-- What becomes of the services when all of them are stopped, from the kernel `k` and the board `b` on. -/
structure WithinBudget (deadline : Nat) (k : Timed) (b : Board r) (k' : Timed × List Deed) (stopped : Bool)
    (b' : Board r) : Prop where
  /-- It is over at the deadline, or at once if that has passed. -/
  now_le : k'.1.now ≤ max deadline k.now
  /-- Each process that lives is signalled, and only then there are pauses. -/
  deeds : ∃ rest, k'.2 = (r.startOrder.reverse.filterMap (living k b)).map (Deed.sent · .terminate) ++ rest ∧
    ∀ d ∈ rest, WaitDeed deadline k.now (Late deadline k b k'.1) d
  inTime : ∀ (i : r.Id) p t, living k b i = some p → k'.1.endedBy (max deadline k.now) p = some t →
    b'[i] = ⟨.stopped, none, t.code, false⟩
  late : ∀ (i : r.Id) p, Late deadline k b k'.1 i p → b'[i] = { b[i] with stopRequested := false }
  /-- Where no process lived, at most the end of one is recorded. -/
  others : ∀ i : r.Id, living k b i = none → b'[i] = b[i].checked (b[i].pid.bind k.ended)
  stopped_iff : stopped = true ↔ ∀ (i : r.Id) p, ¬ Late deadline k b k'.1 i p

/-- Both passes together. -/
theorem Requesting.withinBudget {k : Timed} {stopped : Bool} (hreq : Requesting k b r.startOrder.reverse k₁ b₁)
    (hwait : Waiting deadline k₁ b₁ is k' b') (his : ∀ i, i ∈ is ↔ ∃ p, living k b i = some p)
    (hstopped : stopped = true ↔
      ∀ i ∈ is, (b₁[i].pid.bind (k₁.1.endedBy (max deadline k₁.1.now))).isSome = true) :
    WithinBudget deadline k b k' stopped b' := by
  have hall : ∀ i, i ∈ r.startOrder.reverse := fun i => List.mem_reverse.mpr (Registry.mem_startOrder i)
  have hpid : ∀ i : r.Id, b₁[i].pid = living k b i := fun i => hreq.pid_eq (hall i)
  have hby := hwait.endedBy_eq (max deadline k.now)
  have hstate : ∀ i p, living k b i = some p →
      b'[i] = afterWait { b[i] with stopRequested := true } (k'.1.endedBy (max deadline k.now) p) := by
    intro i p hp
    rw [hwait.state i ((his i).mpr ⟨p, hp⟩) p ((hpid i).trans hp), hreq.state i (hall i), afterRequest_of_living hp,
      hby, hreq.now_eq]
  constructor
  case now_le => exact hreq.now_eq ▸ hwait.now_le
  case deeds =>
    obtain ⟨rest, he, hrest⟩ := hwait.deeds
    refine ⟨rest, by rw [he, hreq.deeds_eq], fun d hd => (hrest d hd).imp (Nat.le_of_eq hreq.now_eq.symm) ?_⟩
    rintro i p ⟨hp, hlate⟩
    rw [hreq.now_eq, ← hby] at hlate
    exact ⟨(hpid i).symm.trans hp, hlate⟩
  case inTime =>
    intro i p t hp ht
    rw [hstate i p hp, ht]
    rfl
  case late =>
    rintro i p ⟨hp, hlate⟩
    rw [hstate i p hp, hlate]
    rfl
  case others =>
    intro i hi
    have hnot : i ∉ is := fun hmem => by
      obtain ⟨p, hp⟩ := (his i).mp hmem
      cases hi.symm.trans hp
    rw [(hwait.rest i hnot).1, hreq.state i (hall i), afterRequest_of_none hi]
  case stopped_iff =>
    rw [hstopped]
    constructor
    · rintro h i p ⟨hp, hlate⟩
      have hended := h i ((his i).mpr ⟨p, hp⟩)
      rw [hpid, hp, Option.bind_some, hreq.now_eq, ← hby, hlate] at hended
      cases hended
    · intro h i hi
      obtain ⟨p, hp⟩ := (his i).mp hi
      rw [hpid, hp, Option.bind_some, hreq.now_eq, ← hby]
      exact Option.isSome_iff_ne_none.mpr fun hlate => h i p ⟨hp, hlate⟩

end All

/-- Those that are waited for are those whose processes were found alive. -/
theorem map_fst_waits (k : Timed) (b : Board r) (is : List r.Id) :
    ((is.map fun i => (i, some (living k b i).isSome)).filter fun d => decide (d.2 = some true)).map Prod.fst =
      is.filter fun i => (living k b i).isSome := by
  rw [List.filter_map, List.map_map]
  simp [Function.comp_def]

/-- If the services hold children, no two of them the same, then stopping all of them succeeds, provided that its
loops have enough rounds for the time that is left.  All signals are sent before the first pause, and it is over at
the deadline, or at once if that has passed.  A service whose process lived and ends by then is stopped, with the
exit code of its process, or -1 if that was ended by a signal.  It is reported not to have stopped only if its
process still lives when the time is up, and then the request is withdrawn. -/
theorem stopAll_within_budget (deadline : Nat) {k : Timed} {b : Board r} (hd : Distinct b)
    (hheld : ∀ (i : r.Id) p, b[i].pid = some p → k.children.Has p) : ∃ bound, ∀ n ≥ bound,
    Succeeds watched (stopAll deadline) (WithinBudget deadline k b) n (k, []) b := by
  refine ⟨deadline - k.now + 1, fun n hn => ?_⟩
  have hheld : ∀ (i : r.Id) p, b[i].pid = some p → ∃ g, k.group p = some g := fun i p hp =>
    exists_group_of_has (hheld i p hp)
  have hnodup : r.startOrder.reverse.Nodup := List.nodup_reverse.mpr r.nodup_startOrder
  have hall : ∀ i, i ∈ r.startOrder.reverse := fun i => List.mem_reverse.mpr (Registry.mem_startOrder i)
  refine (succeeds_requestAll hd hheld hnodup (Nat.zero_lt_of_lt hn)).bind ?_
  rintro k₁ _ b₁ ⟨hreq, rfl⟩
  have hwaits := map_fst_waits k b r.startOrder.reverse
  have hmem : ∀ i, i ∈ r.startOrder.reverse.filter (fun i => (living k b i).isSome) ↔ ∃ p, living k b i = some p := by
    intro i
    rw [List.mem_filter, Option.isSome_iff_exists]
    exact and_iff_right (hall i)
  refine (succeeds_awaitAll (hreq.distinct hall hd) (hwaits ▸ hnodup.filter _) ?_ ?_).bind ?_
  · intro d hd
    obtain ⟨p, hp⟩ := (hmem d.1).mp (hwaits ▸ List.mem_map_of_mem hd)
    obtain ⟨g, hg⟩ := hheld d.1 p (living_eq_some_iff.mp hp).1
    exact ⟨p, g, (hreq.pid_eq (hall d.1)).trans hp, (hreq.kept d.1 (hall d.1) p hp).trans hg⟩
  · exact hreq.now_eq ▸ hn
  rintro k' _ b' ⟨hwait, rfl⟩
  rw [hwaits] at hwait
  refine succeeds_pure (hreq.withinBudget hwait hmem ?_)
  rw [← hwaits]
  simp [or_iff_not_imp_left, Option.isSome_iff_ne_none]

/-- The processes of the pair, both of which live. -/
def pairAlive : Timed where
  now := 5
  group p := if p = 100 ∨ p = 101 then some p else none
  positive h := by grind
  ends _ := none

/-- Two processes that end in time. -/
theorem stopAll_within_budget_pair : ∃ bound, ∀ n ≥ bound, Succeeds watched (stopAll 20) (fun k' stopped b' =>
    k'.1.now ≤ 20 ∧ (stopped = true ↔ k'.1.endedBy 20 100 ≠ none ∧ k'.1.endedBy 20 101 ≠ none) ∧
      ∀ t, k'.1.endedBy 20 101 = some t → b'[dependent .always] = ⟨.stopped, none, t.code, false⟩)
    n (pairAlive, []) pairRunning := by
  have hpid : ∀ (i : (dependentPair .always).Id) p, pairRunning[i].pid = some p → p = 100 + i.val := by
    intro i p h
    match i with
    | ⟨0, _⟩ => exact (Option.some.inj h).symm
    | ⟨1, _⟩ => exact (Option.some.inj h).symm
  have hliving : ∀ (i : (dependentPair .always).Id) p, living pairAlive pairRunning i = some p ↔
      pairRunning[i].pid = some p := fun i p => living_eq_some_iff.trans (and_iff_left rfl)
  have hdistinct : Distinct pairRunning := fun i j p hi hj => Fin.ext (by grind)
  have hheld : ∀ (i : (dependentPair .always).Id) p, pairRunning[i].pid = some p → pairAlive.children.Has p := by
    intro i p h
    match i with
    | ⟨0, _⟩ => exact Option.some.inj h ▸ ⟨_, rfl⟩
    | ⟨1, _⟩ => exact Option.some.inj h ▸ ⟨_, rfl⟩
  obtain ⟨bound, hb⟩ := stopAll_within_budget 20 hdistinct hheld
  refine ⟨bound, fun n hn => (hb n hn).imp ?_⟩
  intro k' stopped b' h
  refine ⟨h.now_le, h.stopped_iff.trans ⟨fun hnone => ⟨?_, ?_⟩, ?_⟩, fun t ht => ?_⟩
  · exact fun hlate => hnone dependency 100 ⟨rfl, hlate⟩
  · exact fun hlate => hnone (dependent .always) 101 ⟨rfl, hlate⟩
  · rintro ⟨h₀, h₁⟩ i p ⟨hp, hlate⟩
    rw [hliving] at hp
    match i with
    | ⟨0, _⟩ => exact h₀ (Option.some.inj hp ▸ hlate)
    | ⟨1, _⟩ => exact h₁ (Option.some.inj hp ▸ hlate)
  · exact h.inTime (dependent .always) 101 t rfl ht

end ContainerInit.Supervision
