import ContainerInit.Proofs.Dialogue.History
import ContainerInit.Proofs.Dialogue.Series
import ContainerInit.Proofs.Supervision.Boot
import ContainerInit.Proofs.Supervision.DependencyOrder
import ContainerInit.Proofs.Supervision.DueServices
import ContainerInit.Proofs.Supervision.Sweep

/-! # Scheduled starts

A check of the schedule starts each service that is due in its window, in the order of their first minutes and then of
names, and answers which of these starts have not failed.

These need not be the services for which a process has been forked.  A service that runs already is started without a
fork, and one whose start has failed may still be forked later, for another service that depends on it.

## One start after the other

`CarriedThrough` is a run of the check, taken apart: all starts that are due are made in order, or those up to the
first after which there is reason to give up.  Failures for which there is none are passed over and do not show in
the answer.

## What the names mean

To say who has been forked, the starts are taken together with their attempts (`Undergone`).  Then the attempts of the
whole check are those of its starts in their order, and each of them is for a service that takes part in one of these
starts.  `checkSchedule_names` puts the answer and the forks side by side, and the last section has a service that is
named without a fork. -/

namespace ContainerInit

namespace Supervision

open ContainerInit.Action Board Calendar

variable {r : Registry} {sup : Supervisor} {first last t : Instant} {b b' b₁ b₂ : Board r} {i : r.Id} {n : Nat}
  {h h₁ h₂ : History (Board r)}

/-! ## Records on the way -/

/-- Records for each element of a list come to nothing else. -/
theorem recordsOnly_of_runs_forM {α : Type} {f : α → Operation r Unit} {l : List α} {res : Except Error Unit}
    (hf : ∀ x, ∃ level text, f x = logRegistry level text) (hr : Runs (l.forM f) n b h res b') :
    RecordsOnly h ∧ res = .ok () ∧ b' = b := by
  induction l generalizing h b with
  | nil =>
    obtain ⟨rfl, rfl, rfl⟩ := runs_pure_iff.mp hr
    exact ⟨recordsOnly_nil, rfl, rfl⟩
  | cons x l ih =>
    obtain ⟨level, text, hx⟩ := hf x
    have hcons : Runs (f x >>= fun _ => l.forM f) n b h res b' := hr
    rw [hx] at hcons
    obtain ⟨h', rfl, hrest⟩ := runs_log_bind_iff.mp hcons
    obtain ⟨hh, hres, hb⟩ := ih hrest
    exact ⟨List.forall_mem_cons.mpr ⟨rfl, hh⟩, hres, hb⟩

/-! ## One start after the other -/

/-- A start of a service that is due, with what it has come to. -/
structure ScheduledStart (r : Registry) where
  due : r.Id × Instant
  result : Except Error Unit

/-- The start has not failed, or over something for which there is no reason to give up. -/
def ScheduledStart.Passable (s : ScheduledStart r) : Prop := ∀ e, s.result = .error e → e.isRecoverable = true

/-- The service is started, and at most records follow. -/
def Carried (sup : Supervisor) (n : Nat) (s : ScheduledStart r) (b : Board r) (h : History (Board r))
    (b' : Board r) : Prop :=
  ∃ h₁ h₂, h = h₁ ++ h₂ ∧ Runs (start sup s.due.1) n b h₁ s.result b' ∧ RecordsOnly h₂

/-- The answer tells whether the start has failed, unless there is reason to give up. -/
theorem carried_of_runs_startDue {x : r.Id × Instant} {res : Except Error Bool}
    (hr : Runs (startDue sup x.1) n b h res b') : ∃ s : ScheduledStart r, s.due = x ∧ Carried sup n s b h b' ∧
      match res with
      | .ok started => s.result.isOk = started ∧ s.Passable
      | .error e => s.result = .error e ∧ e.isRecoverable = false := by
  rcases runs_bind_iff.mp hr with ⟨h₁, h₂, out, b₁, rfl, ha, hrest⟩ | ⟨_, _, ha⟩
  · obtain ⟨_, e, hstart⟩ := runs_attempt_iff.mp ha
    cases e
    refine ⟨⟨x, out⟩, rfl, ?_⟩
    cases out with
    | ok _ =>
      obtain ⟨rfl, rfl, rfl⟩ := runs_pure_iff.mp hrest
      exact ⟨⟨h₁, [], rfl, hstart, recordsOnly_nil⟩, rfl, nofun⟩
    | error e =>
      dsimp only at hrest
      split at hrest
      case isTrue he =>
        rcases runs_bind_iff.mp hrest with ⟨_, _, _, _, _, hthrow, _⟩ | ⟨_, rfl, hthrow⟩
        · cases (runs_throw_iff.mp hthrow).2.1
        · obtain ⟨rfl, ⟨⟩, rfl⟩ := runs_throw_iff.mp hthrow
          exact ⟨⟨h₁, [], rfl, hstart, recordsOnly_nil⟩, rfl, by simpa using he⟩
      case isFalse he =>
        obtain ⟨_, rfl, hend⟩ := runs_log_bind_iff.mp hrest
        obtain ⟨rfl, rfl, rfl⟩ := runs_pure_iff.mp hend
        refine ⟨⟨h₁, _, rfl, hstart, recordsOnly_log⟩, rfl, ?_⟩
        rintro _ ⟨⟩
        simpa using he
  · obtain ⟨_, e, -⟩ := runs_attempt_iff.mp ha
    cases e

/-- What a check comes to: all starts that are due, or those up to the first after which there is reason to give
up. -/
inductive CarriedThrough (sup : Supervisor) (n : Nat) (due : List (r.Id × Instant)) :
    List (ScheduledStart r) → Board r → History (Board r) → Except Error (List String) → Board r → Prop where
  | complete {starts : List (ScheduledStart r)} {b b' : Board r} {h : History (Board r)}
      (hdue : starts.map ScheduledStart.due = due) (hs : Series (Carried sup n) starts b h b')
      (hp : ∀ s ∈ starts, s.Passable) : CarriedThrough sup n due starts b h
        (.ok ((starts.filter (·.result.isOk)).map fun s => (r.service s.due.1).name)) b'
  | stopped {done : List (ScheduledStart r)} {s : ScheduledStart r} {rest : List (r.Id × Instant)} {e : Error}
      {b b' : Board r} {h : History (Board r)} (hdue : (done ++ [s]).map ScheduledStart.due ++ rest = due)
      (hs : Series (Carried sup n) (done ++ [s]) b h b') (hp : ∀ s ∈ done, s.Passable)
      (he : s.result = .error e) (hfatal : e.isRecoverable = false) :
      CarriedThrough sup n due (done ++ [s]) b h (.error e) b'

/-- The starts that have answered. -/
theorem exists_carried_of_answers {xs : List ((r.Id × Instant) × Bool)}
    (hs : Series (Answers (fun x => startDue sup x.1) n) xs b h b') :
    ∃ starts : List (ScheduledStart r), starts.map (fun s => (s.due, s.result.isOk)) = xs ∧
      Series (Carried sup n) starts b h b' ∧ ∀ s ∈ starts, s.Passable := by
  obtain ⟨starts, hmap, hs⟩ := hs.exists_map (f := fun s : ScheduledStart r => (s.due, s.result.isOk))
    (Q := fun s b h b' => Carried sup n s b h b' ∧ s.Passable) fun x _ b h b' hx => by
      obtain ⟨s, hdue, hc, hok, hp⟩ := carried_of_runs_startDue hx
      exact ⟨s, Prod.ext hdue hok, hc, hp⟩
  exact ⟨starts, hmap, hs.imp fun _ _ _ _ => And.left, hs.forall_mem fun _ _ _ _ => And.right⟩

/-- The traversal of the services that are due is a run of the check. -/
theorem carriedThrough_of_through {due : List (r.Id × Instant)} {out : Except Error (List ((r.Id × Instant) × Bool))}
    (ht : Through (fun x => startDue sup x.1) n due b h out b') : ∃ starts, CarriedThrough sup n due starts b h
      (out.map fun xs => ((xs.filter Prod.snd).map Prod.fst).map fun x => (r.service x.1).name) b' := by
  cases ht with
  | complete hs =>
    obtain ⟨starts, rfl, hs, hp⟩ := exists_carried_of_answers hs
    refine ⟨starts, ?_⟩
    convert CarriedThrough.complete rfl hs hp using 2
    · simp
    · simp [Except.map, List.filter_map, Function.comp_def]
  | @stopped done x e _ b₁ _ _ _ rest hs hx =>
    obtain ⟨starts, rfl, hs, hp⟩ := exists_carried_of_answers hs
    obtain ⟨s, rfl, hc, he, hfatal⟩ := carried_of_runs_startDue hx
    have hdue : (starts ++ [s]).map ScheduledStart.due ++ rest =
        (starts.map fun s => (s.due, s.result.isOk)).map Prod.fst ++ s.due :: rest := by simp
    exact ⟨starts ++ [s], .stopped hdue (hs.append (.single hc)) hp he hfatal⟩

/-- A check writes its records, and then carries out the starts that are due. -/
theorem carriedThrough_of_runs {res : Except Error (List String)}
    (hr : Runs (checkSchedule sup first last) n b h res b') : ∃ h₁ h₂ starts, h = h₁ ++ h₂ ∧ RecordsOnly h₁ ∧
      CarriedThrough sup n (dueWithin r first last) starts b h₂ res b' := by
  unfold checkSchedule at hr
  rw [← dueWithin] at hr
  generalize dueWithin r first last = due at hr ⊢
  rcases runs_bind_iff.mp hr with ⟨h₁, h₂, _, b₁, rfl, hlog, hrest⟩ | ⟨e, rfl, hlog⟩
  · obtain ⟨hh, -, rfl⟩ := recordsOnly_of_runs_forM (fun _ => ⟨_, _, rfl⟩) hlog
    obtain ⟨_, hkept, rfl⟩ := runs_bind_pure_iff.mp hrest
    obtain ⟨out, hthrough, rfl⟩ := through_of_runs_filterM hkept
    obtain ⟨starts, hc⟩ := carriedThrough_of_through hthrough
    refine ⟨h₁, h₂, starts, rfl, hh, ?_⟩
    cases out <;> exact hc
  · obtain ⟨-, e, -⟩ := recordsOnly_of_runs_forM (fun _ => ⟨_, _, rfl⟩) hlog
    cases e

/-- A start comes to an end, and so does a record. -/
theorem halts_startDue (sup : Supervisor) (i : r.Id) : Halts (startDue sup i) := by
  refine (halts_start sup i).attempt.bind fun out => ?_
  cases out with
  | ok _ => exact halts_pure _
  | error e =>
    dsimp only
    split
    · exact halts_throw _
    · exact (halts_ask _).bind fun _ => halts_pure _

theorem halts_checkSchedule (sup : Supervisor) (first last : Instant) :
    Halts (checkSchedule sup first last : Operation r (List String)) := by
  unfold checkSchedule
  generalize firstDue r (windowSize first last) first [] = due
  refine (halts_forM due fun _ => halts_ask _).bind fun _ => ?_
  exact (halts_filterM due fun x => halts_startDue sup x.1).bind fun _ => halts_pure _

/-- The scan of the minutes goes on for as long as the last has not been passed, which is the number of times that
is computed for it, and the check of the schedule ends, whatever the kernel answers.  The services that are due
are those whose schedule matches some minute of the window, each of them once, in the order of their first
matching minutes and then of names; none is due if the last minute is before the first.  A check starts them one
after the other.  It goes on if one cannot be started but may be tried again, and stops with any other error. -/
theorem checkSchedule_starts_due (sup : Supervisor) (hf : first.Sound) (hl : last.Sound) :
    (∀ k, (Instant.next^[k] first).order last ≠ .gt ↔ k < windowSize first last) ∧
    Halts (checkSchedule sup first last : Operation r (List String)) ∧
    ∃ due : List (r.Id × Instant),
      (∀ i, i ∈ due.map Prod.fst ↔ ∃ t, Instant.InWindow first last t ∧ Matched r i t) ∧
      (first.order last = .gt → due = []) ∧ (due.map Prod.fst).Nodup ∧
      (∀ i t, (i, t) ∈ due → FirstMatch r first last i t) ∧ due.Pairwise Earlier ∧
      ∀ n b h res b', Runs (checkSchedule sup first last) n b h res b' → ∃ h₁ h₂ starts, h = h₁ ++ h₂ ∧
        RecordsOnly h₁ ∧ CarriedThrough sup n due starts b h₂ res b' := by
  refine ⟨fun k => (lt_windowSize_iff hf hl).symm, halts_checkSchedule sup first last, dueWithin r first last,
    fun i => mem_map_dueWithin_iff hf hl, fun h => ?_, nodup_map_dueWithin hf hl,
    fun i t => (mem_dueWithin_iff hf hl).mp, pairwise_dueWithin hf, fun n b h res b' => carriedThrough_of_runs⟩
  refine List.eq_nil_iff_forall_not_mem.mpr fun ⟨i, t⟩ hm => ?_
  exact not_inWindow hf hl h ((mem_dueWithin_iff hf hl).mp hm).inWindow

/-- In a valid registry whose arguments can all be given to a process, there is never a reason to give up. -/
theorem Carried.passable {s : ScheduledStart r} (hc : Carried sup n s b h b') (hv : r.validate = .ok ())
    (hf : r.NulFree) : s.Passable := by
  obtain ⟨h₁, h₂, -, hr, -⟩ := hc
  obtain ⟨as, -, hl⟩ := (assures_start_launched hf sup s.due.1).runs hr
  exact fun e => hl.isRecoverable hv

/-- Where there is no reason to give up, the answer has the names of the starts that have not failed. -/
theorem CarriedThrough.exists_names {due : List (r.Id × Instant)} {starts : List (ScheduledStart r)}
    {res : Except Error (List String)} (hc : CarriedThrough sup n due starts b h res b') (hv : r.validate = .ok ())
    (hf : r.NulFree) : ∃ names, res = .ok names ∧ starts.map ScheduledStart.due = due ∧
      Series (Carried sup n) starts b h b' := by
  cases hc with
  | complete hdue hs hp => exact ⟨_, rfl, hdue, hs⟩
  | @stopped done s _ e _ _ _ hdue hs hp he hfatal =>
    have hpass := hs.forall_mem (fun _ _ _ _ hc => hc.passable hv hf) s (List.mem_append_right _ (.head _))
    cases hfatal.symm.trans (hpass e he)

/-- The minute before a midnight, in a leap year. -/
def leapEve : Instant := ⟨2024, 2, 29, 23, 59, 4⟩

def leapMidnight : Instant := ⟨2024, 3, 1, 0, 0, 5⟩

theorem sound_leapEve : leapEve.Sound := Instant.sound_ofFields (show Instant.ofFields 2024 2 29 23 59 = _ by decide)

theorem sound_leapMidnight : leapMidnight.Sound :=
  Instant.sound_ofFields (show Instant.ofFields 2024 3 1 0 0 = _ by decide)

/-- Two services are due at midnight, one of which the other one depends on. -/
theorem checkSchedule_starts_due_bootTrio : leapEve.Sound ∧ leapMidnight.Sound ∧ ∃ h₁ h₂ names b' starts,
    Runs (checkSchedule ⟨[]⟩ leapEve leapMidnight) 0 (initial : Board bootTrio) (h₁ ++ h₂) (.ok names) b' ∧
      Series (Carried ⟨[]⟩ 0) starts initial h₂ b' ∧ timedDependency ∈ starts.map (·.due.1) ∧
      timedService ∈ starts.map (·.due.1) ∧ bootService ∉ starts.map (·.due.1) := by
  obtain ⟨-, hhalts, due, hmem, -, -, -, -, hruns⟩ :=
    checkSchedule_starts_due (r := bootTrio) ⟨[]⟩ sound_leapEve sound_leapMidnight
  obtain ⟨h, ⟨res, b'⟩, hr, -⟩ := (hhalts 0 initial).exists_runs forksOnly
  obtain ⟨h₁, h₂, starts, rfl, -, hc⟩ := hruns _ _ _ _ _ hr
  obtain ⟨names, rfl, rfl, hs⟩ := hc.exists_names validate_bootTrio nulFree_bootTrio
  rw [List.map_map] at hmem
  have hwindow : Instant.InWindow leapEve leapMidnight leapMidnight := ⟨sound_leapMidnight, by decide, by decide⟩
  refine ⟨sound_leapEve, sound_leapMidnight, h₁, h₂, names, b', starts, hr, hs, ?_, ?_, ?_⟩
  · exact (hmem timedDependency).mpr ⟨_, hwindow, midnight, .head _, by decide⟩
  · exact (hmem timedService).mpr ⟨_, hwindow, midnight, .head _, by decide⟩
  · intro hb
    obtain ⟨_, -, e, he, -⟩ := (hmem bootService).mp hb
    cases he

/-! ## The names that are answered -/

/-- A start with its attempts. -/
abbrev Undergone (r : Registry) := ScheduledStart r × List (Attempt r)

/-- The attempts are those of the start. -/
def Undergone.Of (sup : Supervisor) (y : Undergone r) (b : Board r) (h : History (Board r)) (b' : Board r) : Prop :=
  Made sup [] b y.2 h b' ∧ Launched b y.1.due.1 y.2 y.1.result

/-- Records are no attempts. -/
theorem made_of_recordsOnly (hh : RecordsOnly h) : Made sup [] b [] h b := by
  refine ⟨?_, rfl⟩
  refine List.filter_eq_nil_iff.mpr fun e he => ?_
  obtain ⟨l, hl⟩ := isLog_eq_true_iff.mp (hh e he)
  rw [hl]
  nofun

/-- Over an argument with a nul byte there would be reason to give up. -/
theorem Carried.exists_undergone {s : ScheduledStart r} (hc : Carried sup n s b h b') (hp : s.Passable) :
    ∃ y : Undergone r, y.1 = s ∧ y.Of sup b h b' := by
  obtain ⟨h₁, h₂, rfl, hr, hh⟩ := hc
  rcases (assures_start_comesTo sup s.due.1).runs hr with ⟨as, hm, hl⟩ | ⟨e, he, _, _, _, _, rfl⟩
  · have hm := hm.append (made_of_recordsOnly hh)
    rw [List.append_nil] at hm
    exact ⟨(s, as), rfl, hm, hl⟩
  · cases hp _ he

/-- The attempts of all starts are those of each, one after the other. -/
theorem made_of_series {ys : List (Undergone r)} (hs : Series (Undergone.Of sup) ys b h b') :
    Made sup [] b (ys.flatMap Prod.snd) h b' := by
  induction hs with
  | nil => exact .refl
  | cons hy _ ih => exact hy.1.append ih

/-! ### Dependencies of what is attempted -/

/-- Attempts take nothing away that a service depends on. -/
theorem supplied_notingAll {as : List (Attempt r)} (hs : b.Supplied i) : (b.notingAll as).Supplied i := by
  intro name hn
  obtain ⟨j, hj, hp⟩ := hs name hn
  exact ⟨j, hj, isRunning_eq_true_iff.mp (isRunning_notingAll_of_isRunning (isRunning_eq_true_iff.mpr hp))⟩

/-- Each service that is attempted has its dependencies running, by induction on what is left of the plan. -/
theorem Undertaken.eachTime_supplied {b₀ : Board r} {done is : List r.Id} {as : List (Attempt r)}
    {res : Except Error Unit} (hs : Undertaken b is as res) (hp : r.plan b₀ i = .ok (done ++ is))
    (hu : b₀.Underway done b) : b.EachTime Supplied as := by
  induction hs generalizing done with
  | nil => trivial
  | stop ht =>
    refine ht.eachTime.imp ?_
    rintro b₁ j ⟨rfl, rfl, -⟩
    exact hu.supplied hp
  | @cons b j is as as' res ht hs ih =>
    have hp' : r.plan b₀ i = .ok (done ++ [j] ++ is) := by rwa [List.append_assoc]
    have hkept : b₀.Underway done (b.notingAll as) :=
      ⟨fun k hk => isRunning_notingAll_of_isRunning (hu.kept k hk),
        fun k hk => isRunning_notingAll_of_isRunning (hu.done k hk)⟩
    refine eachTime_append.mpr ⟨ht.eachTime.imp ?_, ih hp' (hkept.concat ht.of_ok.2.2)⟩
    rintro b₁ k ⟨rfl, rfl, -⟩
    exact hu.supplied hp

/-- Each service that is attempted has all it depends on. -/
theorem Launched.eachTime_supplied {as : List (Attempt r)} {res : Except Error Unit} (hl : Launched b i as res) :
    b.EachTime Supplied as := by
  cases hl with
  | refused hp => trivial
  | planned hp hs =>
    have hp : r.plan b i = .ok ([] ++ _) := hp
    exact hs.eachTime_supplied hp (.refl b)

/-- A start of a service that runs together with all that it depends on does not fail. -/
theorem Launched.eq_ok_of_supplied {as : List (Attempt r)} {res : Except Error Unit} (hl : Launched b i as res)
    (hi : b.isRunning i = true) (hs : b.Supplied i) : res = .ok () := by
  cases hl with
  | refused hp => exact absurd (obstacle_of_plan_eq_error hp) (hs.not_obstacle _)
  | planned hp hu =>
    cases res with
    | ok _ => rfl
    | error e =>
      have hplan := isPlan_of_plan_eq_ok hp
      obtain ⟨done, j, errno, hj, rfl, -, -⟩ := hu.of_error
      obtain rfl := hs.eq_of_requires ((hplan.mem_iff j).mp hj)
      obtain ⟨-, -, hidle⟩ := (hu.eachTime hplan.nodup).of_split
      exact absurd hi hidle.not_isRunning

/-! ### All starts of a check -/

theorem eachTime_of_series {P : Board r → r.Id → Prop} {ys : List (Undergone r)}
    (hs : Series (Undergone.Of sup) ys b h b')
    (hP : ∀ {b : Board r} {i : r.Id} {as : List (Attempt r)} {res : Except Error Unit}, Launched b i as res →
      b.EachTime P as) : b.EachTime P (ys.flatMap Prod.snd) := by
  induction hs with
  | nil => trivial
  | cons hy _ ih => exact eachTime_append.mpr ⟨hP hy.2, hy.1.board_eq ▸ ih⟩

/-- What is attempted for one of the services, after what has been for those before it. -/
theorem launched_of_mem {ys : List (Undergone r)} (hs : Series (Undergone.Of sup) ys b h b') {y : Undergone r}
    (hy : y ∈ ys) : ∃ before after, ys.flatMap Prod.snd = before ++ (y.2 ++ after) ∧ b.EachTime Supplied before ∧
      Launched (b.notingAll before) y.1.due.1 y.2 y.1.result := by
  obtain ⟨ys₁, ys₂, rfl⟩ := List.append_of_mem hy
  obtain ⟨_, _, _, _, _, rfl, hys₁, ⟨-, hl⟩, -⟩ := hs.split
  rw [(made_of_series hys₁).board_eq] at hl
  exact ⟨ys₁.flatMap Prod.snd, ys₂.flatMap Prod.snd, by simp, eachTime_of_series hys₁ Launched.eachTime_supplied, hl⟩

/-- A name is answered if the start of its service has not failed. -/
theorem mem_names_iff {starts : List (ScheduledStart r)} (hn : (starts.map fun s => s.due.1).Nodup)
    {s : ScheduledStart r} (hs : s ∈ starts) :
    (r.service s.due.1).name ∈ (starts.filter (·.result.isOk)).map (fun s => (r.service s.due.1).name) ↔
      s.result = .ok () := by
  have hok : s.result.isOk = true ↔ s.result = .ok () := by
    cases s.result <;> simp [Except.isOk, Except.toBool]
  rw [← hok, List.mem_map]
  constructor
  · rintro ⟨s', hs', he⟩
    obtain ⟨hs', hok'⟩ := List.mem_filter.mp hs'
    obtain rfl : s' = s := List.inj_on_of_nodup_map hn hs' hs (Registry.name_injective he)
    exact hok'
  · exact fun h => ⟨s, List.mem_filter.mpr ⟨hs, h⟩, rfl⟩

/-- A service that is forked before its own start runs by then, with all that it depends on. -/
theorem eq_ok_of_mem_before {before own : List (Attempt r)} {res : Except Error Unit} {p : Pid}
    (hs : b.EachTime Supplied before) (hp : ⟨i, .ok p⟩ ∈ before) (hl : Launched (b.notingAll before) i own res) :
    res = .ok () := by
  refine hl.eq_ok_of_supplied (isRunning_notingAll_of_mem hp ⟨p, rfl⟩) ?_
  obtain ⟨xs, ys, rfl⟩ := List.append_of_mem hp
  rw [notingAll_append]
  exact supplied_notingAll hs.of_split

/-- In a check that does not fail, a process is forked for a service that is due exactly if it has none before and
has that one after.  A service that is named has a process in the end, one of these or that which it had.  The
start of a service that is not named has failed when its turn came, and the service was forked only later, if at
all, for another one that is due. -/
theorem checkSchedule_names (sup : Supervisor) (hf : first.Sound) (hl : last.Sound) {names : List String}
    (hr : Runs (checkSchedule sup first last) n b h (.ok names) b') :
    ∃ as, forkCalls h = calls sup b as ∧ b' = b.notingAll as ∧
      ∀ i t, Instant.InWindow first last t → Matched r i t →
        (∀ p, ⟨i, .ok p⟩ ∈ as ↔ b.Idle i ∧ b'[i].pid = some p) ∧
        ((r.service i).name ∈ names → ∃ p, b'[i].pid = some p) ∧
        ((r.service i).name ∉ names → ∃ before own after e, as = before ++ (own ++ after) ∧
          Launched (b.notingAll before) i own (.error e) ∧ e.isRecoverable = true ∧
          ∀ p, ⟨i, .ok p⟩ ∈ as → ⟨i, .ok p⟩ ∈ after) := by
  obtain ⟨h₁, h₂, starts, rfl, hh, hc⟩ := carriedThrough_of_runs hr
  cases hc with
  | complete hdue hs hp =>
    obtain ⟨ys, rfl, hys⟩ := hs.exists_map (f := Prod.fst) (Q := Undergone.Of sup)
      fun s hs _ _ _ hc => hc.exists_undergone (hp s hs)
    have hmade := (made_of_recordsOnly hh).append (made_of_series hys)
    rw [List.nil_append] at hmade
    obtain ⟨hcalls, rfl⟩ := hmade
    refine ⟨ys.flatMap Prod.snd, hcalls, rfl, fun i t hw hm => ?_⟩
    have hi : i ∈ (dueWithin r first last).map Prod.fst := (mem_map_dueWithin_iff hf hl).mpr ⟨t, hw, hm⟩
    have hn := nodup_map_dueWithin (r := r) hf hl
    rw [← hdue, List.map_map] at hi hn
    obtain ⟨s, hmem, rfl⟩ := List.mem_map.mp hi
    have hnamed := mem_names_iff hn hmem
    have hpass := hp s hmem
    obtain ⟨⟨s, own⟩, hy, rfl⟩ := List.mem_map.mp hmem
    obtain ⟨before, after, hsplit, hsupplied, hown⟩ := launched_of_mem hys hy
    have hidle := eachTime_of_series hys Launched.eachTime_idle
    refine ⟨fun p => hidle.mem_iff, fun hname => ?_, fun hname => ?_⟩
    · rw [hnamed.mp hname] at hown
      refine isRunning_eq_true_iff.mp ?_
      rw [hsplit, notingAll_append, notingAll_append]
      exact isRunning_notingAll_of_isRunning hown.of_ok.1
    · cases hres : s.result with
      | ok _ => exact absurd (hnamed.mpr hres) hname
      | error e =>
        rw [hres] at hown
        refine ⟨before, own, after, e, hsplit, hown, hpass e hres, fun p hp => ?_⟩
        rw [hsplit, List.mem_append, List.mem_append] at hp
        rcases hp with hp | hp | hp
        -- what has been forked before leaves its own start nothing to fail over
        · cases eq_ok_of_mem_before hsupplied hp hown
        · exact absurd hp (hown.notMem_of_error p)
        · exact hp

/-- A service that is started every night. -/
def nightly : Registry :=
  ⟨[⟨"nightly", ["nightly"], List.cons_ne_nil _ _, [], .never, ⟨[midnight]⟩⟩], List.pairwise_singleton _ _⟩

def nightlyService : nightly.Id := ⟨0, Nat.zero_lt_one⟩

theorem matched_nightly : Matched nightly nightlyService leapMidnight := ⟨midnight, .head _, by decide⟩

/-- At midnight the service is due. -/
theorem firstDue_nightly : firstDue nightly (windowSize leapMidnight leapMidnight) leapMidnight [] =
    [(nightlyService, leapMidnight)] := by decide +kernel

/-- If the service can be started at midnight or has been before, it is named. -/
theorem exists_runs_checkSchedule_nightly {b b' : Board nightly}
    (hstart : ∃ h, Runs (start ⟨[]⟩ nightlyService) n b h (.ok ()) b') :
    ∃ h, Runs (checkSchedule ⟨[]⟩ leapMidnight leapMidnight) n b h (.ok ["nightly"]) b' := by
  obtain ⟨h, hstart⟩ := hstart
  have hdue : ∃ h, Runs (startDue ⟨[]⟩ nightlyService) n b h (.ok true) b' :=
    exists_runs_bind ⟨h, runs_attempt_iff.mpr ⟨_, rfl, hstart⟩⟩ ⟨[], .done _⟩
  unfold checkSchedule
  rw [firstDue_nightly]
  refine exists_runs_bind (exists_runs_bind exists_runs_log ⟨[], .done _⟩) ?_
  refine exists_runs_bind (a := [(nightlyService, leapMidnight)]) ?_ ⟨[], .done _⟩
  exact exists_runs_bind (exists_runs_bind hdue ⟨[], .done _⟩) ⟨[], .done _⟩

/-- The board while the process of the service runs. -/
def nightlyRuns : Board nightly := Board.initial.set nightlyService (Service.State.started {} 100)

theorem exists_runs_start_nightly : ∃ h, Runs (start ⟨[]⟩ nightlyService) 0 Board.initial h (.ok ()) nightlyRuns :=
  (Dialogue.exists_runs_of_answered (f := forksOnly) (by cbv)).imp fun _ => And.left

theorem checkSchedule_names_nightly : leapMidnight.Sound ∧ ∃ h b',
    Runs (checkSchedule ⟨[]⟩ leapMidnight leapMidnight) 0 (initial : Board nightly) h (.ok ["nightly"]) b' ∧
      ∃ p, b'[nightlyService].pid = some p := by
  obtain ⟨h, hr⟩ := exists_runs_checkSchedule_nightly exists_runs_start_nightly
  have hs := sound_leapMidnight
  obtain ⟨as, -, -, hall⟩ := checkSchedule_names ⟨[]⟩ hs hs hr
  have hwindow : Instant.InWindow leapMidnight leapMidnight leapMidnight := ⟨hs, by decide, by decide⟩
  exact ⟨hs, h, _, hr, (hall nightlyService _ hwindow matched_nightly).2.1 (.head _)⟩

/-- The service has been started before the night. -/
theorem exists_runs_session_nightly :
    ∃ h, Runs (session ⟨[]⟩ [.start nightlyService]) 0 Board.initial h (.ok [.ok ()]) nightlyRuns :=
  (Dialogue.exists_runs_of_answered (f := forksOnly) (by cbv)).imp fun _ => And.left

/-- Another start of the service that runs has nothing to do. -/
theorem exists_runs_start_nightlyRuns :
    ∃ h, Runs (start ⟨[]⟩ nightlyService) 0 nightlyRuns h (.ok ()) nightlyRuns :=
  (Dialogue.exists_runs_of_answered (f := forksOnly) (by cbv)).imp fun _ => And.left

/-- A service that runs already is named, and nothing has been forked. -/
theorem checkSchedule_names_running : ∃ h results b,
    Runs (session ⟨[]⟩ [.start nightlyService]) 0 Board.initial h (.ok results) b ∧
      Matched nightly nightlyService leapMidnight ∧ b[nightlyService].pid = some 100 ∧
      ∃ h' names, Runs (checkSchedule ⟨[]⟩ leapMidnight leapMidnight) 0 b h' (.ok names) b ∧
        (nightly.service nightlyService).name ∈ names := by
  obtain ⟨h, hr⟩ := exists_runs_session_nightly
  obtain ⟨h', hr'⟩ := exists_runs_checkSchedule_nightly exists_runs_start_nightlyRuns
  exact ⟨h, _, nightlyRuns, hr, matched_nightly, rfl, h', _, hr', .head _⟩

end Supervision

end ContainerInit
