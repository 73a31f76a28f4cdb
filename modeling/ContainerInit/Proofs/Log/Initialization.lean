import ContainerInit.Log.State
import ContainerInit.Proofs.Dialogue.Each

/-! # The two thresholds of a log

A log has a threshold of the process, which every initialization sets anew, and one of its sinks, which stays as the
first initialization has set it.  A record is written if it passes both.  So a later initialization can silence
records that the first one lets through, and cannot bring back those that it does not.

## One initialization

Opening a sink can only fail for the system log, and a sink that could not be opened is left out.  `Opens` is what
remains to be said about the sinks of an initialization when the answers are not known: there is one for each other
target, and each of them is ready.  After an initialization (`eq_of_runs_init`) the threshold is the new one, and the
sinks are new only if there were none.

## Any number of them

By induction on the list, everything but the threshold of the process stays as the first has left it
(`eq_of_runs_initAll`).  A record is then looked at with both thresholds, and `writes_what_passes_first_and_last` is
what comes of it.  The last section has the case in which that is not what one would expect. -/

namespace ContainerInit.Log

open Dialogue

/-- What has been asked of the surroundings, with the answers. -/
abbrev History := List (Exchange signature)

variable {h : History} {r : Record} {ident : String} {s s' : State} {l : Level}

/-! ## Sinks -/

namespace Sink

variable {sink sink' : Sink}

/-- What the sink writes to. -/
def target : Sink → Target
  | .console => .console
  | .syslog _ => .syslog
  | .null => .null

/-- The sink does not have to connect before it writes. -/
def IsReady : Sink → Prop
  | .syslog connection => connection.connected = true
  | .console | .null => True

/-- The history shows the record on its way to where the sink writes to, which is nowhere for the null sink. -/
def Writes (r : Record) (h : History) : Sink → Prop
  | .console => ∃ now, ⟨.writeLine (r.consoleLine now), ()⟩ ∈ h
  | .syslog connection => ∃ pid sent, ⟨.send (r.datagram connection.ident pid), sent⟩ ∈ h
  | .null => True

theorem Writes.mono {h' : History} (hw : sink.Writes r h) (hh : h ⊆ h') : sink.Writes r h' := by
  cases sink with
  | console => exact hw.imp fun _ hm => hh hm
  | syslog connection => exact hw.imp fun _ hw => hw.imp fun _ hm => hh hm
  | null => trivial

/-- A sink that has been opened is ready, and writes to its target. -/
theorem isReady_of_runs_ofTarget {t : Target} (hr : Runs (ofTarget ident t) h (some sink)) :
    sink.IsReady ∧ sink.target = t := by
  cases t with
  | console =>
    cases hr
    exact ⟨trivial, rfl⟩
  | null =>
    cases hr
    exact ⟨trivial, rfl⟩
  | syslog =>
    obtain ⟨opened, _, rfl, rest⟩ := runs_ask_iff.mp hr
    cases opened with
    | ok _ =>
      cases rest
      exact ⟨rfl, rfl⟩
    | error e =>
      obtain ⟨_, _, -, hnone⟩ := runs_ask_iff.mp rest
      cases hnone

/-- Only the connection to the system log may be refused. -/
theorem exists_of_runs_ofTarget {t : Target} (ht : t ≠ .syslog) {o : Option Sink} (hr : Runs (ofTarget ident t) h o) :
    ∃ sink, o = some sink := by
  cases t with
  | console =>
    cases hr
    exact ⟨_, rfl⟩
  | null =>
    cases hr
    exact ⟨_, rfl⟩
  | syslog => exact absurd rfl ht

/-- Opening a sink asks for a connection at most. -/
theorem halts_ofTarget (ident : String) (t : Target) : (ofTarget ident t).Halts := by
  cases t with
  | console => trivial
  | null => trivial
  | syslog =>
    intro opened
    cases opened with
    | ok _ => trivial
    | error e => exact fun _ => trivial

/-- A sink that is ready writes the record, on the console or by its connection. -/
theorem writes_of_runs_deliver (hready : sink.IsReady) (hr : Runs (sink.deliver r) h sink') : sink.Writes r h := by
  cases sink with
  | console =>
    obtain ⟨now, _, rfl, rest⟩ := runs_ask_iff.mp hr
    obtain ⟨_, _, rfl, -⟩ := runs_ask_iff.mp rest
    exact ⟨now, .tail _ (.head _)⟩
  | syslog connection =>
    obtain ⟨ident, connected⟩ := connection
    obtain rfl : connected = true := hready
    obtain ⟨pid, _, rfl, rest⟩ := runs_ask_iff.mp hr
    obtain ⟨sent, _, rfl, -⟩ := runs_ask_iff.mp rest
    exact ⟨pid, sent, .tail _ (.head _)⟩
  | null => trivial

/-- A record is tried once, and not until it arrives. -/
theorem halts_syslog_deliver (s : Syslog) (r : Record) : (s.deliver r).Halts := by
  intro pid
  obtain ⟨ident, connected⟩ := s
  cases connected with
  | true =>
    intro sent
    cases sent with
    | error e => exact fun _ => trivial
    | ok _ => trivial
  | false =>
    intro opened
    cases opened with
    | error e => exact fun _ => trivial
    | ok _ =>
      intro sent
      cases sent with
      | error e => exact fun _ => trivial
      | ok _ => trivial

theorem halts_deliver (r : Record) (sink : Sink) : (sink.deliver r).Halts := by
  cases sink with
  | console => exact fun _ _ => trivial
  | syslog connection => exact (halts_syslog_deliver connection r).bind fun _ => trivial
  | null => trivial

end Sink

/-! ## Initializations -/

/-- What the log is initialized with. -/
structure Initialization where
  ident : String
  threshold : Threshold
  targets : List Target

/-- Each target has a sink, unless that is a refused connection to the system log, and each sink has a target. -/
structure Initialization.Opens (i : Initialization) (sinks : List Sink) : Prop where
  exists_sink : ∀ t ∈ i.targets, t ≠ .syslog → ∃ sink ∈ sinks, sink.target = t
  isReady : ∀ sink ∈ sinks, sink.IsReady
  target_mem : ∀ sink ∈ sinks, sink.target ∈ i.targets

namespace State

variable {i : Initialization} {is : List Initialization} {m : Installation}

/-- One initialization after the other. -/
def initAll (s : State) (is : List Initialization) : Talk State :=
  is.foldlM (fun s i => s.init i.ident i.threshold i.targets) s

/-- Each target is opened once, even if it is given twice. -/
theorem opens_of_runs {opened : List (Option Sink)}
    (hr : Runs (i.targets.eraseDups.mapM (Sink.ofTarget i.ident)) h opened) : i.Opens (opened.filterMap id) := by
  have heach := runsEach_of_runs_mapM hr
  refine ⟨fun t ht hne => ?_, ?_, ?_⟩
  · obtain ⟨_, -, o, ho, hr⟩ := heach.exists_runs (List.mem_eraseDups.mpr ht)
    obtain ⟨sink, rfl⟩ := Sink.exists_of_runs_ofTarget hne hr
    exact ⟨sink, by simpa using ho, (Sink.isReady_of_runs_ofTarget hr).2⟩
  all_goals
    intro sink hsink
    obtain ⟨t, ht, _, hr⟩ := heach.exists_of_mem (a := some sink) (by simpa using hsink)
    obtain ⟨hready, rfl⟩ := Sink.isReady_of_runs_ofTarget hr
  · exact hready
  · exact List.mem_eraseDups.mp ht

/-- The threshold of the process is replaced.  Sinks are installed only if there are none. -/
theorem eq_of_runs_init (hr : Runs (s.init i.ident i.threshold i.targets) h s') :
    ∃ sinks, i.Opens sinks ∧ s' = ⟨i.threshold, some (s.installed.getD ⟨i.threshold, sinks⟩)⟩ := by
  obtain ⟨_, _, opened, rfl, hopened, rest⟩ := runs_bind_iff.mp hr
  refine ⟨_, opens_of_runs hopened, ?_⟩
  obtain ⟨threshold, installed⟩ := s
  dsimp only at rest
  -- neither of the lines that may be written has to do with what is left
  cases installed with
  | none =>
    split at rest
    · obtain ⟨_, _, rfl, hend⟩ := runs_ask_iff.mp rest
      exact (runs_done_iff.mp hend).2
    · exact (runs_done_iff.mp rest).2
  | some m =>
    split at rest
    · obtain ⟨_, _, rfl, hline⟩ := runs_ask_iff.mp rest
      obtain ⟨_, _, rfl, hend⟩ := runs_ask_iff.mp hline
      exact (runs_done_iff.mp hend).2
    · obtain ⟨_, _, rfl, hend⟩ := runs_ask_iff.mp rest
      exact (runs_done_iff.mp hend).2

/-- The threshold is that of the last initialization, and the sinks stay. -/
theorem eq_of_runs_initAll (hs : s = ⟨i.threshold, some m⟩) (hr : Runs (s.initAll is) h s') :
    s' = ⟨((i :: is).getLast (List.cons_ne_nil _ _)).threshold, some m⟩ := by
  induction is generalizing s h i with
  | nil =>
    rw [(runs_done_iff.mp hr).2, hs]
    rfl
  | cons j is ih =>
    rw [initAll, List.foldlM_cons] at hr
    obtain ⟨_, _, s₁, rfl, hinit, hrest⟩ := runs_bind_iff.mp hr
    obtain ⟨sinks, -, rfl⟩ := eq_of_runs_init hinit
    rw [List.getLast_cons_cons]
    exact ih (by rw [hs]; rfl) hrest

/-- An initialization comes to an end. -/
theorem halts_init (s : State) (i : Initialization) : (s.init i.ident i.threshold i.targets).Halts := by
  refine (halts_mapM (Sink.halts_ofTarget i.ident) _).bind fun opened => ?_
  obtain ⟨threshold, installed⟩ := s
  dsimp only
  cases installed with
  | none =>
    split
    · exact fun _ => trivial
    · trivial
  | some m =>
    split
    · exact fun _ _ => trivial
    · exact fun _ => trivial

theorem halts_initAll (s : State) (is : List Initialization) : (s.initAll is).Halts := halts_foldlM halts_init s is

/-! ## Records -/

theorem halts_emit (s : State) (r : Record) : (s.emit r).Halts := by
  obtain ⟨threshold, installed⟩ := s
  cases installed with
  | none => trivial
  | some m =>
    unfold emit
    dsimp only
    split
    · exact (halts_mapM (Sink.halts_deliver r) _).bind fun _ => trivial
    · trivial

theorem admits_mk_iff {t : Threshold} : (State.mk t (some m)).Admits l ↔ t.Admits l ∧ m.threshold.Admits l := by
  simp [Admits]

/-- A record that is not admitted leaves no trace. -/
theorem eq_nil_of_runs_emit (hl : ¬ s.Admits r.level) (hr : Runs (s.emit r) h s') : h = [] := by
  obtain ⟨threshold, installed⟩ := s
  cases installed with
  | none => exact (runs_done_iff.mp hr).1
  | some m =>
    rw [admits_mk_iff] at hl
    unfold emit at hr
    dsimp only at hr
    rw [if_neg hl] at hr
    exact (runs_done_iff.mp hr).1

/-- A record that is admitted goes to every sink. -/
theorem writes_of_runs_emit (hl : s.Admits r.level) (hs : s.installed = some m) (hr : Runs (s.emit r) h s') {sink : Sink}
    (hsink : sink ∈ m.sinks) (hready : sink.IsReady) : sink.Writes r h := by
  obtain ⟨threshold, installed⟩ := s
  obtain rfl : installed = some m := hs
  unfold emit at hr
  dsimp only at hr
  rw [if_pos (admits_mk_iff.mp hl)] at hr
  obtain ⟨_, _, sinks, rfl, hmap, hend⟩ := runs_bind_iff.mp hr
  obtain ⟨h', hh, _, -, hdeliver⟩ := (runsEach_of_runs_mapM hmap).exists_runs hsink
  exact (Sink.writes_of_runs_deliver hready hdeliver).mono (List.subset_append_of_subset_left _ hh)

/-- A record that passes both thresholds is written to every sink that the initialization has opened, and
nothing comes of any other record. -/
def WritesWhatPasses (s : State) (first : Initialization) (last : Threshold) : Prop :=
  ∃ sinks, first.Opens sinks ∧ s.installed = some ⟨first.threshold, sinks⟩ ∧
    ∀ r, (s.emit r).Halts ∧ ∀ h s', Runs (s.emit r) h s' →
      ((∀ sink ∈ sinks, sink.Writes r h) ↔ first.threshold.Admits r.level ∧ last.Admits r.level) ∧
        (h = [] ∨ ∀ sink ∈ sinks, sink.Writes r h)

/-- However often a log is initialized, beginning with one on the console: a record is written to the sinks of the
first initialization if and only if it passes the thresholds of both the first and the last one. -/
theorem writes_what_passes_first_and_last (first : Initialization) (hconsole : .console ∈ first.targets)
    (rest : List Initialization) : (initAll {} (first :: rest)).Halts ∧
      ∀ h s, Runs (initAll {} (first :: rest)) h s →
        s.WritesWhatPasses first ((first :: rest).getLast (List.cons_ne_nil _ _)).threshold := by
  refine ⟨halts_initAll _ _, fun h s hr => ?_⟩
  rw [initAll, List.foldlM_cons] at hr
  obtain ⟨_, _, s₁, rfl, hfirst, hrest⟩ := runs_bind_iff.mp hr
  obtain ⟨sinks, hopens, rfl⟩ := eq_of_runs_init hfirst
  obtain rfl := eq_of_runs_initAll rfl hrest
  refine ⟨sinks, hopens, rfl, fun r => ⟨halts_emit _ r, fun h s' he => ?_⟩⟩
  generalize ((first :: rest).getLast (List.cons_ne_nil _ _)).threshold = last at he
  by_cases hl : State.Admits ⟨last, some ⟨first.threshold, sinks⟩⟩ r.level
  · have hw : ∀ sink ∈ sinks, sink.Writes r h := fun sink hsink =>
      writes_of_runs_emit hl rfl he hsink (hopens.isReady sink hsink)
    exact ⟨iff_of_true hw (admits_mk_iff.mp hl).symm, .inr hw⟩
  · obtain rfl := eq_nil_of_runs_emit hl he
    refine ⟨iff_of_false (fun hw => ?_) fun hp => hl (admits_mk_iff.mpr hp.symm), .inl rfl⟩
    -- at least the console would have shown the record
    obtain ⟨sink, hsink, htarget⟩ := hopens.exists_sink _ hconsole nofun
    cases sink with
    | console =>
      obtain ⟨_, hline⟩ := hw _ hsink
      cases hline
    | syslog connection => cases htarget
    | null => cases htarget

/-- On the console and the system log from warnings on, and then from errors on. -/
def quieting : List Initialization :=
  [⟨"init", some .warn, [.console, .syslog, .console]⟩, ⟨"init", some .error, [.null]⟩]

/-- The second initialization leaves only the errors. -/
theorem writes_what_passes_quieting : Target.console ∈ [Target.console, .syslog, .console] ∧
    (initAll {} quieting).Halts ∧ ∀ h s, Runs (initAll {} quieting) h s →
      s.WritesWhatPasses ⟨"init", some .warn, [.console, .syslog, .console]⟩ (some .error) :=
  have hconsole : Target.console ∈ [Target.console, .syslog, .console] := .head _
  ⟨hconsole, writes_what_passes_first_and_last ⟨"init", some .warn, [.console, .syslog, .console]⟩ hconsole _⟩

/-- On the console up to information, and then up to what helps to find faults. -/
def raising : List Initialization := [⟨"init", some .info, [.console]⟩, ⟨"init", some .debug, [.null]⟩]

/-- The last threshold lets a record pass, and still nothing is written. -/
theorem unwritten_after_raising : ∃ h s, Runs (initAll {} raising) h s ∧ s.threshold = some .debug ∧
    s.threshold.Admits .debug ∧ ∀ r : Record, r.level = .debug → ∀ h' s', Runs (s.emit r) h' s' ↔ h' = [] ∧ s' = s := by
  refine ⟨_, ⟨some .debug, some ⟨some .info, [.console]⟩⟩, .ask (r := ()) (.done _), rfl, by decide, ?_⟩
  rintro ⟨_, source, text⟩ rfl h' s'
  exact runs_done_iff

end State

end ContainerInit.Log
