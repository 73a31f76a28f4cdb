import ContainerInit.Proofs.Log.Initialization
import Mathlib.Data.List.Chain

/-! # Delivery to the system log

A connection to the system log that is lost with one record is opened anew for the next.  So each record is tried
once, and is lost only if its own connect or its own send fails.

A sink for the system log remembers nothing but whether it is connected.  What it does for one record is
`tries_of_runs`: it connects if it has to, sends if it can, and is connected afterwards if nothing has failed.  Over a
list of records this makes a chain, in which the piece of each record starts with a connect exactly if the piece
before it had a failure (`chain_of_runsInTurn`).

## What is transmitted

A datagram has the number of the process in it, which is asked for again with each record.  What arrives is therefore
related to the records up to that number, and `transmitted_flatten` says that the relation is one to one between the
records whose own connect and send have not failed and the datagrams that have been accepted, in the same order. -/

namespace ContainerInit.Log

open Dialogue

variable {h h₀ : History} {r : Record} {rs : List Record} {ident : String}

/-! ## What a history shows of the system log -/

/-- How often a connection is asked for. -/
def connects (h : History) : Nat := h.countP fun
  | ⟨.connect, _⟩ => true
  | _ => false

/-- The datagrams that are sent, with success or without. -/
def sent (h : History) : List String := h.filterMap fun
  | ⟨.send datagram, _⟩ => some datagram
  | _ => none

/-- The datagrams that are sent with success. -/
def transmitted (h : History) : List String := h.filterMap fun
  | ⟨.send datagram, .ok _⟩ => some datagram
  | _ => none

/-- Whether a connect or a send fails. -/
def failed (h : History) : Bool := h.any fun
  | ⟨.connect, .error _⟩ | ⟨.send _, .error _⟩ => true
  | _ => false

/-- A record is tried, with one connect at most and one send at most, which is of that record.  It is transmitted
unless one of them fails. -/
structure Tries (ident : String) (r : Record) (h : History) : Prop where
  connects_le : connects h ≤ 1
  sent_le : (sent h).length ≤ 1
  sends : ∀ d ∈ sent h, ∃ pid, d = r.datagram ident pid
  lost : failed h = true → transmitted h = []
  arrived : failed h = false → ∃ pid, transmitted h = [r.datagram ident pid]

theorem transmitted_append (h h' : History) : transmitted (h ++ h') = transmitted h ++ transmitted h' :=
  List.filterMap_append ..

/-- The records whose connect and send do not fail, of those that are tried one after the other. -/
def arriving (rs : List Record) (hs : List History) : List Record :=
  ((rs.zip hs).filter fun x => !failed x.2).map Prod.fst

/-- What is transmitted are the arriving records, each once and in their order. -/
theorem transmitted_flatten {hs : List History} (htries : List.Forall₂ (Tries ident) rs hs) :
    List.Forall₂ (fun r d => ∃ pid, d = r.datagram ident pid) (arriving rs hs) (transmitted hs.flatten) := by
  induction htries with
  | nil => exact .nil
  | @cons r h rs hs hr _ ih =>
    rw [List.flatten_cons, transmitted_append, arriving, List.zip_cons_cons, List.filter_cons]
    cases hfailed : failed h with
    | true =>
      rw [hr.lost hfailed]
      exact ih
    | false =>
      obtain ⟨pid, hsent⟩ := hr.arrived hfailed
      rw [hsent]
      exact .cons ⟨pid, rfl⟩ ih

/-! ## One record -/

namespace Syslog

variable {s s' : Syslog}

/-- A record is tried with a connect where there is no connection, and leaves one behind unless something fails. -/
theorem tries_of_runs (hr : Runs (s.deliver r) h s') : Tries s.ident r h ∧ (connects h = 1 ↔ s.connected = false) ∧
    s' = ⟨s.ident, !failed h⟩ := by
  obtain ⟨ident, connected⟩ := s
  obtain ⟨pid, _, rfl, hrest⟩ := runs_ask_iff.mp hr
  have hown : ∀ d ∈ [r.datagram ident pid], ∃ pid, d = r.datagram ident pid := List.forall_mem_singleton.mpr ⟨pid, rfl⟩
  cases connected with
  | true =>
    obtain ⟨sent, _, rfl, hsent⟩ := runs_ask_iff.mp hrest
    cases sent with
    | ok _ =>
      obtain ⟨rfl, rfl⟩ := runs_done_iff.mp hsent
      exact ⟨⟨Nat.zero_le 1, Nat.le_refl 1, hown, nofun, fun _ => ⟨pid, rfl⟩⟩, iff_of_false nofun nofun, rfl⟩
    | error e =>
      obtain ⟨_, _, rfl, hend⟩ := runs_ask_iff.mp hsent
      obtain ⟨rfl, rfl⟩ := runs_done_iff.mp hend
      exact ⟨⟨Nat.zero_le 1, Nat.le_refl 1, hown, fun _ => rfl, nofun⟩, iff_of_false nofun nofun, rfl⟩
  | false =>
    obtain ⟨opened, _, rfl, hopened⟩ := runs_ask_iff.mp hrest
    cases opened with
    | ok _ =>
      obtain ⟨sent, _, rfl, hsent⟩ := runs_ask_iff.mp hopened
      cases sent with
      | ok _ =>
        obtain ⟨rfl, rfl⟩ := runs_done_iff.mp hsent
        exact ⟨⟨Nat.le_refl 1, Nat.le_refl 1, hown, nofun, fun _ => ⟨pid, rfl⟩⟩, iff_of_true rfl rfl, rfl⟩
      | error e =>
        obtain ⟨_, _, rfl, hend⟩ := runs_ask_iff.mp hsent
        obtain ⟨rfl, rfl⟩ := runs_done_iff.mp hend
        exact ⟨⟨Nat.le_refl 1, Nat.le_refl 1, hown, fun _ => rfl, nofun⟩, iff_of_true rfl rfl, rfl⟩
    | error e =>
      obtain ⟨_, _, rfl, hend⟩ := runs_ask_iff.mp hopened
      obtain ⟨rfl, rfl⟩ := runs_done_iff.mp hend
      exact ⟨⟨Nat.le_refl 1, Nat.zero_le 1, nofun, fun _ => rfl, nofun⟩, iff_of_true rfl rfl, rfl⟩

end Syslog

/-! ## Any number of records -/

namespace Sink

variable {s : Syslog} {sink sink' : Sink} {hs : List History}

/-- Delivers one record after the other. -/
def deliverAll (sink : Sink) (rs : List Record) : Talk Sink := rs.foldlM (fun sink r => sink.deliver r) sink

/-- A sink for the system log delivers by its connection. -/
theorem runs_deliver_syslog (hr : Runs ((Sink.syslog s).deliver r) h sink') :
    ∃ s', Runs (s.deliver r) h s' ∧ sink' = .syslog s' := by
  obtain ⟨_, _, s', rfl, hdeliver, hend⟩ := runs_bind_iff.mp hr
  obtain ⟨rfl, rfl⟩ := runs_done_iff.mp hend
  exact ⟨s', (List.append_nil _).symm ▸ hdeliver, rfl⟩

/-- The records are tried one after the other, with a connect if and only if the piece of the history before fails:
that of the record before, or of the opening of the sink before the first.  What is transmitted are the arriving
records, each once and in their order. -/
structure TriesInTurn (ident : String) (rs : List Record) (opening : History) (hs : List History) : Prop where
  tries : List.Forall₂ (Tries ident) rs hs
  connects_iff : (opening :: hs).IsChain fun before h => connects h = 1 ↔ failed before = true
  transmitted : List.Forall₂ (fun r d => ∃ pid, d = r.datagram ident pid) (arriving rs hs) (transmitted hs.flatten)

/-- The induction is over the piece before, which tells whether there is a connection. -/
theorem chain_of_runsInTurn (hconnected : s.connected = !failed h₀)
    (hr : RunsInTurn (fun sink r => Sink.deliver r sink) (.syslog s) rs hs sink') :
    List.Forall₂ (Tries s.ident) rs hs ∧
      (h₀ :: hs).IsChain fun before h => connects h = 1 ↔ failed before = true := by
  induction rs generalizing s h₀ hs with
  | nil =>
    cases hr
    exact ⟨.nil, .singleton _⟩
  | cons r rs ih =>
    cases hr with
    | @cons _ _ h hs _ _ _ hdeliver hrest =>
      obtain ⟨s₁, hs₁, rfl⟩ := runs_deliver_syslog hdeliver
      obtain ⟨htries, hconnects, rfl⟩ := Syslog.tries_of_runs hs₁
      have hleft : (⟨s.ident, !failed h⟩ : Syslog).connected = !failed h := rfl
      obtain ⟨hall, hchain⟩ := ih hleft hrest
      refine ⟨.cons htries hall, .cons_cons ?_ hchain⟩
      rw [hconnects, hconnected, Bool.not_eq_false']

/-- A sink that has been opened is connected. -/
theorem opened_of_runs_ofTarget (hopen : Runs (ofTarget ident .syslog) h₀ (some sink)) :
    sink = .syslog ⟨ident, true⟩ ∧ failed h₀ = false := by
  obtain ⟨opened, _, rfl, hrest⟩ := runs_ask_iff.mp hopen
  cases opened with
  | ok _ =>
    cases hrest
    exact ⟨rfl, rfl⟩
  | error e =>
    obtain ⟨_, _, rfl, hnone⟩ := runs_ask_iff.mp hrest
    cases hnone

/-- Once the system log has been opened, which takes a connect that does not fail, any number of records are tried one
after the other: each with one connect and one send at most, with a connect if and only if the connect or the send of
the record before it fails.  A record is transmitted, once and in its turn, unless its own connect or send fails. -/
theorem syslog_tries_in_turn (rs : List Record) (hopen : Runs (ofTarget ident .syslog) h₀ (some sink)) :
    failed h₀ = false ∧ (sink.deliverAll rs).Halts ∧ ∀ h sink', Runs (sink.deliverAll rs) h sink' →
      ∃ hs, h = hs.flatten ∧ RunsInTurn (fun sink r => Sink.deliver r sink) sink rs hs sink' ∧
        TriesInTurn ident rs h₀ hs := by
  obtain ⟨rfl, hopening⟩ := opened_of_runs_ofTarget hopen
  refine ⟨hopening, halts_foldlM (fun sink r => halts_deliver r sink) _ rs, fun h sink' hr => ?_⟩
  obtain ⟨hs, rfl, hturn⟩ := runsInTurn_of_runs_foldlM hr
  obtain ⟨htries, hchain⟩ := chain_of_runsInTurn (s := ⟨ident, true⟩) (by rw [hopening]; rfl) hturn
  exact ⟨hs, rfl, hturn, htries, hchain, transmitted_flatten htries⟩

/-- The history of opening the system log. -/
def opening : History := [⟨.connect, .ok ()⟩]

/-- Two records of different gravity. -/
def twoRecords : List Record := [⟨.warn, "init", "late"⟩, ⟨.error, "init", "lost"⟩]

/-- Two records after a connect that has not failed. -/
theorem syslog_tries_in_turn_twoRecords :
    Runs (ofTarget "init" .syslog) opening (some (.syslog ⟨"init", true⟩)) ∧
    failed opening = false ∧ ((Sink.syslog ⟨"init", true⟩).deliverAll twoRecords).Halts ∧
      ∀ h sink', Runs ((Sink.syslog ⟨"init", true⟩).deliverAll twoRecords) h sink' →
        ∃ hs, h = hs.flatten ∧
          RunsInTurn (fun sink r => Sink.deliver r sink) (.syslog ⟨"init", true⟩) twoRecords hs sink' ∧
          TriesInTurn "init" twoRecords opening hs :=
  have hopen : Runs (ofTarget "init" .syslog) opening (some (.syslog ⟨"init", true⟩)) := .ask (.done _)
  ⟨hopen, syslog_tries_in_turn twoRecords hopen⟩

end Sink

end ContainerInit.Log
