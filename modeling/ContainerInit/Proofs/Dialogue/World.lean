import ContainerInit.Kernel.Dialogue
import Mathlib.Logic.Relation

/-! # Worlds

A world answers the questions of a dialogue, and changes by itself in between.  `Leads` are the runs of a dialogue in
a world, finished or not; `Assures` is computed along the dialogue and says what holds whenever it asks something and
when it ends, whatever the world does.

A world is a relation, not a function: it says which answers there may be.  The less it says, the more a result about
all its runs is worth.  The extreme is the world in which anything may be answered (`World.anything`), where the runs
are just the histories.  Another one is obtained from any world by keeping account of what it has answered
(`World.noting`).

`Assures` is defined by recursion on the dialogue, and `Leads` is what is meant.  `Assures.leads` relates them, and so
the rest of the theory can go by computation while its results are about runs. -/

namespace ContainerInit

open Relation

/-- What may happen: by itself, and as the answer to a question. -/
structure World (S : Signature) where
  State : Type
  Drifts : State → State → Prop
  Answers : State → (c : S.Call) → S.Answer c → State → Prop

namespace World

variable {S : Signature}

/-- Worlds take no notice of the state that a question is asked from. -/
abbrev inState (W : World S) (σ : Type) : World (S.inState σ) where
  State := W.State
  Drifts := W.Drifts
  Answers k q r k' := W.Answers k q.1 r k'

/-- The world in which any answer may follow on any question. -/
def anything (S : Signature) : World S where
  State := Unit
  Drifts _ _ := False
  Answers _ _ _ _ := True

/-- The same world, where a list is kept of what is noted of the answers. -/
def noting {ν : Type} (W : World S) (note : (c : S.Call) → S.Answer c → List ν) : World S where
  State := W.State × List ν
  Drifts k k' := W.Drifts k.1 k'.1 ∧ k'.2 = k.2
  Answers k c r k' := W.Answers k.1 c r k'.1 ∧ k'.2 = k.2 ++ note c r

/-- What outlasts each change of the world outlasts all of them. -/
theorem of_drifts {W : World S} {P : W.State → Prop} {k k' : W.State}
    (hd : ∀ {k k'}, P k → W.Drifts k k' → P k') (hk : P k) (d : ReflTransGen W.Drifts k k') : P k' := by
  induction d with
  | refl => exact hk
  | tail _ d ih => exact hd ih d

/-- A world in which nothing happens by itself is the same at the next question. -/
theorem eq_of_drifts {W : World S} {k k' : W.State} (hd : ∀ k k', ¬ W.Drifts k k')
    (d : ReflTransGen W.Drifts k k') : k' = k :=
  of_drifts (P := (· = k)) (fun _ d => (hd _ _ d).elim) rfl d

/-- Nothing is noted of what happens by itself. -/
theorem of_drifts_noting {ν : Type} {W : World S} {note : (c : S.Call) → S.Answer c → List ν}
    {k k' : W.State × List ν} (d : ReflTransGen (W.noting note).Drifts k k') :
    ReflTransGen W.Drifts k.1 k'.1 ∧ k'.2 = k.2 := by
  induction d with
  | refl => exact ⟨.refl, rfl⟩
  | tail _ d ih => exact ⟨ih.1.tail d.1, d.2.trans ih.2⟩

end World

namespace Dialogue

variable {S : Signature} {α β : Type} {W : World S}

/-- From a dialogue in a state of the world, a run leads to what is left of the dialogue, in another
state of the world, with the history of the questions asked on the way. -/
inductive Leads (W : World S) :
    Dialogue S α → W.State → List (Exchange S) → Dialogue S α → W.State → Prop where
  | start (p : Dialogue S α) (k : W.State) : Leads W p k [] p k
  | drift {p q : Dialogue S α} {k k₁ k₂ : W.State} {h : List (Exchange S)}
      (run : Leads W p k h q k₁) (d : W.Drifts k₁ k₂) : Leads W p k h q k₂
  | answer {p : Dialogue S α} {k k₁ k₂ : W.State} {h : List (Exchange S)} {c : S.Call}
      {next : S.Answer c → Dialogue S α} {r : S.Answer c} (run : Leads W p k h (.ask c next) k₁)
      (a : W.Answers k₁ c r k₂) : Leads W p k (h ++ [⟨c, r⟩]) (next r) k₂

/-- Whenever the dialogue asks a question from here on, `asks` holds of the history, the world and the
question; where it ends, `ends` holds of the history, the world and the result. -/
def Assures (W : World S) (asks : List (Exchange S) → W.State → S.Call → Prop)
    (ends : List (Exchange S) → W.State → α → Prop) :
    Dialogue S α → List (Exchange S) → W.State → Prop
  | .done a, h, k => ends h k a
  | .ask c next, h, k => ∀ k₁, ReflTransGen W.Drifts k k₁ → asks h k₁ c ∧
      ∀ r k₂, W.Answers k₁ c r k₂ → (next r).Assures W asks ends (h ++ [⟨c, r⟩]) k₂
  | .exhausted, _, _ => True

section Assures

variable {asks : List (Exchange S) → W.State → S.Call → Prop}
  {ends ends' : List (Exchange S) → W.State → α → Prop} {p q : Dialogue S α} {h es : List (Exchange S)}
  {k k' : W.State}

/-- What is assured of the result may be weakened. -/
theorem Assures.imp (hp : p.Assures W asks ends h k) (he : ∀ h k a, ends h k a → ends' h k a) :
    p.Assures W asks ends' h k := by
  induction p generalizing h k with
  | done a => exact he h k a hp
  | ask c next ih =>
    exact fun k₁ d => ⟨(hp k₁ d).1, fun r k₂ a => ih r ((hp k₁ d).2 r k₂ a)⟩
  | exhausted => trivial

/-- The condition on questions may be weakened. -/
theorem Assures.imp_asks {asks' : List (Exchange S) → W.State → S.Call → Prop}
    (hp : p.Assures W asks ends h k) (ha : ∀ h k c, asks h k c → asks' h k c) :
    p.Assures W asks' ends h k := by
  induction p generalizing h k with
  | done a => exact hp
  | ask c next ih =>
    exact fun k₁ d => ⟨ha h k₁ c (hp k₁ d).1, fun r k₂ a => ih r ((hp k₁ d).2 r k₂ a)⟩
  | exhausted => trivial

/-- What is assured of the result by itself is assured together. -/
theorem Assures.and {asks' : List (Exchange S) → W.State → S.Call → Prop}
    (hp : p.Assures W asks ends h k) (hp' : p.Assures W asks' ends' h k) :
    p.Assures W asks (fun h k a => ends h k a ∧ ends' h k a) h k := by
  induction p generalizing h k with
  | done a => exact ⟨hp, hp'⟩
  | ask c next ih =>
    exact fun k₁ d => ⟨(hp k₁ d).1, fun r k₂ a => ih r ((hp k₁ d).2 r k₂ a) ((hp' k₁ d).2 r k₂ a)⟩
  | exhausted => trivial

theorem assures_true : p.Assures W (fun _ _ _ => True) (fun _ _ _ => True) h k := by
  induction p generalizing h k with
  | done a => trivial
  | ask c next ih => exact fun k₁ _ => ⟨trivial, fun r k₂ _ => ih r⟩
  | exhausted => trivial

/-- What the history keeps for good once it shows it is assured from then on. -/
theorem assures_of_kept {P : List (Exchange S) → Prop} (hP : ∀ h e, P h → P (h ++ [e]))
    (ha : ∀ h k c, P h → asks h k c) (he : ∀ h k a, P h → ends h k a) (hh : P h) :
    p.Assures W asks ends h k := by
  induction p generalizing h k with
  | done a => exact he h k a hh
  | ask c next ih => exact fun k₁ _ => ⟨ha h k₁ c hh, fun r k₂ _ => ih r (hP h _ hh)⟩
  | exhausted => trivial

/-- What is assured in a world is assured in one that maps to it, as far as its answers do after the
questions that are asked. -/
theorem Assures.comap {V : World S} {f : V.State → W.State}
    (hd : ∀ {k k'}, V.Drifts k k' → ReflTransGen W.Drifts (f k) (f k'))
    (ha : ∀ {h k c r k'}, asks h (f k) c → V.Answers k c r k' → W.Answers (f k) c r (f k'))
    {k : V.State} (hp : p.Assures W asks ends h (f k)) :
    p.Assures V (fun h k c => asks h (f k) c) (fun h k a => ends h (f k) a) h k := by
  induction p generalizing h k with
  | done a => exact hp
  | ask c next ih =>
    intro k₁ d
    have d₁ : ReflTransGen W.Drifts (f k) (f k₁) := by
      induction d with
      | refl => exact .refl
      | tail _ d ih => exact ih.trans (hd d)
    obtain ⟨hc, hr⟩ := hp (f k₁) d₁
    exact ⟨hc, fun r k₂ a => ih r (hr r (f k₂) (ha hc a))⟩
  | exhausted => trivial

/-- What the second dialogue assures has to be assured where the first ends. -/
theorem assures_bind {f : α → Dialogue S β} {ends : List (Exchange S) → W.State → β → Prop} :
    (p >>= f).Assures W asks ends h k ↔
      p.Assures W asks (fun h k a => (f a).Assures W asks ends h k) h k := by
  induction p generalizing h k with
  | done a => rfl
  | ask c next ih =>
    exact forall₂_congr fun k₁ d => and_congr_right fun _ => forall₃_congr fun r k₂ a => ih r
  | exhausted => rfl

/-- What a dialogue assures is still assured along its runs, up to what the world has done since the
last answer. -/
theorem Assures.leads (hp : p.Assures W asks ends h k) (run : Leads W p k es q k') :
    ∃ k₁, q.Assures W asks ends (h ++ es) k₁ ∧ ReflTransGen W.Drifts k₁ k' := by
  induction run with
  | start k => exact ⟨k, by simpa using hp, .refl⟩
  | drift _ d ih =>
    obtain ⟨k₁, hq, hd⟩ := ih hp
    exact ⟨k₁, hq, hd.tail d⟩
  | answer _ a ih =>
    obtain ⟨k₁, hq, hd⟩ := ih hp
    exact ⟨_, by simpa using (hq _ hd).2 _ _ a, .refl⟩

/-- At a question that a run comes to, the condition on questions holds. -/
theorem Assures.asks_of_leads {c : S.Call} {next : S.Answer c → Dialogue S α}
    (hp : p.Assures W asks ends h k) (run : Leads W p k es (.ask c next) k') :
    asks (h ++ es) k' c := by
  obtain ⟨k₁, hq, hd⟩ := hp.leads run
  exact (hq k' hd).1

/-- At the end of a run, the condition on results held when the last answer was given. -/
theorem Assures.ends_of_leads {a : α} (hp : p.Assures W asks ends h k)
    (run : Leads W p k es (.done a) k') :
    ∃ k₁, ends (h ++ es) k₁ a ∧ ReflTransGen W.Drifts k₁ k' := hp.leads run

end Assures

/-- Every history is one in the world that answers anything. -/
theorem Assures.runs {asks : List (Exchange S) → Unit → S.Call → Prop}
    {ends : List (Exchange S) → Unit → α → Prop} {p : Dialogue S α} {h es : List (Exchange S)} {a : α}
    (hp : p.Assures (.anything S) asks ends h ()) (run : Runs p es a) : ends (h ++ es) () a := by
  induction run generalizing h with
  | done a => simpa [Assures] using hp
  | ask _ ih => simpa using ih ((hp () .refl).2 _ () trivial)

/-- Whatever the answers are, the dialogue ends with a result. -/
def Halts : Dialogue S α → Prop
  | .done _ => True
  | .ask _ next => ∀ r, (next r).Halts
  | .exhausted => False

theorem Halts.bind {p : Dialogue S α} {f : α → Dialogue S β} (hp : p.Halts) (hf : ∀ a, (f a).Halts) :
    (p >>= f).Halts := by
  induction p with
  | done a => exact hf a
  | ask c next ih => exact fun r => ih r (hp r)
  | exhausted => exact hp.elim

end Dialogue

end ContainerInit
