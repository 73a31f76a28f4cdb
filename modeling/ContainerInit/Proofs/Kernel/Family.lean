import ContainerInit.Proofs.Kernel.Children

/-! # The family of the supervisor

The kernel with all processes besides the supervisor, each of which descends from it.  The children are those of its
own; who is further down becomes a child when its parent has ended.  Therefore nobody is left where there are no
children, and nobody comes of nobody.

This is what makes the first process of a container special.  It cannot see who is further down, but it does not have
to: as long as there is anybody, there is a child to be waited for.  Two answers of the kernel tell that nobody is
left, that of a wait for any child (`nobody_of_finds`) and that of a signal to everybody (`shows`). -/

namespace ContainerInit.Kernel

open Relation

/-- The children, and the processes further down. -/
structure Family where
  children : Children
  /-- The parents of the processes further down. -/
  parent : Pid → Option Pid
  /-- Every process further down descends from a child. -/
  rooted : ∀ {p q}, parent p = some q → ∃ c, children.Has c ∧ ReflTransGen (fun x y => parent x = some y) p c

namespace Family

variable {k k' : Family} {p : Pid}

/-- There is such a process, alive or waiting to be collected. -/
def Has (k : Family) (p : Pid) : Prop := k.children.Has p ∨ ∃ q, k.parent p = some q

/-- There is no process besides the supervisor. -/
def Nobody (k : Family) : Prop := ∀ p, ¬ k.Has p

/-- What may happen by itself: something to the children, and anything to those further down.  A new child
has been there before. -/
def Drifts (k k' : Family) : Prop :=
  ReflTransGen Children.Drifts k.children k'.children ∧ ∀ p, k'.children.Has p → k.Has p

/-- What a call and its answer show: a signal to all processes is only refused for want of a receiver if
nobody is there. -/
def shows (k : Family) : (call : Call) → signature.Answer call → Prop
  | .kill target _, .error e => target = -1 → e.IsGone → k.Nobody
  | _, _ => True

/-- The world of all the behaviour of such a kernel. -/
def world : World signature where
  State := Family
  Drifts := Drifts
  Answers k c a k' := k.children.answers c a k'.children ∧ k'.parent = k.parent ∧ k.shows c a

/-- Whatever happens to the family by itself is something that may happen to the children. -/
theorem drifts_children (d : ReflTransGen Drifts k k') :
    ReflTransGen Children.Drifts k.children k'.children := by
  induction d with
  | refl => exact .refl
  | tail _ d ih => exact ih.trans d.1

/-- Each process descends from a child, and so there is none without one. -/
theorem nobody_of_no_child (h : ∀ p, ¬ k.children.Has p) : k.Nobody := by
  rintro p (hp | ⟨q, hq⟩)
  · exact h p hp
  · obtain ⟨c, hc, -⟩ := k.rooted hq
    exact h c hc

theorem Nobody.no_child (h : k.Nobody) (p : Pid) : ¬ k.children.Has p := fun hp => h p (.inl hp)

theorem Nobody.drift (h : k.Nobody) (d : Drifts k k') : k'.Nobody :=
  nobody_of_no_child fun p hp => h p (d.2 p hp)

/-- Nobody comes but by a fork. -/
theorem Nobody.answers {call : Call} {a : signature.Answer call} (h : k.Nobody)
    (hf : ∀ child, call ≠ .fork child) (ha : world.Answers k call a k') : k'.Nobody :=
  nobody_of_no_child fun p hp => h.no_child p (hp.of_answers hf ha.1)

/-- A look at all children that finds none. -/
theorem nobody_of_finds {found : Option Pid} (h : k.children.Finds (-1) found (.error .noChild)) : k.Nobody :=
  nobody_of_no_child fun _ ⟨_, hq⟩ => h.not_covers_of_noChild hq (.inl rfl)

end Family

end ContainerInit.Kernel
