import ContainerInit.Registry.Basic

/-! # Boards

How a board changes where the state of one service is replaced.

A board is a vector of states, and these lemmas are about nothing else.  That one service is written does not show at
another one, and whether anything runs is a question about the process numbers. -/

namespace ContainerInit

/-- The registry of one service with the given restart policy. -/
def Registry.single (p : RestartPolicy) : Registry := ⟨[⟨"a", ["a"], by simp, [], p, ⟨[]⟩⟩], by simp⟩

/-- The one service. -/
def Registry.only (p : RestartPolicy) : (single p).Id := (0 : Fin 1)

namespace Board

variable {r : Registry} {b b' : Board r} {i j : r.Id}

/-- Two boards with the same states are the same. -/
theorem ext (h : ∀ i : r.Id, b[i] = b'[i]) : b = b' :=
  congrArg Board.mk (Vector.ext fun n hn => h ⟨n, hn⟩)

theorem getElem_initial (i : r.Id) : (initial : Board r)[i] = {} := Vector.getElem_replicate _

theorem getElem_set_self (b : Board r) (i : r.Id) (t : Service.State) : (b.set i t)[i] = t :=
  Vector.getElem_set_self _

theorem getElem_set_ne (b : Board r) (t : Service.State) (h : i ≠ j) : (b.set i t)[j] = b[j] :=
  Vector.getElem_set_ne i.isLt j.isLt fun e => h (Fin.ext e)

theorem set_self (b : Board r) (i : r.Id) : b.set i b[i] = b := by
  refine ext fun j => ?_
  by_cases e : i = j
  · subst e
    exact getElem_set_self b i _
  · exact getElem_set_ne b _ e

theorem getElem_ofFn (f : r.Id → Service.State) (i : r.Id) : (Board.mk (.ofFn f))[i] = f i :=
  Vector.getElem_ofFn i.isLt

theorem isRunning_eq_false_iff : b.isRunning i = false ↔ b[i].pid = none := by
  simp [isRunning, Service.State.isRunning]

theorem isRunning_eq_true_iff : b.isRunning i = true ↔ ∃ p, b[i].pid = some p := Option.isSome_iff_exists

theorem anyRunning_eq_false_iff : b.anyRunning = false ↔ ∀ i : r.Id, b[i].pid = none := by
  simp [anyRunning, Registry.ids, isRunning_eq_false_iff]

theorem exists_pid_of_anyRunning (h : b.anyRunning = true) : ∃ (i : r.Id) (p : Pid), b[i].pid = some p := by
  obtain ⟨i, -, hi⟩ := List.any_eq_true.mp h
  exact ⟨i, isRunning_eq_true_iff.mp hi⟩

theorem isRunning_set_ne (b : Board r) (t : Service.State) (h : i ≠ j) :
    isRunning (b.set i t) j = b.isRunning j := by
  rw [isRunning, getElem_set_ne b t h, isRunning]

end Board

end ContainerInit
