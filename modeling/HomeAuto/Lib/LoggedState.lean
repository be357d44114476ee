import Mathlib.Logic.Basic

/-!
# Computations on a state with a log

A computation in the state monad that leaves the log of its state as it is, and how such
computations compose.
-/

namespace HomeAuto

namespace LoggedState

variable {σ ε α β : Type}

/-- A computation that leaves the log as it is. -/
def Silent (m : StateM (σ × List ε) α) : Prop := ∀ p, (m.run p).2.2 = p.2

/-- A value logs nothing. -/
theorem Silent.pure (a : α) : Silent (pure a : StateM (σ × List ε) α) := fun _ => rfl

/-- Two silent computations in a row. -/
theorem Silent.bind {m : StateM (σ × List ε) α} {f : α → StateM (σ × List ε) β}
    (hm : Silent m) (hf : ∀ a, Silent (f a)) : Silent (m >>= f) := fun p =>
  (hf (m.run p).1 (m.run p).2).trans (hm p)

/-- A loop with a silent body, also one that breaks off. -/
theorem Silent.forIn {γ : Type} (xs : List α) {f : α → γ → StateM (σ × List ε) (ForInStep γ)}
    (hf : ∀ a b, Silent (f a b)) (b : γ) : Silent (forIn xs b f) := by
  induction xs generalizing b with
  | nil => exact .pure b
  | cons x xs ih =>
      rw [List.forIn_cons]
      refine (hf x b).bind fun r => ?_
      cases r with
      | done b => exact .pure b
      | yield b => exact ih b

/-- A silent computation for each element. -/
theorem Silent.mapM (xs : List α) {f : α → StateM (σ × List ε) β} (hf : ∀ a, Silent (f a)) :
    Silent (xs.mapM f) := by
  induction xs with
  | nil => exact .pure []
  | cons x xs ih =>
      rw [List.mapM_cons]
      exact (hf x).bind fun b => ih.bind fun bs => .pure (b :: bs)

end LoggedState

end HomeAuto
