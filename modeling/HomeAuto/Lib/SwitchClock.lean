import Mathlib.Logic.Basic

/-!
# Clocks on switches

A step function `step : σ → ε → σ` over a state with switches `on : σ → ι → Bool`,
where an event `e` lets the time `dur e` pass before it takes effect.  The timed run
carries, beside the state, the time elapsed so far and for each switch the time at
which it was last opened.  `Rested gap` says that a switch has been open for at least
`gap`, or was never opened.

The clocks are only observers: a projection that commutes with the steps commutes with
the timed steps.
-/

namespace SwitchClock

variable {σ ε ι τ δ κ : Type*}

/-- A state with the clocks of its switches. -/
structure Timed (σ ι : Type*) where
  state : σ
  now : Nat
  lastOff : ι → Option Nat

/-- The state at the start of the clock, no switch opened yet. -/
def start (s : σ) : Timed σ ι := ⟨s, 0, fun _ => none⟩

/-- One timed step. -/
def timedStep (step : σ → ε → σ) (on : σ → ι → Bool) (dur : ε → Nat)
    (t : Timed σ ι) (e : ε) : Timed σ ι where
  state := step t.state e
  now := t.now + dur e
  lastOff := fun a =>
    if on t.state a = true ∧ on (step t.state e) a = false then some (t.now + dur e)
    else t.lastOff a

/-- A switch was not opened less than `gap` ago. -/
def Rested (gap : Nat) (t : Timed σ ι) (a : ι) : Prop :=
  ∀ u, t.lastOff a = some u → u + gap ≤ t.now

/-- No switch was opened in the future. -/
def Past (t : Timed σ ι) : Prop := ∀ a, Rested 0 t a

section Step

variable {step : σ → ε → σ} {on : σ → ι → Bool} {dur : ε → Nat}

/-- A switch that the step does not open has kept its last opening. -/
theorem lastOff_of_not_opened {t : Timed σ ι} {e : ε} {a : ι}
    (h : on t.state a = false ∨ on (step t.state e) a = true) :
    (timedStep step on dur t e).lastOff a = t.lastOff a := by
  refine if_neg ?_
  rintro ⟨hon, hoff⟩
  rcases h with h | h
  · rw [h] at hon
    cases hon
  · rw [h] at hoff
    cases hoff

theorem Past.next {t : Timed σ ι} (h : Past t) (e : ε) : Past (timedStep step on dur t e) := by
  intro a u hu
  simp only [timedStep] at hu ⊢
  split at hu
  · cases hu
    exact Nat.le_refl _
  · have := h a u hu
    omega

/-- How long every switch has been open after a step, opened now or before. -/
theorem Past.le_next {t : Timed σ ι} (h : Past t) {e : ε} {a : ι} {u : Nat}
    (hu : (timedStep step on dur t e).lastOff a = some u) : u ≤ t.now + dur e :=
  h.next e a u hu

end Step

section Projection

variable {step : σ → ε → σ} {on : σ → ι → Bool} {dur : ε → Nat}
variable {step' : τ → δ → τ} {on' : τ → κ → Bool} {dur' : δ → Nat}

/-- The projection of a timed state along a projection of its state and an inclusion
of the switches. -/
def proj (p : σ → τ) (r : κ → ι) (t : Timed σ ι) : Timed τ κ :=
  ⟨p t.state, t.now, fun k => t.lastOff (r k)⟩

/-- **Projection rule.**  A projection which commutes with a step commutes with the
timed step. -/
theorem proj_timedStep {p : σ → τ} {r : κ → ι} {t : Timed σ ι} {e : ε} {d : δ}
    (hstep : p (step t.state e) = step' (p t.state) d) (hdur : dur e = dur' d)
    (hon : ∀ k, on t.state (r k) = on' (p t.state) k)
    (hon' : ∀ k, on (step t.state e) (r k) = on' (p (step t.state e)) k) :
    proj p r (timedStep step on dur t e) = timedStep step' on' dur' (proj p r t) d := by
  unfold proj timedStep
  simp only [hstep, hdur, hon, hon']

end Projection

end SwitchClock
