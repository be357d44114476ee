import Mathlib.Logic.Basic

/-!
# Losing power between or during the steps of a program

A state kept on a device that survives a power loss is changed by single acts.  A supply
lets a number of acts complete and is then lost: the act during which it is lost leaves a
torn state, and all later acts leave the state alone.  An atomic act is torn to the state
before it.
-/

namespace PowerCut

variable {σ : Type*}

/-- A state, the number of acts the power still lasts for, and whether it is lost. -/
structure Supply (σ : Type*) where
  state : σ
  fuse : Nat
  lost : Bool

namespace Supply

/-- A supply that lasts for `k` acts. -/
def lasting (k : Nat) (s : σ) : Supply σ := ⟨s, k, false⟩

/-- One act, which leaves `torn` of the state when the power is lost during it. -/
def act (f torn : σ → σ) (p : Supply σ) : Supply σ :=
  if p.lost then p
  else
    match p.fuse with
    | 0 => ⟨torn p.state, 0, true⟩
    | k + 1 => ⟨f p.state, k, false⟩

variable (f torn : σ → σ) (s : σ) (k : Nat)

@[simp] theorem act_lasting_zero : (lasting 0 s).act f torn = ⟨torn s, 0, true⟩ := rfl

@[simp] theorem act_lasting_succ :
    (lasting (k + 1) s).act f torn = lasting k (f s) := rfl

@[simp] theorem act_lost : (⟨s, k, true⟩ : Supply σ).act f torn = ⟨s, k, true⟩ := rfl

/-- What both outcomes of an act keep. -/
theorem state_act {K : σ → Prop} {f torn : σ → σ} {p : Supply σ} (hf : K p.state → K (f p.state))
    (htorn : K p.state → K (torn p.state)) (h : K p.state) : K (p.act f torn).state := by
  unfold act
  cases p.lost with
  | true => exact h
  | false =>
      cases p.fuse with
      | zero => exact htorn h
      | succ k => exact hf h

/-- Power that is lost stays lost. -/
theorem lost_act {f torn : σ → σ} {p : Supply σ} (h : p.lost = true) :
    p.act f torn = p := if_pos h

@[simp] theorem state_lasting : (lasting k s).state = s := rfl

end Supply

end PowerCut
