import Mathlib.Logic.Relation
import Mathlib.Logic.Function.Basic

/-!
# Guarded switchboards

Switches over an arbitrary index type, some of which oppose each other and must
never be closed together.  A *guarded* move opens any switch, or closes one all
of whose opponents are open.  Guarded moves keep the board exclusive, whatever
their order; an unguarded closing move is exactly what breaks it.
-/

namespace Switchboard

variable {ι : Type*} [DecidableEq ι] (opposes : ι → ι → Prop)

/-- No two opposing switches are closed together. -/
def Exclusive (on : ι → Bool) : Prop :=
  ∀ a b, opposes a b → ¬ (on a = true ∧ on b = true)

/-- One guarded move on the board. -/
inductive Guarded : (ι → Bool) → (ι → Bool) → Prop
  | release (on : ι → Bool) (a : ι) : Guarded on (Function.update on a false)
  | engage (on : ι → Bool) (a : ι) (hopen : ∀ b, opposes a b → on b = false) :
      Guarded on (Function.update on a true)

/-- Any number of guarded moves. -/
abbrev GuardedMoves : (ι → Bool) → (ι → Bool) → Prop :=
  Relation.ReflTransGen (Guarded opposes)

variable {opposes}

theorem GuardedMoves.release {on on' : ι → Bool} (h : GuardedMoves opposes on on') (a : ι) :
    GuardedMoves opposes on (Function.update on' a false) :=
  h.tail (.release on' a)

theorem GuardedMoves.engage {on on' : ι → Bool} (h : GuardedMoves opposes on on') (a : ι)
    (hopen : ∀ b, opposes a b → on' b = false) :
    GuardedMoves opposes on (Function.update on' a true) :=
  h.tail (.engage on' a hopen)

/-- Opening a switch keeps the board exclusive. -/
theorem Exclusive.release {on : ι → Bool} (h : Exclusive opposes on) (a : ι) :
    Exclusive opposes (Function.update on a false) := by
  rintro b c hbc ⟨hb, hc⟩
  have hba : b ≠ a := by
    rintro rfl
    simp at hb
  have hca : c ≠ a := by
    rintro rfl
    simp at hc
  rw [Function.update_of_ne hba] at hb
  rw [Function.update_of_ne hca] at hc
  exact h b c hbc ⟨hb, hc⟩

/-- On an exclusive board, closing a switch keeps exclusivity exactly when all
its opponents are open. -/
theorem Exclusive.engage_iff (hsymm : ∀ a b, opposes a b → opposes b a)
    (hirrefl : ∀ a, ¬ opposes a a)
    {on : ι → Bool} (h : Exclusive opposes on) (a : ι) :
    Exclusive opposes (Function.update on a true) ↔ ∀ b, opposes a b → on b = false := by
  constructor
  · intro hex b hab
    have hba : b ≠ a := by
      rintro rfl
      exact hirrefl b hab
    have hnot := hex a b hab
    rw [Function.update_self, Function.update_of_ne hba] at hnot
    simpa using hnot
  · rintro hopen b c hbc ⟨hb, hc⟩
    by_cases hba : b = a
    · subst hba
      have hcb : c ≠ b := by
        rintro rfl
        exact hirrefl c hbc
      rw [Function.update_of_ne hcb, hopen c hbc] at hc
      cases hc
    · rw [Function.update_of_ne hba] at hb
      by_cases hca : c = a
      · subst hca
        rw [hopen b (hsymm b c hbc)] at hb
        cases hb
      · rw [Function.update_of_ne hca] at hc
        exact h b c hbc ⟨hb, hc⟩

/-- **Guarded moves keep the board exclusive.** -/
theorem GuardedMoves.exclusive (hsymm : ∀ a b, opposes a b → opposes b a)
    (hirrefl : ∀ a, ¬ opposes a a)
    {on on' : ι → Bool} (hmoves : GuardedMoves opposes on on') (h : Exclusive opposes on) :
    Exclusive opposes on' := by
  induction hmoves with
  | refl => exact h
  | tail _ hlast ih =>
      cases hlast with
      | release a => exact ih.release a
      | engage a hopen => exact (ih.engage_iff hsymm hirrefl a).mpr hopen

end Switchboard
