import Mathlib.Data.List.FinRange

/-!
# Loops as folds over a state

A counted loop `for i in 0..n` over a state `σ` is `(List.range n).foldl f s`.
Two rules cover the loops whose passes do not interfere: a reflexive and transitive
relation that every pass respects relates the two ends of the loop, and a loop whose
pass `i` rewrites component `i` alone rewrites every component once.  A third covers the
loops whose pass `i` depends on the passes before it.
-/

namespace Loops

variable {σ α κ : Type*}

/-- **Relation rule.**  If every pass of the loop respects a reflexive and transitive
relation, so does the loop; `I` is an invariant which related states share. -/
theorem foldl_rel {R : σ → σ → Prop} (hrefl : ∀ s, R s s)
    (htrans : ∀ s t u, R s t → R t u → R s u) {I : σ → Prop}
    (hI : ∀ s t, I s → R s t → I t) {f : σ → α → σ} (xs : List α)
    (hbody : ∀ s, ∀ x ∈ xs, I s → R s (f s x)) {s : σ} (hs : I s) :
    R s (xs.foldl f s) := by
  induction xs generalizing s with
  | nil => exact hrefl s
  | cons x xs ih =>
      have hx := hbody s x (by simp) hs
      refine htrans s (f s x) _ hx ?_
      exact ih (fun t y hy => hbody t y (by simp [hy])) (hI s _ hs hx)

/-- **Component rule.**  If pass `i` rewrites component `i` of the state by `g i` and
leaves the others alone, the loop over `0..n` rewrites each of the first `n`
components once; `I` is an invariant of the passes. -/
theorem foldl_range_component {c : σ → Nat → κ} {g : Nat → κ → κ} {I : σ → Prop}
    {f : σ → Nat → σ} {n : Nat} (hI : ∀ s, ∀ i < n, I s → I (f s i))
    (hself : ∀ s, ∀ i < n, I s → c (f s i) i = g i (c s i))
    (hother : ∀ s, ∀ i < n, I s → ∀ j, j ≠ i → c (f s i) j = c s j)
    {s : σ} (hs : I s) :
    I ((List.range n).foldl f s) ∧
      ∀ j, c ((List.range n).foldl f s) j =
        if j < n then g j (c s j) else c s j := by
  induction n with
  | zero => simpa using hs
  | succ n ih =>
      obtain ⟨hIn, hcomp⟩ := ih (fun t i hi => hI t i (by omega))
        (fun t i hi => hself t i (by omega)) (fun t i hi => hother t i (by omega))
      rw [List.range_succ, List.foldl_append]
      refine ⟨hI _ n (by omega) hIn, fun j => ?_⟩
      by_cases hj : j = n
      · subst hj
        simp only [List.foldl_cons, List.foldl_nil]
        rw [hself _ j (by omega) hIn, hcomp j]
        simp
      · simp only [List.foldl_cons, List.foldl_nil]
        rw [hother _ n (by omega) hIn j hj, hcomp j]
        have hiff : j < n ↔ j < n + 1 := by omega
        simp only [hiff]

/-- **Prefix rule.**  What holds before the first pass, and after each pass if it held
before it, holds after the last one. -/
theorem foldl_range {n : Nat} {P : Nat → σ → Prop} {f : σ → Nat → σ}
    (hstep : ∀ i s, i < n → P i s → P (i + 1) (f s i)) {s : σ} (hs : P 0 s) :
    P n ((List.range n).foldl f s) := by
  induction n with
  | zero => exact hs
  | succ n ih =>
      rw [List.range_succ, List.foldl_append]
      exact hstep n _ (Nat.lt_succ_self n) (ih fun i s hi => hstep i s (by omega))

/-- The prefix rule for a loop over bounded indices. -/
theorem foldl_finRange {n : Nat} {P : Nat → σ → Prop} {f : σ → Fin n → σ}
    (hstep : ∀ (i : Fin n) s, P i s → P (i + 1) (f s i)) {s : σ} (hs : P 0 s) :
    P n ((List.finRange n).foldl f s) := by
  induction n with
  | zero => exact hs
  | succ n ih =>
      rw [List.finRange_succ_last, List.foldl_append, List.foldl_map]
      have hfront := @ih (fun s i => f s i.castSucc) fun i s hi => hstep i.castSucc s hi
      exact hstep (Fin.last n) _ hfront

/-- **Consecutive writes.**  One entry is written, and then those behind it: the entry `j` places
behind the first becomes `whole j` of what it was, if `rest` says so of the later writes. -/
theorem update_then_rest {N k : Nat} (table : Fin N → κ) (hk : k < N) {first : κ}
    (rest whole : Nat → κ → κ) (hfirst : ∀ old, whole 0 old = first)
    (hrest : ∀ j old, whole (j + 1) old = rest j old) (i : Fin N) :
    (if i.val < k + 1 then Function.update table ⟨k, hk⟩ first i
      else rest (i.val - (k + 1)) (Function.update table ⟨k, hk⟩ first i)) =
      if i.val < k then table i else whole (i.val - k) (table i) := by
  by_cases heq : i.val = k
  · have hself : i = ⟨k, hk⟩ := Fin.ext heq
    rw [if_pos (by omega), if_neg (by omega), hself, Function.update_self, Nat.sub_self, hfirst]
  · have hne : i ≠ ⟨k, hk⟩ := fun h => heq (congrArg Fin.val h)
    rw [Function.update_of_ne hne]
    by_cases hlt : i.val < k
    · rw [if_pos (by omega), if_pos hlt]
    · have hsub : i.val - k = i.val - (k + 1) + 1 := by omega
      rw [if_neg (by omega), if_neg hlt, hsub, hrest]

end Loops
