import Mathlib.Order.Basic
import Mathlib.Order.Nat
import Mathlib.Data.List.Basic
import Mathlib.Tactic.Common

/-!
# The first gap in a row of numbers

`firstGap s ns` walks along `ns` as long as the numbers go on from `s` one by one.  If the
numbers rise and none is below `s`, it is the least number from `s` on that is not among them.
-/

namespace FirstGap

/-- Where `ns` first fails to go on from `s`. -/
def firstGap : Nat → List Nat → Nat
  | s, [] => s
  | s, n :: ns => if n = s then firstGap (s + 1) ns else s

theorem le_firstGap (s : Nat) (ns : List Nat) : s ≤ firstGap s ns := by
  induction ns generalizing s with
  | nil => exact le_rfl
  | cons n ns ih =>
      rw [firstGap]
      split
      · exact (Nat.le_succ s).trans (ih (s + 1))
      · exact le_rfl

/-- All numbers before the gap are there. -/
theorem mem_of_lt_firstGap {s k : Nat} {ns : List Nat} (hk : s ≤ k) (h : k < firstGap s ns) :
    k ∈ ns := by
  induction ns generalizing s with
  | nil => exact absurd h (not_lt.mpr hk)
  | cons n ns ih =>
      rw [firstGap] at h
      by_cases hn : n = s
      · rw [if_pos hn] at h
        rcases Nat.eq_or_lt_of_le hk with rfl | hlt
        · exact List.mem_cons.mpr (.inl hn.symm)
        · exact List.mem_cons_of_mem n (ih hlt h)
      · rw [if_neg hn] at h
        exact absurd h (not_lt.mpr hk)

/-- The gap comes no later than the next number of a rising row. -/
theorem firstGap_le {s x : Nat} {pre post : List Nat} (hrise : (pre ++ x :: post).Pairwise (· < ·))
    (hs : ∀ n ∈ pre ++ x :: post, s ≤ n) : firstGap s pre ≤ x := by
  induction pre generalizing s with
  | nil => exact hs x (List.mem_cons_self ..)
  | cons n pre ih =>
      rw [firstGap]
      rw [List.cons_append, List.pairwise_cons] at hrise
      split
      · next hn =>
          refine ih hrise.2 fun k hk => ?_
          have := hrise.1 k hk
          omega
      · exact hs x (by simp)

/-- The gap in a rising row is not one of its numbers. -/
theorem firstGap_not_mem {s : Nat} {ns : List Nat} (hrise : ns.Pairwise (· < ·))
    (hs : ∀ n ∈ ns, s ≤ n) : firstGap s ns ∉ ns := by
  induction ns generalizing s with
  | nil => exact List.not_mem_nil
  | cons n ns ih =>
      rw [List.pairwise_cons] at hrise
      rw [List.forall_mem_cons] at hs
      rw [firstGap]
      split
      · next hn =>
          have hgap := le_firstGap (s + 1) ns
          rw [List.mem_cons, not_or]
          refine ⟨by omega, ih hrise.2 fun k hk => ?_⟩
          have := hrise.1 k hk
          omega
      · next hn =>
          rw [List.mem_cons, not_or]
          refine ⟨fun h => hn h.symm, fun h => ?_⟩
          have := hrise.1 s h
          omega

/-- The gap in front of a number is not another number of a rising row. -/
theorem firstGap_not_mem_around {s x : Nat} {pre post : List Nat}
    (hrise : (pre ++ x :: post).Pairwise (· < ·)) (hs : ∀ n ∈ pre ++ x :: post, s ≤ n) :
    firstGap s pre ∉ pre ++ post := by
  have hle := firstGap_le hrise hs
  rw [List.pairwise_append, List.pairwise_cons] at hrise
  obtain ⟨hpre, ⟨hx, -⟩, -⟩ := hrise
  rw [List.mem_append, not_or]
  refine ⟨firstGap_not_mem hpre fun n hn => hs n (List.mem_append_left _ hn), fun h => ?_⟩
  exact absurd (hx _ h) (not_lt.mpr hle)

end FirstGap
