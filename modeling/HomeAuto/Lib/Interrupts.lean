import Mathlib.Data.List.Basic

/-!
# A routine that is interrupted

A routine is a list of operations on a state.  Before each of them, and after the last one
before the routine returns, any number of handlers may run to completion; which ones, a
schedule says for every point.

The rules split a routine where it is interrupted: the parts without handlers are plain folds,
and what the operations and the handlers keep is kept by the whole routine.
-/

namespace Interrupts

variable {σ ο ι : Type*} (exec : σ → ο → σ) (serve : σ → ι → σ)

/-- Handlers, one after the other. -/
def served (s : σ) (is : List ι) : σ := is.foldl serve s

/-- Operations from point `i` on, each after the handlers at its point. -/
def upTo (sched : Nat → List ι) : Nat → List ο → σ → σ
  | _, [], s => s
  | i, o :: os, s => upTo sched (i + 1) os (exec (served serve s (sched i)) o)

/-- The whole routine. -/
def routine (sched : Nat → List ι) (os : List ο) (s : σ) : σ :=
  served serve (upTo exec serve sched 0 os s) (sched os.length)

variable {exec serve} {sched : Nat → List ι}

@[simp] theorem served_nil (s : σ) : served serve s [] = s := rfl

theorem upTo_append (i : Nat) (xs ys : List ο) (s : σ) :
    upTo exec serve sched i (xs ++ ys) s =
      upTo exec serve sched (i + xs.length) ys (upTo exec serve sched i xs s) := by
  induction xs generalizing i s with
  | nil => rfl
  | cons x xs ih =>
      rw [List.cons_append, upTo, upTo, ih, List.length_cons, Nat.add_right_comm, Nat.add_assoc]

/-- A part without handlers. -/
theorem upTo_quiet {i : Nat} {os : List ο} (h : ∀ j, i ≤ j → j < i + os.length → sched j = [])
    (s : σ) : upTo exec serve sched i os s = os.foldl exec s := by
  induction os generalizing i s with
  | nil => rfl
  | cons o os ih =>
      rw [List.length_cons] at h
      have hrest (j : Nat) (hlo : i + 1 ≤ j) (hhi : j < i + 1 + os.length) : sched j = [] :=
        h j (by omega) (by omega)
      rw [upTo, h i (Nat.le_refl i) (by omega), served_nil, ih hrest, List.foldl_cons]

/-- A part with handlers before its first operation only. -/
theorem upTo_first {i : Nat} {os : List ο} (hne : os ≠ [])
    (h : ∀ j, i < j → j < i + os.length → sched j = []) (s : σ) :
    upTo exec serve sched i os s = os.foldl exec (served serve s (sched i)) := by
  cases os with
  | nil => exact absurd rfl hne
  | cons o os =>
      rw [List.length_cons] at h
      have hrest (j : Nat) (hlo : i + 1 ≤ j) (hhi : j < i + 1 + os.length) : sched j = [] :=
        h j (by omega) (by omega)
      rw [upTo, upTo_quiet hrest, List.foldl_cons]

/-- What each of some handlers keeps, these handlers one after the other keep. -/
theorem served_keeps {I : σ → Prop} {is : List ι} (h : ∀ s, ∀ i ∈ is, I s → I (serve s i)) {s : σ}
    (hs : I s) : I (served serve s is) := by
  induction is generalizing s with
  | nil => exact hs
  | cons i is ih =>
      exact ih (fun s j hj => h s j (List.mem_cons_of_mem i hj)) (h s i List.mem_cons_self hs)

/-- **A part with handlers anywhere.**  `I k` is what holds before the `k`-th operation of the
part; each handler keeps it, and the operation leads on to `I (k + 1)`. -/
theorem upTo_keeps {I : Nat → σ → Prop}
    (hserve : ∀ k s j, ∀ c ∈ sched j, I k s → I k (serve s c)) {os : List ο}
    (hexec : ∀ k o s, os[k]? = some o → I k s → I (k + 1) (exec s o)) {s : σ} (hs : I 0 s)
    (i : Nat) : I os.length (upTo exec serve sched i os s) := by
  induction os generalizing I i s with
  | nil => exact hs
  | cons o os ih =>
      apply ih (I := fun k => I (k + 1))
      · intro k s
        exact hserve (k + 1) s
      · intro k o' s ho'
        exact hexec (k + 1) o' s ho'
      · exact hexec 0 o _ rfl (served_keeps (fun s c hc => hserve 0 s i c hc) hs)

/-- A part with handlers before it only, which keep what the part begins with. -/
theorem upTo_part {I J : σ → Prop} {i : Nat} {os : List ο} (hne : os ≠ [])
    (hquiet : ∀ j, i < j → j < i + os.length → sched j = [])
    (hserve : ∀ s, ∀ c ∈ sched i, I s → I (serve s c)) (hos : ∀ s, I s → J (os.foldl exec s))
    {s : σ} (hs : I s) : J (upTo exec serve sched i os s) := by
  rw [upTo_first hne hquiet]
  exact hos _ (served_keeps hserve hs)

/-- A routine that is interrupted at one point, before one of its operations. -/
theorem routine_single {os : List ο} {k : Nat} (hk : k < os.length)
    (h : ∀ j, j ≠ k → sched j = []) (s : σ) :
    routine exec serve sched os s =
      (os.drop k).foldl exec (served serve ((os.take k).foldl exec s) (sched k)) := by
  have hlen : (os.take k).length = k := List.length_take_of_le (Nat.le_of_lt hk)
  have hsplit : upTo exec serve sched 0 (os.take k ++ os.drop k) s =
      upTo exec serve sched (0 + (os.take k).length) (os.drop k)
        (upTo exec serve sched 0 (os.take k) s) := upTo_append 0 (os.take k) (os.drop k) s
  have hne : os.drop k ≠ [] := by
    rw [ne_eq, List.drop_eq_nil_iff]
    omega
  rw [List.take_append_drop, hlen, Nat.zero_add] at hsplit
  have hbefore : upTo exec serve sched 0 (os.take k) s = (os.take k).foldl exec s :=
    upTo_quiet (fun j _ hj => h j (by omega)) s
  rw [routine, h os.length (by omega), served_nil, hsplit, hbefore]
  exact upTo_first hne (fun j hj _ => h j (by omega)) _

/-- One handler, at one point. -/
def once (k : Nat) (c : ι) : Nat → List ι := fun i => if i = k then [c] else []

theorem routine_once {os : List ο} {k : Nat} (hk : k < os.length) (c : ι) (s : σ) :
    routine exec serve (once k c) os s =
      (os.drop k).foldl exec (serve ((os.take k).foldl exec s) c) := by
  have hother (j : Nat) (hj : j ≠ k) : once k c j = [] := if_neg hj
  have hat : once k c k = [c] := if_pos rfl
  rw [routine_single hk hother, hat]
  rfl

/-- What each operation keeps, a part without handlers keeps. -/
theorem foldl_keeps {I : σ → Prop} {os : List ο} (h : ∀ s, ∀ o ∈ os, I s → I (exec s o)) {s : σ}
    (hs : I s) : I (os.foldl exec s) := by
  induction os generalizing s with
  | nil => exact hs
  | cons o os ih =>
      exact ih (fun s o' ho' => h s o' (List.mem_cons_of_mem o ho')) (h s o (by simp) hs)

end Interrupts
