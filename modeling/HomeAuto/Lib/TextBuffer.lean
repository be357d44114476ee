import Mathlib.Data.List.Basic
import Mathlib.Logic.Function.Basic

/-!
# A text in a buffer

A buffer has a symbol in every cell.  A text is written into it symbol after symbol from a cell
on, and read out of it from the first cell up to the first terminator.

`read_eq_iff` says which cells decide what is read, so a text that is overwritten in part is
read back exactly when those cells still agree.
-/

namespace TextBuffer

variable {α : Type*}

/-- The buffer after the symbols `cs` were written from cell `k` on. -/
def writeFrom (k : Nat) (cs : List α) (b : Nat → α) : Nat → α :=
  fun i => if i < k then b i else cs.getD (i - k) (b i)

/-- The first cells hold the symbols `xs`. -/
def Holds (b : Nat → α) (xs : List α) : Prop := ∀ k c, xs[k]? = some c → b k = c

/-- The text of a buffer of `size` cells, which ends before its first terminator. -/
def read [DecidableEq α] (stop : α) (size : Nat) (b : Nat → α) : List α :=
  ((List.range size).map b).takeWhile fun c => c ≠ stop

/-! ## Writing -/

@[simp] theorem writeFrom_nil (k : Nat) (b : Nat → α) : writeFrom k [] b = b := by
  funext i
  simp [writeFrom]

/-- The first symbol, and then the others. -/
theorem writeFrom_cons (k : Nat) (c : α) (cs : List α) (b : Nat → α) :
    writeFrom k (c :: cs) b = writeFrom (k + 1) cs (Function.update b k c) := by
  funext i
  unfold writeFrom
  rcases Nat.lt_trichotomy i k with hlt | heq | hgt
  · rw [if_pos hlt, if_pos (Nat.lt_succ_of_lt hlt), Function.update_of_ne (Nat.ne_of_lt hlt)]
  · subst heq
    rw [if_neg (Nat.lt_irrefl i), if_pos (Nat.lt_succ_self i), Nat.sub_self,
      Function.update_self]
    rfl
  · have hsub : i - k = (i - (k + 1)) + 1 := by omega
    rw [if_neg (by omega), if_neg (by omega), hsub, Function.update_of_ne (Nat.ne_of_gt hgt)]
    rfl

theorem writeFrom_of_lt {k i : Nat} (h : i < k) (cs : List α) (b : Nat → α) :
    writeFrom k cs b i = b i :=
  if_pos h

/-! ## Holding -/

theorem holds_nil (b : Nat → α) : Holds b [] := by
  intro k c hc
  cases hc

/-- What a longer text says of its first cells. -/
theorem Holds.left {b : Nat → α} {xs ys : List α} (h : Holds b (xs ++ ys)) : Holds b xs := by
  intro k c hc
  apply h k c
  rw [List.getElem?_append_left (List.getElem?_eq_some_iff.mp hc).1]
  exact hc

/-- A buffer whose first cells hold a text, when the rest is written after it. -/
theorem Holds.append {b : Nat → α} {xs : List α} (h : Holds b xs) (ys : List α) :
    Holds (writeFrom xs.length ys b) (xs ++ ys) := by
  intro k c hc
  unfold writeFrom
  by_cases hk : k < xs.length
  · rw [if_pos hk]
    apply h k c
    rw [← List.getElem?_append_left hk]
    exact hc
  · rw [List.getElem?_append_right (Nat.le_of_not_lt hk)] at hc
    rw [if_neg hk, List.getD_eq_getElem?_getD, hc]
    rfl

/-- One more symbol. -/
theorem Holds.snoc {b : Nat → α} {xs : List α} (h : Holds b xs) (c : α) :
    Holds (Function.update b xs.length c) (xs ++ [c]) := by
  have happend := h.append [c]
  rw [writeFrom_cons, writeFrom_nil] at happend
  exact happend

/-- A buffer overwritten from its first cell on. -/
theorem holds_writeFrom (xs : List α) (b : Nat → α) : Holds (writeFrom 0 xs b) xs :=
  (holds_nil b).append xs

/-! ## Reading -/

variable {stop : α} {size : Nat} {b : Nat → α} {t : List α}

theorem getElem?_range_map {k : Nat} (hk : k < size) :
    ((List.range size).map b)[k]? = some (b k) := by
  rw [List.getElem?_map, List.getElem?_range hk]
  rfl

/-- The cells of a buffer begin with what it holds. -/
theorem Holds.cells {xs : List α} (h : Holds b xs) (hlen : xs.length ≤ size) :
    xs <+: (List.range size).map b := by
  rw [List.prefix_iff_getElem?]
  intro k hk
  rw [getElem?_range_map (Nat.lt_of_lt_of_le hk hlen)]
  exact congrArg some (h k _ (List.getElem?_eq_getElem hk))

/-- **A text is read back** exactly when the buffer holds it and its terminator. -/
theorem read_eq_iff [DecidableEq α] (hstop : stop ∉ t) (hlen : t.length < size) :
    read stop size b = t ↔ Holds b (t ++ [stop]) := by
  have hclean (c : α) (hc : c ∈ t) : decide (c ≠ stop) = true := by
    rw [decide_eq_true_eq]
    intro heq
    exact hstop (heq ▸ hc)
  constructor
  · intro hread k c hc
    obtain ⟨tail, htail⟩ : ∃ tail, (List.range size).map b = t ++ tail := by
      obtain ⟨tail, htail⟩ :=
        List.takeWhile_prefix (fun c => decide (c ≠ stop)) (l := (List.range size).map b)
      refine ⟨tail, ?_⟩
      rw [← htail]
      exact congrArg (· ++ tail) hread
    have hlength := congrArg List.length htail
    rw [List.length_map, List.length_range, List.length_append] at hlength
    cases tail with
    | nil =>
        rw [List.length_nil] at hlength
        omega
    | cons d tail =>
        have hd : d = stop := by
          unfold read at hread
          rw [htail, List.takeWhile_append_of_pos hclean] at hread
          by_contra hne
          rw [List.takeWhile_cons_of_pos (by simpa using hne)] at hread
          have hlengths := congrArg List.length hread
          rw [List.length_append, List.length_cons] at hlengths
          omega
        subst hd
        have hk := (List.getElem?_eq_some_iff.mp hc).1
        rw [List.length_append, List.length_singleton] at hk
        have hcell := getElem?_range_map (b := b) (show k < size by omega)
        rw [htail, List.append_cons, List.getElem?_append_left
          (by rw [List.length_append, List.length_singleton]; exact hk), hc] at hcell
        exact (Option.some.inj hcell).symm
  · intro hholds
    have hfits : (t ++ [stop]).length ≤ size := by
      rw [List.length_append, List.length_singleton]
      exact hlen
    obtain ⟨tail, htail⟩ := hholds.cells hfits
    unfold read
    rw [← htail, List.append_assoc, List.takeWhile_append_of_pos hclean, List.singleton_append,
      List.takeWhile_cons_of_neg (by simp), List.append_nil]

end TextBuffer
