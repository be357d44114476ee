import Mathlib.Data.List.Basic
import Mathlib.Algebra.BigOperators.Group.List.Basic

/-!
# Delimited and blocked text

Text that is built entry by entry: with a separator after or between the entries, or in
blocks of one width; a bounded buffer that takes whole entries while they fit; and the
entries that a table with empty places gives.
-/

namespace Delimited

variable {α : Type*}

/-- Append whole entries to a buffer that holds `pos` symbols already, up to the first
entry that does not fit. -/
def emit (fits : Nat → Nat → Bool) : Nat → List (List α) → List α
  | _, [] => []
  | pos, e :: es =>
      if fits pos e.length then e ++ emit fits (pos + e.length) es else []

/-- The entries with a separator before each but the first. -/
def separated (sep : α) : List (List α) → List (List α)
  | [] => []
  | e :: es => e :: es.map (sep :: ·)

/-- A buffer that is large enough takes everything. -/
theorem emit_eq_flatten {fits : Nat → Nat → Bool} {es : List (List α)} {pos : Nat}
    (h : ∀ p l, p + l ≤ pos + es.flatten.length → fits p l = true) :
    emit fits pos es = es.flatten := by
  induction es generalizing pos with
  | nil => rfl
  | cons e es ih =>
      rw [List.flatten_cons, List.length_append] at h
      have hfit : fits pos e.length = true := h _ _ (by omega)
      rw [emit, if_pos hfit, List.flatten_cons, ih fun p l hle => h p l (by omega)]

/-- A buffer of capacity `cap` that keeps one symbol free takes as many entries of one
width as go in below the capacity. -/
theorem emit_uniform {cap w : Nat} (hw : 0 < w) {es : List (List α)}
    (hes : ∀ e ∈ es, e.length = w) (pos : Nat) :
    emit (fun p l => decide (p + l < cap)) pos es = (es.take ((cap - 1 - pos) / w)).flatten := by
  induction es generalizing pos with
  | nil => rw [List.take_nil]; rfl
  | cons e es ih =>
      have he : e.length = w := hes e List.mem_cons_self
      rw [emit, he, ih (fun x hx => hes x (List.mem_cons_of_mem _ hx))]
      by_cases hfit : pos + w < cap
      · have hdiv : (cap - 1 - pos) / w = (cap - 1 - (pos + w)) / w + 1 := by
          rw [Nat.div_eq_sub_div hw (by omega)]
          congr 2
          omega
        rw [if_pos (decide_eq_true hfit), hdiv, List.take_succ_cons, List.flatten_cons]
      · have hdiv : (cap - 1 - pos) / w = 0 := Nat.div_eq_of_lt (by omega)
        rw [if_neg (by simpa using hfit), hdiv, List.take_zero, List.flatten_nil]

theorem flatten_separated (sep : α) (es : List (List α)) :
    (separated sep es).flatten = [sep].intercalate es := by
  cases es with
  | nil => rfl
  | cons e es =>
      rw [separated, List.flatten_cons]
      induction es generalizing e with
      | nil => simp
      | cons e' es ih => simp [ih e']

theorem not_mem_intercalate {c sep : α} (hsep : c ≠ sep) {ls : List (List α)}
    (h : ∀ l ∈ ls, c ∉ l) : c ∉ [sep].intercalate ls := by
  rw [← flatten_separated]
  intro hc
  obtain ⟨l, hl, hcl⟩ := List.mem_flatten.mp hc
  cases ls with
  | nil => cases hl
  | cons e es =>
      rcases List.mem_cons.mp hl with rfl | hl
      · exact h l List.mem_cons_self hcl
      · obtain ⟨d, hd, rfl⟩ := List.mem_map.mp hl
        rcases List.mem_cons.mp hcl with rfl | hcd
        · exact hsep rfl
        · exact h d (List.mem_cons_of_mem _ hd) hcd

variable [DecidableEq α]

/-- Splitting what has a separator after every entry gives the entries, and an empty
piece at the end. -/
theorem splitOn_terminated {sep : α} {es : List (List α)} (h : ∀ e ∈ es, sep ∉ e) :
    (es.map (· ++ [sep])).flatten.splitOn sep = es ++ [[]] := by
  have hcat : (es.map (· ++ [sep])).flatten = [sep].intercalate (es ++ [[]]) := by
    induction es with
    | nil => simp
    | cons e es ih =>
        have hes := ih fun x hx => h x (List.mem_cons_of_mem _ hx)
        rw [List.map_cons, List.flatten_cons, hes]
        cases es <;> simp
  rw [hcat]
  refine List.splitOn_intercalate _ (fun l hl => ?_) (by simp)
  rcases List.mem_append.mp hl with hl | hl
  · exact h l hl
  · rw [List.mem_singleton.mp hl]
    exact List.not_mem_nil

/-- Splitting what has a separator between the entries gives the entries. -/
theorem splitOn_separated {sep : α} {es : List (List α)} (h : ∀ e ∈ es, sep ∉ e)
    (hne : es ≠ []) : (separated sep es).flatten.splitOn sep = es := by
  rw [flatten_separated]
  exact List.splitOn_intercalate _ h hne

omit [DecidableEq α]

/-- The `n`-th block of blocks of one width. -/
theorem block_flatten {w : Nat} {es : List (List α)} (hes : ∀ e ∈ es, e.length = w) {n : Nat}
    (hn : n < es.length) : (es.flatten.drop (n * w)).take w = es[n] := by
  induction es generalizing n with
  | nil => exact absurd hn (Nat.not_lt_zero n)
  | cons e es ih =>
      have he : e.length = w := hes e List.mem_cons_self
      have htail := fun x hx => hes x (List.mem_cons_of_mem e hx)
      cases n with
      | zero => simp [he]
      | succ n =>
          rw [List.length_cons] at hn
          have hdrop : (e :: es).flatten.drop ((n + 1) * w) = es.flatten.drop (n * w) := by
            rw [List.flatten_cons, List.drop_append, he,
              List.drop_eq_nil_of_le (by rw [he]; exact Nat.le_mul_of_pos_left w n.succ_pos),
              List.nil_append]
            congr 1
            rw [Nat.succ_mul]
            omega
          rw [hdrop, List.getElem_cons_succ]
          exact ih htail (by omega)

theorem length_flatten_uniform {w : Nat} {es : List (List α)} (hes : ∀ e ∈ es, e.length = w) :
    es.flatten.length = es.length * w := by
  have hall : ∀ n ∈ es.map List.length, n = w := by
    intro n hn
    obtain ⟨e, he, rfl⟩ := List.mem_map.mp hn
    exact hes e he
  rw [List.length_flatten, List.sum_eq_card_nsmul _ w hall, List.length_map]
  rfl

/-- Entries of bounded length make a text of bounded length. -/
theorem length_flatten_le {w : Nat} {es : List (List α)} (hes : ∀ e ∈ es, e.length ≤ w) :
    es.flatten.length ≤ es.length * w := by
  induction es with
  | nil => simp
  | cons e es ih =>
      have he := hes e List.mem_cons_self
      have hrest := ih fun x hx => hes x (List.mem_cons_of_mem e hx)
      rw [List.flatten_cons, List.length_append, List.length_cons, Nat.succ_mul]
      omega

/-- Without an empty place before an occupied one, the occupied places of a table are
listed at their own positions. -/
theorem getElem?_filterMap_of_prefix {β : Type*} {l : List α} {f : α → Option β}
    (h : ∀ i j : Nat, i < j → (l[j]?.bind f).isSome → (l[i]?.bind f).isSome) (n : Nat) :
    (l.filterMap f)[n]? = l[n]?.bind f := by
  induction l generalizing n with
  | nil => rfl
  | cons x l ih =>
      cases hx : f x with
      | some y =>
          rw [List.filterMap_cons_some hx]
          cases n with
          | zero => exact hx.symm
          | succ n => exact ih (fun i j hij hs => h (i + 1) (j + 1) (by omega) hs) n
      | none =>
          have hrest (j : Nat) : l[j]?.bind f = none := by
            rw [← Option.not_isSome_iff_eq_none]
            intro hj
            have hzero := h 0 (j + 1) j.succ_pos hj
            rw [List.getElem?_cons_zero, Option.bind_some, hx] at hzero
            cases hzero
          have hnil : l.filterMap f = [] := by
            refine List.filterMap_eq_nil_iff.mpr fun a ha => ?_
            obtain ⟨j, hj⟩ := List.getElem?_of_mem ha
            have hnone := hrest j
            rwa [hj] at hnone
          rw [List.filterMap_cons_none hx, hnil]
          cases n with
          | zero => exact hx.symm
          | succ n => exact (hrest n).symm

/-- If there are more occupied places than the number of any of them, no empty place comes
before an occupied one. -/
theorem prefix_of_lt_length {β : Type*} {l : List α} {f : α → Option β}
    (h : ∀ n, (l[n]?.bind f).isSome → n < (l.filterMap f).length) {i j : Nat} (hij : i < j)
    (hj : (l[j]?.bind f).isSome) : (l[i]?.bind f).isSome := by
  rw [List.length_filterMap_eq_countP] at h
  have hjm := h j hj
  have hdrop : (l.drop (l.countP fun a => (f a).isSome)).countP (fun a => (f a).isSome) = 0 := by
    refine List.countP_eq_zero.mpr fun a ha hsome => ?_
    obtain ⟨k, hk⟩ := List.getElem?_of_mem ha
    rw [List.getElem?_drop] at hk
    have hlt := h _ (by rw [hk]; exact hsome)
    omega
  have hcount := congrArg (List.countP fun a => (f a).isSome)
    (List.take_append_drop (l.countP fun a => (f a).isSome) l)
  rw [List.countP_append, hdrop, Nat.add_zero] at hcount
  have hle := List.countP_le_length (p := fun a => (f a).isSome) (l := l)
  have hall : ∀ a ∈ l.take (l.countP fun a => (f a).isSome), (f a).isSome = true := by
    refine List.countP_eq_length.mp ?_
    rw [hcount, List.length_take, Nat.min_eq_left hle]
  have hi : (l.take (l.countP fun a => (f a).isSome))[i]? = l[i]? := by
    rw [List.getElem?_take, if_pos (by omega)]
  rw [← hi, List.getElem?_eq_getElem (by rw [List.length_take]; omega), Option.bind_some]
  exact hall _ (List.getElem_mem _)

end Delimited
