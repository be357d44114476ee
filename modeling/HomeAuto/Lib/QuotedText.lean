import Mathlib.Data.List.Basic

/-!
# Keys among quoted pieces

A text is made of pieces in quotation marks and of what stands between them.  A search for the
first occurrence of a key, which is a quoted piece with a mark after it, passes over every other
piece, as long as no piece has a quotation mark inside it.
-/

namespace QuotedText

/-! ## Occurrences -/

variable {α : Type*} {needle text : List α}

/-- The needle stands at place `n` of a text. -/
def Occurs (needle text : List α) (n : Nat) : Prop := needle <+: text.drop n

/-- The needle stands behind `before`, and nowhere earlier. -/
structure FirstAt (needle text before rest : List α) : Prop where
  split : text = before ++ needle ++ rest
  first : ∀ n < before.length, ¬Occurs needle text n

/-- An occurrence in two texts, one after the other, begins in one of them. -/
theorem Occurs.append {a b : List α} {n : Nat} (h : Occurs needle (a ++ b) n) :
    n < a.length ∨ ∃ k, n = a.length + k ∧ Occurs needle b k := by
  by_cases hn : n < a.length
  · exact .inl hn
  · obtain ⟨k, hk⟩ := Nat.exists_eq_add_of_le (Nat.not_lt.mp hn)
    refine .inr ⟨k, hk, ?_⟩
    rwa [Occurs, hk, ← List.drop_drop, List.drop_left] at h

/-- It begins with the first symbol of the needle. -/
theorem Occurs.getElem? {c : α} {cs : List α} {n : Nat} (h : Occurs (c :: cs) text n) :
    text[n]? = some c := by
  obtain ⟨more, hmore⟩ := h
  have hhead : (text.drop n)[0]? = some c := by
    rw [← hmore]
    rfl
  rwa [List.getElem?_drop, Nat.add_zero] at hhead

/-- No occurrence begins in a text that does not have its first symbol. -/
theorem not_occurs_of_notMem {c : α} {cs a b : List α} (h : c ∉ a) {n : Nat}
    (hn : n < a.length) : ¬Occurs (c :: cs) (a ++ b) n := by
  intro hoccurs
  have hat := hoccurs.getElem?
  rw [List.getElem?_append_left hn] at hat
  exact h (List.mem_of_getElem? hat)

theorem FirstAt.occurs {before rest : List α} (h : FirstAt needle text before rest) :
    Occurs needle text before.length := by
  rw [Occurs, h.split, List.append_assoc, List.drop_left]
  exact List.prefix_append _ _

/-- There is one first place. -/
theorem FirstAt.unique {b₁ r₁ b₂ r₂ : List α} (h₁ : FirstAt needle text b₁ r₁)
    (h₂ : FirstAt needle text b₂ r₂) : b₁ = b₂ ∧ r₁ = r₂ := by
  have hlen : b₁.length = b₂.length :=
    Nat.le_antisymm (Nat.not_lt.mp fun hlt => h₁.first _ hlt h₂.occurs)
      (Nat.not_lt.mp fun hlt => h₂.first _ hlt h₁.occurs)
  have hsame := h₁.split.symm.trans h₂.split
  rw [List.append_assoc, List.append_assoc] at hsame
  obtain ⟨hb, hr⟩ := List.append_inj hsame hlen
  exact ⟨hb, List.append_cancel_left hr⟩

/-! ## The search -/

variable [DecidableEq α]

/-- The text from the first occurrence of `needle` on. -/
def find (needle : List α) : List α → Option (List α)
  | [] => if needle = [] then some [] else none
  | c :: cs => if needle <+: c :: cs then some (c :: cs) else find needle cs

/-- The quoted key with the mark after it. -/
def keyed (quote mark : α) (key : List α) : List α := quote :: (key ++ [quote, mark])

/-- A piece in quotation marks. -/
def quoted (quote : α) (piece : List α) : List α := quote :: (piece ++ [quote])

/-- A key that no piece can be taken for: it has no quotation mark in it, and does not begin
with one of the symbols `stops` that follow a piece. -/
structure IsKey (quote : α) (stops : List α) (key : List α) : Prop where
  noQuote : quote ∉ key
  head : ∃ c rest, key = c :: rest ∧ c ∉ stops

variable {quote mark : α} {stops key piece rest : List α}

/-- **The search ends at the first occurrence.** -/
theorem find_eq_some_iff (hne : needle ≠ []) {t : List α} :
    find needle text = some t ↔ ∃ before rest, FirstAt needle text before rest ∧
      t = needle ++ rest := by
  induction text generalizing t with
  | nil =>
      rw [find, if_neg hne]
      refine iff_of_false (by simp) ?_
      rintro ⟨before, rest, h, -⟩
      have hnil := h.split
      simp [hne] at hnil
  | cons c cs ih =>
      rw [find]
      by_cases hhere : needle <+: c :: cs
      · rw [if_pos hhere]
        obtain ⟨rest, hrest⟩ := hhere
        have hfirst : FirstAt needle (c :: cs) [] rest :=
          ⟨hrest.symm, fun n hn => absurd hn (Nat.not_lt_zero n)⟩
        constructor
        · intro h
          exact ⟨[], rest, hfirst, (Option.some.inj h).symm.trans hrest.symm⟩
        · rintro ⟨before', rest', h, rfl⟩
          rw [← (hfirst.unique h).2, hrest]
      · rw [if_neg hhere, ih]
        constructor
        · rintro ⟨before, rest, h, ht⟩
          refine ⟨c :: before, rest, ⟨by rw [h.split]; rfl, fun n hn => ?_⟩, ht⟩
          cases n with
          | zero => exact hhere
          | succ n => exact h.first n (Nat.lt_of_succ_lt_succ hn)
        · rintro ⟨before, rest, h, ht⟩
          cases before with
          | nil => exact absurd ⟨rest, h.split.symm⟩ hhere
          | cons b before =>
              refine ⟨before, rest, ⟨(List.cons.inj h.split).2, fun n hn => ?_⟩, ht⟩
              exact h.first (n + 1) (Nat.succ_lt_succ hn)

/-- What is not found stands nowhere. -/
theorem find_eq_none_iff (hne : needle ≠ []) :
    find needle text = none ↔ ∀ before rest, ¬FirstAt needle text before rest := by
  rw [Option.eq_none_iff_forall_ne_some]
  constructor
  · intro h before rest hfirst
    exact h _ ((find_eq_some_iff hne).mpr ⟨before, rest, hfirst, rfl⟩)
  · rintro h t ht
    obtain ⟨before, rest, hfirst, -⟩ := (find_eq_some_iff hne).mp ht
    exact h before rest hfirst

/-! ## Pieces -/

theorem find_cons_of_ne {needle : List α} {c : α} {cs : List α}
    (h : ¬needle <+: c :: cs) : find needle (c :: cs) = find needle cs :=
  if_neg h

/-- What begins with the needle. -/
theorem find_append (needle rest : List α) (hne : needle ≠ []) :
    find needle (needle ++ rest) = some (needle ++ rest) := by
  cases needle with
  | nil => exact absurd rfl hne
  | cons c cs => exact if_pos (List.prefix_append _ _)

/-- Text without quotation marks is passed over. -/
theorem find_plain {plain : List α} (h : quote ∉ plain) :
    find (keyed quote mark key) (plain ++ rest) = find (keyed quote mark key) rest := by
  induction plain with
  | nil => rfl
  | cons c cs ih =>
      rw [List.mem_cons, not_or] at h
      rw [List.cons_append, find_cons_of_ne, ih h.2]
      intro hpre
      exact h.1 (List.cons_prefix_cons.mp hpre).1

/-- Two pieces without quotation marks that begin the same text are one piece. -/
theorem pieces_eq {a b s t : List α} (ha : quote ∉ a) (hb : quote ∉ b)
    (h : a ++ quote :: s <+: b ++ quote :: t) : a = b ∧ s <+: t := by
  have hclean (l : List α) (hl : quote ∉ l) (c : α) (hc : c ∈ l) :
      decide (c ≠ quote) = true := by
    rw [decide_eq_true_eq]
    intro heq
    exact hl (heq ▸ hc)
  have htake (l u : List α) (hl : quote ∉ l) :
      (l ++ quote :: u).takeWhile (fun c => decide (c ≠ quote)) = l := by
    rw [List.takeWhile_append_of_pos (hclean l hl), List.takeWhile_cons_of_neg (by simp),
      List.append_nil]
  obtain ⟨more, hmore⟩ := h
  have hab := congrArg (List.takeWhile fun c => decide (c ≠ quote)) hmore
  rw [List.append_assoc, List.cons_append, htake a _ ha, htake b _ hb] at hab
  subst hab
  rw [List.append_assoc, List.append_cancel_left_eq, List.cons_append, List.cons.injEq] at hmore
  exact ⟨rfl, more, hmore.2⟩

/-- **A piece is passed over** when it is another one than the key, or has no mark after it. -/
theorem find_quoted (hkey : IsKey quote stops key) (hpiece : quote ∉ piece) {c : α}
    (hc : c ∈ stops) (hother : piece = key → c ≠ mark) :
    find (keyed quote mark key) (quoted quote piece ++ c :: rest) =
      find (keyed quote mark key) (c :: rest) := by
  have hopen : ¬keyed quote mark key <+: quote :: (piece ++ quote :: (c :: rest)) := by
    intro hpre
    have hin := (List.cons_prefix_cons.mp hpre).2
    obtain ⟨heq, hmark⟩ := pieces_eq (s := [mark]) hkey.noQuote hpiece hin
    exact hother heq.symm (List.cons_prefix_cons.mp hmark).1.symm
  have hclose : ¬keyed quote mark key <+: quote :: c :: rest := by
    intro hpre
    obtain ⟨d, more, hd, hstop⟩ := hkey.head
    have hin := (List.cons_prefix_cons.mp hpre).2
    rw [hd, List.cons_append] at hin
    have hdc := (List.cons_prefix_cons.mp hin).1
    exact hstop (hdc ▸ hc)
  have htext : quoted quote piece ++ c :: rest = quote :: (piece ++ quote :: c :: rest) := by
    simp [quoted]
  rw [htext, find_cons_of_ne hopen, find_plain hpiece, find_cons_of_ne hclose]

end QuotedText
