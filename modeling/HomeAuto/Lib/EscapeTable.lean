import Mathlib.Data.List.Basic

/-!
# Escaping by a table

Some characters of a text are special, and each is written as a code of its own.  The table
carries what makes the codes readable: each begins with a special character, and none is the
beginning of another.

`unescape` reads a text that was written this way, and refuses one with a special character that
begins no code.  `ElementTags` are put around a text; a row of such elements is read back, if the
texts do not contain the first character of the closing tag.
-/

variable {α : Type*} [DecidableEq α]

/-- The codes of the special characters. -/
structure EscapeTable (α : Type*) [DecidableEq α] where
  entries : List (α × List α)
  starts : ∀ e ∈ entries, ∃ c ∈ entries.map Prod.fst, e.2.head? = some c
  prefixFree : ∀ e ∈ entries, ∀ e' ∈ entries, e.2 <+: e'.2 → e = e'

namespace EscapeTable

variable (t : EscapeTable α)

/-- The special characters. -/
def special : List α := t.entries.map Prod.fst

/-- What is written for a character. -/
def code (a : α) : List α :=
  match t.entries.find? fun e => e.1 = a with
  | some e => e.2
  | none => [a]

/-- What is written for a text. -/
def escape (s : List α) : List α := s.flatMap t.code

/-- The reader, of at most `fuel` characters. -/
def unescapeLoop : (fuel : Nat) → List α → Option (List α)
  | _, [] => some []
  | 0, _ :: _ => none
  | fuel + 1, a :: as =>
      match t.entries.find? fun e => e.2 <+: a :: as with
      | some e => (unescapeLoop fuel ((a :: as).drop e.2.length)).map (e.1 :: ·)
      | none => if a ∈ t.special then none else (unescapeLoop fuel as).map (a :: ·)

/-- The text that was written. -/
def unescape (s : List α) : Option (List α) := t.unescapeLoop s.length s

variable {t}

@[simp] theorem escape_nil : t.escape [] = [] := rfl

theorem escape_cons (a : α) (s : List α) : t.escape (a :: s) = t.code a ++ t.escape s := rfl

theorem escape_append (s s' : List α) : t.escape (s ++ s') = t.escape s ++ t.escape s' :=
  List.flatMap_append

/-- A character is written as its code, or as itself. -/
theorem code_cases (a : α) :
    (∃ e ∈ t.entries, e.1 = a ∧ t.code a = e.2) ∨ (a ∉ t.special ∧ t.code a = [a]) := by
  unfold code
  cases h : t.entries.find? fun e => e.1 = a with
  | some e =>
      have hkey := List.find?_some (p := fun e : α × List α => decide (e.1 = a)) h
      exact .inl ⟨e, List.mem_of_find?_eq_some h, of_decide_eq_true hkey, rfl⟩
  | none =>
      refine .inr ⟨fun hmem => ?_, rfl⟩
      obtain ⟨e, he, heq⟩ := List.mem_map.mp hmem
      exact List.find?_eq_none.mp h e he (decide_eq_true heq)

theorem code_ne_nil (a : α) : t.code a ≠ [] := by
  rcases t.code_cases a with ⟨e, he, -, heq⟩ | ⟨-, heq⟩
  · obtain ⟨c, -, hc⟩ := t.starts e he
    intro hnil
    rw [← heq, hnil] at hc
    cases hc
  · rw [heq]
    exact List.cons_ne_nil a []

/-- The first character of a code is special. -/
theorem head_special {e : α × List α} (he : e ∈ t.entries) {a : α} {as : List α}
    (h : e.2 <+: a :: as) : a ∈ t.special := by
  obtain ⟨c, hc, hhead⟩ := t.starts e he
  obtain ⟨tail, htail⟩ := h
  cases hcode : e.2 with
  | nil =>
      rw [hcode] at hhead
      cases hhead
  | cons b bs =>
      rw [hcode, List.head?_cons, Option.some.injEq] at hhead
      rw [hcode, List.cons_append, List.cons.injEq] at htail
      rw [← htail.1, hhead]
      exact hc

/-- In front of a code stands that code only. -/
theorem find_code {e : α × List α} (he : e ∈ t.entries) (rest : List α) :
    t.entries.find? (fun e' => e'.2 <+: e.2 ++ rest) = some e := by
  cases h : t.entries.find? fun e' => e'.2 <+: e.2 ++ rest with
  | none =>
      exact absurd (decide_eq_true (List.prefix_append e.2 rest))
        (List.find?_eq_none.mp h e he)
  | some e' =>
      have hmem := List.mem_of_find?_eq_some h
      have hprefix := List.find?_some (p := fun e' : α × List α => decide (e'.2 <+: e.2 ++ rest)) h
      rcases List.prefix_or_prefix_of_prefix (of_decide_eq_true hprefix)
        (List.prefix_append e.2 rest) with hle | hle
      · rw [t.prefixFree e' hmem e he hle]
      · rw [t.prefixFree e he e' hmem hle]

/-- In front of another character stands no code. -/
theorem find_plain {a : α} (ha : a ∉ t.special) (rest : List α) :
    t.entries.find? (fun e => e.2 <+: a :: rest) = none :=
  List.find?_eq_none.mpr fun _ he hprefix => ha (head_special he (of_decide_eq_true hprefix))

/-- **What is written is read back.** -/
theorem unescapeLoop_escape (s : List α) {fuel : Nat} (h : (t.escape s).length ≤ fuel) :
    t.unescapeLoop fuel (t.escape s) = some s := by
  induction s generalizing fuel with
  | nil => cases fuel <;> rfl
  | cons a s ih =>
      obtain ⟨c, cs, hcode⟩ := List.exists_cons_of_ne_nil (t.code_ne_nil a)
      have hlen : (t.escape (a :: s)).length = cs.length + 1 + (t.escape s).length := by
        rw [escape_cons, hcode, List.length_append, List.length_cons]
      obtain ⟨fuel, rfl⟩ : ∃ n, fuel = n + 1 := ⟨fuel - 1, by omega⟩
      have hrest : t.unescapeLoop fuel (t.escape s) = some s := ih (by omega)
      rw [escape_cons, hcode, List.cons_append, unescapeLoop, ← List.cons_append, ← hcode]
      rcases t.code_cases a with ⟨e, he, rfl, heq⟩ | ⟨hplain, heq⟩
      · rw [heq, find_code he]
        dsimp only
        rw [List.drop_left, hrest, Option.map_some]
      · rw [hcode, List.cons.injEq] at heq
        obtain ⟨rfl, rfl⟩ := heq
        rw [hcode, List.singleton_append, find_plain hplain]
        dsimp only
        rw [if_neg hplain, List.nil_append, hrest, Option.map_some]

theorem unescape_escape (s : List α) : t.unescape (t.escape s) = some s :=
  t.unescapeLoop_escape s (Nat.le_refl _)

/-- What is written consists of codes, and of the plain characters of the text. -/
theorem mem_escape {c : α} {s : List α} (h : c ∈ t.escape s) :
    (∃ e ∈ t.entries, c ∈ e.2) ∨ (c ∈ s ∧ c ∉ t.special) := by
  obtain ⟨a, hmem, ha⟩ := List.mem_flatMap.mp h
  rcases t.code_cases a with ⟨e, he, -, heq⟩ | ⟨hplain, heq⟩
  · exact .inl ⟨e, he, heq ▸ ha⟩
  · rw [heq, List.mem_singleton] at ha
    subst ha
    exact .inr ⟨hmem, hplain⟩

/-- A special character that is in no code does not come up in what is written. -/
theorem not_mem_escape {c : α} (hc : c ∈ t.special) (hcodes : ∀ e ∈ t.entries, c ∉ e.2)
    (s : List α) : c ∉ t.escape s := by
  intro hmem
  rcases mem_escape hmem with ⟨e, he, hin⟩ | ⟨-, hplain⟩
  · exact hcodes e he hin
  · exact hplain hc

/-- Texts that are written one by one are read back one by one. -/
theorem mapM_unescape_escape (ss : List (List α)) :
    (ss.map t.escape).mapM t.unescape = some ss := by
  induction ss with
  | nil => rfl
  | cons s ss ih => rw [List.map_cons, List.mapM_cons, unescape_escape, ih]; rfl

end EscapeTable

/-- The tags around a text; the closing one begins with `stop`. -/
structure ElementTags (α : Type*) where
  opening : List α
  stop : α
  closing : List α

namespace ElementTags

variable (g : ElementTags α)

/-- A text between its tags. -/
def element (text : List α) : List α := g.opening ++ text ++ g.stop :: g.closing

/-- The reader of a row of elements, at most `fuel` of them: the texts, as they were written. -/
def readElements : (fuel : Nat) → List α → Option (List (List α))
  | _, [] => some []
  | 0, _ :: _ => none
  | fuel + 1, a :: as =>
      if g.opening <+: a :: as then
        let body := (a :: as).drop g.opening.length
        if g.stop :: g.closing <+: body.dropWhile (· ≠ g.stop) then
          (readElements fuel ((body.dropWhile (· ≠ g.stop)).drop (g.closing.length + 1))).map
            (body.takeWhile (· ≠ g.stop) :: ·)
        else none
      else none

variable {g}

/-- **A row of elements is read back.** -/
theorem readElements_flatMap {texts : List (List α)} (h : ∀ text ∈ texts, g.stop ∉ text)
    {fuel : Nat} (hfuel : texts.length ≤ fuel) :
    g.readElements fuel (texts.flatMap g.element) = some texts := by
  induction texts generalizing fuel with
  | nil => cases fuel <;> rfl
  | cons text texts ih =>
      obtain ⟨fuel, rfl⟩ : ∃ n, fuel = n + 1 := ⟨fuel - 1, by
        rw [List.length_cons] at hfuel
        omega⟩
      have hrest : g.readElements fuel (texts.flatMap g.element) = some texts :=
        ih (fun t ht => h t (by simp [ht])) (by
          rw [List.length_cons] at hfuel
          omega)
      have hplain : ∀ c ∈ text, decide (c ≠ g.stop) = true := by
        intro c hc
        exact decide_eq_true fun heq => h text (by simp) (heq ▸ hc)
      -- what stands behind the opening tag
      have hbehind : (text :: texts).flatMap g.element =
          g.opening ++ (text ++ g.stop :: (g.closing ++ texts.flatMap g.element)) := by
        simp [element]
      generalize texts.flatMap g.element = rest at hrest hbehind
      have htake : (text ++ g.stop :: (g.closing ++ rest)).takeWhile (· ≠ g.stop) = text := by
        rw [List.takeWhile_append_of_pos hplain, List.takeWhile_cons_of_neg (by simp),
          List.append_nil]
      have hdrop : (text ++ g.stop :: (g.closing ++ rest)).dropWhile (· ≠ g.stop) =
          (g.stop :: g.closing) ++ rest := by
        rw [List.dropWhile_append_of_pos hplain, List.dropWhile_cons_of_neg (by simp)]
        rfl
      have hlen : (g.stop :: g.closing).length = g.closing.length + 1 := rfl
      rw [hbehind]
      obtain ⟨a, as, hcons⟩ := List.exists_cons_of_ne_nil
        (l := g.opening ++ (text ++ g.stop :: (g.closing ++ rest))) (by simp)
      rw [hcons, readElements, ← hcons, if_pos (List.prefix_append _ _)]
      dsimp only
      rw [List.drop_left, htake, hdrop, if_pos (List.prefix_append _ _), ← hlen, List.drop_left,
        hrest, Option.map_some]

end ElementTags
