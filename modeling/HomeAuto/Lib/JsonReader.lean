import Mathlib.Data.List.Forall2
import HomeAuto.Lib.JsonText

/-!
# Reading JSON texts

A reader of JSON texts: a value and what is left of the text.  The number that it takes bounds
how deep it goes; more of it never changes what is read (`readValue_mono`).

Text that a writer puts between quotation marks without an encoder is read back as itself
exactly if it is plain: no quotation mark, no backslash, no control character
(`readBody_plain`, `plain_of_readBody`).
-/

namespace JsonText

/-- A value as it is read; of a string, the units that it stands for. -/
inductive Json
  | word (t : List Char)
  | number (t : List Char)
  | string (units : List Nat)
  | array (items : List Json)
  | object (members : List (List Nat × Json))

section Strings

variable (unitsOf : Char → List Nat)

/-- The four digits behind `\u`. -/
def hexUnit (a b c d : Char) : Option Nat :=
  (hexValue a).bind fun n₃ => (hexValue b).bind fun n₂ => (hexValue c).bind fun n₁ =>
    (hexValue d).map fun n₀ => ((n₃ * 16 + n₂) * 16 + n₁) * 16 + n₀

/-- A string after its opening quotation mark: its units, and what is left behind the closing
one. -/
def readBody : List Char → Option (List Nat × List Char)
  | [] => none
  | c :: t =>
      if c = '"' then some ([], t)
      else if c = '\\' then
        match t with
        | [] => none
        | e :: t₁ =>
            if e = 'u' then
              match t₁ with
              | a :: b :: c :: d :: t₂ =>
                  (hexUnit a b c d).bind fun u => (readBody t₂).map fun p => (u :: p.1, p.2)
              | _ => none
            else (escapeUnit e).bind fun u => (readBody t₁).map fun p => (u :: p.1, p.2)
      else if 32 ≤ c.toNat then (readBody t).map fun p => (unitsOf c ++ p.1, p.2)
      else none

/-- No quotation mark, no backslash, no control character. -/
def Plain (s : List Char) : Prop := ∀ c ∈ s, c ≠ '"' ∧ c ≠ '\\' ∧ 32 ≤ c.toNat

instance (s : List Char) : Decidable (Plain s) := List.decidableBAll _ s

theorem plain_cons {c : Char} {s : List Char} :
    Plain (c :: s) ↔ (c ≠ '"' ∧ c ≠ '\\' ∧ 32 ≤ c.toNat) ∧ Plain s := List.forall_mem_cons

theorem plain_append {s t : List Char} : Plain (s ++ t) ↔ Plain s ∧ Plain t :=
  List.forall_mem_append

theorem readBody_quote (t : List Char) : readBody unitsOf ('"' :: t) = some ([], t) := by
  rw [readBody.eq_def]
  exact if_pos rfl

theorem readBody_cons {c : Char} (h : c ≠ '"' ∧ c ≠ '\\' ∧ 32 ≤ c.toNat) (t : List Char) :
    readBody unitsOf (c :: t) = (readBody unitsOf t).map fun p => (unitsOf c ++ p.1, p.2) := by
  rw [readBody.eq_def]
  dsimp only
  rw [if_neg h.1, if_neg h.2.1, if_pos h.2.2]

/-- Plain text is read as it stands. -/
theorem readBody_plain {s : List Char} (hs : Plain s) (t : List Char) :
    readBody unitsOf (s ++ '"' :: t) = some (s.flatMap unitsOf, t) := by
  induction s with
  | nil => exact readBody_quote unitsOf t
  | cons c s ih =>
      obtain ⟨hc, hs⟩ := plain_cons.mp hs
      rw [List.cons_append, readBody_cons unitsOf hc, ih hs]
      rfl

/-- **What a string can begin with**: the closing quotation mark, one of the two kinds of
escapes, or a character that stands for itself. -/
theorem readBody_cases {c : Char} {t r : List Char} {us : List Nat}
    (h : readBody unitsOf (c :: t) = some (us, r)) :
    (c = '"' ∧ us = []) ∨
    (∃ e t₁ u us', c = '\\' ∧ t = e :: t₁ ∧ readBody unitsOf t₁ = some (us', r) ∧
      us = u :: us') ∨
    (∃ a b d e t₂ u us', c = '\\' ∧ t = 'u' :: a :: b :: d :: e :: t₂ ∧
      hexUnit a b d e = some u ∧ readBody unitsOf t₂ = some (us', r) ∧ us = u :: us') ∨
    ∃ us', (c ≠ '"' ∧ c ≠ '\\' ∧ 32 ≤ c.toNat) ∧ readBody unitsOf t = some (us', r) ∧
      us = unitsOf c ++ us' := by
  rw [readBody.eq_def] at h
  dsimp only at h
  by_cases hquote : c = '"'
  · rw [if_pos hquote, Option.some.injEq, Prod.mk.injEq] at h
    exact .inl ⟨hquote, h.1.symm⟩
  · rw [if_neg hquote] at h
    by_cases hslash : c = '\\'
    · rw [if_pos hslash] at h
      cases t with
      | nil => cases h
      | cons e t₁ =>
          dsimp only at h
          by_cases hu : e = 'u'
          · rw [if_pos hu] at h
            match t₁, h with
            | a :: b :: d :: e' :: t₂, h =>
                obtain ⟨u, hunit, h⟩ := Option.bind_eq_some_iff.mp h
                obtain ⟨p, hp, h⟩ := Option.map_eq_some_iff.mp h
                obtain ⟨rfl, rfl⟩ := Prod.mk.inj h
                exact .inr (.inr (.inl ⟨a, b, d, e', t₂, u, p.1, hslash, by rw [hu], hunit, hp,
                  rfl⟩))
          · rw [if_neg hu] at h
            obtain ⟨u, -, h⟩ := Option.bind_eq_some_iff.mp h
            obtain ⟨p, hp, h⟩ := Option.map_eq_some_iff.mp h
            obtain ⟨rfl, rfl⟩ := Prod.mk.inj h
            exact .inr (.inl ⟨e, t₁, u, p.1, hslash, rfl, hp, rfl⟩)
    · rw [if_neg hslash] at h
      by_cases hcontrol : 32 ≤ c.toNat
      · rw [if_pos hcontrol] at h
        obtain ⟨p, hp, h⟩ := Option.map_eq_some_iff.mp h
        obtain ⟨rfl, rfl⟩ := Prod.mk.inj h
        exact .inr (.inr (.inr ⟨p.1, ⟨hquote, hslash, hcontrol⟩, hp, rfl⟩))
      · rw [if_neg hcontrol] at h
        cases h

/-- A quotation mark is no hexadecimal digit. -/
theorem hexUnit_ne_quote {a b c d : Char} {u : Nat} (h : hexUnit a b c d = some u) :
    a ≠ '"' ∧ b ≠ '"' ∧ c ≠ '"' ∧ d ≠ '"' := by
  have hquote : hexValue '"' = none := by decide
  unfold hexUnit at h
  obtain ⟨n₃, ha, h⟩ := Option.bind_eq_some_iff.mp h
  obtain ⟨n₂, hb, h⟩ := Option.bind_eq_some_iff.mp h
  obtain ⟨n₁, hc, h⟩ := Option.bind_eq_some_iff.mp h
  obtain ⟨n₀, hd, -⟩ := Option.map_eq_some_iff.mp h
  refine ⟨?_, ?_, ?_, ?_⟩
  · rintro rfl
    simp [hquote] at ha
  · rintro rfl
    simp [hquote] at hb
  · rintro rfl
    simp [hquote] at hc
  · rintro rfl
    simp [hquote] at hd

/-- What raw text in front of `",` and a quotation mark can be read as: itself if it is plain;
otherwise something shorter, or, if its last backslash takes the quotation mark, something that
ends in the comma. -/
def RawRead (s : List Char) (us : List Nat) : Prop :=
  (Plain s ∧ us = s.flatMap unitsOf) ∨ us.length < (s.flatMap unitsOf).length ∨
    (s.getLast? = some '\\' ∧ us.getLast? = some 44)

variable {unitsOf} (hunits : ∀ c, unitsOf c ≠ [])

section Raw

include hunits

theorem length_le_flatMap (s : List Char) : s.length ≤ (s.flatMap unitsOf).length := by
  induction s with
  | nil => exact Nat.le_refl 0
  | cons c s ih =>
      have hpos := List.length_pos_iff.mpr (hunits c)
      rw [List.flatMap_cons, List.length_append, List.length_cons]
      omega

/-- Several characters that are read as one unit. -/
theorem RawRead.escape {pre s : List Char} {us : List Nat} (h : RawRead unitsOf s us)
    (hpre : 2 ≤ pre.length) (u : Nat) : RawRead unitsOf (pre ++ s) (u :: us) := by
  have hlen := length_le_flatMap hunits pre
  have hflat : ((pre ++ s).flatMap unitsOf).length =
      (pre.flatMap unitsOf).length + (s.flatMap unitsOf).length := by
    rw [List.flatMap_append, List.length_append]
  rcases h with ⟨-, rfl⟩ | hshort | ⟨hlast, hcomma⟩
  · refine .inr (.inl ?_)
    rw [hflat, List.length_cons]
    omega
  · refine .inr (.inl ?_)
    rw [hflat, List.length_cons]
    omega
  · refine .inr (.inr ⟨?_, ?_⟩)
    · rw [List.getLast?_append, hlast, Option.some_or]
    · rw [List.getLast?_cons, hcomma, Option.getD_some]

omit hunits in
/-- A character that is read as it stands. -/
theorem RawRead.plain {c : Char} {s : List Char} {us : List Nat} (h : RawRead unitsOf s us)
    (hc : c ≠ '"' ∧ c ≠ '\\' ∧ 32 ≤ c.toNat) : RawRead unitsOf (c :: s) (unitsOf c ++ us) := by
  rcases h with ⟨hs, rfl⟩ | hshort | ⟨hlast, hcomma⟩
  · exact .inl ⟨plain_cons.mpr ⟨hc, hs⟩, List.flatMap_cons.symm⟩
  · refine .inr (.inl ?_)
    rw [List.flatMap_cons, List.length_append, List.length_append]
    omega
  · refine .inr (.inr ⟨?_, ?_⟩)
    · rw [List.getLast?_cons, hlast, Option.getD_some]
    · rw [List.getLast?_append, hcomma, Option.some_or]

/-- **Raw text** is read in one of the three ways. -/
theorem readBody_raw (hcomma : unitsOf ',' = [44]) (t : List Char) (n : Nat) :
    ∀ s : List Char, s.length < n → ∀ (us : List Nat) (r : List Char),
      readBody unitsOf (s ++ '"' :: ',' :: '"' :: t) = some (us, r) → RawRead unitsOf s us := by
  induction n with
  | zero => exact fun s hs => absurd hs (Nat.not_lt_zero _)
  | succ n ih =>
      intro s hs us r h
      cases s with
      | nil =>
          rw [List.nil_append, readBody_quote, Option.some.injEq, Prod.mk.injEq] at h
          exact .inl ⟨List.forall_mem_nil _, h.1.symm⟩
      | cons c s =>
          rw [List.length_cons] at hs
          rw [List.cons_append] at h
          rcases readBody_cases unitsOf h with ⟨rfl, rfl⟩ | ⟨e, t₁, u, us', rfl, ht, hread, rfl⟩ |
            ⟨a, b, d, e, t₂, u, us', rfl, ht, hunit, hread, rfl⟩ | ⟨us', hc, hread, rfl⟩
          · have hlen := length_le_flatMap hunits ('"' :: s)
            rw [List.length_cons] at hlen
            exact .inr (.inl (by rw [List.length_nil]; omega))
          · cases s with
            | nil =>
                -- the backslash takes the closing quotation mark, and the next one closes
                obtain ⟨rfl, rfl⟩ := List.cons.inj ht
                rw [readBody_cons unitsOf (by decide), readBody_quote, hcomma, Option.map_some,
                  Option.some.injEq, Prod.mk.injEq] at hread
                exact .inr (.inr ⟨rfl, by rw [← hread.1]; rfl⟩)
            | cons x s =>
                obtain ⟨rfl, rfl⟩ := List.cons.inj ht
                rw [List.length_cons] at hs
                have hpre : 2 ≤ ['\\', x].length := Nat.le_refl 2
                exact (ih s (by omega) us' r hread).escape hunits hpre u
          · obtain ⟨ha, hb, hd, he⟩ := hexUnit_ne_quote hunit
            match s, ht, hs with
            | x :: x₃ :: x₂ :: x₁ :: x₀ :: s, ht, hs =>
                simp only [List.cons_append, List.cons.injEq] at ht
                obtain ⟨rfl, rfl, rfl, rfl, rfl, rfl⟩ := ht
                simp only [List.length_cons] at hs
                have hpre : 2 ≤ ['\\', 'u', x₃, x₂, x₁, x₀].length := Nat.le_add_left 2 4
                exact (ih s (by omega) us' r hread).escape hunits hpre u
            | [], ht, _ => simp at ht
            | [_], ht, _ => simp [ha.symm] at ht
            | [_, _], ht, _ => simp [hb.symm] at ht
            | [_, _, _], ht, _ => simp [hd.symm] at ht
            | [_, _, _, _], ht, _ => simp [he.symm] at ht
          · exact (ih s (by omega) us' r hread).plain hc

/-- **Raw text that is read as itself is plain.** -/
theorem plain_of_readBody (hcomma : unitsOf ',' = [44]) (hslash : unitsOf '\\' = [92])
    {s t r : List Char}
    (h : readBody unitsOf (s ++ '"' :: ',' :: '"' :: t) = some (s.flatMap unitsOf, r)) :
    Plain s := by
  rcases readBody_raw hunits hcomma t _ s (Nat.lt_succ_self _) _ r h with
    ⟨hs, -⟩ | hshort | ⟨hlast, hend⟩
  · exact hs
  · exact absurd hshort (Nat.lt_irrefl _)
  · obtain ⟨s, rfl⟩ := List.getLast?_eq_some_iff.mp hlast
    rw [List.flatMap_append, List.flatMap_singleton, hslash, List.getLast?_append,
      List.getLast?_singleton, Option.some_or, Option.some.injEq] at hend
    exact absurd hend (by decide)

end Raw

end Strings

/-! ## Values -/

/-- Blank space. -/
def isBlank (c : Char) : Bool := c = ' ' || c = '\t' || c = '\n' || c = '\r'

def skipBlank (t : List Char) : List Char := t.dropWhile isBlank

/-- The fraction of a number, if there is one. -/
def fractionOf : List Char → List Char
  | '.' :: t => if t.takeWhile Char.isDigit = [] then [] else '.' :: t.takeWhile Char.isDigit
  | _ => []

/-- The exponent of a number, if there is one. -/
def exponentOf : List Char → List Char
  | [] => []
  | c :: t =>
      let sign := if t.head? = some '+' ∨ t.head? = some '-' then t.take 1 else []
      let digits := (t.drop sign.length).takeWhile Char.isDigit
      if (c = 'e' ∨ c = 'E') ∧ digits ≠ [] then c :: (sign ++ digits) else []

/-- A number. -/
def readNumber (t : List Char) : Option (Json × List Char) :=
  let sign := if t.head? = some '-' then ['-'] else []
  let t₁ := t.drop sign.length
  let whole := if t₁.head? = some '0' then ['0'] else t₁.takeWhile Char.isDigit
  let t₂ := t₁.drop whole.length
  let t₃ := t₂.drop (fractionOf t₂).length
  if whole = [] then none
  else
    some (.number (sign ++ whole ++ fractionOf t₂ ++ exponentOf t₃),
      t₃.drop (exponentOf t₃).length)

/-- One of the three words, or a number. -/
def readScalar (t : List Char) : Option (Json × List Char) :=
  match ["true".toList, "false".toList, "null".toList].find? fun w => w.isPrefixOf t with
  | some w => some (.word w, t.drop w.length)
  | none => readNumber t

section Values

variable (unitsOf : Char → List Nat)

mutual

/-- A value, and what is left behind it. -/
def readValue : Nat → List Char → Option (Json × List Char)
  | 0, _ => none
  | n + 1, t =>
      match skipBlank t with
      | '"' :: r => (readBody unitsOf r).map fun p => (.string p.1, p.2)
      | '[' :: r =>
          if (skipBlank r).head? = some ']' then some (.array [], (skipBlank r).tail)
          else (readElements n r).map fun p => (.array p.1, p.2)
      | '{' :: r =>
          if (skipBlank r).head? = some '}' then some (.object [], (skipBlank r).tail)
          else (readMembers n r).map fun p => (.object p.1, p.2)
      | r => readScalar r

/-- The values up to the bracket that closes an array. -/
def readElements : Nat → List Char → Option (List Json × List Char)
  | 0, _ => none
  | n + 1, t =>
      (readValue n t).bind fun v =>
        match skipBlank v.2 with
        | ',' :: r => (readElements n r).map fun p => (v.1 :: p.1, p.2)
        | ']' :: r => some ([v.1], r)
        | _ => none

/-- The members up to the brace that closes an object. -/
def readMembers : Nat → List Char → Option (List (List Nat × Json) × List Char)
  | 0, _ => none
  | n + 1, t =>
      match skipBlank t with
      | '"' :: r =>
          (readBody unitsOf r).bind fun k =>
            match skipBlank k.2 with
            | ':' :: r =>
                (readValue n r).bind fun v =>
                  match skipBlank v.2 with
                  | ',' :: r => (readMembers n r).map fun p => ((k.1, v.1) :: p.1, p.2)
                  | '}' :: r => some ([(k.1, v.1)], r)
                  | _ => none
            | _ => none
      | _ => none

end

/-- The whole text is one value. -/
def Parses (t : List Char) (v : Json) : Prop :=
  ∃ n r, readValue unitsOf n t = some (v, r) ∧ skipBlank r = []

/-- A longer reading reads the same. -/
theorem reads_succ (n : Nat) :
    (∀ t p, readValue unitsOf n t = some p → readValue unitsOf (n + 1) t = some p) ∧
    (∀ t p, readElements unitsOf n t = some p → readElements unitsOf (n + 1) t = some p) ∧
    ∀ t p, readMembers unitsOf n t = some p → readMembers unitsOf (n + 1) t = some p := by
  induction n with
  | zero => exact ⟨nofun, nofun, nofun⟩
  | succ n ih =>
      obtain ⟨hvalue, helements, hmembers⟩ := ih
      refine ⟨fun t p h => ?_, fun t p h => ?_, fun t p h => ?_⟩
      · rw [readValue] at h ⊢
        split at h
        · exact h
        · split at h
          · rename_i hempty
            rw [if_pos hempty]
            exact h
          · rename_i hempty
            obtain ⟨q, hq, hp⟩ := Option.map_eq_some_iff.mp h
            rw [if_neg hempty, helements _ q hq, Option.map_some, hp]
        · split at h
          · rename_i hempty
            rw [if_pos hempty]
            exact h
          · rename_i hempty
            obtain ⟨q, hq, hp⟩ := Option.map_eq_some_iff.mp h
            rw [if_neg hempty, hmembers _ q hq, Option.map_some, hp]
        · exact h
      · rw [readElements] at h ⊢
        obtain ⟨v, hv, h⟩ := Option.bind_eq_some_iff.mp h
        rw [hvalue t v hv, Option.bind_some]
        split at h
        · obtain ⟨q, hq, hp⟩ := Option.map_eq_some_iff.mp h
          rw [helements _ q hq, Option.map_some, hp]
        · exact h
        · cases h
      · rw [readMembers] at h ⊢
        split at h
        · obtain ⟨k, hk, h⟩ := Option.bind_eq_some_iff.mp h
          rw [hk, Option.bind_some]
          split at h
          · obtain ⟨v, hv, h⟩ := Option.bind_eq_some_iff.mp h
            rw [hvalue _ v hv, Option.bind_some]
            split at h
            · obtain ⟨q, hq, hp⟩ := Option.map_eq_some_iff.mp h
              rw [hmembers _ q hq, Option.map_some, hp]
            · exact h
            · cases h
          · cases h
        · cases h

theorem readValue_mono {n m : Nat} (h : n ≤ m) {t : List Char} {p : Json × List Char}
    (hread : readValue unitsOf n t = some p) : readValue unitsOf m t = some p := by
  induction h with
  | refl => exact hread
  | step _ ih => exact (reads_succ unitsOf _).1 t p ih

theorem readMembers_mono {n m : Nat} (h : n ≤ m) {t : List Char}
    {p : List (List Nat × Json) × List Char} (hread : readMembers unitsOf n t = some p) :
    readMembers unitsOf m t = some p := by
  induction h with
  | refl => exact hread
  | step _ ih => exact (reads_succ unitsOf _).2.2 t p ih

/-- Two readings of one text agree. -/
theorem readValue_unique {n m : Nat} {t : List Char} {p q : Json × List Char}
    (hp : readValue unitsOf n t = some p) (hq : readValue unitsOf m t = some q) : p = q := by
  have hp' := readValue_mono unitsOf (Nat.le_max_left n m) hp
  have hq' := readValue_mono unitsOf (Nat.le_max_right n m) hq
  exact Option.some.inj (hp'.symm.trans hq')

/-! ## Text that a writer puts together -/

/-- A text is read as a value wherever it stands. -/
def Reads (t : List Char) (v : Json) : Prop :=
  ∃ n, ∀ r, readValue unitsOf n (t ++ r) = some (v, r)

/-- A text between quotation marks. -/
def quoted (s : List Char) : List Char := '"' :: (s ++ ['"'])

/-- A member: its key and the text of its value. -/
def memberText (m : List Char × List Char) : List Char := quoted m.1 ++ ':' :: m.2

/-- Several members, with commas between them. -/
def membersText : List (List Char × List Char) → List Char
  | [] => []
  | [m] => memberText m
  | m :: m' :: ms => memberText m ++ ',' :: membersText (m' :: ms)

/-- An object. -/
def objectText (ms : List (List Char × List Char)) : List Char :=
  '{' :: (membersText ms ++ ['}'])

/-- The elements of an array of strings. -/
def elementsText : List (List Char) → List Char
  | [] => []
  | [s] => quoted s
  | s :: s' :: ss => quoted s ++ ',' :: elementsText (s' :: ss)

/-- An array of strings. -/
def arrayText (ss : List (List Char)) : List Char := '[' :: (elementsText ss ++ [']'])

theorem quoted_append (s t : List Char) : quoted s ++ t = '"' :: (s ++ '"' :: t) := by
  simp [quoted]

theorem memberText_append (m : List Char × List Char) (t : List Char) :
    memberText m ++ t = '"' :: (m.1 ++ '"' :: ':' :: (m.2 ++ t)) := by
  simp [memberText, quoted]

theorem skipBlank_cons {c : Char} (h : isBlank c = false) (t : List Char) :
    skipBlank (c :: t) = c :: t := by
  rw [skipBlank, List.dropWhile_cons_of_neg (by rw [h]; exact Bool.false_ne_true)]

theorem readValue_string (n : Nat) (t : List Char) :
    readValue unitsOf (n + 1) ('"' :: t) =
      (readBody unitsOf t).map fun p => (.string p.1, p.2) := by
  rw [readValue, skipBlank_cons (by decide)]
  rfl

theorem readValue_array {t : List Char} (h : (skipBlank t).head? ≠ some ']') (n : Nat) :
    readValue unitsOf (n + 1) ('[' :: t) =
      (readElements unitsOf n t).map fun p => (.array p.1, p.2) := by
  rw [readValue, skipBlank_cons (by decide)]
  exact if_neg h

theorem readValue_object {t : List Char} (h : (skipBlank t).head? ≠ some '}') (n : Nat) :
    readValue unitsOf (n + 1) ('{' :: t) =
      (readMembers unitsOf n t).map fun p => (.object p.1, p.2) := by
  rw [readValue, skipBlank_cons (by decide)]
  exact if_neg h

theorem readElements_last {n : Nat} {t r : List Char} {v : Json}
    (h : readValue unitsOf n t = some (v, ']' :: r)) :
    readElements unitsOf (n + 1) t = some ([v], r) := by
  rw [readElements, h, Option.bind_some, skipBlank_cons (by decide)]
  rfl

theorem readElements_more {n : Nat} {t r : List Char} {v : Json}
    (h : readValue unitsOf n t = some (v, ',' :: r)) :
    readElements unitsOf (n + 1) t =
      (readElements unitsOf n r).map fun p => (v :: p.1, p.2) := by
  rw [readElements, h, Option.bind_some, skipBlank_cons (by decide)]
  rfl

/-- What follows the value of a member. -/
def afterValue (n : Nat) (k : List Nat) (v : Json × List Char) :
    Option (List (List Nat × Json) × List Char) :=
  match skipBlank v.2 with
  | ',' :: r => (readMembers unitsOf n r).map fun p => ((k, v.1) :: p.1, p.2)
  | '}' :: r => some ([(k, v.1)], r)
  | _ => none

theorem afterValue_comma (n : Nat) (k : List Nat) (v : Json) (r : List Char) :
    afterValue unitsOf n k (v, ',' :: r) =
      (readMembers unitsOf n r).map fun p => ((k, v) :: p.1, p.2) := by
  rw [afterValue, skipBlank_cons (by decide)]
  rfl

theorem afterValue_brace (n : Nat) (k : List Nat) (v : Json) (r : List Char) :
    afterValue unitsOf n k (v, '}' :: r) = some ([(k, v)], r) := by
  rw [afterValue, skipBlank_cons (by decide)]
  rfl

/-- The member of a plain key. -/
theorem readMembers_memberText {m : List Char × List Char} (hm : Plain m.1) (n : Nat)
    (t : List Char) :
    readMembers unitsOf (n + 1) (memberText m ++ t) =
      (readValue unitsOf n (m.2 ++ t)).bind (afterValue unitsOf n (m.1.flatMap unitsOf)) := by
  have hkey := readBody_plain unitsOf hm (':' :: (m.2 ++ t))
  rw [memberText_append, readMembers, skipBlank_cons (by decide)]
  change (readBody unitsOf (m.1 ++ '"' :: ':' :: (m.2 ++ t))).bind _ = _
  rw [hkey, Option.bind_some, skipBlank_cons (by decide)]
  rfl

theorem readValue_quoted (n : Nat) (s t : List Char) :
    readValue unitsOf (n + 1) (quoted s ++ t) =
      (readBody unitsOf (s ++ '"' :: t)).map fun p => (.string p.1, p.2) := by
  rw [quoted_append, readValue_string]

theorem reads_quoted {s : List Char} (hs : Plain s) :
    Reads unitsOf (quoted s) (.string (s.flatMap unitsOf)) := by
  refine ⟨1, fun r => ?_⟩
  rw [readValue_quoted, readBody_plain unitsOf hs, Option.map_some]

/-- The strings of an array. -/
theorem readElements_elementsText {s : List Char} {ss : List (List Char)}
    (h : ∀ t ∈ s :: ss, Plain t) (r : List Char) :
    readElements unitsOf (ss.length + 2) (elementsText (s :: ss) ++ ']' :: r) =
      some ((s :: ss).map fun t => .string (t.flatMap unitsOf), r) := by
  have hs := h s List.mem_cons_self
  have hvalue (n : Nat) (t : List Char) : readValue unitsOf (n + 1) (quoted s ++ t) =
      some (.string (s.flatMap unitsOf), t) := by
    rw [readValue_quoted, readBody_plain unitsOf hs, Option.map_some]
  induction ss generalizing s with
  | nil => exact readElements_last unitsOf (hvalue 0 _)
  | cons s' ss ih =>
      have hs' : ∀ t ∈ s' :: ss, Plain t := fun t ht => h t (List.mem_cons_of_mem _ ht)
      have htail := ih hs' (hs' s' List.mem_cons_self) fun n t => by
        rw [readValue_quoted, readBody_plain unitsOf (hs' s' List.mem_cons_self), Option.map_some]
      rw [elementsText, List.append_assoc, List.cons_append,
        readElements_more unitsOf (hvalue _ _), List.length_cons, htail]
      rfl

theorem reads_arrayText {s : List Char} {ss : List (List Char)} (h : ∀ t ∈ s :: ss, Plain t) :
    Reads unitsOf (arrayText (s :: ss))
      (.array ((s :: ss).map fun t => .string (t.flatMap unitsOf))) := by
  refine ⟨ss.length + 3, fun r => ?_⟩
  have hhead : elementsText (s :: ss) ++ ']' :: r =
      '"' :: (elementsText (s :: ss) ++ ']' :: r).tail := by
    cases ss with
    | nil => rw [elementsText, quoted_append, List.tail_cons]
    | cons s' ss => rw [elementsText, List.append_assoc, quoted_append, List.tail_cons]
  have hopen : (skipBlank (elementsText (s :: ss) ++ ']' :: r)).head? ≠ some ']' := by
    rw [hhead, skipBlank_cons (by decide), List.head?_cons]
    decide
  rw [arrayText, List.cons_append, List.append_assoc, List.singleton_append,
    readValue_array unitsOf hopen, readElements_elementsText unitsOf h, Option.map_some]

/-- A member whose key is plain and whose value can be read. -/
structure ReadsMember (m : List Char × List Char) (kv : List Nat × Json) : Prop where
  plain : Plain m.1
  key : kv.1 = m.1.flatMap unitsOf
  value : Reads unitsOf m.2 kv.2

/-- **The first member of some members**: what its value is read as, and that the others are
read behind it, if nothing but a comma is left. -/
theorem readMembers_head {n : Nat} {m : List Char × List Char} (hm : Plain m.1)
    {t r : List Char} {l : List (List Nat × Json)}
    (h : readMembers unitsOf n (memberText m ++ t) = some (l, r)) :
    ∃ n' v q, readValue unitsOf n' (m.2 ++ t) = some (v, q) ∧
      l.head? = some (m.1.flatMap unitsOf, v) ∧
      ∀ t', q = ',' :: t' → ∃ l', l = (m.1.flatMap unitsOf, v) :: l' ∧
        readMembers unitsOf n' t' = some (l', r) := by
  cases n with
  | zero => cases h
  | succ n =>
      rw [readMembers_memberText unitsOf hm] at h
      obtain ⟨⟨v, q⟩, hv, h⟩ := Option.bind_eq_some_iff.mp h
      refine ⟨n, v, q, hv, ?_, fun t' ht' => ?_⟩
      · rw [afterValue] at h
        split at h
        · obtain ⟨p, -, heq⟩ := Option.map_eq_some_iff.mp h
          rw [← (Prod.mk.inj heq).1]
          rfl
        · rw [← (Prod.mk.inj (Option.some.inj h)).1]
          rfl
        · cases h
      · rw [ht', afterValue_comma] at h
        obtain ⟨p, hp, heq⟩ := Option.map_eq_some_iff.mp h
        obtain ⟨rfl, rfl⟩ := Prod.mk.inj heq
        exact ⟨p.1, rfl, hp⟩

/-- A first member that can be read. -/
theorem readMembers_of_reads {n : Nat} {m m' : List Char × List Char}
    {ms : List (List Char × List Char)} {kv : List Nat × Json} (hm : ReadsMember unitsOf m kv)
    {t r : List Char} {l : List (List Nat × Json)}
    (h : readMembers unitsOf n (membersText (m :: m' :: ms) ++ t) = some (l, r)) :
    ∃ n' l', l = kv :: l' ∧
      readMembers unitsOf n' (membersText (m' :: ms) ++ t) = some (l', r) := by
  rw [membersText, List.append_assoc, List.cons_append] at h
  obtain ⟨n', v, q, hv, -, hrest⟩ := readMembers_head unitsOf hm.plain h
  obtain ⟨k, hk⟩ := hm.value
  obtain ⟨rfl, rfl⟩ := Prod.mk.inj (readValue_unique unitsOf hv (hk _))
  obtain ⟨l', hl, hread⟩ := hrest _ rfl
  exact ⟨n', l', by rw [hl, ← hm.key], hread⟩

/-- Members that can be read are read. -/
theorem readMembers_membersText {m : List Char × List Char} {ms : List (List Char × List Char)}
    {l : List (List Nat × Json)} (h : List.Forall₂ (ReadsMember unitsOf) (m :: ms) l) :
    ∃ n, ∀ r, readMembers unitsOf n (membersText (m :: ms) ++ '}' :: r) = some (l, r) := by
  induction ms generalizing m l with
  | nil =>
      obtain ⟨kv, l', hm, hnil, rfl⟩ := List.forall₂_cons_left_iff.mp h
      obtain ⟨n, hn⟩ := hm.value
      refine ⟨n + 1, fun r => ?_⟩
      rw [membersText, readMembers_memberText unitsOf hm.plain, hn, Option.bind_some,
        afterValue_brace, List.forall₂_nil_left_iff.mp hnil, ← hm.key]
  | cons m' ms ih =>
      obtain ⟨kv, l', hm, htail, rfl⟩ := List.forall₂_cons_left_iff.mp h
      obtain ⟨n₁, hn₁⟩ := hm.value
      obtain ⟨n₂, hn₂⟩ := ih htail
      refine ⟨max n₁ n₂ + 1, fun r => ?_⟩
      rw [membersText, List.append_assoc, readMembers_memberText unitsOf hm.plain,
        readValue_mono unitsOf (Nat.le_max_left n₁ n₂) (hn₁ _), Option.bind_some,
        List.cons_append, afterValue_comma,
        readMembers_mono unitsOf (Nat.le_max_right n₁ n₂) (hn₂ r), Option.map_some, ← hm.key]

/-- The members of an object stand behind its brace. -/
theorem readValue_objectText (n : Nat) (m : List Char × List Char)
    (ms : List (List Char × List Char)) (t : List Char) :
    readValue unitsOf (n + 1) (objectText (m :: ms) ++ t) =
      (readMembers unitsOf n (membersText (m :: ms) ++ '}' :: t)).map
        fun p => (.object p.1, p.2) := by
  have hhead : membersText (m :: ms) ++ '}' :: t =
      '"' :: (membersText (m :: ms) ++ '}' :: t).tail := by
    cases ms with
    | nil => rw [membersText, memberText_append, List.tail_cons]
    | cons m' ms => rw [membersText, List.append_assoc, memberText_append, List.tail_cons]
  have hopen : (skipBlank (membersText (m :: ms) ++ '}' :: t)).head? ≠ some '}' := by
    rw [hhead, skipBlank_cons (by decide), List.head?_cons]
    decide
  rw [objectText, List.cons_append, List.append_assoc, List.singleton_append,
    readValue_object unitsOf hopen]

theorem reads_objectText {m : List Char × List Char} {ms : List (List Char × List Char)}
    {l : List (List Nat × Json)} (h : List.Forall₂ (ReadsMember unitsOf) (m :: ms) l) :
    Reads unitsOf (objectText (m :: ms)) (.object l) := by
  obtain ⟨n, hn⟩ := readMembers_membersText unitsOf h
  exact ⟨n + 1, fun r => by rw [readValue_objectText, hn, Option.map_some]⟩

theorem Reads.parses {t : List Char} {v : Json} (h : Reads unitsOf t v) : Parses unitsOf t v := by
  obtain ⟨n, hn⟩ := h
  have hread := hn []
  rw [List.append_nil] at hread
  exact ⟨n, [], hread, rfl⟩

end Values

/-! ## The members of an object -/

/-- There is one member of the key, and this is its value. -/
def Only (ms : List (List Nat × Json)) (k : List Nat) (v : Json) : Prop :=
  ms.filter (fun m => m.1 = k) = [(k, v)]

theorem only_cons_of_ne {kv : List Nat × Json} {k : List Nat} (h : kv.1 ≠ k)
    (ms : List (List Nat × Json)) (v : Json) : Only (kv :: ms) k v ↔ Only ms k v := by
  rw [Only, List.filter_cons_of_neg (by simpa using h), Only]

theorem only_append_of_ne {pre : List (List Nat × Json)} {k : List Nat}
    (h : ∀ m ∈ pre, m.1 ≠ k) (ms : List (List Nat × Json)) (v : Json) :
    Only (pre ++ ms) k v ↔ Only ms k v := by
  induction pre with
  | nil => exact Iff.rfl
  | cons m pre ih =>
      obtain ⟨hm, hpre⟩ := List.forall_mem_cons.mp h
      rw [List.cons_append, only_cons_of_ne hm, ih hpre]

/-- The first member of the key is the one. -/
theorem Only.eq_of_head {ms : List (List Nat × Json)} {k : List Nat} {v w : Json}
    (h : Only ms k v) (hhead : ms.head? = some (k, w)) : w = v := by
  cases ms with
  | nil => cases hhead
  | cons m ms =>
      obtain rfl := Option.some.inj hhead
      rw [Only, List.filter_cons_of_pos (by simp)] at h
      exact (Prod.mk.inj (List.cons.inj h).1).2

theorem only_cons_self (k : List Nat) (v : Json) {ms : List (List Nat × Json)}
    (h : ∀ m ∈ ms, m.1 ≠ k) : Only ((k, v) :: ms) k v := by
  have hrest : ms.filter (fun m => m.1 = k) = [] := by
    rw [List.filter_eq_nil_iff]
    intro m hm
    simpa using h m hm
  rw [Only, List.filter_cons_of_pos (by simp), hrest]

/-! ## Raw text in an object -/

section RawMembers

variable {unitsOf : Char → List Nat}

/-- Members that can be read, in front of others. -/
theorem readMembers_append {pre : List (List Char × List Char)} {l₀ : List (List Nat × Json)}
    (hpre : List.Forall₂ (ReadsMember unitsOf) pre l₀) {n : Nat} {m : List Char × List Char}
    {ms : List (List Char × List Char)} {t r : List Char} {l : List (List Nat × Json)}
    (h : readMembers unitsOf n (membersText (pre ++ m :: ms) ++ t) = some (l, r)) :
    ∃ n' l', l = l₀ ++ l' ∧ readMembers unitsOf n' (membersText (m :: ms) ++ t) = some (l', r) := by
  induction hpre generalizing n l with
  | nil => exact ⟨n, l, rfl, h⟩
  | @cons m₁ kv pre l₀ hm _ ih =>
      obtain ⟨m', ms', hnext⟩ : ∃ m' ms', pre ++ m :: ms = m' :: ms' := by
        cases pre with
        | nil => exact ⟨m, ms, rfl⟩
        | cons m' pre => exact ⟨m', pre ++ m :: ms, rfl⟩
      rw [List.cons_append, hnext] at h
      obtain ⟨n', l', rfl, hrest⟩ := readMembers_of_reads unitsOf hm h
      rw [← hnext] at hrest
      obtain ⟨n'', l'', rfl, hread⟩ := ih hrest
      exact ⟨n'', l'', rfl, hread⟩

/-- **A raw string that is the only value of its key, and read as itself, is plain.** -/
theorem plain_of_only (hunits : ∀ c, unitsOf c ≠ []) (hcomma : unitsOf ',' = [44])
    (hslash : unitsOf '\\' = [92]) {n : Nat} {k s : List Char} (hk : Plain k)
    {m : List Char × List Char} {ms : List (List Char × List Char)} {t r : List Char}
    {l : List (List Nat × Json)}
    (h : readMembers unitsOf n (membersText ((k, quoted s) :: m :: ms) ++ t) = some (l, r))
    (honly : Only l (k.flatMap unitsOf) (.string (s.flatMap unitsOf))) : Plain s := by
  obtain ⟨t', ht'⟩ : ∃ t', membersText (m :: ms) ++ t = '"' :: t' := by
    cases ms with
    | nil => exact ⟨_, memberText_append m t⟩
    | cons m' ms =>
        rw [membersText, List.append_assoc]
        exact ⟨_, memberText_append m _⟩
  rw [membersText, List.append_assoc, List.cons_append, ht'] at h
  obtain ⟨n', v, q, hv, hhead, -⟩ := @readMembers_head unitsOf n (k, quoted s) hk _ r l h
  cases n' with
  | zero => cases hv
  | succ n' =>
      rw [readValue_quoted] at hv
      obtain ⟨p, hp, heq⟩ := Option.map_eq_some_iff.mp hv
      have hvalue := honly.eq_of_head hhead
      rw [← (Prod.mk.inj heq).1, Json.string.injEq] at hvalue
      exact plain_of_readBody hunits hcomma hslash (hp.trans (by rw [← hvalue]))

end RawMembers

end JsonText
