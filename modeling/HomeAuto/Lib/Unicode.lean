import Mathlib.Data.List.Basic

/-!
# Reading UTF-8 and UTF-16

The decoders of a browser.  Bytes are read as UTF-8, and what begins a character but does not
become one is read as U+FFFD; units of 16 bits are read as characters only if no half of a pair
stands alone.
-/

namespace Unicode

/-! ## UTF-8 -/

/-- U+FFFD. -/
def replacement : Char := Char.ofNat 0xFFFD

/-- A character that has begun: its value so far, how many bytes are missing, and the bounds of
the next one. -/
structure Pending where
  value : Nat
  missing : Nat
  low : Nat
  high : Nat

/-- What a byte is that stands first. -/
inductive Lead
  | char (c : Char)
  | begins (p : Pending)
  | bad

def lead (b : UInt8) : Lead :=
  let n := b.toNat
  if n < 0x80 then .char (Char.ofNat n)
  else if 0xC2 ≤ n ∧ n ≤ 0xDF then .begins ⟨n - 0xC0, 1, 0x80, 0xBF⟩
  else if 0xE0 ≤ n ∧ n ≤ 0xEF then
    .begins ⟨n - 0xE0, 2, if n = 0xE0 then 0xA0 else 0x80, if n = 0xED then 0x9F else 0xBF⟩
  else if 0xF0 ≤ n ∧ n ≤ 0xF4 then
    .begins ⟨n - 0xF0, 3, if n = 0xF0 then 0x90 else 0x80, if n = 0xF4 then 0x8F else 0xBF⟩
  else .bad

/-- Decoding, in the middle of a character or between two. -/
def decodeFrom : Option Pending → List UInt8 → List Char
  | none, [] => []
  | some _, [] => [replacement]
  | none, b :: bs =>
      match lead b with
      | .char c => c :: decodeFrom none bs
      | .begins p => decodeFrom (some p) bs
      | .bad => replacement :: decodeFrom none bs
  | some p, b :: bs =>
      if p.low ≤ b.toNat ∧ b.toNat ≤ p.high then
        if p.missing = 1 then Char.ofNat (p.value * 64 + (b.toNat - 0x80)) :: decodeFrom none bs
        else decodeFrom
          (some ⟨p.value * 64 + (b.toNat - 0x80), p.missing - 1, 0x80, 0xBF⟩) bs
      else
        -- the character ends unfinished, and the byte is one that stands first
        replacement :: match lead b with
          | .char c => c :: decodeFrom none bs
          | .begins p => decodeFrom (some p) bs
          | .bad => replacement :: decodeFrom none bs

def decodeUtf8 (bs : List UInt8) : List Char := decodeFrom none bs

example : decodeUtf8 [0x4B, 0xC3, 0xBC, 0xE2, 0x82, 0x20] =
    ['K', Char.ofNat 0xFC, replacement, ' '] := by decide

@[simp] theorem decodeUtf8_nil : decodeUtf8 [] = [] := rfl

/-- A byte of ASCII is a character. -/
theorem decodeUtf8_cons_ascii {b : UInt8} (hb : b.toNat < 0x80) (bs : List UInt8) :
    decodeUtf8 (b :: bs) = Char.ofNat b.toNat :: decodeUtf8 bs := by
  have hlead : lead b = .char (Char.ofNat b.toNat) := if_pos hb
  rw [decodeUtf8, decodeFrom, hlead]
  rfl

section Encoded

variable {p : Pending} {b : UInt8} {n : Nat} (bs : List UInt8)

theorem decodeFrom_last (hlow : p.low ≤ b.toNat) (hhigh : b.toNat ≤ p.high) (hone : p.missing = 1) :
    decodeFrom (some p) (b :: bs) =
      Char.ofNat (p.value * 64 + (b.toNat - 0x80)) :: decodeUtf8 bs := by
  rw [decodeFrom, if_pos ⟨hlow, hhigh⟩, if_pos hone]
  rfl

theorem decodeFrom_more (hlow : p.low ≤ b.toNat) (hhigh : b.toNat ≤ p.high)
    (hmore : p.missing ≠ 1) :
    decodeFrom (some p) (b :: bs) =
      decodeFrom (some ⟨p.value * 64 + (b.toNat - 0x80), p.missing - 1, 0x80, 0xBF⟩) bs := by
  rw [decodeFrom, if_pos ⟨hlow, hhigh⟩, if_neg hmore]

theorem decodeUtf8_begins (h : lead b = .begins p) :
    decodeUtf8 (b :: bs) = decodeFrom (some p) bs := by
  rw [decodeUtf8, decodeFrom, h]

theorem toNat_byte (hn : n < 256) : (UInt8.ofNat n).toNat = n := by
  rw [UInt8.toNat_ofNat']
  omega

theorem lead_two (hb : b.toNat = n) (h : 0xC2 ≤ n ∧ n ≤ 0xDF) :
    lead b = .begins ⟨n - 0xC0, 1, 0x80, 0xBF⟩ := by
  rw [lead, hb, if_neg (by omega), if_pos h]

theorem lead_three (hb : b.toNat = n) (h : 0xE0 ≤ n ∧ n ≤ 0xEF) :
    lead b = .begins ⟨n - 0xE0, 2, if n = 0xE0 then 0xA0 else 0x80,
      if n = 0xED then 0x9F else 0xBF⟩ := by
  rw [lead, hb, if_neg (by omega), if_neg (by omega), if_pos h]

theorem lead_four (hb : b.toNat = n) (h : 0xF0 ≤ n ∧ n ≤ 0xF4) :
    lead b = .begins ⟨n - 0xF0, 3, if n = 0xF0 then 0x90 else 0x80,
      if n = 0xF4 then 0x8F else 0xBF⟩ := by
  rw [lead, hb, if_neg (by omega), if_neg (by omega), if_neg (by omega), if_pos h]

/-- **What was encoded is decoded**, whatever comes behind it. -/
theorem decodeUtf8_encodeChar (c : Char) :
    decodeUtf8 (String.utf8EncodeChar c ++ bs) = c :: decodeUtf8 bs := by
  have hvalue : c.val.toNat = c.toNat := rfl
  have hvalid : c.toNat < 0xD800 ∨ (0xDFFF < c.toNat ∧ c.toNat < 0x110000) := c.valid
  have hback : Char.ofNat c.toNat = c := Char.ofNat_toNat c
  generalize hn : c.toNat = n at hvalue hvalid hback
  unfold String.utf8EncodeChar
  rw [hvalue]
  dsimp only
  split_ifs with h₁ h₂ h₃
  · have hb : (UInt8.ofNat n).toNat = n := toNat_byte (by omega)
    rw [List.singleton_append, decodeUtf8_cons_ascii (by omega), hb, hback]
  · have ha : (UInt8.ofNat (n / 64 % 0x20 + 0xC0)).toNat = n / 64 + 0xC0 :=
      (toNat_byte (by omega)).trans (by omega)
    have hb : (UInt8.ofNat (n % 0x40 + 0x80)).toNat = n % 64 + 0x80 := toNat_byte (by omega)
    have hsum : (n / 64 + 0xC0 - 0xC0) * 64 + (n % 64 + 0x80 - 0x80) = n := by omega
    rw [List.cons_append, List.cons_append, List.nil_append,
      decodeUtf8_begins _ (lead_two ha (by omega)),
      decodeFrom_last _ (by dsimp only; omega) (by dsimp only; omega) rfl]
    dsimp only
    rw [hb, hsum, hback]
  · have ha : (UInt8.ofNat (n / 4096 % 0x10 + 0xE0)).toNat = n / 4096 + 0xE0 :=
      (toNat_byte (by omega)).trans (by omega)
    have hb : (UInt8.ofNat (n / 64 % 0x40 + 0x80)).toNat = n / 64 % 64 + 0x80 :=
      toNat_byte (by omega)
    have hc : (UInt8.ofNat (n % 0x40 + 0x80)).toNat = n % 64 + 0x80 := toNat_byte (by omega)
    have hsum : ((n / 4096 + 0xE0 - 0xE0) * 64 + (n / 64 % 64 + 0x80 - 0x80)) * 64 +
        (n % 64 + 0x80 - 0x80) = n := by omega
    rw [List.cons_append, List.cons_append, List.cons_append, List.nil_append,
      decodeUtf8_begins _ (lead_three ha (by omega)),
      decodeFrom_more _ (by dsimp only; split <;> omega) (by dsimp only; split <;> omega)
        (Nat.succ_ne_self 1),
      decodeFrom_last _ (by dsimp only; omega) (by dsimp only; omega) rfl]
    dsimp only
    rw [hb, hc, hsum, hback]
  · have ha : (UInt8.ofNat (n / 262144 % 0x08 + 0xF0)).toNat = n / 262144 + 0xF0 :=
      (toNat_byte (by omega)).trans (by omega)
    have hb : (UInt8.ofNat (n / 4096 % 0x40 + 0x80)).toNat = n / 4096 % 64 + 0x80 :=
      toNat_byte (by omega)
    have hc : (UInt8.ofNat (n / 64 % 0x40 + 0x80)).toNat = n / 64 % 64 + 0x80 :=
      toNat_byte (by omega)
    have hd : (UInt8.ofNat (n % 0x40 + 0x80)).toNat = n % 64 + 0x80 := toNat_byte (by omega)
    have hsum : (((n / 262144 + 0xF0 - 0xF0) * 64 + (n / 4096 % 64 + 0x80 - 0x80)) * 64 +
        (n / 64 % 64 + 0x80 - 0x80)) * 64 + (n % 64 + 0x80 - 0x80) = n := by omega
    rw [List.cons_append, List.cons_append, List.cons_append, List.cons_append, List.nil_append,
      decodeUtf8_begins _ (lead_four ha (by omega)),
      decodeFrom_more _ (by dsimp only; split <;> omega) (by dsimp only; split <;> omega)
        (Nat.succ_succ_ne_one 1),
      decodeFrom_more _ (by dsimp only; omega) (by dsimp only; omega) (Nat.succ_ne_self 1),
      decodeFrom_last _ (by dsimp only; omega) (by dsimp only; omega) rfl]
    dsimp only
    rw [hb, hc, hd, hsum, hback]

theorem decodeUtf8_encode (t : List Char) :
    decodeUtf8 (t.flatMap String.utf8EncodeChar ++ bs) = t ++ decodeUtf8 bs := by
  induction t with
  | nil => rfl
  | cons c t ih =>
      rw [List.flatMap_cons, List.append_assoc, decodeUtf8_encodeChar, ih]
      rfl

end Encoded

/-! ## UTF-16 -/

/-- The units of a character. -/
def utf16 (c : Char) : List Nat :=
  if c.toNat < 0x10000 then [c.toNat]
  else [0xD800 + ((c.toNat - 0x10000) >>> 10), 0xDC00 + ((c.toNat - 0x10000) &&& 0x3FF)]

/-- A unit that is a character by itself. -/
def IsScalar (u : Nat) : Prop := u < 0xD800 ∨ (0xDFFF < u ∧ u < 0x10000)

instance (u : Nat) : Decidable (IsScalar u) := inferInstanceAs (Decidable (_ ∨ _))

/-- Two units that are one character. -/
def IsPair (u v : Nat) : Prop := (0xD800 ≤ u ∧ u < 0xDC00) ∧ 0xDC00 ≤ v ∧ v < 0xE000

instance (u v : Nat) : Decidable (IsPair u v) := inferInstanceAs (Decidable (_ ∧ _))

/-- The characters of units, if no half of a pair stands alone. -/
def fromUtf16 : List Nat → Option (List Char)
  | [] => some []
  | [u] => if IsScalar u then some [Char.ofNat u] else none
  | u :: v :: us =>
      if IsScalar u then (fromUtf16 (v :: us)).map (Char.ofNat u :: ·)
      else if IsPair u v then
        (fromUtf16 us).map (Char.ofNat (0x10000 + (u - 0xD800) * 1024 + (v - 0xDC00)) :: ·)
      else none

example : fromUtf16 [0x41, 0xD83D, 0xDE00] = some ['A', Char.ofNat 0x1F600] := by decide
example : fromUtf16 [0x41, 0xD83D] = none := by decide

theorem fromUtf16_scalar {u : Nat} (hu : IsScalar u) (us : List Nat) :
    fromUtf16 (u :: us) = (fromUtf16 us).map (Char.ofNat u :: ·) := by
  cases us with
  | nil => exact if_pos hu
  | cons v us => exact if_pos hu

theorem fromUtf16_pair {u v : Nat} (h : IsPair u v) (us : List Nat) :
    fromUtf16 (u :: v :: us) =
      (fromUtf16 us).map (Char.ofNat (0x10000 + (u - 0xD800) * 1024 + (v - 0xDC00)) :: ·) := by
  have hu : ¬IsScalar u := by
    unfold IsPair at h
    unfold IsScalar
    omega
  rw [fromUtf16, if_neg hu, if_pos h]

/-- A character beyond `0x10000` is a pair. -/
theorem utf16_of_le {c : Char} (h : 0x10000 ≤ c.toNat) : ∃ u v, utf16 c = [u, v] ∧ IsPair u v ∧
    0x10000 + (u - 0xD800) * 1024 + (v - 0xDC00) = c.toNat := by
  have hvalid : c.toNat < 0xD800 ∨ (0xDFFF < c.toNat ∧ c.toNat < 0x110000) := c.valid
  have hdiv : (c.toNat - 0x10000) >>> 10 = (c.toNat - 0x10000) / 1024 :=
    Nat.shiftRight_eq_div_pow _ 10
  have hmod : (c.toNat - 0x10000) &&& 0x3FF = (c.toNat - 0x10000) % 1024 :=
    Nat.and_two_pow_sub_one_eq_mod _ 10
  refine ⟨_, _, if_neg (Nat.not_lt.mpr h), ?_, ?_⟩
  · rw [hdiv, hmod]
    unfold IsPair
    omega
  · rw [hdiv, hmod]
    omega

/-- **The units of a text are read as the text.** -/
theorem fromUtf16_utf16 (t : List Char) : fromUtf16 (t.flatMap utf16) = some t := by
  induction t with
  | nil => rfl
  | cons c t ih =>
      have hback : Char.ofNat c.toNat = c := Char.ofNat_toNat c
      rw [List.flatMap_cons]
      by_cases hc : c.toNat < 0x10000
      · have hscalar : IsScalar c.toNat := by
          have hvalid : c.toNat < 0xD800 ∨ (0xDFFF < c.toNat ∧ c.toNat < 0x110000) := c.valid
          unfold IsScalar
          omega
        rw [utf16, if_pos hc, List.singleton_append, fromUtf16_scalar hscalar, ih, hback]
        rfl
      · obtain ⟨u, v, hunits, hpair, hvalue⟩ := utf16_of_le (Nat.not_lt.mp hc)
        rw [hunits, List.cons_append, List.singleton_append, fromUtf16_pair hpair, ih, hvalue,
          hback]
        rfl

theorem toNat_ofNat {n : Nat} (h : n.isValidChar) : (Char.ofNat n).toNat = n := by
  rw [Char.ofNat, dif_pos h]
  rfl

/-- A character that is read has the units it was read from. -/
theorem utf16_ofNat {u : Nat} (h : IsScalar u) : utf16 (Char.ofNat u) = [u] := by
  have hvalid : u.isValidChar := h.imp_right fun hu => ⟨hu.1, by omega⟩
  have hnat : (Char.ofNat u).toNat = u := toNat_ofNat hvalid
  have hlt : u < 0x10000 := by
    unfold IsScalar at h
    omega
  rw [utf16, hnat, if_pos hlt]

theorem utf16_of_isPair {u v : Nat} (h : IsPair u v) :
    utf16 (Char.ofNat (0x10000 + (u - 0xD800) * 1024 + (v - 0xDC00))) = [u, v] := by
  obtain ⟨⟨hlow, hhigh⟩, hlow', hhigh'⟩ := h
  have hvalid : (0x10000 + (u - 0xD800) * 1024 + (v - 0xDC00)).isValidChar :=
    .inr ⟨by omega, by omega⟩
  have hnat := toNat_ofNat hvalid
  generalize Char.ofNat (0x10000 + (u - 0xD800) * 1024 + (v - 0xDC00)) = c at hnat
  obtain ⟨a, b, hunits, ⟨⟨ha, _⟩, hb, _⟩, hvalue⟩ := utf16_of_le (c := c) (by omega)
  have hau : a = u := by omega
  have hbv : b = v := by omega
  rw [hunits, hau, hbv]

/-- **What is read has the units it was read from.** -/
theorem flatMap_fromUtf16 {us : List Nat} {t : List Char} (h : fromUtf16 us = some t) :
    t.flatMap utf16 = us := by
  induction us using fromUtf16.induct generalizing t with
  | case1 =>
      cases h
      rfl
  | case2 u hu =>
      rw [fromUtf16, if_pos hu] at h
      cases h
      rw [List.flatMap_singleton, utf16_ofNat hu]
  | case3 u hu =>
      rw [fromUtf16, if_neg hu] at h
      cases h
  | case4 u v us hu ih =>
      rw [fromUtf16_scalar hu] at h
      obtain ⟨t', ht, rfl⟩ := Option.map_eq_some_iff.mp h
      rw [List.flatMap_cons, utf16_ofNat hu, ih ht]
      rfl
  | case5 u v us _ hpair ih =>
      rw [fromUtf16_pair hpair] at h
      obtain ⟨t', ht, rfl⟩ := Option.map_eq_some_iff.mp h
      rw [List.flatMap_cons, utf16_of_isPair hpair, ih ht]
      rfl
  | case6 u v us hu hpair =>
      rw [fromUtf16, if_neg hu, if_neg hpair] at h
      cases h

/-- A text has no more units than bytes. -/
theorem length_utf16_le (c : Char) : (utf16 c).length ≤ (String.utf8EncodeChar c).length := by
  have hpos := c.utf8Size_pos
  rw [String.length_utf8EncodeChar]
  by_cases hc : c.toNat < 0x10000
  · rw [utf16, if_pos hc]
    exact hpos
  · rw [utf16, if_neg hc]
    have hval : c.val.toNat = c.toNat := rfl
    unfold Char.utf8Size
    simp only [UInt32.le_iff_toNat_le, hval]
    split_ifs <;> simp_all
    omega

end Unicode
