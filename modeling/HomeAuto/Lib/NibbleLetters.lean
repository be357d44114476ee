import Mathlib.Data.List.Basic
import Mathlib.Data.UInt
import Mathlib.Tactic.IntervalCases

/-!
# Bytes as pairs of letters

A byte is written as two of sixteen letters, one for each nibble.  A reader that takes the
letters apart by arithmetic alone takes every character for some letter, `toLetter`: what it
reads is what the letters it saw stand for (`encode_decode`).
-/

namespace NibbleLetters

variable (a : UInt8)

/-- The letter of a low nibble; `a` is the first letter. -/
def letter (n : UInt8) : UInt8 := a + (n &&& 15)

/-- The letters of some bytes. -/
def encode (bs : List UInt8) : List UInt8 :=
  bs.flatMap fun b : UInt8 => [letter a (b >>> 4), letter a b]

/-- Two characters, read by arithmetic. -/
def decodePair (hi lo : UInt8) : UInt8 := ((hi - a) <<< 4) ||| ((lo - a) &&& 15)

/-- Characters, read in pairs. -/
def decode : List UInt8 → List UInt8
  | hi :: lo :: cs => decodePair a hi lo :: decode cs
  | [_] => []
  | [] => []

/-- The letter that a character is taken for. -/
def toLetter (c : UInt8) : UInt8 := letter a (c - a)

/-! ## Nibbles -/

@[simp] theorem nibble_nibble (x : UInt8) : x &&& 15 &&& 15 = x &&& 15 := by
  rw [UInt8.and_assoc, UInt8.and_self]

theorem high_nibble (x y : UInt8) : ((x <<< 4 ||| y &&& 15) >>> 4) &&& 15 = x &&& 15 := by
  rw [← UInt8.toBitVec_inj]
  ext i hi
  interval_cases i <;> simp

theorem low_nibble (x y : UInt8) : (x <<< 4 ||| y &&& 15) &&& 15 = y &&& 15 := by
  rw [← UInt8.toBitVec_inj]
  ext i hi
  interval_cases i <;> simp

theorem join_nibbles (b : UInt8) : ((b >>> 4 &&& 15) <<< 4) ||| (b &&& 15) = b := by
  rw [← UInt8.toBitVec_inj]
  ext i hi
  interval_cases i <;> simp

/-- A character is taken for itself exactly if it is one of the sixteen letters. -/
theorem toLetter_eq_self_iff (c : UInt8) : toLetter a c = c ↔ c - a < 16 := by
  have hmask (x : UInt8) : x &&& 15 = x ↔ x < 16 := by
    have hmod : x.toNat &&& 15 = x.toNat % 16 := Nat.and_two_pow_sub_one_eq_mod x.toNat 4
    rw [← UInt8.toNat_inj, UInt8.toNat_and, UInt8.lt_iff_toNat_lt]
    change x.toNat &&& 15 = x.toNat ↔ x.toNat < 16
    omega
  rw [toLetter, letter, ← hmask]
  constructor
  · intro h
    rw [← h]
    simp
  · intro h
    rw [h]
    simp

/-! ## Words -/

variable {a}

/-- What is read by arithmetic is what the letters stand for. -/
theorem encode_decode {cs : List UInt8} (h : 2 ∣ cs.length) :
    encode a (decode a cs) = cs.map (toLetter a) := by
  induction cs using decode.induct with
  | case1 hi lo cs ih =>
      have htail : 2 ∣ cs.length := by
        simp only [List.length_cons] at h
        omega
      rw [decode, encode, List.flatMap_cons, ← encode, ih htail]
      simp [letter, toLetter, decodePair, high_nibble, low_nibble]
  | case2 c => simp at h
  | case3 => simp [encode, decode]

theorem decode_encode (bs : List UInt8) : decode a (encode a bs) = bs := by
  induction bs with
  | nil => simp [encode, decode]
  | cons b bs ih =>
      rw [encode, List.flatMap_cons, ← encode, List.cons_append, List.cons_append,
        List.nil_append, decode, ih]
      simp [decodePair, letter, join_nibbles]

theorem encode_injective {bs bs' : List UInt8} (h : encode a bs = encode a bs') : bs = bs' := by
  have hdecoded := congrArg (decode a) h
  rwa [decode_encode, decode_encode] at hdecoded

/-- What is written are letters. -/
theorem toLetter_of_mem_encode {bs : List UInt8} {c : UInt8} (h : c ∈ encode a bs) :
    toLetter a c = c := by
  have hletter (n : UInt8) : toLetter a (letter a n) = letter a n := by
    simp [toLetter, letter]
  obtain ⟨b, -, hc⟩ := List.mem_flatMap.mp h
  rcases List.mem_cons.mp hc with rfl | hc
  · exact hletter _
  · rw [List.mem_singleton.mp hc]
    exact hletter b

theorem length_decode {cs : List UInt8} {n : Nat} (h : cs.length = 2 * n) :
    (decode a cs).length = n := by
  induction cs using decode.induct generalizing n with
  | case1 hi lo cs ih =>
      simp only [List.length_cons] at h
      rw [decode, List.length_cons, @ih (n - 1) (by omega)]
      omega
  | case2 c =>
      simp only [List.length_cons, List.length_nil] at h
      omega
  | case3 =>
      simp only [List.length_nil] at h
      simp only [decode, List.length_nil]
      omega

end NibbleLetters
