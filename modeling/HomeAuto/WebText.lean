import HomeAuto.Lib.Delimited
import HomeAuto.HaPublish
import HomeAuto.MqttDispatch
import HomeAuto.OutputRecord
import Mathlib.Data.List.DropRight

/-!
# Text in requests and tags (`product_web.c`, the settings pages)

Decimal numbers and names as the web handlers read and print them, and as the scripts of
the pages read them.
-/

namespace HomeAuto

/-! ## Numbers -/

/-- `while(*p >= '0' && *p <= '9') { v = v * 10u + (*p - '0'); p++; }`: the value and what
is left of the text. -/
def scanU32 (v : BitVec 32) : CStr → BitVec 32 × CStr
  | [] => (v, [])
  | c :: p =>
      if isDecDigit c then scanU32 (v * 10#32 + BitVec.ofNat 32 (decDigit c)) p else (v, c :: p)

/-- `if(*p == c) { p++; } else { break; }`. -/
def skipByte (c : UInt8) : CStr → Option CStr
  | [] => none
  | d :: p => if d = c then some p else none

/-- `parseInt` of the page scripts, on the texts that the tags insert: no blank, no sign
and no radix prefix in front.  `none` is `NaN`. -/
def parseInt (s : CStr) : Option Nat :=
  if s.takeWhile isDecDigit = [] then none else some (numeralValue (s.takeWhile isDecDigit))

theorem scanU32_append {ds rest : CStr} (hds : ∀ c ∈ ds, isDecDigit c = true)
    (hrest : rest.takeWhile isDecDigit = []) (v : BitVec 32) :
    scanU32 v (ds ++ rest) =
      (ds.foldl (fun n c => n * 10#32 + BitVec.ofNat 32 (decDigit c)) v, rest) := by
  induction ds generalizing v with
  | nil =>
      cases rest with
      | nil => rfl
      | cons c rest =>
          have hc : ¬isDecDigit c = true := by
            intro hc
            rw [List.takeWhile_cons_of_pos hc] at hrest
            cases hrest
          rw [List.nil_append, scanU32, if_neg hc]
          rfl
  | cons d ds ih =>
      rw [List.cons_append, scanU32, if_pos (hds d List.mem_cons_self),
        ih fun c hc => hds c (List.mem_cons_of_mem _ hc)]
      rfl

/-- The digit loop reads a numeral modulo `2 ^ 32`. -/
theorem scanU32_numeral {ds rest : CStr} (hds : IsNumeral ds)
    (hrest : rest.takeWhile isDecDigit = []) :
    scanU32 0#32 (ds ++ rest) = (BitVec.ofNat 32 (numeralValue ds), rest) := by
  rw [scanU32_append hds.2 hrest]
  exact congrArg (Prod.mk · rest) (digitLoop_eq ds 0)

/-- The digit loop leaves no more text than it found. -/
theorem length_scanU32_le (v : BitVec 32) (p : CStr) : (scanU32 v p).2.length ≤ p.length := by
  induction p generalizing v with
  | nil => exact Nat.le_refl 0
  | cons c p ih =>
      rw [scanU32]
      split
      · exact Nat.le_succ_of_le (ih _)
      · exact Nat.le_refl _

theorem length_of_skipByte {c : UInt8} {p q : CStr} (h : skipByte c p = some q) :
    q.length < p.length := by
  cases p with
  | nil => cases h
  | cons d p =>
      rw [skipByte] at h
      split at h
      · cases h
        exact Nat.lt_succ_self _
      · cases h

theorem isDecDigit_ascii {c : Char} (hc : c.isDigit = true) :
    isDecDigit (UInt8.ofNat c.toNat) = true ∧ decDigit (UInt8.ofNat c.toNat) = c.toNat - 48 := by
  rw [Char.isDigit_iff_toNat, show '0'.toNat = 48 from rfl, show '9'.toNat = 57 from rfl] at hc
  have hval : (UInt8.ofNat c.toNat).toNat = c.toNat := by
    rw [UInt8.toNat_ofNat']
    omega
  unfold isDecDigit decDigit
  rw [hval, Bool.and_eq_true, decide_eq_true_eq, decide_eq_true_eq, UInt8.le_iff_toNat_le,
    UInt8.le_iff_toNat_le, hval]
  exact ⟨hc, rfl⟩

theorem fmtDecimal_eq (n : Nat) :
    fmtDecimal n = (Nat.toDigits 10 n).map fun c => UInt8.ofNat c.toNat := by
  unfold fmtDecimal ascii
  rw [show toString n = n.repr from rfl, Nat.toList_repr]

/-- A printed number is a numeral. -/
theorem isNumeral_fmtDecimal (n : Nat) : IsNumeral (fmtDecimal n) := by
  rw [fmtDecimal_eq]
  refine ⟨?_, fun c hc => ?_⟩
  · rw [Ne, List.map_eq_nil_iff]
    exact Nat.toDigits_ne_nil
  · obtain ⟨d, hd, rfl⟩ := List.mem_map.mp hc
    exact (isDecDigit_ascii (Nat.isDigit_of_mem_toDigits (by decide) (by decide) hd)).1

theorem numeralValue_ascii {ds : List Char} (h : ∀ c ∈ ds, c.isDigit = true) (a : Nat) :
    (ds.map fun c => UInt8.ofNat c.toNat).foldl (fun n c => n * 10 + decDigit c) a =
      Nat.ofDigitChars 10 ds a := by
  induction ds generalizing a with
  | nil => rfl
  | cons d ds ih =>
      rw [List.map_cons, List.foldl_cons, ih fun c hc => h c (List.mem_cons_of_mem _ hc),
        Nat.ofDigitChars_cons, (isDecDigit_ascii (h d List.mem_cons_self)).2, Nat.mul_comm]
      rfl

/-- A printed number has its own value. -/
theorem numeralValue_fmtDecimal (n : Nat) : numeralValue (fmtDecimal n) = n := by
  rw [fmtDecimal_eq, numeralValue, numeralValue_ascii, Nat.ofDigitChars_ten_toDigits]
  exact fun c hc => Nat.isDigit_of_mem_toDigits (by decide) (by decide) hc

theorem length_fmtDecimal_le {n k : Nat} (hk : 0 < k) (hn : n < 10 ^ k) :
    (fmtDecimal n).length ≤ k := by
  rw [fmtDecimal_eq, List.length_map]
  exact (Nat.length_toDigits_le_iff (by decide) hk).mpr hn

/-- What stands in a printed number is a digit. -/
theorem not_mem_fmtDecimal {c : UInt8} (hc : isDecDigit c = false) (n : Nat) :
    c ∉ fmtDecimal n := by
  intro hmem
  rw [(isNumeral_fmtDecimal n).2 c hmem] at hc
  cases hc

/-- The digit loop reads back a printed number. -/
theorem scanU32_fmtDecimal {n : Nat} {rest : CStr} (hrest : rest.takeWhile isDecDigit = []) :
    scanU32 0#32 (fmtDecimal n ++ rest) = (BitVec.ofNat 32 n, rest) := by
  rw [scanU32_numeral (isNumeral_fmtDecimal n) hrest, numeralValue_fmtDecimal]

/-- The page reads back a printed number. -/
theorem parseInt_fmtDecimal (n : Nat) : parseInt (fmtDecimal n) = some n := by
  have hnil : ([] : CStr).takeWhile isDecDigit = [] := rfl
  have htake := (isNumeral_fmtDecimal n).takeWhile_append hnil
  rw [List.append_nil] at htake
  unfold parseInt
  rw [htake.1, if_neg (isNumeral_fmtDecimal n).1, numeralValue_fmtDecimal]

/-- A conversion that reads printed numbers back, as `strtoul` does. -/
def ReadsDecimals (palStrToUl : StrToUl) : Prop :=
  ∀ n, n < 2 ^ 32 → palStrToUl (fmtDecimal n) 10 = BitVec.ofNat 32 n

theorem ulDigit_of_isDecDigit {c : UInt8} (hc : isDecDigit c = true) :
    ulDigit c = some (decDigit c) ∧ decDigit c < 10 := by
  rw [isDecDigit, Bool.and_eq_true, decide_eq_true_eq, decide_eq_true_eq] at hc
  refine ⟨if_pos hc, ?_⟩
  rw [UInt8.le_iff_toNat_le, UInt8.le_iff_toNat_le] at hc
  have hle : c.toNat ≤ 57 := hc.2
  unfold decDigit
  omega

theorem ustrtoulLoop_numeral {ds : CStr} (hds : ∀ c ∈ ds, isDecDigit c = true)
    (v : BitVec 32) : ustrtoulLoop 10 v ds =
      ds.foldl (fun n c => n * 10#32 + BitVec.ofNat 32 (decDigit c)) v := by
  induction ds generalizing v with
  | nil => rfl
  | cons c ds ih =>
      obtain ⟨hdigit, hlt⟩ := ulDigit_of_isDecDigit (hds c List.mem_cons_self)
      have hle : ¬10 ≤ decDigit c := by omega
      rw [List.foldl_cons, ← ih (fun x hx => hds x (List.mem_cons_of_mem _ hx)), ustrtoulLoop,
        hdigit]
      exact if_neg hle

/-- Before a digit there is no blank, no sign and no radix prefix for `ustrtoul` to skip. -/
theorem ustrtoul_digit {c : UInt8} (hc : isDecDigit c = true) (cs : CStr) :
    ustrtoul (c :: cs) 10 = ustrtoulLoop 10 0#32 (c :: cs) := by
  rw [isDecDigit, Bool.and_eq_true, decide_eq_true_eq, decide_eq_true_eq] at hc
  have hplain : c ≠ 32 ∧ c ≠ 9 ∧ c ≠ 45 ∧ c ≠ 43 := by
    refine ⟨?_, ?_, ?_, ?_⟩ <;>
      · rintro rfl
        exact absurd hc.1 (by decide)
  have hdrop : (c :: cs).dropWhile (fun c => decide (c = 32) || decide (c = 9)) = c :: cs := by
    rw [List.dropWhile_cons_of_neg (by simp [hplain.1, hplain.2.1])]
  have hchar : charAt (c :: cs) 0 = c := rfl
  have hradix (s : CStr) : ustrtoulRadix 10 s = (10, s) := by simp [ustrtoulRadix]
  unfold ustrtoul
  simp only [hdrop, hchar, hplain.2.2.1, hplain.2.2.2, hradix, or_self, if_false, decide_false,
    Bool.false_eq_true]

theorem ustrtoul_numeral {ds : CStr} (hds : IsNumeral ds) :
    ustrtoul ds 10 = BitVec.ofNat 32 (numeralValue ds) := by
  obtain ⟨hne, hall⟩ := hds
  obtain ⟨c, cs, rfl⟩ := List.exists_cons_of_ne_nil hne
  rw [ustrtoul_digit (hall c List.mem_cons_self), ustrtoulLoop_numeral hall]
  exact digitLoop_eq (c :: cs) 0

/-- The decimal loop stops at a letter, and at what is no digit of any base. -/
theorem ustrtoulLoop_stop {rest : CStr} (hrest : rest.takeWhile isDecDigit = [])
    (v : BitVec 32) : ustrtoulLoop 10 v rest = v := by
  cases rest with
  | nil => rfl
  | cons c rest =>
      have hc : ¬(48 ≤ c ∧ c ≤ 57) := by
        intro hc
        rw [List.takeWhile_cons_of_pos (by simp [isDecDigit, hc.1, hc.2])] at hrest
        cases hrest
      rw [ustrtoulLoop, ulDigit, if_neg hc]
      split_ifs with hupper hlower
      · exact if_pos (Nat.le_add_left 10 _)
      · exact if_pos (Nat.le_add_left 10 _)
      · rfl

/-- A numeral with more text after it. -/
theorem ustrtoul_numeral_append {ds rest : CStr} (hds : IsNumeral ds)
    (hrest : rest.takeWhile isDecDigit = []) :
    ustrtoul (ds ++ rest) 10 = BitVec.ofNat 32 (numeralValue ds) := by
  rw [← ustrtoul_numeral hds]
  obtain ⟨hne, hall⟩ := hds
  obtain ⟨d, ds, rfl⟩ := List.exists_cons_of_ne_nil hne
  have hloop (ds : CStr) (hds : ∀ c ∈ ds, isDecDigit c = true) (v : BitVec 32) :
      ustrtoulLoop 10 v (ds ++ rest) = ustrtoulLoop 10 v ds := by
    induction ds generalizing v with
    | nil => exact ustrtoulLoop_stop hrest v
    | cons c ds ih =>
        obtain ⟨hdigit, hlt⟩ := ulDigit_of_isDecDigit (hds c List.mem_cons_self)
        rw [List.cons_append, ustrtoulLoop, ustrtoulLoop, hdigit]
        dsimp only
        rw [ih fun x hx => hds x (List.mem_cons_of_mem _ hx)]
  have hd := hall d List.mem_cons_self
  rw [List.cons_append, ustrtoul_digit hd, ustrtoul_digit hd, ← List.cons_append, hloop _ hall]

theorem readsDecimals_ustrtoul : ReadsDecimals ustrtoul := by
  intro n _
  rw [ustrtoul_numeral (isNumeral_fmtDecimal n), numeralValue_fmtDecimal]

/-- `PalStrToUl` of a platform, which reads a printed number up to the first byte behind it
that is no digit. -/
structure DecimalReader where
  palStrToUl : StrToUl
  reads : ∀ n < 2 ^ 32, ∀ rest : CStr, rest.takeWhile isDecDigit = [] →
    palStrToUl (fmtDecimal n ++ rest) 10 = BitVec.ofNat 32 n

/-- The one of the TM4C1294. -/
def ustrtoulReader : DecimalReader where
  palStrToUl := ustrtoul
  reads := by
    intro n _ rest hrest
    rw [ustrtoul_numeral_append (isNumeral_fmtDecimal n) hrest, numeralValue_fmtDecimal]

/-! ## Names -/

/-- `HexNibble` of `product_web.c`. -/
def webHexNibble (c : UInt8) : UInt8 :=
  if 48 ≤ c ∧ c ≤ 57 then c - 48
  else if 97 ≤ c ∧ c ≤ 102 then c - 97 + 10
  else if 65 ≤ c ∧ c ≤ 70 then c - 65 + 10
  else 0

/-- `UrlDecodeParam`, with the room that is left in `pcOut`: `+` is a blank, `%XX` a byte,
and what is neither stays. -/
def urlDecodeParam : (room : Nat) → CStr → List UInt8
  | 0, _ => []
  | _ + 1, [] => []
  | room + 1, c :: h :: l :: p =>
      if c = 43 then 32 :: urlDecodeParam room (h :: l :: p)
      else if c = 37 then ((webHexNibble h <<< 4) ||| webHexNibble l) :: urlDecodeParam room p
      else c :: urlDecodeParam room (h :: l :: p)
  | room + 1, c :: p => (if c = 43 then 32 else c) :: urlDecodeParam room p

/-- `strncpy` into a zeroed name field: up to the first NUL, and at most 11 bytes. -/
def nameField (name : List UInt8) : Fin cfgNameLen → UInt8 := fun j =>
  ((name.takeWhile (· ≠ 0)).take (cfgNameLen - 1)).getD j 0

/-- The encoded name of a list entry, in its `char acEnc[3 * CFG_NAME_LEN]`. -/
def encodedName (p : CStr) : CStr := (p.takeWhile (· ≠ 59)).take (3 * cfgNameLen - 1)

/-- The bytes that `encodeURIComponent` leaves as they are: letters, digits and
`- _ . ! ~ * ' ( )`. -/
def isUnreserved (b : UInt8) : Bool :=
  (48 ≤ b && b ≤ 57) || (65 ≤ b && b ≤ 90) || (97 ≤ b && b ≤ 122) ||
    [45, 95, 46, 33, 126, 42, 39, 40, 41].contains b

/-- A digit of `%XX`. -/
def hexUpper (n : Nat) : UInt8 := if n < 10 then UInt8.ofNat (48 + n) else UInt8.ofNat (55 + n)

/-- `%XX`. -/
def percentByte (b : UInt8) : CStr := [37, hexUpper (b.toNat / 16), hexUpper (b.toNat % 16)]

/-- A byte of a name in a request: what `encodeURIComponent` makes of it, and then the
browser, which also escapes the apostrophe in a query. -/
def queryByte (b : UInt8) : CStr :=
  if isUnreserved b = true ∧ b ≠ 39 then [b] else percentByte b

/-- A byte of a name as `encodeURIComponent` writes it. -/
def uriByte (b : UInt8) : CStr := if isUnreserved b = true then [b] else percentByte b

/-- What both have in common: a byte stays only if it is unreserved, and is `%XX` otherwise. -/
def Escapes (enc : UInt8 → CStr) : Prop :=
  ∀ b, (isUnreserved b = true ∧ enc b = [b]) ∨ enc b = percentByte b

/-- The UTF-8 bytes of a text of the page. -/
def utf8 (name : List Char) : List UInt8 := name.flatMap String.utf8EncodeChar

theorem utf8_append (s t : List Char) : utf8 (s ++ t) = utf8 s ++ utf8 t := List.flatMap_append

/-- An ASCII character is one byte. -/
theorem utf8_cons_ascii {c : Char} (h : c.toNat < 128) (s : List Char) :
    utf8 (c :: s) = UInt8.ofNat c.toNat :: utf8 s := by
  have hc : String.utf8EncodeChar c = [UInt8.ofNat c.toNat] := by
    have hle : c.val.toNat ≤ 127 := Nat.lt_succ_iff.mp h
    unfold String.utf8EncodeChar
    dsimp only
    rw [if_pos hle]
    rfl
  rw [utf8, List.flatMap_cons, hc]
  rfl

theorem utf8_ascii {s : List Char} (h : ∀ c ∈ s, c.toNat < 128) :
    utf8 s = s.map fun c => UInt8.ofNat c.toNat := by
  induction s with
  | nil => rfl
  | cons c s ih =>
      obtain ⟨hc, hs⟩ := List.forall_mem_cons.mp h
      rw [utf8_cons_ascii hc, ih hs, List.map_cons]

/-- A name as it goes into a request. -/
def queryName (name : List Char) : CStr := (utf8 name).flatMap queryByte

theorem webHexNibble_hexUpper : ∀ n < 16, webHexNibble (hexUpper n) = UInt8.ofNat n := by decide

/-- The device reads `%XX` back as the byte. -/
theorem percentByte_nibbles (b : UInt8) :
    (webHexNibble (hexUpper (b.toNat / 16)) <<< 4) ||| webHexNibble (hexUpper (b.toNat % 16)) =
      b := by
  have hb := b.toNat_lt
  have hor := Nat.shiftLeft_add_eq_or_of_lt (show b.toNat % 16 < 2 ^ 4 by omega) (b.toNat / 16)
  rw [Nat.shiftLeft_eq] at hor
  rw [webHexNibble_hexUpper _ (by omega), webHexNibble_hexUpper _ (by omega), ← UInt8.toNat_inj,
    UInt8.toNat_or, UInt8.toNat_shiftLeft, UInt8.toNat_ofNat', UInt8.toNat_ofNat']
  have hhi : (b.toNat / 16 % 2 ^ 8) <<< (UInt8.toNat 4 % 8) % 2 ^ 8 = b.toNat / 16 * 2 ^ 4 := by
    rw [show UInt8.toNat 4 % 8 = 4 from rfl, Nat.shiftLeft_eq]
    omega
  rw [hhi, Nat.mod_eq_of_lt (show b.toNat % 16 < 2 ^ 8 by omega), ← hor]
  omega

theorem plain_of_isUnreserved {b : UInt8} (h : isUnreserved b = true) : b ≠ 43 ∧ b ≠ 37 := by
  constructor <;>
  · rintro rfl
    exact absurd h (by decide)

theorem escapes_queryByte : Escapes queryByte := by
  intro b
  unfold queryByte
  split
  · rename_i h
    exact .inl ⟨h.1, rfl⟩
  · exact .inr rfl

theorem escapes_uriByte : Escapes uriByte := by
  intro b
  unfold uriByte
  split
  · rename_i h
    exact .inl ⟨h, rfl⟩
  · exact .inr rfl

section Escaped

variable {enc : UInt8 → CStr} (henc : Escapes enc)
include henc

/-- Decoding one encoded byte. -/
theorem urlDecodeParam_escape (room : Nat) (b : UInt8) (p : CStr) :
    urlDecodeParam (room + 1) (enc b ++ p) = b :: urlDecodeParam room p := by
  rcases henc b with ⟨hb, heq⟩ | heq
  · obtain ⟨hplus, hpercent⟩ := plain_of_isUnreserved hb
    rw [heq]
    match p with
    | [] => simp [urlDecodeParam, hplus]
    | [_] => simp [urlDecodeParam, hplus]
    | _ :: _ :: _ => simp [urlDecodeParam, hplus, hpercent]
  · have hnibbles := percentByte_nibbles b
    rw [heq]
    simp only [percentByte, List.cons_append, List.nil_append, urlDecodeParam]
    rw [if_neg (by decide), if_pos trivial, hnibbles]

/-- **Decoding gives the bytes back**, as many as there is room for. -/
theorem urlDecodeParam_flatMap {room : Nat} {bs : List UInt8} {p : CStr}
    (h : room ≤ bs.length ∨ p = []) :
    urlDecodeParam room (bs.flatMap enc ++ p) = bs.take room := by
  induction bs generalizing room with
  | nil =>
      cases room with
      | zero => rfl
      | succ room =>
          rcases h with h | rfl
          · exact absurd h (by simp)
          · rfl
  | cons b bs ih =>
      cases room with
      | zero => simp [urlDecodeParam]
      | succ room =>
          have hrest : room ≤ bs.length ∨ p = [] := by
            rcases h with h | h
            · exact .inl (by simpa using h)
            · exact .inr h
          rw [List.flatMap_cons, List.append_assoc, urlDecodeParam_escape henc, ih hrest,
            List.take_succ_cons]

theorem length_escape_le (b : UInt8) : (enc b).length ≤ 3 := by
  rcases henc b with ⟨_, heq⟩ | heq
  · rw [heq, List.length_singleton]
    exact (by decide : 1 ≤ 3)
  · rw [heq]
    exact Nat.le_refl 3

theorem length_flatMap_escape_le (bs : List UInt8) :
    (bs.flatMap enc).length ≤ 3 * bs.length := by
  induction bs with
  | nil => exact Nat.le_refl 0
  | cons b bs ih =>
      have hb := length_escape_le henc b
      rw [List.flatMap_cons, List.length_append, List.length_cons]
      omega

/-- **What the device makes of an encoded name**: its first 11 bytes.  The cut after 35
characters may fall into an escape, but never into one of the first 11. -/
theorem urlDecodeParam_escaped (bs : List UInt8) :
    urlDecodeParam (cfgNameLen - 1) ((bs.flatMap enc).take (3 * cfgNameLen - 1)) =
      bs.take (cfgNameLen - 1) := by
  have hfit (cs : List UInt8) (h : cs.length ≤ 11) : (cs.flatMap enc).length ≤ 35 := by
    have := length_flatMap_escape_le henc cs
    omega
  change urlDecodeParam 11 ((bs.flatMap enc).take 35) = bs.take 11
  by_cases hlen : bs.length ≤ 11
  · have h : urlDecodeParam 11 (bs.flatMap enc ++ []) = bs.take 11 :=
      urlDecodeParam_flatMap henc (.inr rfl)
    rw [List.append_nil] at h
    rw [List.take_of_length_le (hfit _ hlen), h]
  · have hfirst : (bs.take 11).length = 11 := by
      rw [List.length_take]
      omega
    have hsplit : bs.flatMap enc = (bs.take 11).flatMap enc ++ (bs.drop 11).flatMap enc := by
      rw [← List.flatMap_append, List.take_append_drop]
    rw [hsplit, List.take_append, List.take_of_length_le (hfit _ (by omega)),
      urlDecodeParam_flatMap henc (.inl (by omega)), List.take_take, Nat.min_self]

/-- What stands in an encoded name: unreserved characters and `%`. -/
theorem mem_escaped {c : UInt8} {bs : List UInt8} (h : c ∈ bs.flatMap enc) :
    isUnreserved c = true ∨ c = 37 := by
  obtain ⟨b, _, hc⟩ := List.mem_flatMap.mp h
  have hhex : ∀ n < 16, isUnreserved (hexUpper n) = true := by decide
  have hb := b.toNat_lt
  rcases henc b with ⟨hu, heq⟩ | heq
  · rw [heq, List.mem_singleton] at hc
    rw [hc]
    exact .inl hu
  · rw [heq] at hc
    rcases List.mem_cons.mp hc with rfl | hc
    · exact .inr rfl
    · rcases List.mem_cons.mp hc with rfl | hc
      · exact .inl (hhex _ (by omega))
      · rw [List.mem_singleton.mp hc]
        exact .inl (hhex _ (by omega))

/-- No separator of a request stands in an encoded name. -/
theorem not_mem_escaped {c : UInt8} (hc : isUnreserved c = false ∧ c ≠ 37) (bs : List UInt8) :
    c ∉ bs.flatMap enc := by
  intro h
  rcases mem_escaped henc h with hu | hp
  · rw [hc.1] at hu
    cases hu
  · exact hc.2 hp

end Escaped

theorem urlDecodeParam_queryName (name : List Char) :
    urlDecodeParam (cfgNameLen - 1) ((queryName name).take (3 * cfgNameLen - 1)) =
      (utf8 name).take (cfgNameLen - 1) :=
  urlDecodeParam_escaped escapes_queryByte (utf8 name)

/-- The C string in a name field. -/
def fieldString (name : Fin cfgNameLen → UInt8) : List UInt8 := (List.ofFn name).takeWhile (· ≠ 0)

theorem ofFn_nameField (bs : List UInt8) : List.ofFn (nameField bs) =
    (bs.takeWhile (· ≠ 0)).take (cfgNameLen - 1) ++
      List.replicate (cfgNameLen - ((bs.takeWhile (· ≠ 0)).take (cfgNameLen - 1)).length) 0 := by
  have hlen : ((bs.takeWhile (· ≠ 0)).take (cfgNameLen - 1)).length ≤ cfgNameLen :=
    (List.length_take_le _ _).trans (Nat.sub_le _ _)
  refine List.ext_getElem (by simp) fun n h₁ h₂ => ?_
  rw [List.getElem_ofFn, List.getElem_append]
  unfold nameField
  split
  · rename_i hn
    exact List.getD_eq_getElem _ _ hn
  · rename_i hn
    rw [List.getElem_replicate]
    exact List.getD_eq_default _ _ (Nat.not_lt.mp hn)

/-- A name field holds the name up to its first NUL, and at most 11 bytes of it. -/
theorem fieldString_nameField (bs : List UInt8) :
    fieldString (nameField bs) = (bs.takeWhile (· ≠ 0)).take (cfgNameLen - 1) := by
  have hne : ∀ b ∈ (bs.takeWhile (· ≠ 0)).take (cfgNameLen - 1), decide (b ≠ 0) = true :=
    fun b hb => List.mem_takeWhile_imp (p := fun b => decide (b ≠ 0)) (List.mem_of_mem_take hb)
  rw [fieldString, ofFn_nameField, List.takeWhile_append_of_pos hne, List.takeWhile_replicate]
  simp

/-- A name survives its field exactly if it has at most 11 bytes and no NUL. -/
theorem fieldString_eq_iff (bs : List UInt8) :
    fieldString (nameField (bs.take (cfgNameLen - 1))) = bs ↔
      bs.length ≤ cfgNameLen - 1 ∧ 0 ∉ bs := by
  rw [fieldString_nameField]
  constructor
  · intro h
    have hlen : bs.length ≤ cfgNameLen - 1 := by
      rw [← h]
      exact List.length_take_le _ _
    refine ⟨hlen, fun h0 => ?_⟩
    rw [← h] at h0
    have hne := List.mem_takeWhile_imp (p := fun b => decide (b ≠ 0)) (List.mem_of_mem_take h0)
    simp at hne
  · intro ⟨hlen, h0⟩
    have hwhile : bs.takeWhile (· ≠ 0) = bs := by
      refine List.takeWhile_eq_self_iff.mpr fun b hb => decide_eq_true ?_
      rintro rfl
      exact h0 hb
    rw [List.take_of_length_le hlen, hwhile, List.take_of_length_le hlen]

/-! ## Blanks at the end -/

/-- A text without the blanks at its end. -/
def trimEnd (s : CStr) : CStr := s.rdropWhile (· = 32)

theorem trimEnd_blanks (s : CStr) (n : Nat) : trimEnd (s ++ List.replicate n 32) = trimEnd s := by
  induction n with
  | zero => rw [List.replicate_zero, List.append_nil]
  | succ n ih =>
      rw [List.replicate_succ', ← List.append_assoc, trimEnd, List.rdropWhile_concat_pos _ _ _ (by
        decide)]
      exact ih

theorem mem_of_mem_trimEnd {b : UInt8} {s : CStr} (h : b ∈ trimEnd s) : b ∈ s :=
  (List.rdropWhile_prefix _ s).mem h

theorem length_trimEnd_le (s : CStr) : (trimEnd s).length ≤ s.length :=
  (List.rdropWhile_prefix _ s).length_le

end HomeAuto
