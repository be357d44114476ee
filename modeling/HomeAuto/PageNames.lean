import HomeAuto.IoPage
import HomeAuto.OutputTags
import HomeAuto.Lib.Unicode

/-!
# The names on the I/O page (`iocfg.shtml`)

The names of the shutters and of the rooms come as two lists of blocks of 12 bytes, each in a
string literal of the script.  The browser reads the bytes as UTF-8, and the script cuts the
text at every twelfth UTF-16 unit: behind a block of fewer units the names are cut at other
places than the device put them.  What a field shows is sent as UTF-8 again, and the device
keeps 11 bytes of it.
-/

namespace HomeAuto

open Unicode

/-! ## The lists -/

/-- `\s` of a regular expression. -/
def IsJsSpace (u : Nat) : Prop :=
  (9 ≤ u ∧ u ≤ 13) ∨ (0x2000 ≤ u ∧ u ≤ 0x200A) ∨
    u ∈ [0x20, 0xA0, 0x1680, 0x2028, 0x2029, 0x202F, 0x205F, 0x3000, 0xFEFF]

instance (u : Nat) : Decidable (IsJsSpace u) := inferInstanceAs (Decidable (_ ∨ _ ∨ _))

/-- `replace(/\s+$/,'')`. -/
def jsTrimEnd (us : List Nat) : List Nat := us.rdropWhile fun u => decide (IsJsSpace u)

/-- `getShName`, and the elements of `ROOMS`. -/
def listedUnits (us : List Nat) (n : Nat) : List Nat :=
  jsTrimEnd ((us.drop (n * cfgNameLen)).take cfgNameLen)

/-- What the tables show of the names: the units in the field of each shutter and of each
room, and the rooms that the selects offer. -/
structure ShownNames where
  shutter : Nat → List Nat
  room : Nat → List Nat
  offered : Nat → Bool

/-- A byte that stands for itself in a literal, and in the tables built from it: none of NUL,
the line ends, the quote, the backslash and `<`. -/
def LiteralByte (b : UInt8) : Prop := b ∉ [0, 10, 13, 34, 92, 60]

instance (b : UInt8) : Decidable (LiteralByte b) := inferInstanceAs (Decidable (¬_))

instance (s : CStr) : Decidable (∀ b ∈ s, LiteralByte b) := List.decidableBAll _ s

/-- The units of a literal of such bytes. -/
def literalUnits (s : CStr) : List Nat := (decodeUtf8 s).flatMap utf16

/-- What is shown of two lists of such bytes.  The selects leave out a room without a name. -/
def ShownNames.ofLiterals (shNames rmNames : CStr) : ShownNames where
  shutter := listedUnits (literalUnits shNames)
  room := listedUnits (literalUnits rmNames)
  offered n := listedUnits (literalUnits rmNames) n ≠ []

/-- A browser that loads the page with the two lists: whether the script runs, and what the
tables show of lists with other bytes in them, which can end the literal, belong to an escape
or become markup. -/
structure PageReader where
  runs : CStr → CStr → Bool
  others : CStr → CStr → ShownNames

/-- The names that the tables show; there are no tables if the script does not run. -/
def PageReader.shownNames (reader : PageReader) (shNames rmNames : CStr) : Option ShownNames :=
  if reader.runs shNames rmNames then
    some (if ∀ b ∈ shNames ++ rmNames, LiteralByte b then .ofLiterals shNames rmNames
      else reader.others shNames rmNames)
  else none

/-! ## What is sent of a name -/

/-- `encodeURIComponent` takes the first 11 units: no half of a surrogate pair stands alone. -/
def Encodes (us : List Nat) : Prop := (fromUtf16 (us.take 11)).isSome

instance (us : List Nat) : Decidable (Encodes us) := inferInstanceAs (Decidable (_ = true))

theorem utf16Units_eq (c : Char) : utf16Units c = (utf16 c).length := by
  unfold utf16Units utf16
  split <;> rfl

theorem sum_utf16Units (t : List Char) : (t.map utf16Units).sum = (t.flatMap utf16).length := by
  rw [List.length_flatMap]
  exact congrArg List.sum (List.map_congr_left fun c _ => utf16Units_eq c)

/-- `substring(0,11)`, where it can be encoded. -/
def sentText (us : List Nat) : FieldText :=
  ⟨(fromUtf16 (us.take 11)).getD [], by
    rw [sum_utf16Units]
    cases h : fromUtf16 (us.take 11) with
    | none => exact Nat.zero_le _
    | some t =>
        rw [Option.getD_some, flatMap_fromUtf16 h]
        exact List.length_take_le _ _⟩

/-- What the device stores of the name that it is sent. -/
def returnedName (us : List Nat) : Fin cfgNameLen → UInt8 :=
  nameField (urlDecodeParam (cfgNameLen - 1)
    ((queryName (sentText us).val).take (3 * cfgNameLen - 1)))

/-- The text in the field is the name: the name has its first 11 bytes. -/
def Stands (us : List Nat) (name : Fin cfgNameLen → UInt8) : Prop :=
  nameField (utf8 (sentText us).val) = name

theorem nameField_take (s : CStr) : nameField (s.take (cfgNameLen - 1)) = nameField s := by
  funext j
  rw [nameField, nameField, ← List.take_takeWhile, List.take_take, Nat.min_self]

/-- **A name comes back exactly if the text in its field is the name.** -/
theorem returnedName_eq_iff {us : List Nat} {name : Fin cfgNameLen → UInt8} :
    returnedName us = name ↔ Stands us name := by
  rw [returnedName, urlDecodeParam_queryName, nameField_take]
  rfl

/-! ## Names that are text -/

/-- A text in a name field is listed as the text and blanks. -/
theorem nameBlock_nameField {t : CStr} (hzero : 0 ∉ t) (hle : t.length ≤ cfgNameLen - 1) :
    nameBlock (nameField t) = t ++ List.replicate (cfgNameLen - t.length) 32 := by
  have hwhile : t.takeWhile (· ≠ 0) = t := by
    apply List.takeWhile_eq_self_iff.mpr
    intro b hb
    apply decide_eq_true
    intro h0
    exact hzero (h0 ▸ hb)
  have hbyte (j : Fin cfgNameLen) : nameField t j = t.getD j 0 := by
    rw [nameField, hwhile, List.take_of_length_le hle]
  unfold cfgNameLen at hle
  apply List.ext_getElem
  · simp [nameBlock, cfgNameLen]
    omega
  intro n _ _
  simp only [nameBlock, List.getElem_map, List.getElem_append, List.getElem_finRange,
    Fin.val_cast, hbyte]
  by_cases hn : n < t.length
  · have hne : t[n] ≠ 0 := fun h0 => hzero (h0 ▸ List.getElem_mem hn)
    have hroom : n < cfgNameLen - 1 := by
      unfold cfgNameLen
      omega
    rw [dif_pos hn, List.getD_eq_getElem _ _ hn, if_pos ⟨hroom, hne⟩]
  · have hblank : ¬(n < cfgNameLen - 1 ∧ (0 : UInt8) ≠ 0) := fun hand => hand.2 rfl
    rw [dif_neg hn, List.getD_eq_default _ _ (Nat.not_lt.mp hn), if_neg hblank,
      List.getElem_replicate]

theorem toNat_ofNat_byte (b : UInt8) : (Char.ofNat b.toNat).toNat = b.toNat := by
  have hb := b.toNat_lt
  exact toNat_ofNat (.inl (by omega))

/-- UTF-8 is read in one way only. -/
theorem utf8_injective {s t : List Char} (h : utf8 s = utf8 t) : s = t := by
  have hs := decodeUtf8_encode [] s
  have ht := decodeUtf8_encode [] t
  change decodeUtf8 (utf8 s ++ []) = _ at hs
  rw [h] at hs
  exact (List.append_cancel_right (hs.symm.trans ht))

/-- A name field holds one text. -/
theorem nameField_injOn {s t : CStr} (hs : 0 ∉ s) (hslen : s.length ≤ cfgNameLen - 1) (ht : 0 ∉ t)
    (htlen : t.length ≤ cfgNameLen - 1) (h : nameField s = nameField t) : s = t := by
  have hfield {l : CStr} (hl : 0 ∉ l) (hlen : l.length ≤ cfgNameLen - 1) :
      fieldString (nameField l) = l := by
    have hiff := (fieldString_eq_iff l).mpr ⟨hlen, hl⟩
    rwa [List.take_of_length_le hlen] at hiff
  rw [← hfield hs hslen, h, hfield ht htlen]

/-- Bytes of ASCII are one unit each. -/
theorem literalUnits_ascii {s : CStr} (h : ∀ b ∈ s, b.toNat < 0x80) (rest : CStr) :
    literalUnits (s ++ rest) = s.map UInt8.toNat ++ literalUnits rest := by
  induction s with
  | nil => rfl
  | cons b s ih =>
      obtain ⟨hb, hs⟩ := List.forall_mem_cons.mp h
      have hunit : utf16 (Char.ofNat b.toNat) = [b.toNat] := utf16_ofNat (.inl (by omega))
      rw [List.cons_append, literalUnits, decodeUtf8_cons_ascii hb, List.flatMap_cons, hunit]
      exact congrArg (b.toNat :: ·) (ih hs)

/-- A text in UTF-8 is read as its units. -/
theorem literalUnits_utf8 (t : List Char) (rest : CStr) :
    literalUnits (utf8 t ++ rest) = t.flatMap utf16 ++ literalUnits rest := by
  have hdecode : decodeUtf8 (utf8 t ++ rest) = t ++ decodeUtf8 rest := decodeUtf8_encode rest t
  rw [literalUnits, hdecode, List.flatMap_append]
  rfl

theorem length_utf16_le_utf8 (t : List Char) : (t.flatMap utf16).length ≤ (utf8 t).length := by
  induction t with
  | nil => exact Nat.le_refl 0
  | cons c t ih =>
      have hc := length_utf16_le c
      change ((c :: t).flatMap utf16).length ≤
        ((c :: t).flatMap String.utf8EncodeChar).length
      rw [List.flatMap_cons, List.flatMap_cons, List.length_append, List.length_append]
      exact Nat.add_le_add hc ih

/-- White space is one unit, and no half of a pair. -/
theorem IsJsSpace.lt {u : Nat} (h : IsJsSpace u) : u < 0xD800 ∨ u = 0xFEFF := by
  rcases h with h | h | h
  · omega
  · omega
  · simp only [List.mem_cons, List.not_mem_nil, or_false] at h
    omega

theorem utf16_cases (c : Char) : utf16 c = [c.toNat] ∨
    ∃ u v, utf16 c = [u, v] ∧ ¬IsJsSpace v ∧ ¬IsJsSpace c.toNat := by
  by_cases hc : c.toNat < 0x10000
  · exact .inl (if_pos hc)
  · obtain ⟨u, v, hunits, ⟨_, hlow, hhigh⟩, _⟩ := utf16_of_le (Nat.not_lt.mp hc)
    refine .inr ⟨u, v, hunits, fun h => ?_, fun h => ?_⟩
    · have hv := h.lt
      omega
    · have hv := h.lt
      omega

/-- The text without the white space at its end. -/
def trimText (t : List Char) : List Char := t.rdropWhile fun c => decide (IsJsSpace c.toNat)

/-- Trimming takes whole characters. -/
theorem jsTrimEnd_flatMap (t : List Char) :
    jsTrimEnd (t.flatMap utf16) = (trimText t).flatMap utf16 := by
  induction t using List.reverseRecOn with
  | nil => rfl
  | append_singleton t c ih =>
      rw [List.flatMap_append, List.flatMap_singleton, jsTrimEnd, trimText]
      rcases utf16_cases c with hone | ⟨u, v, htwo, hv, hc⟩
      · rw [hone]
        by_cases hc : IsJsSpace c.toNat
        · rw [List.rdropWhile_concat_pos _ _ _ (by exact decide_eq_true hc),
            List.rdropWhile_concat_pos _ _ _ (by exact decide_eq_true hc)]
          exact ih
        · rw [List.rdropWhile_concat_neg _ _ _ (by simpa using hc),
            List.rdropWhile_concat_neg _ _ _ (by simpa using hc), List.flatMap_append,
            List.flatMap_singleton, hone]
      · have hsplit : t.flatMap utf16 ++ [u, v] = (t.flatMap utf16 ++ [u]) ++ [v] := by simp
        rw [htwo, hsplit, List.rdropWhile_concat_neg _ _ _ (by simpa using hv),
          List.rdropWhile_concat_neg _ _ _ (by simpa using hc), List.flatMap_append,
          List.flatMap_singleton, htwo, hsplit]

theorem jsTrimEnd_blanks (us : List Nat) (n : Nat) :
    jsTrimEnd (us ++ List.replicate n 32) = jsTrimEnd us := by
  induction n with
  | zero => rw [List.replicate_zero, List.append_nil]
  | succ n ih =>
      rw [List.replicate_succ', ← List.append_assoc, jsTrimEnd,
        List.rdropWhile_concat_pos _ _ _ (by decide)]
      exact ih

section Text

variable {t : List Char}

/-- **A text whose block is cut where it begins stands exactly if it does not end in white
space.** -/
theorem stands_iff_of_window {us : List Nat} {n m : Nat} (hzero : 0 ∉ utf8 t)
    (hlen : (utf8 t).length ≤ cfgNameLen - 1)
    (hwindow : (us.drop (n * cfgNameLen)).take cfgNameLen =
      t.flatMap utf16 ++ List.replicate m 32) :
    Stands (listedUnits us n) (nameField (utf8 t)) ↔ trimText t = t := by
  have hbegins : trimText t <+: t := List.rdropWhile_prefix _ t
  have hsub : utf8 (trimText t) <+: utf8 t := hbegins.flatMap _
  have hunits : (listedUnits us n).take 11 = (trimText t).flatMap utf16 := by
    rw [listedUnits, hwindow, jsTrimEnd_blanks, jsTrimEnd_flatMap]
    exact List.take_of_length_le
      ((length_utf16_le_utf8 _).trans (hsub.length_le.trans hlen))
  have hsent : (sentText (listedUnits us n)).val = trimText t := by
    change (fromUtf16 _).getD [] = _
    rw [hunits, fromUtf16_utf16]
    rfl
  rw [Stands, hsent]
  constructor
  · intro h
    exact utf8_injective (nameField_injOn (fun h0 => hzero (hsub.mem h0))
      (hsub.length_le.trans hlen) hzero hlen h)
  · intro h
    rw [h]

/-- A text between names in ASCII and others, of which it is in ASCII itself or they are blank. -/
theorem stands_between_iff {before after : List (Fin cfgNameLen → UInt8)} (hzero : 0 ∉ utf8 t)
    (hlen : (utf8 t).length ≤ cfgNameLen - 1)
    (hearly : ∀ x ∈ before, ∀ b ∈ nameBlock x, b.toNat < 0x80)
    (hlate : (∀ c ∈ t, c.toNat < 0x80) ∨ ∀ x ∈ after, ∀ b ∈ nameBlock x, b = 32) :
    Stands (listedUnits (literalUnits
        ((before ++ nameField (utf8 t) :: after).map nameBlock).flatten) before.length)
      (nameField (utf8 t)) ↔ trimText t = t := by
  have hascii : ∀ b ∈ (before.map nameBlock).flatten, b.toNat < 0x80 := by
    intro b hb
    obtain ⟨l, hl, hbl⟩ := List.mem_flatten.mp hb
    obtain ⟨x, hx, rfl⟩ := List.mem_map.mp hl
    exact hearly x hx b hbl
  have hcount : ((before.map nameBlock).flatten.map UInt8.toNat).length =
      before.length * cfgNameLen := by
    rw [List.length_map, Delimited.length_flatten_uniform (w := cfgNameLen), List.length_map]
    intro l hl
    obtain ⟨x, _, rfl⟩ := List.mem_map.mp hl
    exact length_nameBlock x
  have hblanks (k : Nat) : ∀ b ∈ List.replicate k (32 : UInt8), b.toNat < 0x80 := fun b hb => by
    rw [List.eq_of_mem_replicate hb]
    decide
  have hle := length_utf16_le_utf8 t
  rw [List.map_append, List.flatten_append, List.map_cons, List.flatten_cons,
    nameBlock_nameField hzero hlen, literalUnits_ascii hascii, List.append_assoc,
    literalUnits_utf8, literalUnits_ascii (hblanks _), List.map_replicate]
  rcases hlate with hone | hnone
  · -- every character is a unit, and the block has its length
    have hunits : t.flatMap utf16 = t.map Char.toNat := by
      rw [List.map_eq_flatMap]
      refine List.flatMap_congr fun c hc => if_pos ?_
      have := hone c hc
      omega
    have hlength : (t.flatMap utf16).length = (utf8 t).length := by
      rw [hunits, utf8_ascii hone, List.length_map, List.length_map]
    refine stands_iff_of_window (m := cfgNameLen - (utf8 t).length) hzero hlen ?_
    rw [← hcount, List.drop_left, ← List.append_assoc, List.take_append_of_le_length
      (by rw [List.length_append, List.length_replicate]; omega), List.take_of_length_le
      (by rw [List.length_append, List.length_replicate]; omega)]
    rfl
  · -- only blanks follow
    have hall : ∀ b ∈ (after.map nameBlock).flatten, b = 32 := by
      intro b hb
      obtain ⟨l, hl, hbl⟩ := List.mem_flatten.mp hb
      obtain ⟨x, hx, rfl⟩ := List.mem_map.mp hl
      exact hnone x hx b hbl
    have hrest (k : Nat) : literalUnits (List.replicate k 32) = List.replicate k 32 := by
      have hunits := literalUnits_ascii (hblanks k) []
      rw [List.append_nil, List.map_replicate] at hunits
      exact hunits.trans (List.append_nil _)
    refine stands_iff_of_window (m := min (cfgNameLen - (t.flatMap utf16).length)
      (cfgNameLen - (utf8 t).length + (after.map nameBlock).flatten.length)) hzero hlen ?_
    rw [List.eq_replicate_of_mem hall, hrest, ← hcount, List.drop_left, List.length_replicate]
    change (t.flatMap utf16 ++ (List.replicate _ 32 ++ _)).take cfgNameLen = _
    rw [List.replicate_append_replicate, List.take_append, List.take_replicate,
      List.take_of_length_le (by omega)]

/-- **Behind names in ASCII, a text stands exactly if it does not end in white space**, where it
is in ASCII itself or only blank names follow. -/
theorem stands_listed_iff {l : List (Fin cfgNameLen → UInt8)} {n : Nat}
    (hn : l[n]? = some (nameField (utf8 t))) (hzero : 0 ∉ utf8 t)
    (hlen : (utf8 t).length ≤ cfgNameLen - 1)
    (hbefore : ∀ m x, m < n → l[m]? = some x → ∀ b ∈ nameBlock x, b.toNat < 0x80)
    (hafter : (∀ c ∈ t, c.toNat < 0x80) ∨
      ∀ m x, n < m → l[m]? = some x → ∀ b ∈ nameBlock x, b = 32) :
    Stands (listedUnits (literalUnits (l.map nameBlock).flatten) n) (nameField (utf8 t)) ↔
      trimText t = t := by
  obtain ⟨hlt, hget⟩ := List.getElem?_eq_some_iff.mp hn
  have hsplit : l.take n ++ nameField (utf8 t) :: l.drop (n + 1) = l := by
    rw [← hget, ← List.drop_eq_getElem_cons hlt, List.take_append_drop]
  have hnum : (l.take n).length = n := by
    rw [List.length_take]
    omega
  have hearly : ∀ x ∈ l.take n, ∀ b ∈ nameBlock x, b.toNat < 0x80 := by
    intro x hx
    obtain ⟨m, hm⟩ := List.mem_iff_getElem?.mp hx
    rw [List.getElem?_take] at hm
    split at hm
    · rename_i hlow
      exact hbefore m x hlow hm
    · cases hm
  have hlate : (∀ c ∈ t, c.toNat < 0x80) ∨ ∀ x ∈ l.drop (n + 1), ∀ b ∈ nameBlock x, b = 32 := by
    refine hafter.imp_right fun h x hx => ?_
    obtain ⟨m, hm⟩ := List.mem_iff_getElem?.mp hx
    rw [List.getElem?_drop] at hm
    exact h _ x (by omega) hm
  have hbetween := stands_between_iff hzero hlen hearly hlate
  rwa [hsplit, hnum] at hbetween

end Text

end HomeAuto
