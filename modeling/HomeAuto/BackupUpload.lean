import HomeAuto.BackupScan

/-!
# The upload of a backup

The chunks of `doRestore` put the sent bytes into the buffer one after the other, as far as it
has room; the last one has them read.
-/

namespace HomeAuto

open Unicode (utf16)

/-! ## One chunk -/

/-- The device reads the digits of a byte back. -/
theorem hexPairs_hex2 (u : Nat) (cs : CStr) :
    hexPairs (hex2 (u &&& 0xFF) ++ cs) = UInt8.ofNat u :: hexPairs cs := by
  have hbyte : ((webHexNibble (hexLower ((u &&& 0xFF) >>> 4 &&& 0xF))) <<< 4) |||
      webHexNibble (hexLower ((u &&& 0xFF) &&& 0xF)) = UInt8.ofNat u := by
    have hmod : u &&& 0xFF = u % 256 := Nat.and_two_pow_sub_one_eq_mod u 8
    have hhigh : ((u &&& 0xFF) >>> 4 &&& 0xF) <<< 4 < 2 ^ 8 := by
      have hlt := nibble_lt ((u &&& 0xFF) >>> 4)
      rw [Nat.shiftLeft_eq]
      omega
    apply UInt8.toNat_inj.mp
    rw [UInt8.toNat_or, UInt8.toNat_shiftLeft, toNat_webHexNibble_hexLower _ (nibble_lt _),
      toNat_webHexNibble_hexLower _ (nibble_lt _), UInt8.toNat_ofNat']
    change ((u &&& 0xFF) >>> 4 &&& 0xF) <<< 4 % 2 ^ 8 ||| (u &&& 0xFF &&& 0xF) = u % 256
    rw [Nat.mod_eq_of_lt hhigh, nibbles_join, hmod, Nat.mod_mod]
  change _ :: hexPairs cs = _
  rw [hbyte]

theorem hexPairs_toHexStr (units : List Nat) :
    hexPairs (toHexStr units) = units.map UInt8.ofNat := by
  induction units with
  | nil => rfl
  | cons u units ih =>
      change hexPairs (hex2 (u &&& 0xFF) ++ toHexStr units) = _
      rw [hexPairs_hex2, ih, List.map_cons]

theorem amp_notMem_toHexStr (units : List Nat) : 38 ∉ toHexStr units := by
  have hdigit : ∀ n < 16, hexLower n ≠ 38 := by decide
  intro hmem
  obtain ⟨u, -, hu⟩ := List.mem_flatMap.mp hmem
  simp only [hex2, List.mem_cons, List.not_mem_nil, or_false] at hu
  rcases hu with hhigh | hlow
  · exact hdigit _ (nibble_lt _) hhigh.symm
  · exact hdigit _ (nibble_lt _) hlow.symm

variable (ul : DecimalReader) (units : List Nat)

/-- The parameters arrive as they were sent. -/
theorem extract_chunkFields (seq : Nat) :
    extractUriParameters (queryText (chunkFields units seq)) = chunkFields units seq := by
  apply extractUriParameters_queryText (List.cons_ne_nil _ _)
  · intro n hn
    simp only [List.map_cons, List.map_nil, List.mem_cons, List.not_mem_nil,
      or_false] at hn
    rcases hn with hseq | hlast | hdata
    · rw [hseq]
      decide
    · rw [hlast]
      decide
    · rw [hdata]
      decide
  · intro v hv
    simp only [List.map_cons, List.map_nil, List.mem_cons, List.not_mem_nil,
      or_false] at hv
    rcases hv with hseq | hlast | hdata
    · rw [hseq]
      exact not_mem_fmtDecimal (by decide) seq
    · rw [hlast]
      split <;> decide
    · rw [hdata]
      exact amp_notMem_toHexStr _

/-- A chunk in the buffer. -/
theorem received_chunk (r : RestoreState) (seq : Nat) (chunk : List Nat) :
    r.received ul (fmtDecimal seq) (toHexStr chunk) =
      (if ul.palStrToUl (fmtDecimal seq) 10 = 0#32 then [] else r.buf) ++
        (chunk.map UInt8.ofNat).take
          (2047 - (if ul.palStrToUl (fmtDecimal seq) 10 = 0#32 then [] else r.buf).length) := by
  unfold RestoreState.received
  rw [hexPairs_toHexStr]
  rfl

/-- What the handler does with a chunk. -/
theorem cfgRestoreCGIHandler_chunk (r : RestoreState) (seq : Nat) :
    r.cfgRestoreCGIHandler ul (extractUriParameters (queryText (chunkFields units seq))) =
      (let buf := r.received ul (fmtDecimal seq)
        (toHexStr ((units.drop (seq * cfgChunk)).take cfgChunk))
      if units.length ≤ (seq + 1) * cfgChunk then
        ⟨r.settings.restoredFrom ul (buf.takeWhile (· ≠ 0)), buf⟩
      else { r with buf := buf }) := by
  have hseq : findCGIParameter (ascii "seq") (chunkFields units seq) = some (fmtDecimal seq) := rfl
  have hdata : findCGIParameter (ascii "data") (chunkFields units seq) =
      some (toHexStr ((units.drop (seq * cfgChunk)).take cfgChunk)) := rfl
  have hlast : findCGIParameter (ascii "last") (chunkFields units seq) =
      some (if units.length ≤ (seq + 1) * cfgChunk then ascii "1" else ascii "0") := rfl
  rw [extract_chunkFields]
  unfold RestoreState.cfgRestoreCGIHandler
  rw [hseq, hdata, hlast]
  dsimp only
  by_cases hend : units.length ≤ (seq + 1) * cfgChunk
  · rw [if_pos hend, if_pos hend, if_pos]
    decide
  · rw [if_neg hend, if_neg hend, if_neg]
    decide

/-! ## The whole text -/

/-- The number of chunks. -/
def chunkCount : Nat := (units.length + (cfgChunk - 1)) / cfgChunk

/-- The device after the first `k` chunks. -/
def afterChunks (d : RestoreState) (k : Nat) : RestoreState :=
  ((List.range k).map fun seq =>
    extractUriParameters (queryText (chunkFields units seq))).foldl
      (RestoreState.cfgRestoreCGIHandler ul) d

theorem afterChunks_succ (d : RestoreState) (k : Nat) :
    afterChunks ul units d (k + 1) = (afterChunks ul units d k).cfgRestoreCGIHandler ul
      (extractUriParameters (queryText (chunkFields units k))) := by
  unfold afterChunks
  rw [List.range_succ, List.map_append, List.foldl_append, List.map_singleton,
    List.foldl_cons, List.foldl_nil]

/-- A printed number reads as itself, as far as the device counts. -/
theorem read_fmtDecimal {n : Nat} (h : n < 2 ^ 32) :
    ul.palStrToUl (fmtDecimal n) 10 = BitVec.ofNat 32 n := by
  have hread := ul.reads n h [] rfl
  rwa [List.append_nil] at hread

/-- The chunk that the text in the buffer begins with, after chunk number `k`: the last one
whose number reads as 0. -/
def restartOf : Nat → Nat
  | 0 => 0
  | k + 1 => if ul.palStrToUl (fmtDecimal (k + 1)) 10 = 0#32 then k + 1 else restartOf k

theorem restartOf_le (k : Nat) : restartOf ul k ≤ k := by
  induction k with
  | zero => exact Nat.le_refl 0
  | succ k ih =>
      rw [restartOf]
      split
      · exact Nat.le_refl _
      · exact Nat.le_succ_of_le ih

theorem restartOf_of_lt {k : Nat} (h : k < 2 ^ 32) : restartOf ul k = 0 := by
  induction k with
  | zero => rfl
  | succ k ih =>
      rw [restartOf, read_fmtDecimal ul h, if_neg, ih (by omega)]
      intro hzero
      have hnat := congrArg BitVec.toNat hzero
      rw [BitVec.toNat_ofNat, Nat.mod_eq_of_lt h] at hnat
      exact absurd hnat (Nat.succ_ne_zero k)

/-- **The buffer has the first bytes** since the last restart, as many as were sent and go in. -/
theorem buf_afterChunks (d : RestoreState) (k : Nat) :
    (afterChunks ul units d (k + 1)).buf =
      (((units.map UInt8.ofNat).drop (restartOf ul k * cfgChunk)).take
        ((k + 1 - restartOf ul k) * cfgChunk)).take 2047 := by
  have hbuf (r : RestoreState) (seq : Nat) :
      (r.cfgRestoreCGIHandler ul (extractUriParameters (queryText (chunkFields units seq)))).buf =
        r.received ul (fmtDecimal seq)
          (toHexStr ((units.drop (seq * cfgChunk)).take cfgChunk)) := by
    rw [cfgRestoreCGIHandler_chunk]
    dsimp only
    split <;> rfl
  induction k with
  | zero =>
      have hfirst : ul.palStrToUl (fmtDecimal 0) 10 = 0#32 := read_fmtDecimal ul (by decide)
      rw [afterChunks_succ, hbuf, received_chunk, if_pos hfirst, restartOf, Nat.zero_mul,
        List.drop_zero, List.drop_zero, List.map_take, List.nil_append, List.length_nil,
        Nat.sub_zero, Nat.sub_zero, Nat.zero_add, Nat.one_mul]
  | succ k ih =>
      rw [afterChunks_succ, hbuf, received_chunk]
      by_cases hfirst : ul.palStrToUl (fmtDecimal (k + 1)) 10 = 0#32
      · have hrestart : restartOf ul (k + 1) = k + 1 := if_pos hfirst
        rw [if_pos hfirst, hrestart, Nat.add_sub_cancel_left, List.nil_append, List.length_nil,
          Nat.sub_zero, Nat.one_mul, List.map_take, List.map_drop]
      · have hrestart : restartOf ul (k + 1) = restartOf ul k := if_neg hfirst
        have hle := restartOf_le ul k
        have hcount : k + 1 + 1 - restartOf ul k = (k + 1 - restartOf ul k) + 1 := by omega
        have hindex : restartOf ul k * cfgChunk + (k + 1 - restartOf ul k) * cfgChunk =
            (k + 1) * cfgChunk := by
          rw [← Nat.add_mul, Nat.add_sub_cancel' (Nat.le_succ_of_le hle)]
        have hmore : ((units.map UInt8.ofNat).drop (restartOf ul k * cfgChunk)).take
            ((k + 1 - restartOf ul k + 1) * cfgChunk) =
            ((units.map UInt8.ofNat).drop (restartOf ul k * cfgChunk)).take
              ((k + 1 - restartOf ul k) * cfgChunk) ++
              ((units.drop ((k + 1) * cfgChunk)).take cfgChunk).map UInt8.ofNat := by
          rw [Nat.succ_mul, List.take_add, List.drop_drop, hindex, List.map_take, List.map_drop]
        have hroom (x y : CStr) (m : Nat) :
            x.take m ++ y.take (m - (x.take m).length) = (x ++ y).take m := by
          rw [List.take_append, List.length_take]
          congr 2
          omega
        rw [if_neg hfirst, ih, hrestart, hcount, hmore, hroom]

/-- The settings wait for the last chunk. -/
theorem settings_afterChunks (d : RestoreState) {k : Nat} (hk : k < chunkCount units) :
    (afterChunks ul units d k).settings = d.settings := by
  induction k with
  | zero => rfl
  | succ k ih =>
      have hmore : ¬units.length ≤ (k + 1) * cfgChunk := by
        unfold chunkCount cfgChunk at hk
        unfold cfgChunk
        omega
      rw [afterChunks_succ, cfgRestoreCGIHandler_chunk]
      dsimp only
      rw [if_neg hmore]
      exact ih (Nat.lt_of_succ_lt hk)

/-- The bytes of a text that the device has after the last chunk. -/
def uploaded (json : List Char) : CStr :=
  (sentBytes json).drop (restartOf ul (chunkCount (json.flatMap utf16) - 1) * cfgChunk)

theorem uploaded_of_le {json : List Char} (h : (sentBytes json).length ≤ cfgChunk * 2 ^ 32) :
    uploaded ul json = sentBytes json := by
  have hcount : chunkCount (json.flatMap utf16) - 1 < 2 ^ 32 := by
    rw [length_sentBytes] at h
    unfold chunkCount
    have hle : (json.flatMap utf16).length + (cfgChunk - 1) < cfgChunk * (2 ^ 32 + 1) := by
      rw [Nat.mul_add, Nat.mul_one]
      exact Nat.add_lt_add_of_le_of_lt h (by decide)
    have hdiv := Nat.div_lt_of_lt_mul hle
    generalize ((json.flatMap utf16).length + (cfgChunk - 1)) / cfgChunk = count at hdiv
    omega
  rw [uploaded, restartOf_of_lt ul hcount, Nat.zero_mul, List.drop_zero]

/-- **The upload.**  The device reads the text that was sent, as far as the buffer has it. -/
theorem doRestore_settings {json : List Char} (d : RestoreState) (hpos : json ≠ []) :
    ((doRestore json).foldl (RestoreState.cfgRestoreCGIHandler ul) d).settings =
      d.settings.restoredFrom ul (bufferText (uploaded ul json)) := by
  obtain ⟨c, cs, hjson⟩ := List.exists_cons_of_ne_nil hpos
  have hunits := List.length_pos_iff.mpr (utf16_ne_nil c)
  have hlength : 0 < (json.flatMap utf16).length := by
    rw [hjson, List.flatMap_cons, List.length_append]
    omega
  obtain ⟨k, hk⟩ : ∃ k, chunkCount (json.flatMap utf16) = k + 1 := by
    refine ⟨chunkCount (json.flatMap utf16) - 1, ?_⟩
    unfold chunkCount cfgChunk
    omega
  have hlast : (json.flatMap utf16).length ≤ (k + 1) * cfgChunk := by
    unfold chunkCount cfgChunk at hk
    unfold cfgChunk
    omega
  have hin : k < chunkCount (json.flatMap utf16) := hk ▸ Nat.lt_succ_self k
  have hbuf := buf_afterChunks ul (json.flatMap utf16) d k
  have hall : (((json.flatMap utf16).map UInt8.ofNat).drop (restartOf ul k * cfgChunk)).take
      ((k + 1 - restartOf ul k) * cfgChunk) = uploaded ul json := by
    have hle := restartOf_le ul k
    unfold uploaded
    rw [hk, Nat.add_sub_cancel]
    apply List.take_of_length_le
    rw [List.length_drop, List.length_map, Nat.sub_mul]
    exact Nat.sub_le_sub_right hlast _
  rw [hall] at hbuf
  have hfold : (doRestore json).foldl (RestoreState.cfgRestoreCGIHandler ul) d =
      afterChunks ul (json.flatMap utf16) d (k + 1) := by
    unfold doRestore afterChunks
    rw [← hk, chunkCount]
  rw [hfold]
  rw [afterChunks_succ, cfgRestoreCGIHandler_chunk] at hbuf ⊢
  dsimp only at hbuf ⊢
  rw [if_pos hlast] at hbuf ⊢
  dsimp only at hbuf ⊢
  rw [hbuf, settings_afterChunks ul _ d hin]
  rfl

end HomeAuto
