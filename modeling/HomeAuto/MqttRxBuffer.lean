import HomeAuto.Lib.TextBuffer
import HomeAuto.MqttDelivery

/-!
# The assembly buffer of the MQTT client (`MQTTRecvCB`, `MQTTHandlePacket`)

The receive path once more, on the array `pui8Rx` and the counter `ui16RxLen`, with the
widths of the source: the multiplier and the lengths of packets wrap at 16 bits, the
remaining length at 32.  Every read of the array is written down, and so are the two slices
that go to the application.

* `lenLoop_eq` — the header loop on the array is the one on the bytes received;
* `rxHeader_contents` — a pass of the parse loop finds a packet where `rxHeader` does;
* `passSafe` — its reads lie within the bytes received, its slices within the packet, and
  what goes on goes on with less;
* `parseLoop_eq` — the loop ends, and does what `Framing.parse` does;
* `bytesOf_slices` — the slices are the topic and the payload that the handler takes.
-/

namespace HomeAuto

/-- `pui8Rx` and `ui16RxLen`. -/
structure RxBuffer where
  rx : Nat → UInt8
  rxLen : BitVec 16

/-- `ui16HdrLen` and `ui32RemLen` as the header loop leaves them, and the bytes it read. -/
structure LenField where
  hdrLen : Nat
  remLen : BitVec 32
  reads : List Nat

/-- A part of the array. -/
structure RxSlice where
  start : Nat
  len : Nat
  deriving DecidableEq

namespace RxBuffer

/-- The bytes received and not yet parsed. -/
def contents (b : RxBuffer) : List UInt8 := (List.range b.rxLen.toNat).map b.rx

/-- The array before anything is received. -/
def empty : RxBuffer := ⟨fun _ => 0, 0#16⟩

/-- `ui16RxLen = 0`. -/
def reset (b : RxBuffer) : RxBuffer := { b with rxLen := 0#16 }

/-- One segment of a delivery: it is appended if it fits, and otherwise everything that is
there is discarded. -/
def copySeg (b : RxBuffer) (seg : List UInt8) : RxBuffer :=
  if b.rxLen.toNat + seg.length ≤ mqttRxbufSize then
    ⟨TextBuffer.writeFrom b.rxLen.toNat seg b.rx, b.rxLen + BitVec.ofNat 16 seg.length⟩
  else b.reset

/-- The loop that decodes the remaining length, from `ui16Idx` on; at most `left` more
bytes. -/
def lenLoop (b : RxBuffer) : (left idx : Nat) → BitVec 16 → LenField → LenField
  | 0, _, _, f => f
  | left + 1, idx, mult, f =>
      if idx < b.rxLen.toNat then
        if b.rx idx &&& 0x80 = 0 then
          ⟨f.hdrLen + 1, f.remLen + BitVec.ofNat 32 ((b.rx idx &&& 0x7F).toNat * mult.toNat),
            f.reads ++ [idx]⟩
        else
          b.lenLoop left (idx + 1) (mult <<< 7)
            ⟨f.hdrLen + 1, f.remLen + BitVec.ofNat 32 ((b.rx idx &&& 0x7F).toNat * mult.toNat),
              f.reads ++ [idx]⟩
      else f

/-- The length field of one pass of the parse loop. -/
def lenField (b : RxBuffer) : LenField := b.lenLoop 4 1 1#16 ⟨1, 0#32, []⟩

/-- `ui16HdrLen + ui32RemLen`. -/
def total (b : RxBuffer) : BitVec 32 := BitVec.ofNat 32 b.lenField.hdrLen + b.lenField.remLen

/-- The bytes in the buffer are not yet a packet, by the lengths that the parser computes:
there are fewer than two, or the length field goes on behind them, or the packet does. -/
def Incomplete (b : RxBuffer) : Prop :=
  b.rxLen.toNat < 2 ∨
    (b.rx (b.lenField.hdrLen - 1) &&& 0x80 ≠ 0 ∧ b.rxLen.toNat ≤ b.lenField.hdrLen) ∨
    b.rxLen.toNat < b.total.toNat

instance (b : RxBuffer) : Decidable b.Incomplete := inferInstanceAs (Decidable (_ ∨ _ ∨ _))

/-- The slices that `MQTTHandlePacket` passes to the application: topic and payload. -/
def slices (b : RxBuffer) : Option (RxSlice × RxSlice) :=
  let hdr := b.lenField.hdrLen
  let rem := b.lenField.remLen.toNat
  let topicLen := (b.rx hdr).toNat * 256 + (b.rx (hdr + 1)).toNat
  if b.rx 0 &&& 0xF0 = 0x30 ∧ 2 ≤ rem ∧ 2 + topicLen ≤ rem then
    some (⟨hdr + 2, topicLen⟩, ⟨hdr + 2 + topicLen, (rem - 2 - topicLen) % 65536⟩)
  else none

/-- The bytes that `MQTTHandlePacket` reads itself. -/
def handleReads (b : RxBuffer) : List Nat :=
  let hdr := b.lenField.hdrLen
  0 :: (if 2 ≤ b.lenField.remLen.toNat then
      if b.rx 0 &&& 0xF0 = 0x20 then [hdr + 1]
      else if b.rx 0 &&& 0xF0 = 0x30 then [hdr, hdr + 1]
      else []
    else [])

/-- `ui16Consumed` and `ui16Left`. -/
def consumed (b : RxBuffer) : BitVec 16 := b.total.setWidth 16
def left (b : RxBuffer) : BitVec 16 := b.rxLen - b.consumed

/-- The trailing bytes move to the front. -/
def shift (b : RxBuffer) : RxBuffer where
  rx i := if i < b.left.toNat then b.rx (b.consumed.toNat + i) else b.rx i
  rxLen := b.left

/-- Every byte of the array that one pass of the parse loop reads. -/
def reads (b : RxBuffer) : List Nat :=
  if b.rxLen.toNat < 2 then []
  else
    b.lenField.reads ++ [b.lenField.hdrLen - 1] ++
      (if b.Incomplete then []
        else b.handleReads ++ List.range' b.consumed.toNat b.left.toNat)

/-- The parse loop: the states of the array at the heads of its passes, the last of them the
one that it leaves. -/
def parseLoop : (fuel : Nat) → RxBuffer → Option (List RxBuffer × RxBuffer)
  | 0, _ => none
  | fuel + 1, b =>
      if b.Incomplete then some ([b], b)
      else (parseLoop fuel b.shift).map fun r => (b :: r.1, r.2)

/-- One delivery to `MQTTRecvCB`. -/
def receive (b : RxBuffer) (segs : List (List UInt8)) : Option (List RxBuffer × RxBuffer) :=
  parseLoop ((segs.foldl copySeg b).rxLen.toNat + 1) (segs.foldl copySeg b)

/-! ## The bytes received -/

@[simp] theorem length_contents (b : RxBuffer) : b.contents.length = b.rxLen.toNat := by
  simp [contents]

theorem getElem?_contents {b : RxBuffer} {i : Nat} (h : i < b.rxLen.toNat) :
    b.contents[i]? = some (b.rx i) := by
  rw [contents, List.getElem?_map, List.getElem?_range h, Option.map_some]

theorem getD_contents {b : RxBuffer} {i : Nat} (h : i < b.rxLen.toNat) :
    b.contents.getD i 0 = b.rx i := by
  rw [List.getD_eq_getElem?_getD, getElem?_contents h, Option.getD_some]

theorem drop_contents {b : RxBuffer} {i : Nat} (h : i < b.rxLen.toNat) :
    b.contents.drop i = b.rx i :: b.contents.drop (i + 1) := by
  have hlt : i < b.contents.length := by rwa [length_contents]
  have hget := getElem?_contents h
  rw [List.getElem?_eq_getElem hlt, Option.some.injEq] at hget
  rw [List.drop_eq_getElem_cons hlt, hget]

/-- A segment goes into the array as it goes into the list of the bytes received. -/
theorem contents_copySeg {b : RxBuffer} (seg : List UInt8) :
    (b.copySeg seg).contents = Framing.accumulate mqttRxbufSize b.contents seg := by
  unfold copySeg Framing.accumulate
  rw [length_contents]
  split
  · rename_i hfits
    have hlen : (b.rxLen + BitVec.ofNat 16 seg.length).toNat = b.rxLen.toNat + seg.length := by
      unfold mqttRxbufSize at hfits
      rw [BitVec.toNat_add, BitVec.toNat_ofNat]
      omega
    refine List.ext_getElem? fun i => ?_
    by_cases hi : i < b.rxLen.toNat + seg.length
    · rw [getElem?_contents (by rwa [hlen])]
      by_cases hold : i < b.rxLen.toNat
      · rw [List.getElem?_append_left (by rwa [length_contents]), getElem?_contents hold]
        exact congrArg some (TextBuffer.writeFrom_of_lt hold seg b.rx)
      · have hnew : i - b.rxLen.toNat < seg.length := by omega
        rw [List.getElem?_append_right (by rw [length_contents]; omega), length_contents,
          List.getElem?_eq_getElem hnew]
        exact congrArg some ((if_neg hold).trans (List.getD_eq_getElem _ _ hnew))
    · rw [List.getElem?_eq_none (by rw [length_contents, hlen]; omega),
        List.getElem?_eq_none (by rw [List.length_append, length_contents]; omega)]
  · rfl

/-- No segment makes the counter exceed the array. -/
theorem rxLen_copySeg_le (b : RxBuffer) (seg : List UInt8) :
    (b.copySeg seg).rxLen.toNat ≤ mqttRxbufSize := by
  unfold copySeg
  split
  · rename_i hfits
    unfold mqttRxbufSize at hfits ⊢
    rw [BitVec.toNat_add, BitVec.toNat_ofNat]
    omega
  · exact Nat.zero_le _

theorem contents_copySegs (segs : List (List UInt8)) (b : RxBuffer) :
    (segs.foldl copySeg b).contents =
      segs.foldl (Framing.accumulate mqttRxbufSize) b.contents := by
  induction segs generalizing b with
  | nil => rfl
  | cons seg segs ih => rw [List.foldl_cons, List.foldl_cons, ih, contents_copySeg]

theorem rxLen_copySegs_le {b : RxBuffer} (hb : b.rxLen.toNat ≤ mqttRxbufSize)
    (segs : List (List UInt8)) : (segs.foldl copySeg b).rxLen.toNat ≤ mqttRxbufSize := by
  induction segs generalizing b with
  | nil => exact hb
  | cons seg segs ih => exact ih (b.rxLen_copySeg_le seg)

/-! ## The header -/

/-- What one byte of the length field may add. -/
def groupMax : Nat := 127 * 65535

theorem group_le (byte : UInt8) (mult : BitVec 16) :
    (byte &&& 0x7F).toNat * mult.toNat ≤ groupMax := by
  have hbyte : (byte &&& 0x7F).toNat ≤ 127 := by
    rw [UInt8.toNat_and]
    exact Nat.and_le_right
  have hmult := mult.isLt
  exact Nat.mul_le_mul hbyte (by omega)

/-- **The header loop on the array** is `remLenLoop` on the bytes received, and it reads one
byte after the other.  The 32-bit sum does not wrap. -/
theorem lenLoop_eq (b : RxBuffer) (left idx : Nat) (mult : BitVec 16) (f : LenField)
    (hidx : f.hdrLen = idx) (hsum : f.remLen.toNat + left * groupMax < 2 ^ 32) :
    (b.lenLoop left idx mult f).hdrLen =
        (remLenLoop left mult.toNat ⟨idx, f.remLen.toNat⟩ (b.contents.drop idx)).hdrLen ∧
      (b.lenLoop left idx mult f).remLen.toNat =
        (remLenLoop left mult.toNat ⟨idx, f.remLen.toNat⟩ (b.contents.drop idx)).remLen ∧
      (b.lenLoop left idx mult f).reads =
        f.reads ++ List.range' idx ((b.lenLoop left idx mult f).hdrLen - idx) := by
  induction left generalizing idx mult f with
  | zero => simp [lenLoop, remLenLoop, hidx]
  | succ left ih =>
      by_cases hlt : idx < b.rxLen.toNat
      · have hgroup := group_le (b.rx idx) mult
        have hrem : (f.remLen + BitVec.ofNat 32
            ((b.rx idx &&& 0x7F).toNat * mult.toNat)).toNat =
            f.remLen.toNat + (b.rx idx &&& 0x7F).toNat * mult.toNat := by
          rw [BitVec.toNat_add, BitVec.toNat_ofNat]
          unfold groupMax at hsum hgroup
          omega
        rw [lenLoop, if_pos hlt, drop_contents hlt, remLenLoop]
        by_cases hlast : b.rx idx &&& 0x80 = 0
        · rw [if_pos hlast, if_pos hlast]
          refine ⟨congrArg (· + 1) hidx, hrem, ?_⟩
          have hone : idx + 1 - idx = 1 := by omega
          dsimp only
          rw [hidx, hone]
          rfl
        · have hshift : (mult <<< 7).toNat = mult.toNat <<< 7 % 65536 := BitVec.toNat_shiftLeft
          rw [if_neg hlast, if_neg hlast]
          obtain ⟨hhdr, hval, hreads⟩ := ih (idx + 1) (mult <<< 7)
            ⟨f.hdrLen + 1, f.remLen + BitVec.ofNat 32 ((b.rx idx &&& 0x7F).toNat * mult.toNat),
              f.reads ++ [idx]⟩ (congrArg (· + 1) hidx) (by
                rw [hrem]
                rw [Nat.add_mul] at hsum
                omega)
          rw [hrem, hshift] at hhdr hval
          refine ⟨hhdr, hval, ?_⟩
          have hge := (remLenLoop_hdrLen left (mult.toNat <<< 7 % 65536)
            ⟨idx + 1, f.remLen.toNat + (b.rx idx &&& 0x7F).toNat * mult.toNat⟩
            (b.contents.drop (idx + 1))).1
          rw [← hhdr] at hge
          obtain ⟨n, hn⟩ := Nat.exists_eq_add_of_le hge
          dsimp only at hn
          rw [hreads, hn, Nat.add_sub_cancel_left]
          have hcount : idx + 1 + n - idx = n + 1 := by omega
          rw [hcount, List.range'_succ, List.append_assoc]
          rfl
      · have hnil : b.contents.drop idx = [] := by
          rw [List.drop_eq_nil_iff, length_contents]
          omega
        rw [lenLoop, if_neg hlt, hnil, remLenLoop]
        simp [hidx]

/-- The header that the parser computes, on the bytes received. -/
def header (b : RxBuffer) : RxHeader := remLenLoop 4 1 ⟨1, 0⟩ (b.contents.drop 1)

theorem lenField_eq (b : RxBuffer) :
    b.lenField.hdrLen = b.header.hdrLen ∧ b.lenField.remLen.toNat = b.header.remLen ∧
      b.lenField.reads = List.range' 1 (b.header.hdrLen - 1) := by
  have hsum : (0#32).toNat + 4 * groupMax < 2 ^ 32 := by decide
  obtain ⟨hhdr, hrem, hreads⟩ := b.lenLoop_eq 4 1 1#16 ⟨1, 0#32, []⟩ rfl hsum
  rw [hhdr, List.nil_append] at hreads
  exact ⟨hhdr, hrem, hreads⟩

/-- The loop counts at most four bytes. -/
theorem remLenLoop_hdrLen_le (n mult : Nat) (k : RxHeader) (bs : List UInt8) :
    (remLenLoop n mult k bs).hdrLen ≤ k.hdrLen + n := by
  induction n generalizing mult k bs with
  | zero => exact Nat.le_refl _
  | succ n ih =>
      cases bs with
      | nil => exact Nat.le_add_right _ _
      | cons c bs =>
          rw [remLenLoop]
          split
          · dsimp only
            omega
          · have hrest := ih ((mult <<< 7) % 65536)
              ⟨k.hdrLen + 1, k.remLen + (c &&& 0x7F).toNat * mult⟩ bs
            dsimp only at hrest
            omega

/-- What the loop adds up stays far below `2 ^ 32`. -/
theorem remLenLoop_remLen_le (n : Nat) {mult : Nat} (hmult : mult ≤ 65535) (k : RxHeader)
    (bs : List UInt8) : (remLenLoop n mult k bs).remLen ≤ k.remLen + n * groupMax := by
  induction n generalizing mult k bs with
  | zero => exact Nat.le_add_right _ _
  | succ n ih =>
      cases bs with
      | nil => exact Nat.le_add_right _ _
      | cons c bs =>
          have hbyte : (c &&& 0x7F).toNat ≤ 127 := by
            rw [UInt8.toNat_and]
            exact Nat.and_le_right
          have hgroup : (c &&& 0x7F).toNat * mult ≤ groupMax := Nat.mul_le_mul hbyte hmult
          rw [remLenLoop]
          split
          · dsimp only
            rw [Nat.add_mul]
            omega
          · have hnext : (mult <<< 7) % 65536 ≤ 65535 := by omega
            have hrest := ih hnext ⟨k.hdrLen + 1, k.remLen + (c &&& 0x7F).toNat * mult⟩ bs
            dsimp only at hrest
            rw [Nat.add_mul]
            omega

/-- The bounds of the header: it lies within the bytes received, and its numbers within
their widths. -/
theorem header_bounds {b : RxBuffer} (h2 : 2 ≤ b.rxLen.toNat) :
    2 ≤ b.header.hdrLen ∧ b.header.hdrLen ≤ b.rxLen.toNat ∧ b.header.hdrLen ≤ 5 ∧
      b.header.remLen ≤ 4 * groupMax := by
  have hdrop := drop_contents (b := b) (i := 1) (by omega)
  have htwo := two_le_hdrLen (b.rx 1) (b.contents.drop 2)
  have hlen := (remLenLoop_hdrLen 4 1 ⟨1, 0⟩ (b.contents.drop 1)).2
  have hfive := remLenLoop_hdrLen_le 4 1 ⟨1, 0⟩ (b.contents.drop 1)
  have hone : 1 ≤ 65535 := by decide
  have hrem := remLenLoop_remLen_le 4 hone ⟨1, 0⟩ (b.contents.drop 1)
  rw [← hdrop] at htwo
  rw [List.length_drop, length_contents] at hlen
  dsimp only at hlen hfive hrem
  unfold header
  omega

theorem total_eq {b : RxBuffer} (h2 : 2 ≤ b.rxLen.toNat) : b.total.toNat = b.header.size := by
  obtain ⟨hhdr, hrem, _⟩ := b.lenField_eq
  obtain ⟨_, _, hfive, hmax⟩ := header_bounds h2
  unfold groupMax at hmax
  rw [total, BitVec.toNat_add, BitVec.toNat_ofNat, hhdr, hrem, RxHeader.size]
  omega

/-- When a pass waits, on the bytes received. -/
theorem incomplete_iff {b : RxBuffer} (h2 : 2 ≤ b.rxLen.toNat) :
    b.Incomplete ↔
      (b.rx (b.header.hdrLen - 1) &&& 0x80 ≠ 0 ∧ b.rxLen.toNat ≤ b.header.hdrLen) ∨
        b.rxLen.toNat < b.header.size := by
  have hlt : ¬b.rxLen.toNat < 2 := by omega
  unfold Incomplete
  rw [total_eq h2, b.lenField_eq.1, or_iff_right hlt]

/-- **A pass finds a packet** where the decoder does, and the same one. -/
theorem rxHeader_contents (b : RxBuffer) :
    rxHeader b.contents = if b.Incomplete then none else some b.header := by
  by_cases h2 : b.rxLen.toNat < 2
  · have hinc : b.Incomplete := .inl h2
    rw [rxHeader, length_contents, if_pos h2, if_pos hinc]
  · have hbounds := header_bounds (b := b) (by omega)
    have hwait := incomplete_iff (b := b) (by omega)
    have hget : b.contents.getD (b.header.hdrLen - 1) 0 = b.rx (b.header.hdrLen - 1) :=
      getD_contents (by omega)
    rw [rxHeader, length_contents, if_neg h2]
    change (if b.contents.getD (b.header.hdrLen - 1) 0 &&& 0x80 ≠ 0 ∧
      b.rxLen.toNat ≤ b.header.hdrLen then none
      else if b.rxLen.toNat < b.header.size then none else some b.header) = _
    rw [hget]
    by_cases hopen : b.rx (b.header.hdrLen - 1) &&& 0x80 ≠ 0 ∧ b.rxLen.toNat ≤ b.header.hdrLen
    · rw [if_pos hopen, if_pos (hwait.mpr (.inl hopen))]
    · rw [if_neg hopen]
      by_cases hshort : b.rxLen.toNat < b.header.size
      · rw [if_pos hshort, if_pos (hwait.mpr (.inr hshort))]
      · rw [if_neg hshort, if_neg fun h => (hwait.mp h).elim hopen hshort]

/-- A complete packet lies within the bytes received. -/
theorem complete_bounds {b : RxBuffer} (h : ¬b.Incomplete) :
    2 ≤ b.rxLen.toNat ∧ b.total.toNat = b.header.size ∧ b.header.size ≤ b.rxLen.toNat ∧
      2 ≤ b.header.hdrLen := by
  have h2 : 2 ≤ b.rxLen.toNat := by
    by_contra hlt
    exact h (.inl (by omega))
  have hsize : b.total.toNat ≤ b.rxLen.toNat := by
    by_contra hlt
    exact h (.inr (.inr (by omega)))
  have htotal := total_eq h2
  exact ⟨h2, htotal, by omega, (header_bounds h2).1⟩

/-! ## One pass -/

/-- The 16-bit lengths of the shift are the true ones. -/
theorem shift_lengths {b : RxBuffer} (h : ¬b.Incomplete) :
    b.consumed.toNat = b.header.size ∧ b.left.toNat = b.rxLen.toNat - b.header.size := by
  obtain ⟨_, htotal, hle, _⟩ := complete_bounds h
  have hlt := b.rxLen.isLt
  have hconsumed : b.consumed.toNat = b.header.size := by
    rw [consumed, BitVec.toNat_setWidth, htotal]
    omega
  refine ⟨hconsumed, ?_⟩
  rw [left, BitVec.toNat_sub, hconsumed]
  omega

/-- **The shift drops the packet** from the bytes received. -/
theorem contents_shift {b : RxBuffer} (h : ¬b.Incomplete) :
    b.shift.contents = b.contents.drop b.header.size := by
  obtain ⟨hconsumed, hleft⟩ := shift_lengths h
  have hrest : b.shift.rxLen.toNat = b.rxLen.toNat - b.header.size := hleft
  refine List.ext_getElem? fun i => ?_
  rw [List.getElem?_drop]
  by_cases hi : i < b.rxLen.toNat - b.header.size
  · rw [getElem?_contents (by omega), getElem?_contents (by omega)]
    change some (if i < b.left.toNat then b.rx (b.consumed.toNat + i) else b.rx i) = _
    rw [if_pos (by omega), hconsumed]
  · rw [List.getElem?_eq_none (by rw [length_contents]; omega),
      List.getElem?_eq_none (by rw [length_contents]; omega)]

/-- What holds of one pass of the parse loop: it reads bytes that were received; the slices
that it passes on lie in the packet, one behind the other, behind the header and up to its
end; and if the loop goes on, it does so with less. -/
structure PassSafe (b : RxBuffer) : Prop where
  fits : b.rxLen.toNat ≤ mqttRxbufSize
  reads : ∀ i ∈ b.reads, i < b.rxLen.toNat
  slices : ¬b.Incomplete → ∀ topic payload, b.slices = some (topic, payload) →
    b.lenField.hdrLen + 2 = topic.start ∧ topic.start + topic.len = payload.start ∧
      payload.start + payload.len = b.total.toNat ∧ b.total.toNat ≤ b.rxLen.toNat
  shrinks : ¬b.Incomplete → b.shift.rxLen.toNat < b.rxLen.toNat

/-- The bytes that a pass reads were received. -/
theorem lt_of_mem_reads {b : RxBuffer} {i : Nat} (hi : i ∈ b.reads) : i < b.rxLen.toNat := by
  unfold reads at hi
  by_cases h2 : b.rxLen.toNat < 2
  · rw [if_pos h2] at hi
    cases hi
  · rw [if_neg h2] at hi
    obtain ⟨hhdr, hrem, hreads⟩ := b.lenField_eq
    have hbounds := header_bounds (b := b) (by omega)
    rcases List.mem_append.mp hi with hi | hi
    · -- the header loop, and the last byte of the field once more
      rcases List.mem_append.mp hi with hi | hi
      · rw [hreads, List.mem_range'_1] at hi
        omega
      · rw [List.mem_singleton, hhdr] at hi
        omega
    · by_cases hinc : b.Incomplete
      · rw [if_pos hinc] at hi
        cases hi
      · rw [if_neg hinc] at hi
        obtain ⟨_, _, hsize, _⟩ := complete_bounds hinc
        obtain ⟨hconsumed, hleft⟩ := shift_lengths hinc
        unfold RxHeader.size at hsize hconsumed hleft
        rcases List.mem_append.mp hi with hi | hi
        · -- the handler reads the first bytes of a body that is long enough
          unfold handleReads at hi
          rw [hhdr, hrem] at hi
          rcases List.mem_cons.mp hi with rfl | hi
          · omega
          · split at hi
            · split at hi
              · rw [List.mem_singleton] at hi
                omega
              · split at hi
                · simp only [List.mem_cons, List.not_mem_nil, or_false] at hi
                  omega
                · cases hi
            · cases hi
        · rw [List.mem_range'_1] at hi
          omega

/-- The slices of a packet lie in it. -/
theorem slices_inside {b : RxBuffer} (h : ¬b.Incomplete)
    (hb : b.rxLen.toNat ≤ mqttRxbufSize) {topic payload : RxSlice}
    (hs : b.slices = some (topic, payload)) :
    b.lenField.hdrLen + 2 = topic.start ∧ topic.start + topic.len = payload.start ∧
      payload.start + payload.len = b.total.toNat ∧ b.total.toNat ≤ b.rxLen.toNat := by
  obtain ⟨_, htotal, hsize, _⟩ := complete_bounds h
  obtain ⟨hhdr, hrem, _⟩ := b.lenField_eq
  unfold slices at hs
  unfold RxHeader.size at hsize htotal
  unfold mqttRxbufSize at hb
  dsimp only at hs
  split at hs
  · rename_i hlong
    rw [Option.some.injEq, Prod.mk.injEq] at hs
    obtain ⟨rfl, rfl⟩ := hs
    have hbody : b.lenField.remLen.toNat < 65536 := by omega
    dsimp only
    omega
  · cases hs

/-- **Every pass of the parse loop is safe.** -/
theorem passSafe {b : RxBuffer} (hb : b.rxLen.toNat ≤ mqttRxbufSize) : b.PassSafe where
  fits := hb
  reads := fun _ hi => lt_of_mem_reads hi
  slices := fun h _ _ hs => slices_inside h hb hs
  shrinks := by
    intro h
    obtain ⟨_, hleft⟩ := shift_lengths h
    obtain ⟨_, _, hsize, htwo⟩ := complete_bounds h
    have hpos : 0 < b.header.size := by
      unfold RxHeader.size
      omega
    change b.left.toNat < _
    omega

/-! ## The loop -/

/-- The packets of the passes that found one. -/
def packets (heads : List RxBuffer) : List (RxHeader × List UInt8) :=
  (heads.filter fun b => ¬b.Incomplete).map fun b => (b.header, b.contents.take b.header.size)

/-- **The parse loop ends**, after safe passes only, where the parser waits; it has split the
bytes received as `Framing.parse` does. -/
theorem parseLoop_eq {fuel : Nat} {b : RxBuffer} (hb : b.rxLen.toNat ≤ mqttRxbufSize)
    (hfuel : b.rxLen.toNat < fuel) :
    ∃ heads b', parseLoop fuel b = some (heads, b') ∧ (∀ h ∈ heads, h.PassSafe) ∧
      b'.Incomplete ∧ b'.rxLen.toNat ≤ mqttRxbufSize ∧
      Framing.parse rxHeader RxHeader.size b.contents = (packets heads, b'.contents) := by
  induction fuel generalizing b with
  | zero => omega
  | succ fuel ih =>
      have hnext := b.rxHeader_contents
      by_cases hinc : b.Incomplete
      · rw [if_pos hinc] at hnext
        refine ⟨[b], b, ?_, ?_, hinc, hb, ?_⟩
        · rw [parseLoop, if_pos hinc]
        · intro h hh
          rw [List.mem_singleton.mp hh]
          exact passSafe hb
        · rw [Framing.parse_of_none hnext]
          simp [packets, hinc]
      · rw [if_neg hinc] at hnext
        have hless := (passSafe hb).shrinks hinc
        obtain ⟨heads, b', hloop, hsafe, hwait, hle, hparse⟩ :=
          ih (b := b.shift) (by omega) (by omega)
        refine ⟨b :: heads, b', ?_, ?_, hwait, hle, ?_⟩
        · rw [parseLoop, if_neg hinc, hloop]
          rfl
        · intro h hh
          rcases List.mem_cons.mp hh with rfl | hh
          · exact passSafe hb
          · exact hsafe h hh
        · rw [Framing.parse_of_some stable_rxHeader hnext, ← contents_shift hinc, hparse]
          simp [packets, hinc]

/-- What holds of one delivery: the counter stays within the array while the segments are
copied, the loop ends after safe passes only, and what it leaves is not yet a packet. -/
def DeliverySafe (b : RxBuffer) (segs : List (List UInt8)) : Prop :=
  (∀ pre, pre <+: segs → (pre.foldl copySeg b).rxLen.toNat ≤ mqttRxbufSize) ∧
    ∃ heads b', b.receive segs = some (heads, b') ∧ (∀ h ∈ heads, h.PassSafe) ∧
      b'.Incomplete ∧ b'.rxLen.toNat ≤ mqttRxbufSize

/-- **One delivery**, on the array and on the bytes received. -/
theorem receive_eq {b : RxBuffer} (hb : b.rxLen.toNat ≤ mqttRxbufSize)
    (segs : List (List UInt8)) :
    ∃ heads b', b.receive segs = some (heads, b') ∧ (∀ h ∈ heads, h.PassSafe) ∧
      b'.Incomplete ∧ b'.rxLen.toNat ≤ mqttRxbufSize ∧
      Mqtt.rxParse b.contents segs = (packets heads, b'.contents) := by
  have hcopied := rxLen_copySegs_le hb segs
  have hloop := parseLoop_eq hcopied (Nat.lt_succ_self _)
  rw [contents_copySegs] at hloop
  exact hloop

theorem deliverySafe {b : RxBuffer} (hb : b.rxLen.toNat ≤ mqttRxbufSize)
    (segs : List (List UInt8)) : b.DeliverySafe segs := by
  obtain ⟨heads, b', hreceive, hsafe, hwait, hle, _⟩ := receive_eq hb segs
  exact ⟨fun pre _ => rxLen_copySegs_le hb pre, heads, b', hreceive, hsafe, hwait, hle⟩

/-- The bytes of a slice. -/
def bytesOf (b : RxBuffer) (s : RxSlice) : List UInt8 := (b.contents.drop s.start).take s.len

/-- **The slices are the message**: topic and payload of the packet, as the handler of a
PUBLISH takes them from it. -/
theorem bytesOf_slices {b : RxBuffer} (h : ¬b.Incomplete) :
    (b.slices.map fun s => (b.bytesOf s.1, b.bytesOf s.2)) =
      if b.rx 0 &&& 0xF0 = 0x30 then
        Mqtt.publishBody ((b.contents.take b.header.size).drop b.header.hdrLen) b.header.remLen
      else none := by
  obtain ⟨_, _, hsize, htwo⟩ := complete_bounds h
  obtain ⟨hhdr, hrem, _⟩ := b.lenField_eq
  unfold RxHeader.size at hsize
  have hbody : (b.contents.take b.header.size).drop b.header.hdrLen =
      (b.contents.drop b.header.hdrLen).take b.header.remLen := by
    rw [List.drop_take, RxHeader.size, Nat.add_sub_cancel_left]
  have hchar (i : Nat) (hi : i < b.header.remLen) :
      charAt ((b.contents.drop b.header.hdrLen).take b.header.remLen) i =
        b.rx (b.header.hdrLen + i) := by
    rw [charAt, List.getD_eq_getElem?_getD, List.getElem?_take_of_lt hi, List.getElem?_drop,
      getElem?_contents (by omega), Option.getD_some]
  rw [hbody]
  unfold slices
  dsimp only
  rw [hhdr, hrem]
  by_cases htype : b.rx 0 &&& 0xF0 = 0x30
  · rw [if_pos htype]
    unfold Mqtt.publishBody
    by_cases hlong : 2 ≤ b.header.remLen
    · rw [hchar 0 (by omega), hchar 1 (by omega), Nat.add_zero]
      dsimp only
      generalize (b.rx b.header.hdrLen).toNat * 256 + (b.rx (b.header.hdrLen + 1)).toNat = topicLen
      by_cases hfits : 2 + topicLen ≤ b.header.remLen
      · have hmod : (b.header.remLen - 2 - topicLen) % 65536 ≤ b.header.remLen - 2 - topicLen :=
          Nat.mod_le _ _
        rw [if_pos ⟨htype, hlong, hfits⟩, if_pos ⟨hlong, hfits⟩, Option.map_some]
        unfold bytesOf
        dsimp only
        rw [List.drop_take, List.drop_take, List.drop_drop, List.drop_drop, List.take_take,
          List.take_take, Nat.min_eq_left (by omega), Nat.min_eq_left (by omega), Nat.add_assoc]
      · rw [if_neg fun h => hfits h.2.2, if_neg fun h => hfits h.2]
        rfl
    · rw [if_neg fun h => hlong h.2.1, if_neg fun h => hlong h.1]
      rfl
  · rw [if_neg fun h => htype h.1, if_neg htype]
    rfl

end RxBuffer

end HomeAuto
