import HomeAuto.MqttConnect
import HomeAuto.MqttRxBuffer

/-!
# The remaining length, written and read (`MQTTEncodeLen`, `MQTTRecvCB`)

`MQTTEncodeLen` writes every remaining length of MQTT 3.1.1 as the standard has it.  The loop in
`MQTTRecvCB` reads up to four bytes, but its multiplier has 16 bits: after three groups of seven
it is 0, so the fourth byte counts for nothing.  And a fourth byte that says the field goes on
ends it all the same, once more bytes are there.

* `lenAnswer_of_takeLength` — what the loop makes of a field: its value modulo 2^21;
* `lenAnswer_of_none` — what it makes of bytes that are no field, or not yet;
* `lengthCodec_iff` — when it is right, on what is written and on any bytes.
-/

namespace HomeAuto

/-- The largest remaining length of the standard. -/
def mqttMaxLen : Nat := 268435455

/-! ## One byte of the field -/

/-- The top bit of a byte. -/
theorem topBit_eq_zero_iff (b : UInt8) : b &&& 0x80 = 0 ↔ b.toNat < 128 := by
  have hbits : ∀ n < 256, (n &&& 128 = 0 ↔ n < 128) := by decide +kernel
  rw [← UInt8.toNat_inj, UInt8.toNat_and]
  exact hbits b.toNat b.toNat_lt

theorem toNat_and_0x7F (b : UInt8) : (b &&& 0x7F).toNat = b.toNat % 128 := by
  rw [UInt8.toNat_and]
  exact Nat.and_two_pow_sub_one_eq_mod b.toNat 7

/-! ## The loop on a list of bytes -/

/-- `ui16Mult` when up to `groups` of the four bytes are still to come. -/
def multBefore (groups : Nat) : Nat := if groups ≤ 1 then 0 else 128 ^ (4 - groups)

theorem multBefore_succ {groups : Nat} (h : groups < 4) :
    multBefore (groups + 1) <<< 7 % 65536 = multBefore groups := by
  have hall : ∀ g < 4, multBefore (g + 1) <<< 7 % 65536 = multBefore g := by decide
  exact hall groups h

/-- The value of a last group, as far as it counts. -/
theorem multBefore_mul_last {groups n : Nat} (h : n < 128) :
    multBefore (groups + 1) * (n % 128 ^ (groups + 1 - 1)) = multBefore (groups + 1) * n := by
  cases groups with
  | zero => rw [multBefore, if_pos (by decide), Nat.zero_mul, Nat.zero_mul]
  | succ groups =>
      have hle : 128 ≤ 128 ^ (groups + 1) := Nat.le_self_pow (by omega) 128
      rw [Nat.add_sub_cancel, Nat.mod_eq_of_lt (by omega)]

/-- A group and what is to come, as far as they count. -/
theorem multBefore_mul_groups {groups n w : Nat} (hn : n < 128) (hfour : groups < 4)
    (hpos : 0 < groups) :
    multBefore (groups + 1) * ((n + 128 * w) % 128 ^ (groups + 1 - 1)) =
      multBefore (groups + 1) * n + multBefore groups * (w % 128 ^ (groups - 1)) := by
  obtain ⟨m, rfl⟩ : ∃ m, groups = m + 1 := ⟨groups - 1, by omega⟩
  have hmod : (n + 128 * w) % 128 ^ (m + 1) = n + 128 * (w % 128 ^ m) := by
    rw [Nat.pow_succ, Nat.mul_comm (128 ^ m), Nat.mod_mul, Nat.add_mul_mod_self_left,
      Nat.mod_eq_of_lt hn, Nat.add_mul_div_left _ _ (by decide), Nat.div_eq_of_lt hn, Nat.zero_add]
  rw [Nat.add_sub_cancel, Nat.add_sub_cancel, hmod, Nat.mul_add]
  cases m with
  | zero => simp [multBefore, Nat.mod_one]
  | succ m =>
      have hnext : multBefore (m + 1 + 1) = multBefore (m + 1 + 1 + 1) * 128 := by
        have hall : ∀ g < 2, multBefore (g + 1 + 1) = multBefore (g + 1 + 1 + 1) * 128 := by decide
        exact hall m (by omega)
      rw [hnext, Nat.mul_assoc]

/-- **The loop on a field** stops with it, and its last group is lost. -/
theorem remLenLoop_takeLength {groups : Nat} (hfour : groups ≤ 4) {bs rest : List UInt8} {v : Nat}
    (h : MqttWire.takeLength groups bs = some (v, rest)) (k : RxHeader) :
    ∃ field, bs = field ++ rest ∧ field ≠ [] ∧ bs.getD (field.length - 1) 0 &&& 0x80 = 0 ∧
      remLenLoop groups (multBefore groups) k bs =
        ⟨k.hdrLen + field.length,
          k.remLen + multBefore groups * (v % 128 ^ (groups - 1))⟩ := by
  induction groups generalizing bs v k with
  | zero => cases h
  | succ groups ih =>
      cases bs with
      | nil => cases h
      | cons b bs =>
          rw [MqttWire.takeLength] at h
          have hlow := toNat_and_0x7F b
          by_cases hlast : b.toNat < 128
          · rw [if_pos hlast, Option.some.injEq, Prod.mk.injEq] at h
            obtain ⟨rfl, rfl⟩ := h
            have hbit := (topBit_eq_zero_iff b).mpr hlast
            refine ⟨[b], rfl, List.cons_ne_nil b [], hbit, ?_⟩
            rw [remLenLoop, if_pos hbit, hlow, Nat.mod_eq_of_lt hlast, multBefore_mul_last hlast,
              Nat.mul_comm]
            rfl
          · rw [if_neg hlast, Option.map_eq_some_iff] at h
            obtain ⟨⟨w, tail⟩, hw, heq⟩ := h
            rw [Prod.mk.injEq] at heq
            obtain ⟨rfl, rfl⟩ := heq
            have hbit : b &&& 0x80 ≠ 0 := fun hzero => hlast ((topBit_eq_zero_iff b).mp hzero)
            obtain ⟨field, hfield, hne, hend, hloop⟩ := ih (by omega) hw
              ⟨k.hdrLen + 1, k.remLen + (b &&& 0x7F).toNat * multBefore (groups + 1)⟩
            refine ⟨b :: field, by rw [hfield, List.cons_append], List.cons_ne_nil b field, ?_, ?_⟩
            · obtain ⟨c, cs, rfl⟩ := List.exists_cons_of_ne_nil hne
              exact hend
            · rw [remLenLoop, if_neg hbit, multBefore_succ (by omega), hloop, List.length_cons,
                RxHeader.mk.injEq]
              refine ⟨by dsimp only; omega, ?_⟩
              have hpos : 0 < groups := by
                rcases Nat.eq_zero_or_pos groups with rfl | hpos
                · cases hw
                · exact hpos
              have hlt := b.toNat_lt
              have hgroup : b.toNat % 128 = b.toNat - 128 := by omega
              rw [hlow, hgroup, multBefore_mul_groups (by omega) (by omega) hpos]
              dsimp only
              rw [Nat.mul_comm (b.toNat - 128), Nat.add_assoc]

/-- The loop looks at its `n` bytes only. -/
theorem remLenLoop_take (n mult : Nat) (k : RxHeader) (bs : List UInt8) :
    remLenLoop n mult k (bs.take n) = remLenLoop n mult k bs := by
  induction n generalizing mult k bs with
  | zero => rfl
  | succ n ih =>
      cases bs with
      | nil => rfl
      | cons b bs =>
          rw [List.take_succ_cons, remLenLoop, remLenLoop, ih]

/-! ## What a pass makes of the field -/

namespace RxBuffer

/-- What a pass of the parse loop finds: `none` while the length field is not yet present,
otherwise the remaining length and the number of its bytes. -/
def lenAnswer (b : RxBuffer) : Option (Nat × Nat) :=
  if b.rx (b.lenField.hdrLen - 1) &&& 0x80 ≠ 0 ∧ b.rxLen.toNat ≤ b.lenField.hdrLen then none
  else some (b.lenField.remLen.toNat, b.lenField.hdrLen - 1)

/-- The bytes behind the type of the packet. -/
def tail (b : RxBuffer) : List UInt8 := b.contents.drop 1

theorem length_tail (b : RxBuffer) : b.tail.length = b.rxLen.toNat - 1 := by
  rw [tail, List.length_drop, length_contents]

theorem getD_tail {b : RxBuffer} {i : Nat} (h : i < b.tail.length) :
    b.tail.getD i 0 = b.rx (i + 1) := by
  rw [length_tail] at h
  have hget := getD_contents (b := b) (i := i + 1) (by omega)
  rw [List.getD_eq_getElem?_getD] at hget ⊢
  rw [← hget, tail, List.getElem?_drop, Nat.add_comm]

/-- **A field that the standard reads**: it is consumed, but of its value only three groups
count. -/
theorem lenAnswer_of_takeLength {b : RxBuffer} {v : Nat} {rest : List UInt8}
    (h : MqttWire.takeLength 4 b.tail = some (v, rest)) :
    b.lenAnswer = some (v % 2097152, b.tail.length - rest.length) ∧
      rest = b.tail.drop (b.tail.length - rest.length) := by
  obtain ⟨field, htail, hne, hend, hloop⟩ := remLenLoop_takeLength (by decide) h ⟨1, 0⟩
  obtain ⟨hhdr, hrem, _⟩ := b.lenField_eq
  have hvalue : 0 + multBefore 4 * (v % 128 ^ (4 - 1)) = v % 2097152 := by
    rw [Nat.zero_add]
    exact Nat.one_mul _
  have hheader : b.header = ⟨1 + field.length, v % 2097152⟩ := by
    rw [← hvalue]
    exact hloop
  have hpos : 0 < field.length := List.length_pos_iff.mpr hne
  have hlen : b.tail.length = field.length + rest.length := by rw [htail, List.length_append]
  rw [getD_tail (by omega)] at hend
  rw [hheader] at hhdr hrem
  dsimp only at hhdr hrem
  have hindex : 1 + field.length - 1 = field.length - 1 + 1 := by omega
  have hcount : b.tail.length - rest.length = field.length := by omega
  refine ⟨?_, ?_⟩
  · rw [lenAnswer, hhdr, hindex, if_neg fun hopen => hopen.1 hend, hrem, hcount]
    rw [Nat.sub_add_cancel hpos]
  · rw [hcount, htail, List.drop_left]

/-- **Bytes that are no field**: a pass waits for more while there are four at most, and then
takes the four for one. -/
theorem lenAnswer_of_none {b : RxBuffer} (h2 : 2 ≤ b.rxLen.toNat)
    (h : MqttWire.takeLength 4 b.tail = none) :
    b.lenAnswer = none ↔ b.tail.length ≤ 4 := by
  have hopen := MqttWire.takeLength_eq_none_iff.mp h
  have hall : ∀ c ∈ b.tail.take 4, c &&& 0x80 ≠ 0 := by
    intro c hc hzero
    have hlt := (topBit_eq_zero_iff c).mp hzero
    have hge := hopen c hc
    omega
  have hcount := remLenLoop_open hall 4 1 (List.length_take_le 4 _) ⟨1, 0⟩
  rw [remLenLoop_take, List.length_take] at hcount
  have hhdr : b.lenField.hdrLen = 1 + min 4 b.tail.length := b.lenField_eq.1.trans hcount
  have hlen := b.length_tail
  have hindex : b.lenField.hdrLen - 1 = min 4 b.tail.length - 1 + 1 := by omega
  have hlast : b.rx (b.lenField.hdrLen - 1) &&& 0x80 ≠ 0 := by
    have hmem : b.tail.getD (min 4 b.tail.length - 1) 0 ∈ b.tail.take 4 := by
      rw [List.getD_eq_getElem _ _ (by omega)]
      exact List.mem_take_iff_getElem.mpr ⟨_, by omega, rfl⟩
    rw [hindex, ← getD_tail (by omega)]
    exact hall _ hmem
  unfold lenAnswer
  by_cases hle : b.rxLen.toNat ≤ b.lenField.hdrLen
  · rw [if_pos ⟨hlast, hle⟩]
    exact ⟨fun _ => by omega, fun _ => rfl⟩
  · rw [if_neg fun hno => hle hno.2]
    exact ⟨nofun, fun _ => by omega⟩

/-! ## Both sides -/

/-- An answer is right that is the value of the standard, with the bytes of the field. -/
def AnswerRight (b : RxBuffer) : Prop :=
  ∀ v c, b.lenAnswer = some (v, c) →
    MqttWire.takeLength 4 b.tail = some (v, b.tail.drop c)

/-- The bytes begin with a length below 2^21; or with none, and then there are four at most. -/
def LengthInReach (bs : List UInt8) : Prop :=
  match MqttWire.takeLength 4 bs with
  | some r => r.1 < 2097152
  | none => bs.length ≤ 4

/-- A length that was written, as it is read. -/
theorem lenAnswer_mqttEncodeLen {n : Nat} (hn : n ≤ mqttMaxLen) {b : RxBuffer} {t : UInt8}
    {rest : List UInt8} (hb : b.contents = t :: (mqttEncodeLen n ++ rest)) :
    b.lenAnswer = some (n % 2097152, (mqttEncodeLen n).length) := by
  have htail : b.tail = mqttEncodeLen n ++ rest := by rw [tail, hb, List.drop_one, List.tail_cons]
  have htake : MqttWire.takeLength 4 b.tail = some (n, rest) := by
    rw [htail]
    unfold mqttMaxLen at hn
    exact takeLength_mqttEncodeLenLoop (by decide) (by decide) (by omega) rest
  rw [(lenAnswer_of_takeLength htake).1, htail, List.length_append, Nat.add_sub_cancel]

theorem answerRight_iff {b : RxBuffer} (h2 : 2 ≤ b.rxLen.toNat) :
    b.AnswerRight ↔ LengthInReach b.tail := by
  unfold AnswerRight LengthInReach
  cases htake : MqttWire.takeLength 4 b.tail with
  | none =>
      dsimp only
      rw [← lenAnswer_of_none h2 htake]
      constructor
      · intro h
        cases hans : b.lenAnswer with
        | none => rfl
        | some r => cases h r.1 r.2 hans
      · intro h v c hans
        rw [h] at hans
        cases hans
  | some r =>
      obtain ⟨v, rest⟩ := r
      obtain ⟨hans, hrest⟩ := lenAnswer_of_takeLength htake
      dsimp only
      constructor
      · intro h
        have heq := h _ _ hans
        rw [Option.some.injEq, Prod.mk.injEq] at heq
        omega
      · intro hlt v' c hans'
        rw [hans, Option.some.injEq, Prod.mk.injEq, Nat.mod_eq_of_lt hlt] at hans'
        obtain ⟨rfl, rfl⟩ := hans'
        rw [← hrest]

/-- At most four bytes are read. -/
theorem length_reads_le (b : RxBuffer) : b.lenField.reads.length ≤ 4 := by
  have hle := remLenLoop_hdrLen_le 4 1 ⟨1, 0⟩ (b.contents.drop 1)
  rw [b.lenField_eq.2.2, List.length_range', header]
  dsimp only at hle
  omega

/-- **The length codec.**  Of the remaining lengths that `MQTTEncodeLen` writes, the parse loop
reads back those below 2^21; and of all bytes it makes what the standard says, or waits, exactly
when a field among them is below 2^21, and bytes without a field are four at most. -/
theorem lengthCodec_iff (b : RxBuffer) :
    (∀ n ≤ mqttMaxLen, ∀ (t : UInt8) (rest : List UInt8),
      b.contents = t :: (mqttEncodeLen n ++ rest) →
        (b.lenAnswer = some (n, (mqttEncodeLen n).length) ↔ n < 2097152)) ∧
      (2 ≤ b.rxLen.toNat →
        b.lenField.reads.length ≤ 4 ∧ (b.AnswerRight ↔ LengthInReach b.tail)) := by
  refine ⟨fun n hn t rest hb => ?_, fun h2 => ⟨b.length_reads_le, answerRight_iff h2⟩⟩
  rw [lenAnswer_mqttEncodeLen hn hb, Option.some.injEq, Prod.mk.injEq]
  omega

/-- A buffer that has received some bytes. -/
def received (bs : List UInt8) : RxBuffer := empty.copySeg bs

/-- A length of two bytes comes back, and a field that is still open is waited for. -/
theorem lengthCodec_three_hundred :
    ((received [0x30, 0xAC, 0x02]).lenAnswer = some (300, 2) ↔ 300 < 2097152) ∧
      (received [0x30, 0xAC]).lenField.reads.length ≤ 4 ∧
      ((received [0x30, 0xAC]).AnswerRight ↔ LengthInReach (received [0x30, 0xAC]).tail) :=
  ⟨(lengthCodec_iff (received [0x30, 0xAC, 0x02])).1 300 (by decide) 0x30 [] (by decide),
    (lengthCodec_iff (received [0x30, 0xAC])).2 (by decide)⟩

/-- The first length of four bytes is read as 0, and five bytes that all go on are read as
well. -/
theorem fourth_byte_lost :
    ¬(∀ n ≤ mqttMaxLen, ∀ (b : RxBuffer) (t : UInt8) (rest : List UInt8),
      b.contents = t :: (mqttEncodeLen n ++ rest) →
        b.lenAnswer = some (n, (mqttEncodeLen n).length)) ∧
      ¬(∀ b : RxBuffer, 2 ≤ b.rxLen.toNat → b.lenField.reads.length ≤ 4 ∧ b.AnswerRight) := by
  constructor
  · intro h
    have hread := h 2097152 (by decide) (received [0x30, 0x80, 0x80, 0x80, 0x01]) 0x30 []
      (by decide)
    exact absurd hread (by decide)
  · intro h
    have hright := (h (received [0x30, 0x80, 0x80, 0x80, 0x80, 0x80]) (by decide)).2
    have htake := hright 0 4 (by decide)
    exact absurd htake (by decide)

end RxBuffer

end HomeAuto
