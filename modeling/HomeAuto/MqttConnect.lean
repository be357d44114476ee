import HomeAuto.Lib.MqttWire
import HomeAuto.MqttClient

/-!
# The CONNECT packet (`MQTTEncodeLen`, `MQTTPutStr`, `MQTTSendConnect`)

What the client writes is read back with the format of MQTT 3.1.1.

* `takeLength_mqttEncodeLen`, `takeString_mqttPutStr` — the two parts every packet has;
* `decodeConnect_mqttConnectPacket` — the fields of a CONNECT are those of the client;
* `connectFaithful_iff` — the variable part is put together in `pui8Var[256]`, which five
  strings of 63 bytes do not fit; the CONNECT is right exactly when they do.
-/

namespace HomeAuto

/-! ## Lengths and strings -/

theorem toNat_lowGroup (len : Nat) : (UInt8.ofNat (len &&& 0x7F)).toNat = len % 128 := by
  have hand : len &&& 0x7F = len % 2 ^ 7 := Nat.and_two_pow_sub_one_eq_mod len 7
  rw [hand, UInt8.toNat_ofNat']
  omega

theorem toNat_lowGroup_or (len : Nat) :
    (UInt8.ofNat (len &&& 0x7F) ||| 0x80).toNat = len % 128 + 128 := by
  have hlt : len % 128 < 2 ^ 7 := Nat.mod_lt _ (by decide)
  have hor := Nat.two_pow_add_eq_or_of_lt hlt 1
  have hbit : (0x80 : UInt8).toNat = 2 ^ 7 * 1 := rfl
  rw [UInt8.toNat_or, toNat_lowGroup, hbit, Nat.or_comm, ← hor]
  omega

/-- A length of at most `groups` groups is read back. -/
theorem takeLength_mqttEncodeLenLoop {groups k n : Nat} (hk : groups ≤ k) (hpos : 0 < groups)
    (hn : n < 128 ^ groups) (rest : List UInt8) :
    MqttWire.takeLength groups (mqttEncodeLenLoop k n ++ rest) = some (n, rest) := by
  induction groups generalizing k n with
  | zero => exact absurd hpos (by decide)
  | succ groups ih =>
      obtain ⟨k, rfl⟩ : ∃ m, k = m + 1 := ⟨k - 1, by omega⟩
      have hshift : n >>> 7 = n / 128 := Nat.shiftRight_eq_div_pow n 7
      have hsplit := Nat.div_add_mod n 128
      rw [mqttEncodeLenLoop, hshift]
      by_cases hlast : n / 128 = 0
      · have hsmall : n % 128 = n ∧ n % 128 < 128 := by omega
        rw [if_pos hlast, List.singleton_append, MqttWire.takeLength, toNat_lowGroup,
          if_pos hsmall.2, hsmall.1]
      · have hrest : n / 128 < 128 ^ groups := by
          rw [Nat.pow_succ] at hn
          exact (Nat.div_lt_iff_lt_mul (by decide)).mpr hn
        have hgroups : 0 < groups := by
          rcases Nat.eq_zero_or_pos groups with rfl | hgroups
          · omega
          · exact hgroups
        have hback := ih (k := k) (n := n / 128) (by omega) hgroups hrest
        rw [if_neg hlast, List.cons_append, MqttWire.takeLength, toNat_lowGroup_or,
          if_neg (by omega), hback, Option.map_some, Nat.add_sub_cancel]
        have hsum : n % 128 + 128 * (n / 128) = n := by omega
        rw [hsum]

/-- **A remaining length is read back.** -/
theorem takeLength_mqttEncodeLen {n : Nat} (hn : n < 65536) (rest : List UInt8) :
    MqttWire.takeLength 4 (mqttEncodeLen n ++ rest) = some (n, rest) :=
  takeLength_mqttEncodeLenLoop (by decide) (by decide) (by omega) rest

/-- The length of a remaining length. -/
theorem length_mqttEncodeLen {n : Nat} (hn : n < 16384) :
    (mqttEncodeLen n).length = if n < 128 then 1 else 2 := by
  have hshift (m : Nat) : m >>> 7 = m / 128 := Nat.shiftRight_eq_div_pow m 7
  rw [mqttEncodeLen, mqttEncodeLenLoop, hshift]
  by_cases hone : n < 128
  · rw [if_pos hone, if_pos (by omega)]
    rfl
  · rw [if_neg hone, if_neg (by omega), mqttEncodeLenLoop, hshift, if_pos (by omega)]
    rfl

theorem mqttPutStr_eq {s : CStr} (hs : s.length < 65536) :
    mqttPutStr s =
      UInt8.ofNat (s.length / 256) :: UInt8.ofNat (s.length % 256) :: s := by
  have hand : s.length &&& 0xFF = s.length % 256 := Nat.and_two_pow_sub_one_eq_mod s.length 8
  have hshift : s.length >>> 8 = s.length / 256 := Nat.shiftRight_eq_div_pow s.length 8
  rw [mqttPutStr, Nat.mod_eq_of_lt hs, hand, hshift, List.take_length]

/-- **A string is read back.** -/
theorem takeString_mqttPutStr {s : CStr} (hs : s.length < 65536) (rest : List UInt8) :
    MqttWire.takeString (mqttPutStr s ++ rest) = some (s, rest) := by
  rw [mqttPutStr_eq hs]
  refine MqttWire.takeString_cons ?_
  rw [UInt8.toNat_ofNat', UInt8.toNat_ofNat']
  omega

theorem length_mqttPutStr {s : CStr} (hs : s.length < 65536) :
    (mqttPutStr s).length = 2 + s.length := by
  rw [mqttPutStr_eq hs, List.length_cons, List.length_cons]
  omega

/-! ## The packet -/

/-- `sizeof(pui8Var)`. -/
def mqttVarSize : Nat := 256

namespace MqttClient

/-- The fields that a CONNECT of this client should have.  Without a user name there is no
password: an empty user name disables authentication. -/
def connectFields (c : MqttClient) : MqttWire.Connect where
  cleanSession := true
  keepAlive := mqttKeepaliveS
  clientID := c.clientID
  will := c.will.map fun w => ⟨w.topic, w.msg, 0, w.retain ≠ 0⟩
  user := if c.user = [] then none else some c.user
  password := if c.user = [] ∨ c.pass = [] then none else some c.pass

/-- What the strings of the client take in the variable part, each with its length. -/
def connectRoom (c : MqttClient) : Nat :=
  10 + (2 + c.clientID.length) +
    (match c.will with
      | some w => (2 + w.topic.length) + (2 + w.msg.length)
      | none => 0) +
    (if c.user = [] then 0
      else (2 + c.user.length) + (if c.pass = [] then 0 else 2 + c.pass.length))

/-- The strings of the client have lengths of 16 bits. -/
structure Short (c : MqttClient) : Prop where
  clientID : c.clientID.length < 65536
  user : c.user.length < 65536
  pass : c.pass.length < 65536
  will : ∀ w ∈ c.will, w.topic.length < 65536 ∧ w.msg.length < 65536

/-- The CONNECT of a client is right: its variable part fits `pui8Var`, and the packet is read
back as the fields of the client. -/
def ConnectFaithful (c : MqttClient) : Prop :=
  (mqttConnectVar c.clientID c.user c.pass c.will).length ≤ mqttVarSize ∧
    MqttWire.decodeConnect (mqttConnectPacket c.clientID c.user c.pass c.will) =
      some c.connectFields

instance (c : MqttClient) : Decidable c.ConnectFaithful :=
  inferInstanceAs (Decidable (_ ∧ _))

/-- The length of the variable part. -/
theorem length_mqttConnectVar {c : MqttClient} (h : c.Short) :
    (mqttConnectVar c.clientID c.user c.pass c.will).length = c.connectRoom := by
  have hname : (mqttPutStr (ascii "MQTT")).length = 6 := by decide
  unfold mqttConnectVar connectRoom
  simp only [List.length_append, hname, length_mqttPutStr h.clientID, List.length_cons,
    List.length_nil]
  cases hwill : c.will with
  | none =>
      by_cases huser : c.user = []
      · simp [huser]
      · by_cases hpass : c.pass = []
        · simp [huser, hpass, length_mqttPutStr h.user]
        · simp [huser, hpass, length_mqttPutStr h.user, length_mqttPutStr h.pass]
  | some w =>
      obtain ⟨htopic, hmsg⟩ := h.will w (by simp [hwill])
      by_cases huser : c.user = []
      · simp [huser, length_mqttPutStr htopic, length_mqttPutStr hmsg]
      · by_cases hpass : c.pass = []
        · simp [huser, hpass, length_mqttPutStr h.user, length_mqttPutStr htopic,
            length_mqttPutStr hmsg]
        · simp [huser, hpass, length_mqttPutStr h.user, length_mqttPutStr h.pass,
            length_mqttPutStr htopic, length_mqttPutStr hmsg]

/-- The connect flags, by what is there: a will with its retain flag, a user name, and a
password. -/
def flagsOf (will : Option Bool) (user pass : Bool) : UInt8 :=
  0x02 |||
    (match will with
      | some retain => 0x04 ||| (if retain then 0x20 else 0)
      | none => 0) |||
    (if user then 0x80 ||| (if pass then 0x40 else 0) else 0)

/-- **The flags say what is there**, and are consistent. -/
theorem flagsOf_bits : ∀ (will : Option Bool) (user pass : Bool),
    MqttWire.flagsValid (flagsOf will user pass).toNat = true ∧
      (flagsOf will user pass).toNat.testBit 1 = true ∧
      (flagsOf will user pass).toNat.testBit 2 = will.isSome ∧
      (flagsOf will user pass).toNat / 8 % 4 = 0 ∧
      (flagsOf will user pass).toNat.testBit 5 = will.getD false ∧
      (flagsOf will user pass).toNat.testBit 6 = (user && pass) ∧
      (flagsOf will user pass).toNat.testBit 7 = user := by
  intro will user pass
  rcases will with _ | _ | _ <;> cases user <;> cases pass <;> decide

/-- The fields behind the client identifier, as the packet has them. -/
def willPart (c : MqttClient) : List UInt8 :=
  match c.will with
  | some w => mqttPutStr w.topic ++ mqttPutStr w.msg
  | none => []
def userPart (c : MqttClient) : List UInt8 := if c.user = [] then [] else mqttPutStr c.user
def passPart (c : MqttClient) : List UInt8 :=
  if c.user = [] ∨ c.pass = [] then [] else mqttPutStr c.pass

/-- The connect flags of the client. -/
def flags (c : MqttClient) : UInt8 :=
  flagsOf (c.will.map fun w => decide (w.retain ≠ 0)) (decide (c.user ≠ []))
    (decide (c.pass ≠ []))

theorem flags_bits (c : MqttClient) :
    MqttWire.flagsValid c.flags.toNat = true ∧ c.flags.toNat.testBit 1 = true ∧
      c.flags.toNat.testBit 2 = c.will.isSome ∧ c.flags.toNat / 8 % 4 = 0 ∧
      c.flags.toNat.testBit 5 = (c.will.map fun w => decide (w.retain ≠ 0)).getD false ∧
      c.flags.toNat.testBit 6 = (decide (c.user ≠ []) && decide (c.pass ≠ [])) ∧
      c.flags.toNat.testBit 7 = decide (c.user ≠ []) := by
  have hbits := flagsOf_bits (c.will.map fun w => decide (w.retain ≠ 0)) (decide (c.user ≠ []))
    (decide (c.pass ≠ []))
  rwa [Option.isSome_map] at hbits

/-- The variable part, field by field. -/
theorem mqttConnectVar_eq (c : MqttClient) :
    mqttConnectVar c.clientID c.user c.pass c.will =
      mqttPutStr (ascii "MQTT") ++ (4 :: c.flags :: 0 :: 60 ::
        (mqttPutStr c.clientID ++ (c.willPart ++ (c.userPart ++ (c.passPart ++ []))))) := by
  unfold mqttConnectVar flags flagsOf willPart userPart passPart
  cases c.will with
  | none =>
      by_cases huser : c.user = []
      · simp [huser, mqttKeepaliveS]
      · by_cases hpass : c.pass = [] <;> simp [huser, hpass, mqttKeepaliveS]
  | some w =>
      by_cases hretain : w.retain = 0
      · by_cases huser : c.user = []
        · simp [huser, hretain, mqttKeepaliveS]
        · by_cases hpass : c.pass = [] <;> simp [huser, hpass, hretain, mqttKeepaliveS]
      · by_cases huser : c.user = []
        · simp [huser, hretain, mqttKeepaliveS]
        · by_cases hpass : c.pass = [] <;> simp [huser, hpass, hretain, mqttKeepaliveS]

/-- The will is read back. -/
theorem takeWill_willPart {c : MqttClient} (h : c.Short) (rest : List UInt8) :
    MqttWire.takeWill c.flags.toNat (c.willPart ++ rest) = some (c.connectFields.will, rest) := by
  obtain ⟨_, _, hwill, hqos, hretain, _, _⟩ := c.flags_bits
  unfold MqttWire.takeWill willPart connectFields
  rw [hwill, hqos, hretain]
  cases hw : c.will with
  | none => rfl
  | some w =>
      obtain ⟨htopic, hmsg⟩ := h.will w (by simp [hw])
      rw [Option.map_some, Option.isSome_some, if_pos rfl]
      dsimp only
      rw [List.append_assoc, takeString_mqttPutStr htopic, Option.bind_some,
        takeString_mqttPutStr hmsg]
      rfl

/-- The user name is read back. -/
theorem takeIf_userPart {c : MqttClient} (h : c.Short) (rest : List UInt8) :
    MqttWire.takeIf (c.flags.toNat.testBit 7) (c.userPart ++ rest) =
      some (c.connectFields.user, rest) := by
  obtain ⟨_, _, _, _, _, _, huser⟩ := c.flags_bits
  unfold MqttWire.takeIf userPart connectFields
  rw [huser]
  by_cases hnone : c.user = []
  · simp [hnone]
  · simp [hnone, takeString_mqttPutStr h.user]

/-- The password is read back. -/
theorem takeIf_passPart {c : MqttClient} (h : c.Short) (rest : List UInt8) :
    MqttWire.takeIf (c.flags.toNat.testBit 6) (c.passPart ++ rest) =
      some (c.connectFields.password, rest) := by
  obtain ⟨_, _, _, _, _, hpass, _⟩ := c.flags_bits
  unfold MqttWire.takeIf passPart connectFields
  rw [hpass]
  by_cases huser : c.user = []
  · simp [huser]
  · by_cases hnone : c.pass = []
    · simp [hnone]
    · simp [huser, hnone, takeString_mqttPutStr h.pass]

/-- **The CONNECT is read back** as the fields of the client. -/
theorem decodeConnect_mqttConnectPacket {c : MqttClient} (h : c.Short)
    (hroom : c.connectRoom < 65536) :
    MqttWire.decodeConnect (mqttConnectPacket c.clientID c.user c.pass c.will) =
      some c.connectFields := by
  have hlen := length_mqttConnectVar h
  have hsplit := MqttWire.split_of_takeLength (b := 0x10)
    (takeLength_mqttEncodeLen (n := (mqttConnectVar c.clientID c.user c.pass c.will).length)
      (by omega) (mqttConnectVar c.clientID c.user c.pass c.will))
  have hname : ascii "MQTT" = [77, 81, 84, 84] := by decide
  obtain ⟨hvalid, hclean, _⟩ := c.flags_bits
  rw [MqttWire.decodeConnect, mqttConnectPacket, hsplit, Option.bind_some, if_pos rfl,
    mqttConnectVar_eq, takeString_mqttPutStr (by decide), Option.bind_some, if_pos hname]
  rw [MqttWire.connectFields, if_pos ⟨rfl, hvalid⟩, MqttWire.takeWord, Option.bind_some,
    MqttWire.connectPayload, takeString_mqttPutStr h.clientID, Option.bind_some,
    takeWill_willPart h, Option.bind_some, takeIf_userPart h, Option.bind_some,
    takeIf_passPart h, Option.bind_some, if_pos rfl]
  rw [hclean]
  rfl

/-- **When the CONNECT of a client is right**: when its strings fit the variable part. -/
theorem connectFaithful_iff_room {c : MqttClient} (h : c.Short) :
    c.ConnectFaithful ↔ c.connectRoom ≤ mqttVarSize := by
  unfold ConnectFaithful
  rw [length_mqttConnectVar h]
  constructor
  · intro hfaithful
    exact hfaithful.1
  · intro hroom
    unfold mqttVarSize at hroom
    exact ⟨hroom, decodeConnect_mqttConnectPacket h (by omega)⟩

end MqttClient

namespace Mqtt

/-- The strings that the two calls of the application store are short. -/
theorem short_mqttClientStart (s : Mqtt) (topic : Option CStr) (msg : CStr) (retain : UInt8)
    (host : Option CStr) (port : BitVec 16) (clientID user pass : Option CStr) :
    ((s.mqttClientSetWill topic msg retain).mqttClientStart host port clientID user
      pass).cli.Short := by
  have htake (t : CStr) : (t.take mqttStrMax).length < 65536 := by
    have hle := List.length_take_le mqttStrMax t
    unfold mqttStrMax at hle ⊢
    omega
  refine ⟨htake _, htake _, htake _, fun w hw => ?_⟩
  have hwill : ((s.mqttClientSetWill topic msg retain).mqttClientStart host port clientID user
      pass).cli.will = topic.map fun t => ⟨t.take mqttStrMax, msg.take mqttStrMax, retain⟩ := by
    unfold mqttClientStart detachPcb
    dsimp only
    split <;> rfl
  rw [hwill, Option.mem_def, Option.map_eq_some_iff] at hw
  obtain ⟨t, _, rfl⟩ := hw
  exact ⟨htake t, htake msg⟩

/-- **The CONNECT packet, exactly.**  After any `MQTTClientSetWill` and `MQTTClientStart`, the
variable part of the CONNECT fits `pui8Var`, and the packet is read back as the stored fields
with consistent flags and the right remaining length, if and only if the protocol header and
the strings, each with its two bytes of length, take at most 256 bytes. -/
theorem connectFaithful_iff (s : Mqtt) (topic : Option CStr) (msg : CStr) (retain : UInt8)
    (host : Option CStr) (port : BitVec 16) (clientID user pass : Option CStr) :
    ((s.mqttClientSetWill topic msg retain).mqttClientStart host port clientID user
        pass).cli.ConnectFaithful ↔
      ((s.mqttClientSetWill topic msg retain).mqttClientStart host port clientID user
        pass).cli.connectRoom ≤ mqttVarSize :=
  MqttClient.connectFaithful_iff_room (s.short_mqttClientStart topic msg retain host port
    clientID user pass)

/-- Four strings of 63 bytes, each of them stored whole, overrun `pui8Var`. -/
theorem long_strings_overrun :
    ¬((Mqtt.init.mqttClientSetWill (some (List.replicate 63 0x74)) (List.replicate 63 0x6D)
        1).mqttClientStart (some (ascii "broker")) 1883#16 (some (List.replicate 63 0x63))
        (some (List.replicate 63 0x75)) none).cli.ConnectFaithful := by
  intro h
  have hlen := h.1
  revert hlen
  decide +kernel

end Mqtt

end HomeAuto
