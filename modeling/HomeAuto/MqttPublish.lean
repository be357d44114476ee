import HomeAuto.MqttConnect
import HomeAuto.MqttDelivery

/-!
# The PUBLISH and SUBSCRIBE packets (`MQTTClientPublish`, `MQTTClientSubscribe`)

Both functions build their packet in `g_pui8Tx[768]`.  `MQTTClientPublish` checks the length
first, but computes it in 16 bits; `MQTTClientSubscribe` does not check it at all.

* `publishRight_iff` — a PUBLISH is right unless its length passes the check by wrapping;
* `subscribeRight_iff` — a SUBSCRIBE is right exactly for a topic of at most 760 bytes and a
  packet identifier that has not wrapped to zero.
-/

namespace HomeAuto

/-- The stores into the transmit buffer lie in it; a store is its place and its length. -/
def InTx (stores : List (Nat × Nat)) : Prop := ∀ w ∈ stores, w.1 + w.2 ≤ mqttTxbufSize

instance (stores : List (Nat × Nat)) : Decidable (InTx stores) :=
  inferInstanceAs (Decidable (∀ w ∈ stores, _))

/-- `ui16Hdr`. -/
def mqttHdr (rem : Nat) : Nat := 1 + (mqttEncodeLen rem).length

/-- The stores of `MQTTClientPublish`: the first byte, the remaining length, the topic with its
length, the payload.  `ui16Pos` has 16 bits. -/
def publishStores (topic : CStr) (payload : List UInt8) : List (Nat × Nat) :=
  let hdr := mqttHdr (mqttPublishRem topic payload)
  let topicLen := topic.length % 65536
  [(0, 1), (1, hdr - 1), (hdr, 2), (hdr + 2, topicLen),
    ((hdr + 2 + topicLen) % 65536, payload.length)]

/-- The stores of `MQTTClientSubscribe`: the first byte, the remaining length, the packet
identifier, the topic with its length, and the quality of service. -/
def subscribeStores (topic : CStr) : List (Nat × Nat) :=
  let hdr := mqttHdr (mqttSubscribeRem topic)
  let topicLen := topic.length % 65536
  [(0, 1), (1, hdr - 1), (hdr, 2), (hdr + 2, 2), (hdr + 4, topicLen),
    ((hdr + 4 + topicLen) % 65536, 1)]

namespace Mqtt

/-- A call is right about what is sent: nothing if it returns an error, and this packet if it
does not. -/
def SentRight (s : Mqtt) (r : Mqtt × Bool) (packet : List UInt8) : Prop :=
  (r.2 = false → r.1.net.writes = s.net.writes) ∧
    (r.2 = true → ∃ p, r.1.net.writes = s.net.writes ++ [(p, packet)])

/-- A PUBLISH is right: if the call gets past its check, the packet is built inside the
transmit buffer and is read back as what was given; nothing else is sent. -/
def PublishRight (s : Mqtt) (topic : CStr) (payload : List UInt8) (retain : UInt8)
    (ans : Answers) : Prop :=
  s.SentRight (s.mqttClientPublish topic payload retain ans)
      (mqttPublishPacket topic payload retain) ∧
    (s.cli.eState = .ready → ¬mqttTxbufSize < mqttPublishRem topic payload + 5 →
      InTx (publishStores topic payload) ∧
      MqttWire.decodePublish (mqttPublishPacket topic payload retain) =
        some ⟨false, retain ≠ 0, topic, payload⟩)

/-- A SUBSCRIBE is right, in the same sense; the packet identifier is the client's. -/
def SubscribeRight (s : Mqtt) (topic : CStr) (ans : Answers) : Prop :=
  s.SentRight (s.mqttClientSubscribe topic ans) (mqttSubscribePacket s.cli.packetID topic) ∧
    (s.cli.eState = .ready →
      InTx (subscribeStores topic) ∧
      MqttWire.decodeSubscribe (mqttSubscribePacket s.cli.packetID topic) =
        some ⟨s.cli.packetID.toNat, topic, 0⟩)

/-! ## What is sent -/

theorem sentRight_mqttSendRaw (s : Mqtt) (bytes : List UInt8) (ans : Answers) :
    s.SentRight (s.mqttSendRaw bytes ans) bytes := by
  unfold mqttSendRaw SentRight
  cases s.cli.psPcb with
  | none => exact ⟨fun _ => rfl, nofun⟩
  | some p =>
      dsimp only
      split
      · exact ⟨fun _ => rfl, nofun⟩
      · split
        · exact ⟨nofun, fun _ => ⟨p, rfl⟩⟩
        · exact ⟨fun _ => rfl, nofun⟩

theorem sentRight_mqttClientPublish (s : Mqtt) (topic : CStr) (payload : List UInt8)
    (retain : UInt8) (ans : Answers) :
    s.SentRight (s.mqttClientPublish topic payload retain ans)
      (mqttPublishPacket topic payload retain) := by
  unfold mqttClientPublish
  split
  · exact ⟨fun _ => rfl, nofun⟩
  · split
    · exact ⟨fun _ => rfl, nofun⟩
    · exact sentRight_mqttSendRaw s _ ans

theorem sentRight_mqttClientSubscribe (s : Mqtt) (topic : CStr) (ans : Answers) :
    s.SentRight (s.mqttClientSubscribe topic ans)
      (mqttSubscribePacket s.cli.packetID topic) := by
  unfold mqttClientSubscribe
  split
  · exact ⟨fun _ => rfl, nofun⟩
  · exact sentRight_mqttSendRaw
      { s with cli := { s.cli with packetID := s.cli.packetID + 1#16 } } _ ans

end Mqtt

/-! ## What is read back -/

/-- The part of a string that its 16-bit length counts. -/
theorem length_take_mod (s : CStr) : (s.take (s.length % 65536)).length = s.length % 65536 := by
  rw [List.length_take]
  exact Nat.min_eq_left (Nat.mod_le _ _)

/-- A string is written up to its 16-bit length. -/
theorem mqttPutStr_take (s : CStr) : mqttPutStr s = mqttPutStr (s.take (s.length % 65536)) := by
  have hlen := length_take_mod s
  have hand (n : Nat) : n &&& 0xFF = n % 256 := Nat.and_two_pow_sub_one_eq_mod n 8
  have hlow : s.length % 65536 % 256 = s.length % 256 := by omega
  unfold mqttPutStr
  rw [hlen, Nat.mod_mod, hand, hand, hlow, List.take_take, Nat.min_self]

/-- A PUBLISH whose lengths do not wrap is read back. -/
theorem decodePublish_of_fits {topic : CStr} {payload : List UInt8}
    (hlen : 2 + topic.length + payload.length < 65536) (retain : UInt8) :
    MqttWire.decodePublish ((if retain = 0 then 0x30 else 0x31) ::
      (mqttEncodeLen (2 + topic.length + payload.length) ++ mqttPutStr topic ++ payload)) =
        some ⟨false, retain ≠ 0, topic, payload⟩ := by
  have htopic : topic.length < 65536 := by omega
  have hput := length_mqttPutStr htopic
  have hbody : (mqttPutStr topic ++ payload).length = 2 + topic.length + payload.length := by
    rw [List.length_append, hput]
  have htake := takeLength_mqttEncodeLen hlen (mqttPutStr topic ++ payload)
  rw [← hbody] at htake
  rw [List.append_assoc, ← hbody, MqttWire.decodePublish, MqttWire.split_of_takeLength htake,
    Option.bind_some]
  dsimp only
  rw [takeString_mqttPutStr (by omega)]
  by_cases hretain : retain = 0
  · rw [if_pos hretain, if_pos (by decide), hretain]
    rfl
  · rw [if_neg hretain, if_pos (by decide), Option.map_some, decide_eq_true hretain]
    rfl

/-- A SUBSCRIBE whose lengths do not wrap is read back, with a packet identifier that is not
zero. -/
theorem decodeSubscribe_of_fits {topic : CStr} (hlen : 5 + topic.length < 65536)
    (packetID : BitVec 16) :
    MqttWire.decodeSubscribe (0x82 :: (mqttEncodeLen (5 + topic.length) ++
      [UInt8.ofNat (packetID.toNat >>> 8), UInt8.ofNat (packetID.toNat &&& 0xFF)] ++
      mqttPutStr topic ++ [0x00])) =
        if packetID.toNat ≠ 0 then some ⟨packetID.toNat, topic, 0⟩ else none := by
  have htopic : topic.length < 65536 := by omega
  have hput := length_mqttPutStr htopic
  have hid : (UInt8.ofNat (packetID.toNat >>> 8)).toNat * 256 +
      (UInt8.ofNat (packetID.toNat &&& 0xFF)).toNat = packetID.toNat := by
    have hlt := packetID.isLt
    have hand : packetID.toNat &&& 0xFF = packetID.toNat % 256 :=
      Nat.and_two_pow_sub_one_eq_mod packetID.toNat 8
    rw [hand, Nat.shiftRight_eq_div_pow, UInt8.toNat_ofNat', UInt8.toNat_ofNat']
    omega
  have hbody : (UInt8.ofNat (packetID.toNat >>> 8) :: UInt8.ofNat (packetID.toNat &&& 0xFF) ::
      (mqttPutStr topic ++ [0x00])).length = 5 + topic.length := by
    rw [List.length_cons, List.length_cons, List.length_append, hput, List.length_singleton]
    omega
  have htake := takeLength_mqttEncodeLen hlen
    (UInt8.ofNat (packetID.toNat >>> 8) :: UInt8.ofNat (packetID.toNat &&& 0xFF) ::
      (mqttPutStr topic ++ [0x00]))
  rw [← hbody] at htake
  have hsplit := @MqttWire.split_of_takeLength 0x82 _ _ htake
  rw [hbody] at hsplit
  rw [List.append_assoc, List.append_assoc]
  simp only [List.cons_append, List.nil_append]
  rw [MqttWire.decodeSubscribe, hsplit, Option.bind_some, if_pos rfl, MqttWire.takeWord,
    Option.bind_some, hid, takeString_mqttPutStr (by omega), Option.bind_some]
  by_cases hzero : packetID.toNat = 0
  · rw [if_neg (by simp [hzero])]
    simp [hzero]
  · simp [hzero]

/-! ## When the packets are right -/

theorem mqttPublishRem_eq (topic : CStr) (payload : List UInt8) :
    mqttPublishRem topic payload = (2 + topic.length + payload.length) % 65536 := by
  unfold mqttPublishRem
  omega

/-- The stores of a PUBLISH that gets past the check lie in the buffer exactly if its lengths
do not wrap. -/
theorem publishStores_inTx {topic : CStr} {payload : List UInt8}
    (hcheck : mqttPublishRem topic payload + 5 ≤ mqttTxbufSize) :
    InTx (publishStores topic payload) ↔ 2 + topic.length % 65536 + payload.length ≤ 763 := by
  have hrem := mqttPublishRem_eq topic payload
  unfold mqttTxbufSize at hcheck
  have hhdr : mqttHdr (mqttPublishRem topic payload) = 2 ∨
      mqttHdr (mqttPublishRem topic payload) = 3 := by
    rw [mqttHdr, length_mqttEncodeLen (by omega)]
    split
    · exact .inl rfl
    · exact .inr rfl
  have hmod : topic.length % 65536 < 65536 := Nat.mod_lt _ (by decide)
  unfold InTx publishStores mqttTxbufSize
  simp only [List.mem_cons, List.not_mem_nil, or_false, forall_eq_or_imp, forall_eq]
  generalize mqttHdr (mqttPublishRem topic payload) = hdr at hhdr ⊢
  omega

theorem subscribeStores_inTx (topic : CStr) :
    InTx (subscribeStores topic) ↔ topic.length % 65536 ≤ 760 := by
  have hmod : topic.length % 65536 < 65536 := Nat.mod_lt _ (by decide)
  have hpos : 2 ≤ mqttHdr (mqttSubscribeRem topic) := by
    unfold mqttHdr mqttEncodeLen mqttEncodeLenLoop
    split
    · exact Nat.le_refl 2
    · simp only [List.length_cons]
      omega
  have hhdr : topic.length % 65536 < 16379 → mqttHdr (mqttSubscribeRem topic) =
      if topic.length % 65536 < 123 then 2 else 3 := by
    intro hsmall
    have hrem : mqttSubscribeRem topic = 5 + topic.length % 65536 := by
      unfold mqttSubscribeRem
      omega
    rw [mqttHdr, hrem, length_mqttEncodeLen (by omega)]
    by_cases hone : topic.length % 65536 < 123
    · rw [if_pos hone, if_pos (by omega)]
    · rw [if_neg hone, if_neg (by omega)]
  unfold InTx subscribeStores mqttTxbufSize
  simp only [List.mem_cons, List.not_mem_nil, or_false, forall_eq_or_imp, forall_eq]
  generalize mqttHdr (mqttSubscribeRem topic) = hdr at hpos hhdr ⊢
  by_cases hsmall : topic.length % 65536 < 16379
  · have hh := hhdr hsmall
    split at hh <;> omega
  · omega

/-- The packet of a PUBLISH whose lengths do not wrap is written whole. -/
theorem mqttPublishPacket_eq {topic : CStr} {payload : List UInt8}
    (hlen : 2 + topic.length % 65536 + payload.length ≤ 763) (retain : UInt8) :
    mqttPublishPacket topic payload retain = (if retain = 0 then 0x30 else 0x31) ::
      (mqttEncodeLen (2 + topic.length % 65536 + payload.length) ++
        mqttPutStr (topic.take (topic.length % 65536)) ++ payload) := by
  have hrem : mqttPublishRem topic payload = 2 + topic.length % 65536 + payload.length := by
    unfold mqttPublishRem
    omega
  have hcut := length_take_mod topic
  have htopic : (topic.take (topic.length % 65536)).length < 65536 := by omega
  have hput := length_mqttPutStr htopic
  have henc : (mqttEncodeLen (2 + topic.length % 65536 + payload.length)).length ≤ 2 := by
    rw [length_mqttEncodeLen (by omega)]
    split <;> decide
  unfold mqttPublishPacket
  rw [hrem, mqttPutStr_take topic]
  refine List.take_of_length_le (Nat.le_of_eq (Nat.mod_eq_of_lt ?_).symm)
  rw [List.length_cons, List.length_append, List.length_append, hput, hcut]
  omega

theorem mqttSubscribePacket_eq {topic : CStr} (hlen : topic.length % 65536 ≤ 760)
    (packetID : BitVec 16) :
    mqttSubscribePacket packetID topic = (0x82 : UInt8) ::
      (mqttEncodeLen (5 + topic.length % 65536) ++
      [UInt8.ofNat (packetID.toNat >>> 8), UInt8.ofNat (packetID.toNat &&& 0xFF)] ++
      mqttPutStr (topic.take (topic.length % 65536)) ++ [0x00]) := by
  have hrem : mqttSubscribeRem topic = 5 + topic.length % 65536 := by
    unfold mqttSubscribeRem
    omega
  have hcut := length_take_mod topic
  have htopic : (topic.take (topic.length % 65536)).length < 65536 := by omega
  have hput := length_mqttPutStr htopic
  have henc : (mqttEncodeLen (5 + topic.length % 65536)).length ≤ 2 := by
    rw [length_mqttEncodeLen (by omega)]
    split <;> decide
  unfold mqttSubscribePacket
  rw [hrem, mqttPutStr_take topic]
  refine List.take_of_length_le (Nat.le_of_eq (Nat.mod_eq_of_lt ?_).symm)
  rw [List.length_cons, List.length_append, List.length_append, List.length_append, hput, hcut,
    List.length_cons, List.length_cons, List.length_nil, List.length_singleton]
  omega

namespace Mqtt

/-- What comes back of a topic is the topic only if its length has 16 bits. -/
theorem length_of_take_mod {topic : CStr} (h : topic.take (topic.length % 65536) = topic) :
    topic.length < 65536 := by
  have hlen := congrArg List.length h
  rw [List.length_take] at hlen
  have hmod := Nat.mod_lt topic.length (by decide : 65536 > 0)
  omega

/-- **When a PUBLISH is right**: when its remaining length is at most 763, or is over 763 in 16
bits as well, so that the check refuses it. -/
theorem publishRight_iff {s : Mqtt} (hready : s.cli.eState = .ready) (topic : CStr)
    (payload : List UInt8) (retain : UInt8) (ans : Answers) :
    s.PublishRight topic payload retain ans ↔
      2 + topic.length + payload.length ≤ 763 ∨
        763 < (2 + topic.length + payload.length) % 65536 := by
  have hrem := mqttPublishRem_eq topic payload
  have hcheck : mqttTxbufSize < mqttPublishRem topic payload + 5 ↔
      763 < (2 + topic.length + payload.length) % 65536 := by
    unfold mqttTxbufSize
    omega
  have hsent := s.sentRight_mqttClientPublish topic payload retain ans
  unfold PublishRight
  by_cases hrefused : 763 < (2 + topic.length + payload.length) % 65536
  · refine iff_of_true ⟨hsent, fun _ hpass => ?_⟩ (.inr hrefused)
    exact absurd (hcheck.mpr hrefused) hpass
  · have hpass : ¬mqttTxbufSize < mqttPublishRem topic payload + 5 := fun h =>
      hrefused (hcheck.mp h)
    have hfree : mqttPublishRem topic payload + 5 ≤ mqttTxbufSize := Nat.le_of_not_lt hpass
    have hstores := publishStores_inTx hfree
    rw [or_iff_left hrefused]
    constructor
    · intro ⟨_, hright⟩
      obtain ⟨htx, hback⟩ := hright hready hpass
      have hsmall := hstores.mp htx
      -- the packet that is written carries the topic up to its 16-bit length
      have hcut := length_take_mod topic
      have hfits : 2 + (topic.take (topic.length % 65536)).length + payload.length < 65536 := by
        omega
      have hread := decodePublish_of_fits hfits retain
      rw [hcut, ← mqttPublishPacket_eq hsmall retain, hback, Option.some.injEq,
        MqttWire.Publish.mk.injEq] at hread
      have hlt := length_of_take_mod hread.2.2.1.symm
      omega
    · intro hfits
      have hmod : topic.length % 65536 = topic.length := Nat.mod_eq_of_lt (by omega)
      have hsmall : 2 + topic.length % 65536 + payload.length ≤ 763 := by omega
      refine ⟨hsent, fun _ _ => ⟨hstores.mpr hsmall, ?_⟩⟩
      rw [mqttPublishPacket_eq hsmall retain, hmod, List.take_length]
      exact decodePublish_of_fits (by omega) retain

/-- **When a SUBSCRIBE is right**: for a topic of at most 760 bytes and a packet identifier
that is not zero. -/
theorem subscribeRight_iff {s : Mqtt} (hready : s.cli.eState = .ready) (topic : CStr)
    (ans : Answers) :
    s.SubscribeRight topic ans ↔ topic.length ≤ 760 ∧ s.cli.packetID ≠ 0#16 := by
  have hsent := s.sentRight_mqttClientSubscribe topic ans
  have hstores := subscribeStores_inTx topic
  have hcut := length_take_mod topic
  have hid : s.cli.packetID.toNat = 0 ↔ s.cli.packetID = 0#16 := by
    rw [← BitVec.toNat_inj]
    rfl
  unfold SubscribeRight
  constructor
  · intro ⟨_, hright⟩
    obtain ⟨htx, hback⟩ := hright hready
    have hsmall := hstores.mp htx
    have hfits : 5 + (topic.take (topic.length % 65536)).length < 65536 := by omega
    have hread := decodeSubscribe_of_fits hfits s.cli.packetID
    rw [hcut, ← mqttSubscribePacket_eq hsmall, hback] at hread
    by_cases hzero : s.cli.packetID.toNat = 0
    · rw [if_neg (not_not.mpr hzero)] at hread
      cases hread
    · rw [if_pos hzero, Option.some.injEq, MqttWire.Subscribe.mk.injEq] at hread
      have hlt := length_of_take_mod hread.2.1.symm
      exact ⟨by omega, fun h => hzero (hid.mpr h)⟩
  · rintro ⟨hfits, hne⟩
    have hmod : topic.length % 65536 = topic.length := Nat.mod_eq_of_lt (by omega)
    have hsmall : topic.length % 65536 ≤ 760 := by omega
    refine ⟨hsent, fun _ => ⟨hstores.mpr hsmall, ?_⟩⟩
    have hlong : 5 + topic.length < 65536 := by omega
    have hread := decodeSubscribe_of_fits hlong s.cli.packetID
    rw [if_pos fun h => hne (hid.mp h)] at hread
    rw [mqttSubscribePacket_eq hsmall, hmod, List.take_length]
    exact hread

/-- **The packets of the application, exactly.**  In READY, for every topic, every payload of a
16-bit length and either retain flag, `MQTTClientPublish` returns an error having sent nothing
or builds, inside the transmit buffer, a packet that is read back as what was given, if and
only if the remaining length does not get past the check by wrapping; and
`MQTTClientSubscribe` if and only if the topic has at most 760 bytes and the packet identifier
is not zero. -/
theorem packetsRight_iff {s : Mqtt} (hready : s.cli.eState = .ready) (topic : CStr)
    {payload : List UInt8} (_hlen : payload.length < 65536) (retain : UInt8) (ans : Answers) :
    (s.PublishRight topic payload retain ans ↔
      2 + topic.length + payload.length ≤ 763 ∨
        763 < (2 + topic.length + payload.length) % 65536) ∧
    (s.SubscribeRight topic ans ↔ topic.length ≤ 760 ∧ s.cli.packetID ≠ 0#16) :=
  ⟨publishRight_iff hready topic payload retain ans, subscribeRight_iff hready topic ans⟩

/-- Once connected, the availability topic is published and the command topic is subscribed
to. -/
theorem packetsRight_connected :
    connected.PublishRight (ascii "home/status") (ascii "online") 1 .obliging ∧
      connected.SubscribeRight (ascii "home/+/set") .obliging := by
  have hready : connected.cli.eState = .ready := by decide +kernel
  have hlen : (ascii "online").length < 65536 := by decide
  have hid : connected.cli.packetID ≠ 0#16 := by decide +kernel
  constructor
  · exact (packetsRight_iff hready (ascii "home/status") hlen 1 .obliging).1.mpr
      (.inl (by decide))
  · exact (packetsRight_iff hready (ascii "home/+/set") hlen 1 .obliging).2.mpr
      ⟨by decide, hid⟩

/-- A payload of 65533 bytes passes the check, its length with the topic's being 0 in 16 bits;
and a topic of 761 bytes is subscribed to past the end of the buffer. -/
theorem oversized_packets_pass :
    ¬connected.PublishRight (ascii "a") (List.replicate 65533 0x78) 0 .obliging ∧
      ¬connected.SubscribeRight (List.replicate 761 0x61) .obliging := by
  have hready : connected.cli.eState = .ready := by decide +kernel
  constructor
  · intro hpublish
    have hfits := (publishRight_iff hready (ascii "a") _ 0 .obliging).mp hpublish
    rw [List.length_replicate] at hfits
    revert hfits
    decide
  · intro hsubscribe
    have hfits := ((subscribeRight_iff hready _ .obliging).mp hsubscribe).1
    rw [List.length_replicate] at hfits
    exact absurd hfits (by decide)

end Mqtt

end HomeAuto
