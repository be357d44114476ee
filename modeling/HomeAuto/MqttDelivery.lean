import HomeAuto.MqttLink

/-!
# What the client makes of a TCP stream

Successive deliveries to `MQTTRecvCB` are a framing receiver of capacity
`MQTT_RXBUF_SIZE`: the handlers of the packets neither read nor change the assembly
buffer.  So the packets handed on are the packets sent precisely when every delivery
fits the buffer together with the incomplete packet before it; a longer delivery is
dropped even when each of its packets would fit.
-/

namespace HomeAuto

namespace Mqtt

/-- What a packet's handler leaves alone: the packets handed on and the buffer. -/
def intake (s : Mqtt) : List (List UInt8) × List UInt8 := (s.handled, s.cli.rx)

theorem intake_mqttSendRaw (s : Mqtt) (bytes : List UInt8) (ans : Answers) :
    (s.mqttSendRaw bytes ans).1.intake = s.intake := by
  unfold mqttSendRaw
  cases s.cli.psPcb with
  | none => rfl
  | some p =>
      split
      · rename_i h
        cases h
      · by_cases hst : beforeConnect s.cli.eState = true
        · simp [hst]
        · by_cases hw : ans.tcpWrite s.net.writeCalls = true <;> simp [hst, hw, intake]

theorem intake_appCall (ans : Answers) (s : Mqtt) (c : AppCall) :
    (appCall ans s c).intake = s.intake := by
  cases c with
  | publish topic payload retain =>
      simp only [appCall, mqttClientPublish]
      split
      · rfl
      · split
        · rfl
        · exact intake_mqttSendRaw s _ ans
  | subscribe topic =>
      simp only [appCall, mqttClientSubscribe]
      split
      · rfl
      · exact intake_mqttSendRaw _ _ ans

theorem intake_appCalls (ans : Answers) (calls : List AppCall) (s : Mqtt) :
    (calls.foldl (appCall ans) s).intake = s.intake := by
  induction calls generalizing s with
  | nil => rfl
  | cons c calls ih => rw [List.foldl_cons, ih, intake_appCall]

theorem intake_dropConnection (s : Mqtt) : s.dropConnection.intake = s.intake := by
  rw [dropConnection, abortPcb]
  cases s.cli.psPcb <;> rfl

theorem intake_mqttHandlePacket (ans : Answers) (s : Mqtt) (pkt : RxHeader × List UInt8) :
    (mqttHandlePacket ans s pkt).intake = s.intake := by
  unfold mqttHandlePacket
  cases connackVerdict pkt with
  | some v =>
      cases v with
      | true => rfl
      | false => exact intake_dropConnection s
  | none =>
      dsimp only
      split
      · rfl
      · split
        · cases publishBody (pkt.2.drop pkt.1.hdrLen) pkt.1.remLen with
          | none => rfl
          | some m => exact intake_appCalls ans _ s
        · rfl

theorem intake_handOns (ans : Answers) (pkts : List (RxHeader × List UInt8)) (s : Mqtt) :
    (pkts.foldl (handOn ans) s).intake = (s.handled ++ pkts.map Prod.snd, s.cli.rx) := by
  induction pkts generalizing s with
  | nil => simp [intake]
  | cons pkt pkts ih =>
      have hone : (handOn ans s pkt).intake = (s.handled ++ [pkt.2], s.cli.rx) :=
        intake_mqttHandlePacket ans _ pkt
      simp only [intake, Prod.mk.injEq] at hone
      rw [List.foldl_cons, ih, hone.1, hone.2]
      simp

/-! ## Deliveries -/

/-- The receiver that the client is. -/
def receiver (s : Mqtt) : Framing.Receiver UInt8 := ⟨s.cli.rx, s.handled⟩

/-- Successive deliveries to `MQTTRecvCB`, each a chain of segments, with what is
answered during it. -/
def deliver (p : Nat) (s : Mqtt) (ds : List (List (List UInt8) × Answers)) : Mqtt :=
  ds.foldl (fun s d => s.mqttRecvCB p (some d.1) .ok d.2) s

/-- **One delivery is one step of the receiver.** -/
theorem receiver_recvData (s : Mqtt) (segs : List (List UInt8)) (ans : Answers) :
    (s.recvData segs ans).receiver =
      Framing.receive rxHeader RxHeader.size mqttRxbufSize s.receiver segs := by
  have hin := intake_handOns ans (rxParse s.cli.rx segs).1 s
  simp only [intake, Prod.mk.injEq] at hin
  exact congrArg (Framing.Receiver.mk (rxParse s.cli.rx segs).2) hin.1

theorem receiver_deliver (p : Nat) (ds : List (List (List UInt8) × Answers)) (s : Mqtt) :
    (deliver p s ds).receiver =
      (ds.map Prod.fst).foldl (Framing.receive rxHeader RxHeader.size mqttRxbufSize)
        s.receiver := by
  induction ds generalizing s with
  | nil => rfl
  | cons d ds ih =>
      have hone : (s.mqttRecvCB p (some d.1) .ok d.2) = s.recvData d.1 d.2 := by
        simp [mqttRecvCB]
      have htail := ih (s.recvData d.1 d.2)
      rw [receiver_recvData] at htail
      simpa [deliver, hone] using htail

/-- Every delivery fits the assembly buffer together with the incomplete packet that is
in it. -/
def DeliveriesFit (ps : List (List UInt8)) (ds : List (List (List UInt8) × Answers)) : Prop :=
  Framing.Fits mqttRxbufSize ps 0 (ds.map Prod.fst)

/-- **Framing of a TCP stream, exactly.**  Cut a stream of well-formed packets into
deliveries in any way: the packets handed to `MQTTHandlePacket` are the packets sent,
whole, in order and once each, precisely when every delivery fits. -/
theorem handled_eq_iff_deliveriesFit (s : Mqtt) (p : Nat) (ps : List (List UInt8))
    (ds : List (List (List UInt8) × Answers)) (hrx : s.cli.rx = [])
    (hps : ∀ pkt ∈ ps, WellFormedPacket pkt)
    (hstream : (ds.map fun d => d.1.flatten).flatten = ps.flatten) :
    (deliver p s ds).handled = s.handled ++ ps ↔ DeliveriesFit ps ds := by
  have hcap (pkt : List UInt8) (hpkt : pkt ∈ ps) : pkt.length ≤ mqttRxbufSize := by
    obtain ⟨_, _, _, _, _, _, hlen⟩ := hps pkt hpkt
    exact hlen
  have hcut : [] ++ ((ds.map Prod.fst).map List.flatten).flatten = ps.flatten := by
    rw [List.nil_append, List.map_map]
    exact hstream
  have hexact := Framing.handled_eq_iff_fits stable_rxHeader s.handled
    (fun pkt hpkt => recognised_of_wellFormed (hps pkt hpkt)) hcap (ds.map Prod.fst) hcut
    (by decide)
  rw [List.length_nil, Framing.fits_append] at hexact
  have hrun := congrArg Framing.Receiver.handled (receiver_deliver p ds s)
  rw [DeliveriesFit, ← hexact, ← hrx]
  exact Eq.congr_left hrun

/-! ## Two deliveries -/

/-- A PUBLISH with an empty topic and `n` bytes of payload, for a remaining length of two
groups. -/
def publishOf (n : Nat) : List UInt8 :=
  0x30 :: UInt8.ofNat ((n + 2) % 128 + 128) :: UInt8.ofNat ((n + 2) / 128) :: 0 :: 0 ::
    List.replicate n 0x41

/-- The client after a start, a tick that finds the broker's address at once, the
connection, and the CONNACK. -/
def connected : Mqtt :=
  [MqttEvent.start (some (ascii "10.0.0.2")) 1883#16 none none none,
    .tick 100#32 .obliging,
    .connected 0 .ok .obliging,
    .recv 0 (some [[0x20, 2, 0, 0]]) .ok .obliging].foldl
      (step fun _ => some 0x0A000002#32) init

/-- A packet cut in the middle arrives whole. -/
theorem split_publish_handled :
    (deliver 0 connected [([(publishOf 295).take 100], .obliging),
        ([(publishOf 295).drop 100], .obliging)]).handled =
      connected.handled ++ [publishOf 295] := by
  refine (handled_eq_iff_deliveriesFit connected 0 [publishOf 295] _ ?_ ?_ ?_).mpr ?_
  · decide +kernel
  · intro pkt hpkt
    rw [List.mem_singleton.mp hpkt]
    exact ⟨0x30, [0xA9, 0x02], 0 :: 0 :: List.replicate 295 0x41, by decide +kernel,
      by decide +kernel, by decide +kernel, by decide +kernel⟩
  · decide +kernel
  · exact ⟨by decide +kernel, by decide +kernel, trivial⟩

/-- Two packets of 300 bytes in one delivery are both lost: the second segment does not
fit, so the first is discarded with it, although each packet is there whole. -/
theorem two_publishes_in_one_delivery_lost :
    WellFormedPacket (publishOf 295) ∧ connected.cli.eState = .ready ∧ connected.cli.rx = [] ∧
      (deliver 0 connected [([publishOf 295, publishOf 295], .obliging)]).handled =
        connected.handled ∧
      (deliver 0 connected [([publishOf 295], .obliging),
          ([publishOf 295], .obliging)]).handled =
        connected.handled ++ [publishOf 295, publishOf 295] := by
  refine ⟨⟨0x30, [0xA9, 0x02], 0 :: 0 :: List.replicate 295 0x41, by decide +kernel,
    by decide +kernel, by decide +kernel, by decide +kernel⟩, ?_⟩
  decide +kernel

end Mqtt

end HomeAuto
