import HomeAuto.Lib.Runs
import HomeAuto.MqttDelivery

/-!
# The packet identifiers of the SUBSCRIBEs (`MQTTClientSubscribe`)

Every SUBSCRIBE takes the 16-bit counter `ui16PacketID` as its identifier and increments it,
whether TCP takes the packet or not.  `SubscribeTry` is one call that built a packet, and
`tries` writes down those of a run, next to the state it leaves.

* `subscribed_run` — the tries of a run carry the identifiers 1, 2, … modulo 2^16, and those
  that were taken are the SUBSCRIBEs on the wire;
* `subscribeIDs_right_iff` — when the identifiers sent are not zero, and distinct.
-/

namespace HomeAuto

/-- A SUBSCRIBE that was built: what is in it, and whether TCP took it. -/
structure SubscribeTry where
  packetID : BitVec 16
  topic : CStr
  taken : Bool
  deriving DecidableEq

/-- Its packet. -/
def SubscribeTry.packet (t : SubscribeTry) : List UInt8 := mqttSubscribePacket t.packetID t.topic

/-- By its first byte a packet is a SUBSCRIBE. -/
def isSubscribe (bytes : List UInt8) : Bool := bytes.head? = some 0x82

namespace Mqtt

/-! ## The tries, in their order -/

/-- `MQTTClientPublish` and `MQTTClientSubscribe`, called by the application. -/
def appCallTries (ans : Answers) (s : Mqtt) : AppCall → List SubscribeTry
  | .publish _ _ _ => []
  | .subscribe topic =>
      if s.cli.eState ≠ .ready then []
      else [⟨s.cli.packetID, topic, (s.mqttClientSubscribe topic ans).2⟩]

/-- `MQTTHandlePacket`. -/
def handlePacketTries (ans : Answers) (s : Mqtt) (pkt : RxHeader × List UInt8) :
    List SubscribeTry :=
  match connackVerdict pkt with
  | some _ => []
  | none =>
      if charAt pkt.2 0 &&& 0xF0 = 0x30 then
        match publishBody (pkt.2.drop pkt.1.hdrLen) pkt.1.remLen with
        | some (topic, payload) =>
            Runs.outputs (appCall ans) (appCallTries ans) s (ans.react topic payload)
        | none => []
      else []

/-- One pass of the parse loop. -/
def handOnTries (ans : Answers) (s : Mqtt) (pkt : RxHeader × List UInt8) : List SubscribeTry :=
  handlePacketTries ans { s with handled := s.handled ++ [pkt.2] } pkt

/-- `MQTTRecvCB` with data. -/
def recvDataTries (s : Mqtt) (segs : List (List UInt8)) (ans : Answers) : List SubscribeTry :=
  Runs.outputs (handOn ans) (handOnTries ans) s (rxParse s.cli.rx segs).1

/-- An event: a call of `MQTTClientSubscribe`, or a delivery that makes the application call
it. -/
def performTries (s : Mqtt) : MqttEvent → List SubscribeTry
  | .subscribe topic ans => appCallTries ans s (.subscribe topic)
  | .recv _ (some segs) .ok ans => s.recvDataTries segs ans
  | _ => []

/-- An event, if it occurs. -/
def stepTries (s : Mqtt) (e : MqttEvent) : List SubscribeTry :=
  if s.net.CanDeliver e then s.performTries e else []

/-- The tries of a run from start-up. -/
def tries (ipaddrAton : CStr → Option (BitVec 32)) (es : List MqttEvent) : List SubscribeTry :=
  Runs.outputs (step ipaddrAton) stepTries init es

/-! ## The counter and the wire -/

/-- The SUBSCRIBEs that TCP has taken. -/
def subscribes (s : Mqtt) : List (List UInt8) := (s.net.writes.map Prod.snd).filter isSubscribe

/-- The identifiers count from `id` on. -/
def Numbered : BitVec 16 → List SubscribeTry → Prop
  | _, [] => True
  | id, t :: ts => t.packetID = id ∧ Numbered (id + 1#16) ts

/-- Some tries lead from one state to the other. -/
structure Subscribed (s s' : Mqtt) (ts : List SubscribeTry) : Prop where
  counter : s'.cli.packetID = s.cli.packetID + BitVec.ofNat 16 ts.length
  numbered : Numbered s.cli.packetID ts
  wire : s'.subscribes = s.subscribes ++
    ((ts.filter SubscribeTry.taken).map SubscribeTry.packet).filter isSubscribe

/-- Neither the counter nor the SUBSCRIBEs on the wire change. -/
def Quiet (s s' : Mqtt) : Prop :=
  s'.cli.packetID = s.cli.packetID ∧ s'.subscribes = s.subscribes

theorem Quiet.trans {s t u : Mqtt} (h : Quiet s t) (h' : Quiet t u) : Quiet s u :=
  ⟨h'.1.trans h.1, h'.2.trans h.2⟩

theorem Quiet.subscribed {s s' : Mqtt} (h : Quiet s s') : Subscribed s s' [] where
  counter := by rw [h.1, List.length_nil, BitVec.add_zero]
  numbered := trivial
  wire := by rw [h.2]; exact (List.append_nil _).symm

theorem subscribed_refl (s : Mqtt) : Subscribed s s [] := Quiet.subscribed ⟨rfl, rfl⟩

theorem numbered_append {id : BitVec 16} {as bs : List SubscribeTry} :
    Numbered id (as ++ bs) ↔
      Numbered id as ∧ Numbered (id + BitVec.ofNat 16 as.length) bs := by
  induction as generalizing id with
  | nil => simp [Numbered]
  | cons a as ih =>
      have hid : id + 1#16 + BitVec.ofNat 16 as.length =
          id + BitVec.ofNat 16 (a :: as).length := by
        rw [List.length_cons, BitVec.ofNat_add, BitVec.add_assoc,
          BitVec.add_comm (BitVec.ofNat 16 as.length)]
      rw [List.cons_append, Numbered, Numbered, ih, hid, and_assoc]

theorem Subscribed.trans {s t u : Mqtt} {as bs : List SubscribeTry} (h : Subscribed s t as)
    (h' : Subscribed t u bs) : Subscribed s u (as ++ bs) where
  counter := by
    rw [h'.counter, h.counter, List.length_append, BitVec.ofNat_add, BitVec.add_assoc]
  numbered := numbered_append.mpr ⟨h.numbered, h.counter ▸ h'.numbered⟩
  wire := by
    rw [h'.wire, h.wire, List.filter_append, List.map_append, List.filter_append,
      List.append_assoc]

/-! ## Sends -/

/-- What a send leaves: the counter, and the wire with the packet if it was taken. -/
theorem mqttSendRaw_wire (s : Mqtt) (bytes : List UInt8) (ans : Answers) :
    (s.mqttSendRaw bytes ans).1.cli.packetID = s.cli.packetID ∧
      (s.mqttSendRaw bytes ans).1.subscribes = s.subscribes ++
        (if (s.mqttSendRaw bytes ans).2 then [bytes] else []).filter isSubscribe := by
  have hnone (t : Mqtt) (h : t.net.writes = s.net.writes) :
      t.subscribes = s.subscribes ++ [] := by
    rw [subscribes, h, List.append_nil]
    rfl
  unfold mqttSendRaw
  cases s.cli.psPcb with
  | none => exact ⟨rfl, hnone s rfl⟩
  | some p =>
      dsimp only
      split
      · exact ⟨rfl, hnone s rfl⟩
      · split
        · refine ⟨rfl, ?_⟩
          unfold subscribes
          rw [List.map_append, List.filter_append]
          rfl
        · exact ⟨rfl, hnone _ rfl⟩

/-- A send of another packet. -/
theorem quiet_mqttSendRaw (s : Mqtt) {bytes : List UInt8} (h : isSubscribe bytes = false)
    (ans : Answers) : Quiet s (s.mqttSendRaw bytes ans).1 := by
  obtain ⟨hid, hwire⟩ := s.mqttSendRaw_wire bytes ans
  have hfilter : (if (s.mqttSendRaw bytes ans).2 then [bytes] else []).filter isSubscribe = [] := by
    split
    · rw [List.filter_cons_of_neg (by rw [h]; exact Bool.false_ne_true), List.filter_nil]
    · rfl
  rw [hfilter, List.append_nil] at hwire
  exact ⟨hid, hwire⟩

/-- The beginning of a packet with another first byte is no SUBSCRIBE. -/
theorem isSubscribe_take {b : UInt8} (hb : b ≠ 0x82) (bs : List UInt8) (n : Nat) :
    isSubscribe ((b :: bs).take n) = false := by
  cases n with
  | zero => rfl
  | succ n =>
      rw [List.take_succ_cons, isSubscribe, List.head?_cons]
      exact decide_eq_false fun h => hb (Option.some.inj h)

theorem isSubscribe_publish (topic : CStr) (payload : List UInt8) (retain : UInt8) :
    isSubscribe (mqttPublishPacket topic payload retain) = false := by
  have hfirst : (if retain = 0 then 0x30 else 0x31 : UInt8) ≠ 0x82 := by
    split <;> decide
  exact isSubscribe_take hfirst _ _

theorem quiet_mqttClientPublish (s : Mqtt) (topic : CStr) (payload : List UInt8)
    (retain : UInt8) (ans : Answers) :
    Quiet s (s.mqttClientPublish topic payload retain ans).1 := by
  unfold mqttClientPublish
  split
  · exact ⟨rfl, rfl⟩
  · split
    · exact ⟨rfl, rfl⟩
    · exact s.quiet_mqttSendRaw (isSubscribe_publish topic payload retain) ans

/-- One try on the wire. -/
theorem wire_single (t : SubscribeTry) :
    ([t].filter SubscribeTry.taken).map SubscribeTry.packet =
      if t.taken then [t.packet] else [] := by
  cases h : t.taken with
  | true => rw [List.filter_cons_of_pos h]; rfl
  | false => rw [List.filter_cons_of_neg (by rw [h]; exact Bool.false_ne_true)]; rfl

/-- **A call of the application** is the try it is written down as. -/
theorem subscribed_appCall (ans : Answers) (s : Mqtt) (c : AppCall) :
    Subscribed s (appCall ans s c) (appCallTries ans s c) := by
  cases c with
  | publish topic payload retain =>
      exact (s.quiet_mqttClientPublish topic payload retain ans).subscribed
  | subscribe topic =>
      rw [appCall, appCallTries]
      by_cases hready : s.cli.eState ≠ .ready
      · rw [if_pos hready, mqttClientSubscribe, if_pos hready]
        exact Quiet.subscribed ⟨rfl, rfl⟩
      · obtain ⟨hid, hwire⟩ := mqttSendRaw_wire
          { s with cli := { s.cli with packetID := s.cli.packetID + 1#16 } }
          (mqttSubscribePacket s.cli.packetID topic) ans
        rw [if_neg hready, mqttClientSubscribe, if_neg hready]
        refine ⟨hid, ⟨rfl, trivial⟩, ?_⟩
        rw [wire_single]
        exact hwire

/-! ## Packets -/

theorem quiet_dropConnection (s : Mqtt) : Quiet s s.dropConnection := by
  rw [dropConnection, abortPcb]
  cases s.cli.psPcb <;> exact ⟨rfl, rfl⟩

theorem subscribed_mqttHandlePacket (ans : Answers) (s : Mqtt) (pkt : RxHeader × List UInt8) :
    Subscribed s (mqttHandlePacket ans s pkt) (handlePacketTries ans s pkt) := by
  unfold mqttHandlePacket handlePacketTries
  cases connackVerdict pkt with
  | some accepted =>
      dsimp only
      cases accepted with
      | true => exact Quiet.subscribed ⟨rfl, rfl⟩
      | false => exact (quiet_dropConnection s).subscribed
  | none =>
      dsimp only
      by_cases hpong : charAt pkt.2 0 &&& 0xF0 = 0xD0
      · have hpublish : charAt pkt.2 0 &&& 0xF0 ≠ 0x30 := by
          rw [hpong]
          decide
        rw [if_pos hpong, if_neg hpublish]
        exact Quiet.subscribed ⟨rfl, rfl⟩
      · rw [if_neg hpong]
        split
        · cases publishBody (pkt.2.drop pkt.1.hdrLen) pkt.1.remLen with
          | none => exact Quiet.subscribed ⟨rfl, rfl⟩
          | some m =>
              exact Runs.rel_outputs subscribed_refl (fun _ _ _ _ _ => Subscribed.trans)
                (subscribed_appCall ans) s (ans.react m.1 m.2)
        · exact Quiet.subscribed ⟨rfl, rfl⟩

theorem subscribed_handOn (ans : Answers) (s : Mqtt) (pkt : RxHeader × List UInt8) :
    Subscribed s (handOn ans s pkt) (handOnTries ans s pkt) := by
  have hhanded := subscribed_mqttHandlePacket ans { s with handled := s.handled ++ [pkt.2] } pkt
  exact ⟨hhanded.counter, hhanded.numbered, hhanded.wire⟩

/-- **A delivery** is the tries of its packets, one after the other. -/
theorem subscribed_recvData (s : Mqtt) (segs : List (List UInt8)) (ans : Answers) :
    Subscribed s (s.recvData segs ans) (s.recvDataTries segs ans) := by
  have hpackets := Runs.rel_outputs subscribed_refl (fun _ _ _ _ _ => Subscribed.trans)
    (subscribed_handOn ans) s (rxParse s.cli.rx segs).1
  exact ⟨hpackets.counter, hpackets.numbered, hpackets.wire⟩

/-! ## Everything else is quiet -/

theorem quiet_detachPcb (s : Mqtt) : Quiet s s.detachPcb := by
  unfold detachPcb
  cases s.cli.psPcb <;> exact ⟨rfl, rfl⟩

theorem quiet_mqttDNSFoundCB (s : Mqtt) (ip : Option (BitVec 32)) (ans : Answers) :
    Quiet s (s.mqttDNSFoundCB ip ans) :=
  mqttDNSFoundCB_rule ⟨rfl, rfl⟩ (fun _ => ⟨rfl, rfl⟩) (fun _ => ⟨rfl, rfl⟩)
    (fun ip => quiet_dropConnection (s.openPcb ip)) ip

theorem quiet_mqttTryConnect (ipaddrAton : CStr → Option (BitVec 32)) (s : Mqtt)
    (ans : Answers) : Quiet s (s.mqttTryConnect ipaddrAton ans) :=
  mqttTryConnect_rule ⟨rfl, rfl⟩
    (fun ip => quiet_mqttDNSFoundCB (s.setState .tcp) (some ip) ans)
    (fun ip => quiet_mqttDNSFoundCB s.askName (some ip) ans) ⟨rfl, rfl⟩ ⟨rfl, rfl⟩ ipaddrAton

theorem tickParts_quiet (ans : Answers) : TickParts Quiet ans where
  trans := Quiet.trans
  counters _ _ _ := ⟨rfl, rfl⟩
  ping s := s.quiet_mqttSendRaw (by decide) ans
  drop := quiet_dropConnection

theorem quiet_mqttClientTick (ipaddrAton : CStr → Option (BitVec 32)) (s : Mqtt)
    (ms : BitVec 32) (ans : Answers) : Quiet s (s.mqttClientTick ipaddrAton ms ans) :=
  mqttClientTick_rule (fun _ => ⟨rfl, rfl⟩) (fun _ => ⟨rfl, rfl⟩)
    (fun _ _ _ => quiet_mqttTryConnect ipaddrAton (s.setReconnect 0#32) ans)
    (fun _ => (tickParts_quiet ans).tickReady s ms)
    (fun _ _ => (tickParts_quiet ans).tickConnecting s ms)

theorem quiet_mqttConnectedCB (s : Mqtt) (eErr : LwipErr) (ans : Answers) :
    Quiet s (s.mqttConnectedCB eErr ans).1 := by
  unfold mqttConnectedCB
  split
  · exact ⟨rfl, rfl⟩
  · exact s.enterConnect.quiet_mqttSendRaw (by rfl) ans

theorem quiet_recvClosed (s : Mqtt) (p : Nat) : Quiet s (s.recvClosed p) := by
  unfold recvClosed
  split <;> exact ⟨rfl, rfl⟩

/-! ## Runs -/

theorem subscribed_perform (ipaddrAton : CStr → Option (BitVec 32)) (s : Mqtt)
    (e : MqttEvent) : Subscribed s (s.perform ipaddrAton e) (s.performTries e) := by
  cases e with
  | setWill topic msg retain => exact Quiet.subscribed ⟨rfl, rfl⟩
  | start host port clientID user pass =>
      have hstart : Quiet s (s.mqttClientStart host port clientID user pass) := quiet_detachPcb s
      exact hstart.subscribed
  | stop =>
      have hstop : Quiet s s.mqttClientStop :=
        quiet_detachPcb { s with cli := { s.cli with bEnabled := false } }
      exact hstop.subscribed
  | publish topic payload retain ans =>
      exact (s.quiet_mqttClientPublish topic payload retain ans).subscribed
  | subscribe topic ans => exact subscribed_appCall ans s (.subscribe topic)
  | tick ms ans => exact (quiet_mqttClientTick ipaddrAton s ms ans).subscribed
  | dnsFound ip ans => exact (quiet_mqttDNSFoundCB s ip ans).subscribed
  | connected p eErr ans =>
      have hconnected : Quiet s ((s.movePcb p .established).mqttConnectedCB eErr ans).1 :=
        quiet_mqttConnectedCB (s.movePcb p .established) eErr ans
      exact hconnected.subscribed
  | err p => exact Quiet.subscribed ⟨rfl, rfl⟩
  | recv p buf eErr ans =>
      cases buf with
      | none => exact (quiet_recvClosed s p).subscribed
      | some segs =>
          cases eErr with
          | ok => exact subscribed_recvData s segs ans
          | abrt => exact (quiet_recvClosed s p).subscribed
          | other => exact (quiet_recvClosed s p).subscribed

theorem subscribed_step (ipaddrAton : CStr → Option (BitVec 32)) (s : Mqtt) (e : MqttEvent) :
    Subscribed s (s.step ipaddrAton e) (s.stepTries e) := by
  unfold step stepTries
  split
  · exact subscribed_perform ipaddrAton s e
  · exact subscribed_refl s

/-- **The identifiers of a run** are 1, 2, … modulo 2^16, and the tries that were taken are the
SUBSCRIBEs on the wire. -/
theorem subscribed_run (ipaddrAton : CStr → Option (BitVec 32)) (es : List MqttEvent) :
    Subscribed init (Runs.final (step ipaddrAton) init es) (tries ipaddrAton es) :=
  Runs.rel_outputs subscribed_refl (fun _ _ _ _ _ => Subscribed.trans)
    (subscribed_step ipaddrAton) init es

/-! ## Identifiers and numbers -/

/-- The identifiers of the SUBSCRIBEs that were sent. -/
def sentIDs (ts : List SubscribeTry) : List (BitVec 16) :=
  (ts.filter SubscribeTry.taken).map SubscribeTry.packetID

/-- Which tries were sent, numbered from `n` on. -/
def sentNumbers : Nat → List SubscribeTry → List Nat
  | _, [] => []
  | n, t :: ts => (if t.taken then [n] else []) ++ sentNumbers (n + 1) ts

/-- No identifier is zero, and any 65535 in succession are distinct. -/
structure IDsRight (ids : List (BitVec 16)) : Prop where
  nonzero : ∀ id ∈ ids, id ≠ 0#16
  distinct : ∀ i, ((ids.drop i).take 65535).Nodup

/-- No number is a multiple of 2^16, and no two of 65535 in succession are a multiple of it
apart. -/
structure NumbersRight (ns : List Nat) : Prop where
  nonzero : ∀ n ∈ ns, ¬65536 ∣ n
  apart : ∀ i, ((ns.drop i).take 65535).Pairwise fun m n : Nat => ¬(65536 : Int) ∣ (n : Int) - m

theorem sentIDs_eq {ts : List SubscribeTry} {n : Nat} (h : Numbered (BitVec.ofNat 16 n) ts) :
    sentIDs ts = (sentNumbers n ts).map (BitVec.ofNat 16) := by
  induction ts generalizing n with
  | nil => rfl
  | cons t ts ih =>
      have htail : Numbered (BitVec.ofNat 16 (n + 1)) ts := by
        rw [BitVec.ofNat_add]
        exact h.2
      rw [sentNumbers, List.map_append, ← ih htail]
      unfold sentIDs
      cases htaken : t.taken with
      | true =>
          rw [List.filter_cons_of_pos htaken, List.map_cons, h.1]
          rfl
      | false =>
          rw [List.filter_cons_of_neg (by rw [htaken]; exact Bool.false_ne_true)]
          rfl

theorem ofNat_inj_iff (m n : Nat) :
    BitVec.ofNat 16 m = BitVec.ofNat 16 n ↔ (65536 : Int) ∣ (n : Int) - m := by
  rw [← BitVec.toNat_inj, BitVec.toNat_ofNat, BitVec.toNat_ofNat]
  omega

/-- Identifiers are right as the numbers are of which they are the last 16 bits. -/
theorem idsRight_map_iff (ns : List Nat) :
    IDsRight (ns.map (BitVec.ofNat 16)) ↔ NumbersRight ns := by
  have hzero (n : Nat) : BitVec.ofNat 16 n ≠ 0#16 ↔ ¬65536 ∣ n := by
    have hinj := ofNat_inj_iff 0 n
    rw [Ne, eq_comm, hinj]
    omega
  have hapart (i : Nat) : (((ns.map (BitVec.ofNat 16)).drop i).take 65535).Nodup ↔
      ((ns.drop i).take 65535).Pairwise fun m n : Nat => ¬(65536 : Int) ∣ (n : Int) - m := by
    rw [← List.map_drop, ← List.map_take, List.Nodup, List.pairwise_map]
    simp only [Ne, ofNat_inj_iff]
  constructor
  · intro h
    refine ⟨fun n hn => ?_, fun i => (hapart i).mp (h.distinct i)⟩
    exact (hzero n).mp (h.nonzero _ (List.mem_map_of_mem hn))
  · intro h
    refine ⟨fun id hid => ?_, fun i => (hapart i).mpr (h.apart i)⟩
    obtain ⟨n, hn, rfl⟩ := List.mem_map.mp hid
    exact (hzero n).mpr (h.nonzero n hn)

/-- The identifiers of a run, by the numbers of its tries. -/
theorem idsRight_tries_iff (ipaddrAton : CStr → Option (BitVec 32)) (es : List MqttEvent) :
    IDsRight (sentIDs (tries ipaddrAton es)) ↔
      NumbersRight (sentNumbers 1 (tries ipaddrAton es)) := by
  rw [sentIDs_eq (n := 1) (subscribed_run ipaddrAton es).numbered]
  exact idsRight_map_iff _

/-- **The packet identifiers.**  The SUBSCRIBEs on the wire are the tries that were taken.  In
every run their identifiers are right exactly when no 2^16-th try was sent, and among 65535 sent
in succession no two tries a multiple of 2^16 apart. -/
theorem subscribeIDs_right_iff (ipaddrAton : CStr → Option (BitVec 32)) (es : List MqttEvent) :
    (Runs.final (step ipaddrAton) init es).subscribes =
        (((tries ipaddrAton es).filter SubscribeTry.taken).map SubscribeTry.packet).filter
          isSubscribe ∧
      (IDsRight (sentIDs (tries ipaddrAton es)) ↔
        NumbersRight (sentNumbers 1 (tries ipaddrAton es))) :=
  ⟨(subscribed_run ipaddrAton es).wire, idsRight_tries_iff ipaddrAton es⟩

/-! ## Short runs, and runs without a refusal -/

theorem mem_sentNumbers {ts : List SubscribeTry} {n m : Nat} (h : m ∈ sentNumbers n ts) :
    n ≤ m ∧ m < n + ts.length := by
  induction ts generalizing n with
  | nil => cases h
  | cons t ts ih =>
      rw [List.length_cons]
      rcases List.mem_append.mp h with h | h
      · split at h
        · rw [List.mem_singleton.mp h]
          omega
        · cases h
      · have hbounds := ih h
        omega

theorem sorted_sentNumbers (ts : List SubscribeTry) (n : Nat) :
    (sentNumbers n ts).Pairwise (· < ·) := by
  induction ts generalizing n with
  | nil => exact List.Pairwise.nil
  | cons t ts ih =>
      refine List.pairwise_append.mpr ⟨?_, ih (n + 1), ?_⟩
      · split <;> simp
      · intro k hk m hm
        have hbounds := mem_sentNumbers hm
        split at hk
        · rw [List.mem_singleton.mp hk]
          omega
        · cases hk

/-- Before the counter wraps, everything is right. -/
theorem numbersRight_of_few {ts : List SubscribeTry} (h : ts.length < 65536) :
    NumbersRight (sentNumbers 1 ts) := by
  constructor
  · intro n hn hdvd
    have hbounds := mem_sentNumbers hn
    have hle := Nat.le_of_dvd (by omega) hdvd
    omega
  · intro i
    have hsub : (((sentNumbers 1 ts).drop i).take 65535).Sublist (sentNumbers 1 ts) :=
      (List.take_sublist _ _).trans (List.drop_sublist _ _)
    refine ((sorted_sentNumbers ts 1).sublist hsub).imp_of_mem fun {m n} hm hn hlt hdvd => ?_
    have hm := mem_sentNumbers (hsub.subset hm)
    have hn := mem_sentNumbers (hsub.subset hn)
    omega

theorem sentNumbers_of_taken {ts : List SubscribeTry} (h : ∀ t ∈ ts, t.taken = true) (n : Nat) :
    sentNumbers n ts = List.range' n ts.length := by
  induction ts generalizing n with
  | nil => rfl
  | cons t ts ih =>
      rw [sentNumbers, if_pos (h t (by simp)), ih (fun u hu => h u (by simp [hu])),
        List.length_cons, List.range'_succ]
      rfl

/-- When TCP takes every SUBSCRIBE, it goes well up to the 65535th. -/
theorem idsRight_of_taken_iff (ipaddrAton : CStr → Option (BitVec 32)) (es : List MqttEvent)
    (h : ∀ t ∈ tries ipaddrAton es, t.taken = true) :
    IDsRight (sentIDs (tries ipaddrAton es)) ↔ (tries ipaddrAton es).length < 65536 := by
  rw [idsRight_tries_iff]
  constructor
  · intro hright
    by_contra hlong
    refine hright.nonzero 65536 ?_ (Nat.dvd_refl _)
    rw [sentNumbers_of_taken h, List.mem_range'_1]
    omega
  · exact numbersRight_of_few

/-! ## The wrap -/

/-- Subscribing again and again, on a connection that takes everything. -/
theorem tries_replicate (ipaddrAton : CStr → Option (BitVec 32)) {s : Mqtt} {p : Nat}
    (hready : s.cli.eState = .ready) (hpcb : s.cli.psPcb = some p) (topic : CStr) (n : Nat) :
    let ts := Runs.outputs (step ipaddrAton) stepTries s
      (List.replicate n (.subscribe topic .obliging))
    ts.length = n ∧ ∀ t ∈ ts, t.taken = true := by
  induction n generalizing s with
  | zero => exact ⟨rfl, nofun⟩
  | succ n ih =>
      have hlink := (sendsOnly_mqttClientSubscribe s topic .obliging).link
      have hnext := ih (s := s.step ipaddrAton (.subscribe topic .obliging))
        ((congrArg Link.eState hlink).trans hready) ((congrArg Link.psPcb hlink).trans hpcb)
      have htaken : (s.mqttClientSubscribe topic .obliging).2 = true := by
        simp [mqttClientSubscribe, mqttSendRaw, hready, hpcb, beforeConnect, Answers.obliging]
      have hfirst : s.stepTries (.subscribe topic .obliging) =
          [⟨s.cli.packetID, topic, true⟩] := by
        have hoccurs : s.net.CanDeliver (.subscribe topic .obliging) := trivial
        rw [stepTries, if_pos hoccurs, performTries, appCallTries, if_neg (not_not.mpr hready),
          htaken]
      rw [List.replicate_succ, Runs.outputs_cons, hfirst]
      refine ⟨?_, ?_⟩
      · rw [List.singleton_append, List.length_cons, hnext.1]
      · intro t ht
        rcases List.mem_cons.mp ht with rfl | ht
        · rfl
        · exact hnext.2 t ht

/-- The events that lead to `connected`. -/
def connecting : List MqttEvent :=
  [.start (some (ascii "10.0.0.2")) 1883#16 none none none, .tick 100#32 .obliging,
    .connected 0 .ok .obliging, .recv 0 (some [[0x20, 2, 0, 0]]) .ok .obliging]

/-- The 65536th SUBSCRIBE is sent with the identifier 0. -/
theorem zero_identifier_sent :
    ¬∀ (ipaddrAton : CStr → Option (BitVec 32)) (es : List MqttEvent),
      IDsRight (sentIDs (tries ipaddrAton es)) := by
  intro h
  have hready : connected.cli.eState = .ready := by decide +kernel
  have hpcb : connected.cli.psPcb = some 0 := by decide +kernel
  obtain ⟨hlen, htaken⟩ := tries_replicate (fun _ => some 0x0A000002#32) hready hpcb
    (ascii "home/+/set") 65536
  have hbefore : tries (fun _ => some 0x0A000002#32) connecting = [] := by decide +kernel
  have htries : tries (fun _ => some 0x0A000002#32)
      (connecting ++ List.replicate 65536 (.subscribe (ascii "home/+/set") .obliging)) =
        Runs.outputs (step fun _ => some 0x0A000002#32) stepTries connected
          (List.replicate 65536 (.subscribe (ascii "home/+/set") .obliging)) := by
    rw [tries] at hbefore
    rw [tries, Runs.outputs_append, hbefore, List.nil_append]
    rfl
  have hright := (idsRight_of_taken_iff _ _ (htries ▸ htaken)).mp (h _ _)
  rw [htries, hlen] at hright
  exact absurd hright (Nat.lt_irrefl 65536)

end Mqtt

end HomeAuto
