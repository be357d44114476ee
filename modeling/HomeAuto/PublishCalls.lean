import HomeAuto.HubCommands
import HomeAuto.Lib.Interrupts
import HomeAuto.Lib.TextBuffer
import HomeAuto.MqttApp
import HomeAuto.ReloadOrphans
import HomeAuto.WebText

/-!
# Nested publishes (`ha_mqtt.c` on the TM4C1294)

Every publish of a state chooses its payload, prints its topic into `g_pcScratchTopic` and hands
both to `MQTTClientPublish`, which masks the interrupt only when it copies them.  The message
handlers run in the Ethernet interrupt and publish through the same buffer.  A publish of the
main loop is a list of operations here, one for each byte that is printed; before any of them,
complete handlers may run.

A packet is right when its topic is the one of the item whose state its payload is, and that is
the state which the item has when the packet is handed over.  The client is ready throughout:
otherwise nothing is sent at all.
-/

namespace HomeAuto

/-- What has a state: a relay, an input, a cover. -/
inductive StateItem
  | relay (relay : Nat)
  | input (input : Nat)
  | cover (shutter : Nat)
  deriving DecidableEq

/-- The format of its topic, and its number. -/
def StateItem.format : StateItem → String
  | .relay _ => "%s/relay/%d/state"
  | .input _ => "%s/input/%d/state"
  | .cover _ => "%s/cover/%d/state"
def StateItem.number : StateItem → Nat
  | .relay n | .input n | .cover n => n

/-- The topic under which its state is published. -/
def StateItem.topic (base : CStr) (item : StateItem) : CStr :=
  HaMqtt.scratchTopic item.format [.str base, .num item.number]

/-- The payload that says its state.  `levels` are the inputs as the main loop has read them. -/
def StateItem.state (hub : Hub) (levels : Nat → Bool) : StateItem → CStr
  | .relay n => levelStr (hub.chain.relayChainGet n)
  | .input n => levelStr (levels n)
  | .cover n => (hub.outputCtrlCoverState n).str

/-- The publishes of the main loop: `MQTTAppPublishRelayState`, `MQTTAppPublishInput`,
`MQTTAppPublishCoverState` as the post-connect sequence calls it, and `ShPublish`. -/
inductive StateCall
  | publishRelayState (relay : Fin cfgMaxOutputs)
  | publishInput (input : Fin cfgMaxInputs)
  | publishCoverState (shutter : Fin cfgMaxShutters)
  | shPublish (shutter : Fin cfgMaxShutters) (state : CoverState)

namespace StateCall

/-- What a call is about. -/
def item : StateCall → StateItem
  | .publishRelayState relay => .relay relay
  | .publishInput input => .input input
  | .publishCoverState shutter | .shPublish shutter _ => .cover shutter

/-- The payload it chooses before it prints the topic. -/
def msg (hub : Hub) (levels : Nat → Bool) : StateCall → CStr
  | .publishRelayState relay => levelStr (hub.chain.relayChainGet (toU16 (relay : Nat)))
  | .publishInput input => levelStr (levels input)
  | .publishCoverState shutter => (hub.outputCtrlCoverState shutter).str
  | .shPublish _ state => state.str

/-- `ShPublish` remembers the state first. -/
def remember (hub : Hub) : StateCall → Hub
  | .shPublish shutter state => hub.modSh shutter fun p => { p with pcState := some state }
  | _ => hub

/-- `ShPublish` is called for a defined slot. -/
def Defined (hub : Hub) : StateCall → Prop
  | .shPublish shutter _ => (hub.sh shutter).valid ≠ false
  | _ => True

end StateCall

/-- The publishes of the output controller: what each is about, the topic it prints, and its
payload.  `MQTTAppSetRelay` refuses a negative relay, so the number that is printed is a natural
one; the relay is the one of its low 16 bits. -/
def Publish.item : Publish → StateItem
  | .relayState relay _ => .relay (toU16 relay)
  | .coverState shutter _ => .cover shutter
def Publish.topic (base : CStr) : Publish → CStr
  | .relayState relay _ => StateItem.topic base (.relay relay.toNat)
  | .coverState shutter _ => StateItem.topic base (.cover shutter)
def Publish.msg : Publish → CStr
  | .relayState _ on => levelStr on
  | .coverState _ state => state.str

/-- A PUBLISH packet.  Its payload is meant as the state of `item`, and `state` is the one which
that item had when the packet was handed over. -/
structure StatePacket where
  item : StateItem
  state : CStr
  topic : CStr
  payload : CStr

/-- A publish in progress: the hub, the inputs as read, `g_pcScratchTopic`, the payload of the
call in the main loop, and the packets so far. -/
structure Publisher where
  hub : Hub
  levels : Nat → Bool
  scratchTopic : Nat → UInt8
  pcMsg : CStr
  packets : List StatePacket

/-- An operation of a publish: the choice of the payload, one byte of `PalSnprintf`, and the
copy under the mask. -/
inductive PublishOp
  | chooseMsg (call : StateCall)
  | putByte (k : Nat) (c : UInt8)
  | send (item : StateItem)

/-- `PalSnprintf`, byte after byte from cell `k` on. -/
def putOps : Nat → CStr → List PublishOp
  | _, [] => []
  | k, c :: cs => .putByte k c :: putOps (k + 1) cs

/-- A publish of the main loop. -/
def StateCall.ops (base : CStr) (call : StateCall) : List PublishOp :=
  .chooseMsg call :: putOps 0 (call.item.topic base ++ [0]) ++ [.send call.item]

/-- A message that the Ethernet interrupt delivers: its topic and its payload. -/
abbrev Message := CStr × List UInt8

namespace Publisher

/-- The topic that `MQTTClientPublish` copies. -/
def copiedTopic (s : Publisher) : CStr := TextBuffer.read 0 80 s.scratchTopic

/-- `MQTTClientPublish` is handed the buffer, and a payload for an item. -/
def handOver (s : Publisher) (item : StateItem) (msg : CStr) : Publisher :=
  { s with packets := s.packets ++ [⟨item, item.state s.hub s.levels, s.copiedTopic, msg⟩] }

/-- One operation. -/
def exec (s : Publisher) : PublishOp → Publisher
  | .chooseMsg call => { s with hub := call.remember s.hub, pcMsg := call.msg s.hub s.levels }
  | .putByte k c => { s with scratchTopic := Function.update s.scratchTopic k c }
  | .send item => s.handOver item s.pcMsg

/-- A publish that is not interrupted. -/
def publishState (s : Publisher) (item : StateItem) (topic msg : CStr) : Publisher :=
  { s with scratchTopic := TextBuffer.writeFrom 0 (topic ++ [0]) s.scratchTopic }.handOver item msg

/-- A handler of the interrupt, from the message to its last publish. -/
def serve (palStrToUl : StrToUl) (s : Publisher) (message : Message) : Publisher :=
  let hub := { s.hub with published := [] }.productOnMqtt palStrToUl message.1 message.2
  hub.published.foldl (fun s p => s.publishState p.item (p.topic s.hub.baseTopic) p.msg)
    { s with hub := hub }

/-- Every packet carries the topic and the state of its item, and the item of the call has its
packet. -/
structure Paired (base : CStr) (item : StateItem) (s : Publisher) : Prop where
  topics : ∀ packet ∈ s.packets, packet.topic = packet.item.topic base
  payloads : ∀ packet ∈ s.packets, packet.payload = packet.state
  own : ∃ packet ∈ s.packets, packet.item = item

end Publisher

/-- A publish of the main loop, with the complete handlers that come at each of its points. -/
def interruptedPublish (palStrToUl : StrToUl) (hub : Hub) (levels : Nat → Bool)
    (scratchTopic : Nat → UInt8) (call : StateCall) (sched : Nat → List Message) : Publisher :=
  Interrupts.routine Publisher.exec (Publisher.serve palStrToUl) sched
    (call.ops hub.baseTopic) ⟨hub, levels, scratchTopic, [], []⟩

/-- The last of the points before which a call has not committed itself.  No handler changes an
input, and all topics agree up to the slash after the base topic.  The state of a relay or of a
cover may change as soon as it has been taken for the payload. -/
def StateItem.lastOpenPoint (base : CStr) : StateItem → Nat
  | .input _ => base.length + 2
  | .relay _ | .cover _ => 0

/-- The points at which handlers do no harm: these, and those after the copy. -/
def HarmlessPoint (base : CStr) (item : StateItem) (point : Nat) : Prop :=
  point ≤ item.lastOpenPoint base ∨ (item.topic base).length + 3 ≤ point

/-- A topic that switches a relay under another number: the number it gives does not fit the 16
bits by which `MQTTAppSetRelay` finds the relay. -/
def Misnames (base topic : CStr) : Prop :=
  ∃ n, IsRelaySet base topic n ∧ n % 65536 < cfgMaxOutputs ∧ 65536 ≤ n % 2 ^ 32 ∧
    n % 2 ^ 32 < 2 ^ 31

/-- Handlers of some messages at some points leave every packet right, whatever the hub, the
inputs and the buffer. -/
def PairsUnder (palStrToUl : StrToUl) (base : CStr) (call : StateCall) (points : Nat → Prop)
    (messages : Message → Prop) : Prop :=
  ∀ hub levels scratchTopic sched, hub.baseTopic = base → call.Defined hub →
    (∀ i, sched i ≠ [] → points i) → (∀ i, ∀ message ∈ sched i, messages message) →
      (interruptedPublish palStrToUl hub levels scratchTopic call sched).Paired base call.item

/-- A base topic that fits `g_pcBase`. -/
structure BaseTopic where
  text : CStr
  fits : text.length < cfgTopicLen
  noNul : 0 ∉ text

/-! ## Topics -/

namespace StateItem

/-- The words between the base topic and the number. -/
def mid : StateItem → CStr
  | .relay _ => ascii "/relay/"
  | .input _ => ascii "/input/"
  | .cover _ => ascii "/cover/"

variable (base : CStr) (item : StateItem)

theorem topic_eq :
    item.topic base =
      (base ++ (item.mid ++ (fmtDecimal item.number ++ ascii "/state"))).take 79 := by
  cases item <;>
    simp [topic, format, number, mid, HaMqtt.scratchTopic, palSnprintf, palFormat, ascii]

theorem length_topic : (item.topic base).length < 80 := by
  rw [topic_eq, List.length_take]
  omega

theorem zero_notMem_topic (b : BaseTopic) : 0 ∉ item.topic b.text := by
  rw [topic_eq]
  intro hmem
  have hmid : 0 ∉ item.mid := by
    cases item with
    | relay relay => exact (by decide : 0 ∉ ascii "/relay/")
    | input input => exact (by decide : 0 ∉ ascii "/input/")
    | cover shutter => exact (by decide : 0 ∉ ascii "/cover/")
  have hnumber : 0 ∉ fmtDecimal item.number := not_mem_fmtDecimal (by decide) _
  have hstate : 0 ∉ ascii "/state" := by decide
  have htext := List.mem_of_mem_take hmem
  rw [List.mem_append, List.mem_append, List.mem_append] at htext
  rcases htext with hbase | hword | hdigit | htail
  · exact b.noNul hbase
  · exact hmid hword
  · exact hnumber hdigit
  · exact hstate htail

/-- The letter that tells the items apart. -/
def letter : StateItem → UInt8
  | .relay _ => 114
  | .input _ => 105
  | .cover _ => 99

/-- A topic is the base topic, a slash, the letter of the item, and more. -/
theorem topic_split (b : BaseTopic) :
    ∃ tail, item.topic b.text = (b.text ++ [47]) ++ item.letter :: tail := by
  obtain ⟨word, hword⟩ : ∃ word, item.mid = 47 :: item.letter :: word := by
    cases item with
    | relay relay => exact ⟨_, (by decide : ascii "/relay/" = 47 :: 114 :: ascii "elay/")⟩
    | input input => exact ⟨_, (by decide : ascii "/input/" = 47 :: 105 :: ascii "nput/")⟩
    | cover shutter => exact ⟨_, (by decide : ascii "/cover/" = 47 :: 99 :: ascii "over/")⟩
  have hfits : (b.text ++ [47, item.letter]).length ≤ 79 := by
    have hbase := b.fits
    unfold cfgTopicLen at hbase
    rw [List.length_append, List.length_cons, List.length_singleton]
    omega
  rw [topic_eq, hword]
  refine ⟨(word ++ (fmtDecimal item.number ++ ascii "/state")).take
    (79 - (b.text ++ [47, item.letter]).length), ?_⟩
  calc (b.text ++ ((47 :: item.letter :: word) ++
          (fmtDecimal item.number ++ ascii "/state"))).take 79
      = ((b.text ++ [47, item.letter]) ++
          (word ++ (fmtDecimal item.number ++ ascii "/state"))).take 79 := by
        simp only [List.append_assoc, List.cons_append, List.nil_append]
    _ = (b.text ++ [47, item.letter]) ++
          (word ++ (fmtDecimal item.number ++ ascii "/state")).take
            (79 - (b.text ++ [47, item.letter]).length) := by
        rw [List.take_append, List.take_of_length_le hfits]
    _ = _ := by
        simp only [List.append_assoc, List.cons_append, List.nil_append]

end StateItem

/-! ## What a message publishes -/

/-- A publish that prints the topic of its item, and says the state that this has on `h`. -/
structure Publish.Right (h : Hub) (p : Publish) : Prop where
  topic : ∀ base, p.topic base = p.item.topic base
  msg : ∀ levels, p.msg = p.item.state h levels

namespace Hub

/-- The state that a defined slot remembers is the one it reports. -/
theorem outputCtrlCoverState_remember {h : Hub} {i : Nat} (hvalid : (h.sh i).valid ≠ false)
    (state : CoverState) :
    (h.modSh i fun p => { p with pcState := some state }).outputCtrlCoverState i = state := by
  unfold outputCtrlCoverState
  rw [modSh_sh_self, if_neg hvalid]
  rfl

/-- Every publish of a hub is right. -/
def PublishesRight (h : Hub) : Prop := ∀ p ∈ h.published, p.Right h

variable {h : Hub} (hnil : h.published = [])
include hnil

theorem publishesRight_of_nil : h.PublishesRight := by
  intro p hp
  rw [hnil] at hp
  exact absurd hp List.not_mem_nil

/-- The first publish of a hub. -/
theorem publishesRight_publish {p : Publish} (hp : p.Right (h.publish p)) :
    (h.publish p).PublishesRight := by
  intro q hq
  rw [publish, hnil, List.nil_append, List.mem_singleton] at hq
  rw [hq]
  exact hp

/-- A relay that is switched by a number of 16 bits. -/
theorem publishesRight_mqttAppSetRelay {iRelay : Int} (on : Bool)
    (hname : 0 ≤ iRelay → toU16 iRelay < cfgMaxOutputs → iRelay.toNat = toU16 iRelay) :
    (h.mqttAppSetRelay iRelay on).PublishesRight := by
  unfold mqttAppSetRelay
  split
  · exact publishesRight_of_nil hnil
  · rename_i hrange
    have hcount := h.relayCount_le
    have hnumber : iRelay.toNat = toU16 iRelay := by
      apply hname
      · omega
      · unfold cfgMaxOutputs
        omega
    exact publishesRight_publish (h := h.setRelay (toU16 iRelay) on) hnil
      ⟨fun base => congrArg (fun n => StateItem.topic base (.relay n)) hnumber, fun _ => rfl⟩

theorem publishesRight_relayPulseStart (iRelay : Int) (ms : Nat) :
    (h.relayPulseStart iRelay ms).PublishesRight := by
  unfold relayPulseStart
  split
  · exact publishesRight_of_nil hnil
  · rename_i hrange
    split
    · exact publishesRight_of_nil (h := h.setPulse _ 0) hnil
    · have hname : iRelay.toNat = toU16 iRelay := by
        unfold toU16
        unfold pulseMaxRelays at hrange
        omega
      have hset := publishesRight_mqttAppSetRelay hnil true fun _ _ => hname
      intro p hp
      exact ⟨(hset p hp).topic, (hset p hp).msg⟩

/-- A state that a defined slot takes on. -/
theorem publishesRight_shPublish {i : Nat} (hvalid : (h.sh i).valid ≠ false) (state : CoverState) :
    (h.shPublish i state).PublishesRight := by
  have hstate := outputCtrlCoverState_remember hvalid state
  exact publishesRight_publish (h := h.modSh i fun p => { p with pcState := some state }) hnil
    ⟨fun _ => rfl, fun _ => (congrArg CoverState.str hstate).symm⟩

theorem publishesRight_shStop {i : Nat} (hvalid : (h.sh i).valid ≠ false) :
    (h.shStop i).PublishesRight := by
  apply publishesRight_shPublish
  · exact hnil
  · rw [modSh_sh_self]
    exact hvalid

theorem publishesRight_shMove {i : Nat} (hvalid : (h.sh i).valid ≠ false) (up : Bool) :
    (h.shMove i up).PublishesRight := by
  unfold shMove
  split
  · exact publishesRight_of_nil (h := h.modSh i _) hnil
  · split
    · apply publishesRight_shPublish
      · exact hnil
      · simpa using hvalid
    · apply publishesRight_shPublish
      · exact hnil
      · rw [modSh_sh_self, modSh_sh_self]
        split <;> simpa [shBothOff] using hvalid

theorem publishesRight_outputCtrlShutter (iShutter : Int) (cmd : ShCmd) :
    (h.outputCtrlShutter iShutter cmd).PublishesRight := by
  unfold outputCtrlShutter
  split
  · exact publishesRight_of_nil hnil
  · split
    · exact publishesRight_of_nil hnil
    · rename_i hvalid
      have hpress (up : Bool) :
          (if (h.sh iShutter.toNat).state ≠ .idle then h.shStop iShutter.toNat
            else h.shMove iShutter.toNat up).PublishesRight := by
        split
        · exact publishesRight_shStop hnil hvalid
        · exact publishesRight_shMove hnil hvalid up
      cases cmd with
      | stop => exact publishesRight_shStop hnil hvalid
      | «open» => exact publishesRight_shMove hnil hvalid true
      | close => exact publishesRight_shMove hnil hvalid false
      | up => exact hpress true
      | down => exact hpress false
      | toggle => exact hpress _

theorem publishesRight_outputCtrlCommand {iOut : Int} (cmd : OutCmd)
    (hname : 0 ≤ iOut → toU16 iOut < cfgMaxOutputs → iOut.toNat = toU16 iOut) :
    (h.outputCtrlCommand iOut cmd).PublishesRight := by
  unfold outputCtrlCommand
  split
  · exact publishesRight_outputCtrlShutter hnil _ _
  · split
    · split
      · exact publishesRight_relayPulseStart hnil iOut _
      · apply publishesRight_mqttAppSetRelay _ false hname
        unfold relayPulseStart
        split
        · exact hnil
        · exact hnil
    · exact publishesRight_mqttAppSetRelay hnil _ hname

omit hnil in
/-- The number of a topic that misnames no relay. -/
theorem toNat_of_not_misnames {base topic : CStr} (h : ¬Misnames base topic) {iOut : Int}
    (hparse : mqttAppParseRelaySet base topic = some iOut) (hpos : 0 ≤ iOut)
    (hlow : toU16 iOut < cfgMaxOutputs) : iOut.toNat = toU16 iOut := by
  obtain ⟨n, hform, hvalue⟩ := mqttAppParseRelaySet_eq_some_iff.mp hparse
  subst hvalue
  rw [toU16_parsedInt] at hlow ⊢
  rw [parsedInt_eq] at hpos ⊢
  have hfits : ¬(65536 ≤ n % 2 ^ 32 ∧ n % 2 ^ 32 < 2 ^ 31) :=
    fun hout => h ⟨n, hform, hlow, hout.1, hout.2⟩
  split at hpos
  · rw [if_pos ‹_›]
    omega
  · omega

/-- **A message that misnames no relay** publishes what is so. -/
theorem publishesRight_productOnMqtt (palStrToUl : StrToUl) {topic : CStr} (payload : List UInt8)
    (hname : ¬Misnames h.baseTopic topic) :
    (h.productOnMqtt palStrToUl topic payload).PublishesRight :=
  productOnMqtt_elim palStrToUl topic payload (publishesRight_of_nil hnil)
    (fun _ cmd hparse _ => publishesRight_outputCtrlCommand hnil cmd
      (toNat_of_not_misnames hname hparse))
    (publishesRight_outputCtrlShutter hnil) (publishesRight_relayPulseStart hnil)

end Hub

end HomeAuto
