import HomeAuto.MqttApp
import HomeAuto.PostConnect
import Mathlib.Data.List.Forall2

/-!
# The calls of the post-connect sequence

`HaMqtt.Says` is what a call of the MQTT client has to be in order to stand for an item: the
retained `online` on the status topic, a retained message on the discovery topic that is empty
exactly where nothing is announced, a retained state, or a subscription.  The calls that
`ha_mqtt.c` makes are of this kind (`says_itemCall`).

`HaMqtt.SentFor` compares the calls recorded with the items they are to stand for, for one
configuration.
-/

namespace HomeAuto

/-- The levels of a topic, in a buffer of `size` bytes. -/
def topicIn (size : Nat) (levels : List CStr) : CStr := ([47].intercalate levels).take (size - 1)

namespace HaMqtt

variable (a : HaMqtt)

/-- A message on the discovery topic of an object of the device, which announces it or clears
it. -/
def Discovers (component object : CStr) (announced : Prop) (call : AppCall) : Prop :=
  ∃ payload,
    call = .publish
      (topicIn 96 [ascii "homeassistant", component, a.devId, object, ascii "config"]) payload 1 ∧
    (payload ≠ [] ↔ announced)

/-- A state, below the base topic. -/
def Tells (kind : String) (number : Nat) (state : CStr) (call : AppCall) : Prop :=
  call = .publish
    (topicIn 80 [a.hub.baseTopic, ascii kind, fmtDecimal number, ascii "state"]) state 1

/-- A subscription to a command for every number. -/
def Subscribes (kind command : String) (call : AppCall) : Prop :=
  call = .subscribe (topicIn 80 [a.hub.baseTopic, ascii kind, ascii "+", ascii command])

/-- The call that stands for an item. -/
def Says : PubItem → AppCall → Prop
  | .status => (· = .publish a.topicStatus (ascii "online") 1)
  | .relayDiscovery relay =>
      a.Discovers (ascii "switch") (ascii "relay" ++ fmtDecimal relay)
        (a.hub.outCfg.outputCtrlIsShutterMember relay = false)
  | .relayState relay => a.Tells "relay" relay (levelStr (a.hub.chain.relayChainGet relay))
  | .relaySetSub => a.Subscribes "relay" "set"
  | .relayPulseSub => a.Subscribes "relay" "pulse"
  | .inputStale input =>
      a.Discovers
        (if a.configInputIsPushbutton input then ascii "binary_sensor" else ascii "event")
        (ascii "input" ++ fmtDecimal input) False
  | .inputDiscovery input =>
      a.Discovers
        (if a.configInputIsPushbutton input then ascii "event" else ascii "binary_sensor")
        (ascii "input" ++ fmtDecimal input) True
  | .inputState input =>
      a.Tells "input" input (levelStr ((a.inSnap (input / 8)).getLsbD (input % 8)))
  | .coverDiscovery shutter =>
      a.Discovers (ascii "cover") (ascii "cover" ++ fmtDecimal shutter)
        (a.outputCtrlShutterValid shutter = true)
  | .coverState shutter => a.Tells "cover" shutter (a.hub.outputCtrlCoverState shutter).str
  | .coverSub => a.Subscribes "cover" "set"
  | .tempDiscovery => a.Discovers (ascii "sensor") (ascii "temp") True

/-- Two states with the same topics. -/
structure SameTopics (a b : HaMqtt) : Prop where
  base : b.hub.baseTopic = a.hub.baseTopic
  status : b.topicStatus = a.topicStatus
  device : b.devId = a.devId

/-- A recorded call stands for the item, and was made for the configuration and the topics of
`a`. -/
structure SentFor (a : HaMqtt) (item : PubItem) (made : SentCall) : Prop where
  call : made.ha.Says item made.call
  layout : SameLayout a made.ha
  topics : SameTopics a made.ha

namespace SameTopics

variable {a b c : HaMqtt}

theorem refl (a : HaMqtt) : SameTopics a a := ⟨rfl, rfl, rfl⟩

theorem symm (h : SameTopics a b) : SameTopics b a := ⟨h.base.symm, h.status.symm, h.device.symm⟩

theorem trans (hab : SameTopics a b) (hbc : SameTopics b c) : SameTopics a c where
  base := hbc.base.trans hab.base
  status := hbc.status.trans hab.status
  device := hbc.device.trans hab.device

end SameTopics

/-- What is sent for a configuration is sent for one like it. -/
theorem SentFor.congr {a b : HaMqtt} {item : PubItem} {made : SentCall} (h : a.SentFor item made)
    (hlayout : SameLayout a b) (htopics : SameTopics a b) : b.SentFor item made where
  call := h.call
  layout := hlayout.symm.trans h.layout
  topics := htopics.symm.trans h.topics

/-! ## The calls are those -/

variable {a}

/-- The levels that a format prints. -/
theorem palSnprintf_eq {size : Nat} {format : String} {args : List FmtArg} {levels : List CStr}
    (h : palFormat format.toList args = [47].intercalate levels) :
    palSnprintf size format args = topicIn size levels :=
  congrArg (List.take (size - 1)) h

theorem tells_of_format {format kind : String} {number : Nat} {state : CStr}
    (h : palFormat format.toList [.str a.hub.baseTopic, .num number] =
      [47].intercalate [a.hub.baseTopic, ascii kind, fmtDecimal number, ascii "state"]) :
    a.Tells kind number state
      (.publish (scratchTopic format [.str a.hub.baseTopic, .num number]) state 1) :=
  congrArg (AppCall.publish · state 1) (palSnprintf_eq h)

theorem subscribes_of_format {format kind command : String}
    (h : palFormat format.toList [.str a.hub.baseTopic] =
      [47].intercalate [a.hub.baseTopic, ascii kind, ascii "+", ascii command]) :
    a.Subscribes kind command (.subscribe (scratchTopic format [.str a.hub.baseTopic])) :=
  congrArg AppCall.subscribe (palSnprintf_eq h)

theorem discovers_of_format {format : String} {args : List FmtArg} {component object : CStr}
    {payload : CStr} {announced : Prop}
    (h : palFormat format.toList args =
      [47].intercalate [ascii "homeassistant", component, a.devId, object, ascii "config"])
    (hpayload : payload ≠ [] ↔ announced) :
    a.Discovers component object announced (.publish (discTopic format args) payload 1) :=
  ⟨payload, congrArg (AppCall.publish · payload 1) (palSnprintf_eq h), hpayload⟩

/-- The bit of an input in its byte. -/
theorem and_bit_bne_zero (b : BitVec 8) (n : Nat) :
    ((b &&& (1#8 <<< (n &&& 7))) != 0#8) = b.getLsbD (n % 8) := by
  have hbit : n &&& 7 = n % 8 := Nat.and_two_pow_sub_one_eq_mod n 3
  rw [hbit]
  exact and_bit_ne_zero b (Nat.mod_lt n (by decide))

theorem head?_append {s t : String} {c : Char} (h : s.toList.head? = some c) :
    (s ++ t).toList.head? = some c := by
  rw [String.toList_append, List.head?_append, h]
  rfl

/-- What opens an object is not empty. -/
theorem discPayload_ne_nil {format : String} (h : format.toList.head? = some '\x7b')
    (args : List FmtArg) : discPayload format args ≠ [] := by
  obtain ⟨cs, hcs⟩ := List.head?_eq_some_iff.mp h
  unfold discPayload palSnprintf
  rw [hcs]
  exact List.cons_ne_nil _ _

/-- **What a call says.** -/
theorem says_itemCall (a : HaMqtt) (item : PubItem) : a.Says item (a.itemCall item) := by
  cases item with
  | status => rfl
  | relayDiscovery relay =>
      refine discovers_of_format (by simp [palFormat, ascii, List.intercalate]) ?_
      cases hmember : a.hub.outCfg.outputCtrlIsShutterMember relay with
      | true =>
          rw [if_pos rfl]
          exact iff_of_false (fun h => h rfl) Bool.noConfusion
      | false =>
          rw [if_neg Bool.noConfusion]
          refine iff_of_true (discPayload_ne_nil ?_ _) rfl
          repeat apply head?_append
          rfl
  | relayState relay => exact tells_of_format (by simp [palFormat, ascii, List.intercalate])
  | relaySetSub => exact subscribes_of_format (by simp [palFormat, ascii, List.intercalate])
  | relayPulseSub => exact subscribes_of_format (by simp [palFormat, ascii, List.intercalate])
  | inputStale input =>
      refine discovers_of_format ?_ (iff_of_false (fun h => h rfl) not_false)
      unfold staleComp
      simp [palFormat, ascii, List.intercalate]
  | inputDiscovery input =>
      refine discovers_of_format ?_ (iff_of_true ?_ trivial)
      · unfold activeComp
        simp [palFormat, ascii, List.intercalate]
      · split
        · refine discPayload_ne_nil ?_ _
          repeat apply head?_append
          rfl
        · refine discPayload_ne_nil ?_ _
          repeat apply head?_append
          rfl
  | inputState input =>
      have hlevel := and_bit_bne_zero (a.inSnap (input / 8)) input
      change a.Tells _ _ _ (.publish _ (levelStr _) 1)
      rw [hlevel]
      exact tells_of_format (by simp [palFormat, ascii, List.intercalate])
  | coverDiscovery shutter =>
      refine discovers_of_format (by simp [palFormat, ascii, List.intercalate]) ?_
      cases hvalid : a.outputCtrlShutterValid shutter with
      | false =>
          rw [if_neg Bool.noConfusion]
          exact iff_of_false (fun h => h rfl) Bool.noConfusion
      | true =>
          rw [if_pos rfl]
          refine iff_of_true (discPayload_ne_nil ?_ _) rfl
          repeat apply head?_append
          rfl
  | coverState shutter => exact tells_of_format (by simp [palFormat, ascii, List.intercalate])
  | coverSub => exact subscribes_of_format (by simp [palFormat, ascii, List.intercalate])
  | tempDiscovery =>
      refine discovers_of_format (by simp [palFormat, ascii, List.intercalate])
        (iff_of_true (discPayload_ne_nil ?_ _) trivial)
      repeat apply head?_append
      rfl

end HaMqtt

end HomeAuto
