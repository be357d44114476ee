import HomeAuto.FullStop

/-!
# What a message can do to the hub

`product_on_mqtt` comes to one command of an output, one command of a shutter or one pulse, or
to nothing.  What these keep, every message keeps (`productOnMqtt_elim`).
-/

namespace HomeAuto

namespace Hub

/-- **What a message can come to.** -/
theorem productOnMqtt_elim {P : Hub → Prop} {h : Hub} (palStrToUl : StrToUl) (topic : CStr)
    (payload : List UInt8) (none : P h)
    (command : ∀ iOut cmd, mqttAppParseRelaySet h.baseTopic topic = some iOut →
      ¬h.relayOutOfRange iOut → P (h.outputCtrlCommand iOut cmd))
    (shutter : ∀ iShutter cmd, P (h.outputCtrlShutter iShutter cmd))
    (pulse : ∀ iRelay ms, P (h.relayPulseStart iRelay ms)) :
    P (h.productOnMqtt palStrToUl topic payload) := by
  unfold productOnMqtt
  split
  · rename_i hparse
    split
    · exact none
    · rename_i hrange
      exact command _ _ hparse hrange
  · split
    · split
      · exact none
      · exact shutter _ _
    · split
      · split
        · exact none
        · split
          · exact none
          · dsimp only
            split
            · exact none
            · exact pulse _ _
      · exact none

/-! ## The hub leaves the base topic alone -/

/-- Switching a relay. -/
theorem baseTopic_mqttAppSetRelay (h : Hub) (iRelay : Int) (on : Bool) :
    (h.mqttAppSetRelay iRelay on).baseTopic = h.baseTopic := by
  unfold mqttAppSetRelay
  split <;> rfl

/-- Starting or cutting short a pulse. -/
theorem baseTopic_relayPulseStart (h : Hub) (iRelay : Int) (ms : Nat) :
    (h.relayPulseStart iRelay ms).baseTopic = h.baseTopic := by
  unfold relayPulseStart
  split
  · rfl
  · split
    · rfl
    · exact h.baseTopic_mqttAppSetRelay iRelay true

/-- Setting a shutter in motion. -/
theorem baseTopic_shMove (h : Hub) (i : Nat) (up : Bool) :
    (h.shMove i up).baseTopic = h.baseTopic := by
  unfold shMove
  split
  · rfl
  · split <;> rfl

/-- Each of the six commands of a shutter. -/
theorem baseTopic_shCommand (h : Hub) (i : Nat) (cmd : ShCmd) :
    (h.shCommand i cmd).baseTopic = h.baseTopic := by
  have hpress (up : Bool) :
      (if (h.sh i).state ≠ .idle then h.shStop i else h.shMove i up).baseTopic = h.baseTopic := by
    split
    · rfl
    · exact h.baseTopic_shMove i up
  cases cmd with
  | stop => rfl
  | «open» => exact h.baseTopic_shMove i true
  | close => exact h.baseTopic_shMove i false
  | up => exact hpress true
  | down => exact hpress false
  | toggle => exact hpress _

/-- A shutter command, with its guards. -/
theorem baseTopic_outputCtrlShutter (h : Hub) (iShutter : Int) (cmd : ShCmd) :
    (h.outputCtrlShutter iShutter cmd).baseTopic = h.baseTopic := by
  unfold outputCtrlShutter
  split
  · rfl
  · split
    · rfl
    · exact h.baseTopic_shCommand _ cmd

/-- A command of an output, also of one that belongs to a shutter. -/
theorem baseTopic_outputCtrlCommand (h : Hub) (iOut : Int) (cmd : OutCmd) :
    (h.outputCtrlCommand iOut cmd).baseTopic = h.baseTopic := by
  unfold outputCtrlCommand
  split
  · exact h.baseTopic_outputCtrlShutter _ _
  · split
    · split
      · exact h.baseTopic_relayPulseStart iOut _
      · exact (baseTopic_mqttAppSetRelay _ iOut false).trans (h.baseTopic_relayPulseStart iOut 0)
    · exact h.baseTopic_mqttAppSetRelay iOut _

/-- A loop whose passes leave the base topic alone. -/
theorem baseTopic_foldl {f : Hub → Nat → Hub} (hf : ∀ h i, (f h i).baseTopic = h.baseTopic)
    (n : Nat) (h : Hub) : ((List.range n).foldl f h).baseTopic = h.baseTopic :=
  Loops.foldl_range (P := fun _ (h' : Hub) => h'.baseTopic = h.baseTopic)
    (fun i h' _ hh => (hf h' i).trans hh) rfl

/-- The pulse timer. -/
theorem baseTopic_relayPulseTick (h : Hub) (ms : Nat) :
    (h.relayPulseTick ms).baseTopic = h.baseTopic := by
  refine baseTopic_foldl (fun h i => ?_) _ h
  unfold relayPulseTickRelay
  split
  · rfl
  · split
    · exact baseTopic_mqttAppSetRelay _ i false
    · rfl

/-- The travel time of one shutter. -/
theorem baseTopic_tickMotion (h : Hub) (i ms : Nat) (s : CoverState) :
    (h.tickMotion i ms s).baseTopic = h.baseTopic := by
  unfold tickMotion
  split
  · rfl
  · split <;> rfl

/-- The shutter timer. -/
theorem baseTopic_outputCtrlTick (h : Hub) (ms : Nat) :
    (h.outputCtrlTick ms).baseTopic = h.baseTopic := by
  refine baseTopic_foldl (fun h i => ?_) _ h
  unfold outputCtrlTickSlot
  split
  · rfl
  · split
    · rfl
    · exact h.baseTopic_tickMotion i ms _
    · exact h.baseTopic_tickMotion i ms _
    · unfold tickDelay
      split <;> rfl

/-- A reload of the shutter table. -/
theorem baseTopic_outputCtrlReload (h : Hub) : h.outputCtrlReload.baseTopic = h.baseTopic := by
  refine baseTopic_foldl (fun h i => ?_) _ h
  unfold outputCtrlReloadSlot
  split
  · unfold reloadStop
    split <;> rfl
  · split <;> rfl

/-- The settings that wait for the main loop. -/
theorem baseTopic_applyPending (h : Hub) : h.applyPending.baseTopic = h.baseTopic := by
  unfold applyPending
  rw [baseTopic_outputCtrlReload]
  split <;> rfl

/-- A message, whatever it asks for. -/
theorem baseTopic_productOnMqtt (palStrToUl : StrToUl) (h : Hub) (topic : CStr)
    (payload : List UInt8) :
    (h.productOnMqtt palStrToUl topic payload).baseTopic = h.baseTopic :=
  productOnMqtt_elim (P := fun h' => h'.baseTopic = h.baseTopic) palStrToUl topic payload rfl
    (fun iOut cmd _ _ => h.baseTopic_outputCtrlCommand iOut cmd) h.baseTopic_outputCtrlShutter
    h.baseTopic_relayPulseStart

/-- **No event changes the base topic.** -/
theorem baseTopic_step (palStrToUl : StrToUl) (h : Hub) (e : HubEvent) :
    (h.step palStrToUl e).baseTopic = h.baseTopic := by
  cases e with
  | mqtt topic payload => exact h.baseTopic_productOnMqtt palStrToUl topic payload
  | relaySet params =>
      simp only [step, relaySetCGIHandler]
      split
      · split
        · rfl
        · exact h.baseTopic_outputCtrlCommand _ _
      · rfl
  | relayPulse params =>
      simp only [step, relayPulseCGIHandler]
      split
      · rfl
      · split
        · rfl
        · exact h.baseTopic_relayPulseStart _ _
  | cover params =>
      simp only [step, coverCGIHandler]
      split
      · split
        · rfl
        · exact h.baseTopic_outputCtrlShutter _ _
      · rfl
  | binding out cmd =>
      simp only [step, applyBinding]
      split
      · rfl
      · exact h.baseTopic_outputCtrlCommand _ _
  | relayPulseTick ms => exact h.baseTopic_relayPulseTick ms
  | outputCtrlTick ms => exact h.baseTopic_outputCtrlTick ms
  | reload => exact h.baseTopic_outputCtrlReload

end Hub

end HomeAuto
