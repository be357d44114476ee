import HomeAuto.ShutterCoherence

/-!
# Timed switch-off (`relay_pulse.c`)

A countdown switches its relay off when it runs out.  The countdowns are kept beside the
relay states, and only a timed OFF cancels one: a standard OFF, a shutter that takes the
relay over or a new device count leaves it running, and it then ends the next activation of
the relay.

`timedOff_earned` says that these are the only ways: while no event takes a relay from a
running countdown, every relay that `RelayPulseTick` switches off has been on, and no
shutter's, since its countdown was started.
-/

namespace HomeAuto

/-- What reaches the outputs: commands, pulses, configuration changes and the ticks. -/
inductive OutputEvent
  | command (iOut : Int) (cmd : OutCmd)
  | pulseStart (iRelay : Int) (ms : Nat)
  | shutter (iShutter : Int) (cmd : ShCmd)
  | setConfig (cfg : OutputConfig)
  | reload
  | configDevices (ioDevices : Nat)
  | setDevices (devices : Nat)
  | outputCtrlTick (ms : Nat)
  | relayPulseTick (ms : Nat)

namespace Hub

/-- One event.  The main loop applies a new device count and a new table some time after a
web request has changed the configuration. -/
def outputStep (h : Hub) : OutputEvent → Hub
  | .command iOut cmd => h.outputCtrlCommand iOut cmd
  | .pulseStart iRelay ms => h.relayPulseStart iRelay ms
  | .shutter iShutter cmd => h.outputCtrlShutter iShutter cmd
  | .setConfig cfg => { h with outCfg := cfg }
  | .reload => h.outputCtrlReload
  | .configDevices ioDevices => { h with ioDevices := ioDevices }
  | .setDevices devices => { h with chain := RelayChain.relayChainSetDevices devices }
  | .outputCtrlTick ms => h.outputCtrlTick ms
  | .relayPulseTick ms => h.relayPulseTick ms

/-- A relay belongs to a shutter of the saved table. -/
def Member (h : Hub) (r : Nat) : Prop := h.outCfg.outputCtrlIsShutterMember r = true

instance (h : Hub) (r : Nat) : Decidable (h.Member r) := inferInstanceAs (Decidable (_ = _))

/-! ## The law -/

/-- The relay whose countdown a call of `RelayPulseStart` starts. -/
def pulseStarts (iRelay : Int) (ms : Nat) : Option Nat :=
  if 0 ≤ iRelay ∧ iRelay < (pulseMaxRelays : Int) ∧ ms ≠ 0 then some iRelay.toNat else none

/-- The relay whose countdown an event starts. -/
def startsPulse (h : Hub) : OutputEvent → Option Nat
  | .command iOut cmd =>
      if h.outCfg.configShutterOfRelay iOut = none ∧
          h.outCfg.configOutMode iOut = outModeTimed ∧ h.commandLevel iOut cmd = true then
        pulseStarts iOut (h.outCfg.configOutTimedMs iOut)
      else none
  | .pulseStart iRelay ms => pulseStarts iRelay ms
  | _ => none

/-- The outputs, and the relays which have been on, and no shutter's, ever since their
countdown was last started. -/
structure Watched where
  hub : Hub
  held : Nat → Prop

/-- The hub and the countdowns after an event. -/
def watchedStep (w : Watched) (e : OutputEvent) : Watched where
  hub := w.hub.outputStep e
  held r := (w.hub.startsPulse e = some r ∨ w.held r) ∧
    (w.hub.outputStep e).chain.isOn r = true ∧ ¬(w.hub.outputStep e).Member r

/-- Before the first event no countdown has been started. -/
def watchedStart (h : Hub) : Watched := ⟨h, fun _ => False⟩

/-- What `RelayPulseTick` switches off has been held since its countdown was started. -/
def OffEarned (w : Watched) : OutputEvent → Prop
  | .relayPulseTick ms => ∀ r, w.hub.chain.isOn r = true →
      (w.hub.relayPulseTick ms).chain.isOn r = false → w.held r
  | _ => True

/-! ## The condition -/

/-- A runtime slot drives a relay. -/
def Holds (h : Hub) (i r : Nat) : Prop :=
  (h.sh i).valid = true ∧ (r = (h.sh i).up ∨ r = (h.sh i).down)

/-- A command on no shutter member is a standard OFF of the relay. -/
def StandardOff (h : Hub) (iOut : Int) (cmd : OutCmd) (r : Nat) : Prop :=
  h.outCfg.configOutMode iOut ≠ outModeTimed ∧ h.commandLevel iOut cmd = false ∧
    0 ≤ iOut ∧ toU16 iOut < h.configGetRelayDevices * 8 ∧ toU16 iOut = r

/-- An event takes a relay away: it switches the relay off without cancelling its countdown,
hands it to the state machine of a shutter, or makes it a shutter's. -/
def Takes (h : Hub) : OutputEvent → Nat → Prop
  | .command iOut cmd, r =>
      match h.outCfg.configShutterOfRelay iOut with
      | some (i, _) => h.Holds i r
      | none => h.StandardOff iOut cmd r
  | .shutter iShutter _, r => 0 ≤ iShutter ∧ h.Holds iShutter.toNat r
  | .setConfig cfg, r => cfg.outputCtrlIsShutterMember r = true
  | .reload, r => ∃ i < cfgMaxShutters, h.outCfg.Releases i (h.sh i) r
  | .setDevices _, _ => True
  | .outputCtrlTick _, r => ∃ i < cfgMaxShutters, h.Holds i r ∧ (h.sh i).state ≠ .idle
  | _, _ => False

/-- A countdown can be started for a relay: it is of the chain, and no shutter's. -/
def Pulsable (h : Hub) (r : Nat) : Prop :=
  r < h.chain.relayChainCount ∧ r < h.configGetRelayDevices * 8 ∧ ¬h.Member r

instance (h : Hub) (r : Nat) : Decidable (h.Pulsable r) := inferInstanceAs (Decidable (_ ∧ _ ∧ _))

/-- No relay is taken from a running countdown, and countdowns are started for relays that
can be switched on. -/
def KeepsCountdowns (w : Watched) (e : OutputEvent) : Prop :=
  (∀ r, w.hub.pulseMs r ≠ 0 → ¬w.hub.Takes e r) ∧
    ∀ r, w.hub.startsPulse e = some r → w.hub.Pulsable r

/-! ## What a shutter slot leaves alone -/

/-- A step of the state machine of slot `i`. -/
structure SlotStep (i : Nat) (h h' : Hub) : Prop where
  outCfg : h'.outCfg = h.outCfg
  pulseMs : h'.pulseMs = h.pulseMs
  valid : ∀ j, (h'.sh j).valid = (h.sh j).valid
  up : ∀ j, (h'.sh j).up = (h.sh j).up
  down : ∀ j, (h'.sh j).down = (h.sh j).down
  state : ∀ j, j ≠ i → (h'.sh j).state = (h.sh j).state
  isOn : ∀ r, r ≠ (h.sh i).up → r ≠ (h.sh i).down → h'.chain.isOn r = h.chain.isOn r

theorem SlotStep.refl (i : Nat) (h : Hub) : SlotStep i h h :=
  ⟨rfl, rfl, fun _ => rfl, fun _ => rfl, fun _ => rfl, fun _ _ => rfl, fun _ _ _ => rfl⟩

section SlotSteps

variable {i : Nat} {h₀ h : Hub} (hs : SlotStep i h₀ h)

include hs

/-- A step of a shutter switches its own two relays, -/
theorem SlotStep.setRelay {relay : Nat} (hrelay : relay = (h₀.sh i).up ∨ relay = (h₀.sh i).down)
    (on : Bool) : SlotStep i h₀ (h.setRelay relay on) where
  outCfg := hs.outCfg
  pulseMs := hs.pulseMs
  valid := hs.valid
  up := hs.up
  down := hs.down
  state := hs.state
  isOn r hup hdown := by
    have hne : r ≠ relay := by
      rcases hrelay with heq | heq
      · rw [heq]
        exact hup
      · rw [heq]
        exact hdown
    rw [setRelay_chain, RelayChain.isOn_relayChainSet, if_neg fun h => hne h.1]
    exact hs.isOn r hup hdown

/-- Assigning to the slot without touching its pair. -/
theorem SlotStep.modSh {f : ShutterRt → ShutterRt}
    (hf : ∀ p, (f p).valid = p.valid ∧ (f p).up = p.up ∧ (f p).down = p.down) :
    SlotStep i h₀ (h.modSh i f) := by
  have hfields (j : Nat) : ((h.modSh i f).sh j).valid = (h.sh j).valid ∧
      ((h.modSh i f).sh j).up = (h.sh j).up ∧ ((h.modSh i f).sh j).down = (h.sh j).down := by
    by_cases hj : j = i
    · subst hj
      rw [modSh_sh_self]
      exact hf _
    · rw [modSh_sh_of_ne _ _ _ hj]
      exact ⟨rfl, rfl, rfl⟩
  refine ⟨hs.outCfg, hs.pulseMs, fun j => (hfields j).1.trans (hs.valid j),
    fun j => (hfields j).2.1.trans (hs.up j), fun j => (hfields j).2.2.trans (hs.down j),
    fun j hj => ?_, hs.isOn⟩
  rw [modSh_sh_of_ne _ _ _ hj]
  exact hs.state j hj

/-- publishes its state, -/
theorem SlotStep.shPublish (s : CoverState) : SlotStep i h₀ (h.shPublish i s) := by
  have hmod := hs.modSh (f := fun p => { p with pcState := some s }) fun _ => ⟨rfl, rfl, rfl⟩
  exact ⟨hmod.outCfg, hmod.pulseMs, hmod.valid, hmod.up, hmod.down, hmod.state, hmod.isOn⟩

/-- switches both off, -/
theorem SlotStep.shBothOff : SlotStep i h₀ (h.shBothOff i) :=
  (hs.setRelay (.inl (hs.up i)) false).setRelay (.inr (hs.down i)) false

/-- stops the motor, -/
theorem SlotStep.shStop : SlotStep i h₀ (h.shStop i) := by
  refine SlotStep.shPublish (SlotStep.modSh hs.shBothOff ?_) _
  exact fun _ => ⟨rfl, rfl, rfl⟩

theorem SlotStep.relay (up : Bool) :
    (h.sh i).relay up = (h₀.sh i).up ∨ (h.sh i).relay up = (h₀.sh i).down := by
  cases up with
  | true => exact .inl (hs.up i)
  | false => exact .inr (hs.down i)

/-- starts it, -/
theorem SlotStep.energise (up : Bool) : SlotStep i h₀ (h.energise i up) := by
  have hrelays := (hs.setRelay (hs.relay (!up)) false).setRelay (hs.relay up) true
  refine SlotStep.shPublish (SlotStep.modSh hrelays ?_) _
  exact fun _ => ⟨rfl, rfl, rfl⟩

/-- or reverses it. -/
theorem SlotStep.shReverse (up : Bool) : SlotStep i h₀ (h.shReverse i up) := by
  refine SlotStep.shPublish (SlotStep.modSh (SlotStep.modSh hs.shBothOff ?_) ?_) _
  · intro p
    split <;> exact ⟨rfl, rfl, rfl⟩
  · exact fun _ => ⟨rfl, rfl, rfl⟩

theorem SlotStep.shMove (up : Bool) : SlotStep i h₀ (h.shMove i up) := by
  have hlast := hs.modSh (f := fun p => { p with lastUp := up }) fun _ => ⟨rfl, rfl, rfl⟩
  unfold Hub.shMove
  split
  · exact hs.modSh fun _ => ⟨rfl, rfl, rfl⟩
  · split
    · exact hlast.energise up
    · exact hlast.shReverse up

/-- So does every command to the shutter, -/
theorem SlotStep.shCommand (cmd : ShCmd) : SlotStep i h₀ (h.shCommand i cmd) := by
  have hpress (up : Bool) : SlotStep i h₀
      (if (h.sh i).state ≠ .idle then h.shStop i else h.shMove i up) := by
    split
    · exact hs.shStop
    · exact hs.shMove up
  cases cmd with
  | stop => exact hs.shStop
  | «open» => exact hs.shMove true
  | close => exact hs.shMove false
  | up => exact hpress true
  | down => exact hpress false
  | toggle => exact hpress _

/-- and a tick of its motion -/
theorem SlotStep.tickMotion (ms : Nat) (s : CoverState) :
    SlotStep i h₀ (h.tickMotion i ms s) := by
  unfold Hub.tickMotion
  split
  · exact hs
  · split
    · refine SlotStep.shPublish (SlotStep.modSh (SlotStep.shBothOff (hs.modSh ?_)) ?_) _
      · exact fun _ => ⟨rfl, rfl, rfl⟩
      · exact fun _ => ⟨rfl, rfl, rfl⟩
    · exact hs.modSh fun _ => ⟨rfl, rfl, rfl⟩

/-- or of its delay. -/
theorem SlotStep.tickDelay (ms : Nat) : SlotStep i h₀ (h.tickDelay i ms) := by
  unfold Hub.tickDelay
  split
  · refine SlotStep.energise (hs.modSh ?_) _
    exact fun _ => ⟨rfl, rfl, rfl⟩
  · refine hs.modSh ?_
    exact fun _ => ⟨rfl, rfl, rfl⟩

end SlotSteps

/-! ## One event -/

/-- A relay that is on is on the chain. -/
theorem lt_count_of_isOn {c : RelayChain} {r : Nat} (h : c.isOn r = true) :
    r < c.relayChainCount := by
  by_contra hout
  rw [RelayChain.relayChainGet_of_count_le (Nat.le_of_not_lt hout)] at h
  cases h

/-- A relay that runs down a countdown, unless it was started just now, is on and no
shutter's, before an event and after it. -/
structure Counts (h h' : Hub) (started : Option Nat) (r : Nat) : Prop where
  running : started = some r ∨ h.pulseMs r ≠ 0
  isOn : h'.chain.isOn r = true
  member : ¬h'.Member r

/-- A relay with a running countdown, on and no shutter's. -/
structure Running (h : Hub) (r : Nat) : Prop where
  isOn : h.chain.isOn r = true
  member : ¬h.Member r

theorem not_member_of_outCfg {h h' : Hub} (hcfg : h'.outCfg = h.outCfg) {r : Nat}
    (hr : ¬h.Member r) : ¬h'.Member r := by
  unfold Member at *
  rwa [hcfg]

/-- A pulse starts a countdown on a relay of the table, for a time. -/
theorem pulseStarts_eq_some_iff {iRelay : Int} {ms r : Nat} :
    pulseStarts iRelay ms = some r ↔ iRelay = r ∧ r < pulseMaxRelays ∧ ms ≠ 0 := by
  unfold pulseStarts
  split
  · rw [Option.some.injEq]
    omega
  · constructor
    · intro h
      cases h
    · omega

theorem toU16_of_lt_pulseMaxRelays {r : Nat} (h : r < pulseMaxRelays) : toU16 (r : Int) = r := by
  unfold toU16 pulseMaxRelays at *
  omega

theorem mqttAppSetRelay_pulseMs (h : Hub) (iRelay : Int) (on : Bool) :
    (h.mqttAppSetRelay iRelay on).pulseMs = h.pulseMs := by
  unfold mqttAppSetRelay
  split <;> rfl

/-- Switching some relay on leaves the relays that are on. -/
theorem mqttAppSetRelay_true_isOn {h : Hub} {r : Nat} (hon : h.chain.isOn r = true)
    (iRelay : Int) : (h.mqttAppSetRelay iRelay true).chain.isOn r = true := by
  rw [(h.mqttAppSetRelay_effect iRelay true).2 r (lt_count_of_isOn hon)]
  split
  · rfl
  · exact hon

/-- After a pulse, a relay that counts down is on and no shutter's, -/
theorem counts_relayPulseStart {h : Hub} {iRelay : Int} {ms r : Nat}
    (hrunning : h.pulseMs r ≠ 0 → h.Running r)
    (hpulsable : pulseStarts iRelay ms = some r → h.Pulsable r)
    (hafter : (h.relayPulseStart iRelay ms).pulseMs r ≠ 0) :
    Counts h (h.relayPulseStart iRelay ms) (pulseStarts iRelay ms) r := by
  have hcfg := (h.relayPulseStart_effect iRelay ms).1.outCfg
  by_cases hstarts : pulseStarts iRelay ms = some r
  · obtain ⟨hcount, hdevices, hmember⟩ := hpulsable hstarts
    obtain ⟨hrelay, hlt, hms⟩ := pulseStarts_eq_some_iff.mp hstarts
    refine ⟨.inl hstarts, ?_, not_member_of_outCfg hcfg hmember⟩
    unfold relayPulseStart
    have hinside : ¬(iRelay < 0 ∨ (pulseMaxRelays : Int) ≤ iRelay) := by omega
    rw [if_neg hinside, if_neg hms]
    have hset := (h.mqttAppSetRelay_effect iRelay true).2 r hcount
    rw [hrelay, toU16_of_lt_pulseMaxRelays hlt, if_pos ⟨by omega, hdevices, rfl⟩] at hset
    rw [hrelay]
    exact hset
  · have hsame : (h.relayPulseStart iRelay ms).pulseMs r = h.pulseMs r ∧
        (h.chain.isOn r = true → (h.relayPulseStart iRelay ms).chain.isOn r = true) := by
      unfold relayPulseStart at hafter ⊢
      split
      · exact ⟨rfl, id⟩
      · rename_i hrange
        rw [if_neg hrange] at hafter
        split
        · rename_i hzero
          rw [if_pos hzero] at hafter
          refine ⟨?_, id⟩
          by_cases hr : r = iRelay.toNat
          · rw [hr] at hafter
            simp [setPulse] at hafter
          · exact Function.update_of_ne hr ..
        · rename_i hms
          have hne : r ≠ iRelay.toNat := by
            intro hr
            exact hstarts (pulseStarts_eq_some_iff.mpr ⟨by omega, by omega, hms⟩)
          refine ⟨?_, fun hon => mqttAppSetRelay_true_isOn hon iRelay⟩
          have hpulse := congrFun (h.mqttAppSetRelay_pulseMs iRelay true) r
          exact (Function.update_of_ne hne ..).trans hpulse
    rw [hsame.1] at hafter
    have hwas := hrunning hafter
    exact ⟨.inr hafter, hsame.2 hwas.isOn, not_member_of_outCfg hcfg hwas.member⟩

/-- A switch command which is no OFF of the relay leaves it on. -/
theorem mqttAppSetRelay_isOn {h : Hub} {r : Nat} (hon : h.chain.isOn r = true) {iRelay : Int}
    {on : Bool} (hkeeps : ¬(on = false ∧ 0 ≤ iRelay ∧
      toU16 iRelay < h.configGetRelayDevices * 8 ∧ toU16 iRelay = r)) :
    (h.mqttAppSetRelay iRelay on).chain.isOn r = true := by
  rw [(h.mqttAppSetRelay_effect iRelay on).2 r (lt_count_of_isOn hon)]
  split
  · rename_i hstrike
    cases on with
    | true => rfl
    | false => exact absurd ⟨rfl, hstrike⟩ hkeeps
  · exact hon

/-- A step of a slot leaves the countdowns of the relays it does not hold. -/
theorem SlotStep.counts {i : Nat} {h h' : Hub} (hs : SlotStep i h h') {started : Option Nat}
    {r : Nat} (hrunning : h.pulseMs r ≠ 0 → h.Running r)
    (hfree : h.pulseMs r ≠ 0 → r ≠ (h.sh i).up ∧ r ≠ (h.sh i).down)
    (hafter : h'.pulseMs r ≠ 0) : Counts h h' started r := by
  rw [hs.pulseMs] at hafter
  obtain ⟨hup, hdown⟩ := hfree hafter
  have hwas := hrunning hafter
  exact ⟨.inr hafter, (hs.isOn r hup hdown).trans hwas.isOn,
    not_member_of_outCfg hs.outCfg hwas.member⟩

/-- and after a command to a shutter -/
theorem counts_outputCtrlShutter {h : Hub} {iShutter : Int} {cmd : ShCmd} {started : Option Nat}
    {r : Nat} (hrunning : h.pulseMs r ≠ 0 → h.Running r)
    (hfree : h.pulseMs r ≠ 0 → ¬(0 ≤ iShutter ∧ h.Holds iShutter.toNat r))
    (hafter : (h.outputCtrlShutter iShutter cmd).pulseMs r ≠ 0) :
    Counts h (h.outputCtrlShutter iShutter cmd) started r := by
  have hstays : Counts h h started r ∨ h.pulseMs r = 0 := by
    by_cases hzero : h.pulseMs r = 0
    · exact .inr hzero
    · exact .inl ⟨.inr hzero, (hrunning hzero).isOn, (hrunning hzero).member⟩
  unfold outputCtrlShutter at hafter ⊢
  split
  · rename_i hrange
    rw [if_pos hrange] at hafter
    exact hstays.resolve_right hafter
  · rename_i hrange
    rw [if_neg hrange] at hafter
    split
    · rename_i hvalid
      rw [if_pos hvalid] at hafter
      exact hstays.resolve_right hafter
    · rename_i hvalid
      rw [if_neg hvalid] at hafter
      refine ((SlotStep.refl iShutter.toNat h).shCommand cmd).counts hrunning (fun hpulse => ?_)
        hafter
      have hout := hfree hpulse
      constructor
      · intro hup
        exact hout ⟨by omega, by simpa using hvalid, .inl hup⟩
      · intro hdown
        exact hout ⟨by omega, by simpa using hvalid, .inr hdown⟩

/-- or to an output. -/
theorem counts_outputCtrlCommand {h : Hub} {iOut : Int} {cmd : OutCmd} {r : Nat}
    (hrunning : h.pulseMs r ≠ 0 → h.Running r)
    (htakes : h.pulseMs r ≠ 0 → ¬h.Takes (.command iOut cmd) r)
    (hpulsable : h.startsPulse (.command iOut cmd) = some r → h.Pulsable r)
    (hafter : (h.outputCtrlCommand iOut cmd).pulseMs r ≠ 0) :
    Counts h (h.outputCtrlCommand iOut cmd) (h.startsPulse (.command iOut cmd)) r := by
  cases hmember : h.outCfg.configShutterOfRelay iOut with
  | some found =>
      obtain ⟨i, isUp⟩ := found
      have hcommand : h.outputCtrlCommand iOut cmd =
          h.outputCtrlShutter i (memberCommand isUp cmd) := by
        simp only [outputCtrlCommand, hmember]
      rw [hcommand] at hafter ⊢
      refine counts_outputCtrlShutter hrunning (fun hpulse hholds => htakes hpulse ?_) hafter
      simp only [Takes, hmember]
      exact hholds.2
  | none =>
      by_cases htimed : h.outCfg.configOutMode iOut = outModeTimed
      · have hrange : 0 ≤ iOut ∧ iOut < (cfgMaxOutputs : Int) := by
          by_contra hout
          rw [OutputConfig.configOutMode, if_pos (by omega)] at htimed
          exact absurd htimed (by decide)
        cases hlevel : h.commandLevel iOut cmd with
        | true =>
            have hcommand : h.outputCtrlCommand iOut cmd =
                h.relayPulseStart iOut (h.outCfg.configOutTimedMs iOut) := by
              simp only [outputCtrlCommand, hmember, htimed, hlevel, if_true]
            have hstarts : h.startsPulse (.command iOut cmd) =
                pulseStarts iOut (h.outCfg.configOutTimedMs iOut) :=
              if_pos ⟨hmember, htimed, hlevel⟩
            rw [hcommand] at hafter ⊢
            rw [hstarts] at hpulsable ⊢
            exact counts_relayPulseStart hrunning hpulsable hafter
        | false =>
            have hcommand : h.outputCtrlCommand iOut cmd =
                (h.setPulse iOut.toNat 0).mqttAppSetRelay iOut false := by
              have hinside : ¬(iOut < 0 ∨ (pulseMaxRelays : Int) ≤ iOut) := by
                unfold cfgMaxOutputs at hrange
                unfold pulseMaxRelays
                omega
              simp only [outputCtrlCommand, hmember, htimed, hlevel, if_true,
                Bool.false_eq_true, if_false, relayPulseStart, hinside]
            rw [hcommand, mqttAppSetRelay_pulseMs] at hafter
            have hne : r ≠ iOut.toNat := by
              intro hr
              rw [hr] at hafter
              simp [setPulse] at hafter
            have hpulse : h.pulseMs r ≠ 0 := by
              have hupdate : (h.setPulse iOut.toNat 0).pulseMs r = h.pulseMs r :=
                Function.update_of_ne hne ..
              rwa [hupdate] at hafter
            have hwas := hrunning hpulse
            have htarget : toU16 iOut ≠ r := by
              unfold toU16
              unfold cfgMaxOutputs at hrange
              omega
            rw [hcommand]
            refine ⟨.inr hpulse, ?_, not_member_of_outCfg ?_ hwas.member⟩
            · exact mqttAppSetRelay_isOn (h := h.setPulse iOut.toNat 0) hwas.isOn
                fun hoff => htarget hoff.2.2.2
            · exact ((h.setPulse iOut.toNat 0).mqttAppSetRelay_effect iOut false).1.outCfg
      · have hcommand : h.outputCtrlCommand iOut cmd =
            h.mqttAppSetRelay iOut (h.commandLevel iOut cmd) := by
          simp only [outputCtrlCommand, hmember, htimed, if_false]
        rw [hcommand, mqttAppSetRelay_pulseMs] at hafter
        have hwas := hrunning hafter
        rw [hcommand]
        refine ⟨.inr hafter, mqttAppSetRelay_isOn hwas.isOn fun hoff => ?_,
          not_member_of_outCfg (h.mqttAppSetRelay_effect iOut _).1.outCfg hwas.member⟩
        apply htakes hafter
        simp only [Takes, hmember]
        exact ⟨htimed, hoff.1, hoff.2⟩

/-! ## The loops -/

/-- The slots a tick leaves alone. -/
structure TickStep (r : Nat) (h h' : Hub) : Prop where
  outCfg : h'.outCfg = h.outCfg
  pulseMs : h'.pulseMs = h.pulseMs
  holds : ∀ j, h'.Holds j r ↔ h.Holds j r
  rests : ∀ j, h.Holds j r → (h.sh j).state = .idle → (h'.sh j).state = .idle
  isOn : (∀ j < cfgMaxShutters, h.Holds j r → (h.sh j).state = .idle) →
    h'.chain.isOn r = h.chain.isOn r

/-- A step of one shutter changes no other's relays. -/
theorem SlotStep.holds {i : Nat} {h h' : Hub} (hs : SlotStep i h h') (j r : Nat) :
    h'.Holds j r ↔ h.Holds j r := by
  unfold Holds
  rw [hs.valid, hs.up, hs.down]

/-- One slot of the controller's tick, -/
theorem tickStep_slot (h : Hub) (ms : Nat) {i r : Nat} (hi : i < cfgMaxShutters) :
    TickStep r h (h.outputCtrlTickSlot ms i) := by
  have hrefl : TickStep r h h := ⟨rfl, rfl, fun _ => Iff.rfl, fun _ _ hidle => hidle, fun _ => rfl⟩
  -- a slot that moves holds the relay in motion, or not at all
  have hmoves {h' : Hub} (hs : SlotStep i h h') (hvalid : (h.sh i).valid = true)
      (hmoving : (h.sh i).state ≠ .idle) : TickStep r h h' := by
    refine ⟨hs.outCfg, hs.pulseMs, fun j => hs.holds j r, fun j hholds hidle => ?_, fun hrest => ?_⟩
    · have hji : j ≠ i := by
        intro heq
        rw [heq] at hidle
        exact hmoving hidle
      exact (hs.state j hji).trans hidle
    · have hfree : ¬h.Holds i r := fun hholds => hmoving (hrest i hi hholds)
      apply hs.isOn
      · exact fun hup => hfree ⟨hvalid, .inl hup⟩
      · exact fun hdown => hfree ⟨hvalid, .inr hdown⟩
  unfold outputCtrlTickSlot
  split
  · exact hrefl
  · rename_i hvalid
    have hv : (h.sh i).valid = true := by simpa using hvalid
    split
    · exact hrefl
    · rename_i hstate
      exact hmoves ((SlotStep.refl i h).tickMotion ms _) hv (by simp [hstate])
    · rename_i hstate
      exact hmoves ((SlotStep.refl i h).tickMotion ms _) hv (by simp [hstate])
    · rename_i hstate
      exact hmoves ((SlotStep.refl i h).tickDelay ms) hv (by simp [hstate])

/-- and several of them. -/
theorem TickStep.trans {r : Nat} {h₁ h₂ h₃ : Hub} (h₁₂ : TickStep r h₁ h₂)
    (h₂₃ : TickStep r h₂ h₃) : TickStep r h₁ h₃ where
  outCfg := h₂₃.outCfg.trans h₁₂.outCfg
  pulseMs := h₂₃.pulseMs.trans h₁₂.pulseMs
  holds j := (h₂₃.holds j).trans (h₁₂.holds j)
  rests j hholds hidle := h₂₃.rests j ((h₁₂.holds j).mpr hholds) (h₁₂.rests j hholds hidle)
  isOn hrest := by
    refine (h₂₃.isOn fun j hj hholds => ?_).trans (h₁₂.isOn hrest)
    have hold := (h₁₂.holds j).mp hholds
    exact h₁₂.rests j hold (hrest j hj hold)

theorem tickStep_outputCtrlTick (h : Hub) (ms r : Nat) : TickStep r h (h.outputCtrlTick ms) := by
  refine Loops.foldl_rel (R := TickStep r) (I := fun _ => True) ?_ (fun _ _ _ => TickStep.trans)
    (fun _ _ _ _ => trivial) _ ?_ trivial
  · exact fun h => ⟨rfl, rfl, fun _ => Iff.rfl, fun _ _ hidle => hidle, fun _ => rfl⟩
  · intro h' i hi _
    exact h'.tickStep_slot ms (List.mem_range.mp hi)

theorem outputCtrlReloadSlot_pulseMs (h : Hub) (i : Nat) :
    (h.outputCtrlReloadSlot i).pulseMs = h.pulseMs := by
  unfold outputCtrlReloadSlot
  split
  · unfold reloadStop
    split <;> rfl
  · rw [modSh_pulseMs]
    split <;> rfl

/-- A reload keeps all countdowns. -/
theorem outputCtrlReload_pulseMs (h : Hub) : h.outputCtrlReload.pulseMs = h.pulseMs := by
  refine Loops.foldl_rel (R := fun h h' : Hub => h'.pulseMs = h.pulseMs) (I := fun _ => True)
    (fun _ => rfl) (fun _ _ _ h₁₂ h₂₃ => h₂₃.trans h₁₂) (fun _ _ _ _ => trivial) _ ?_ trivial
  intro h' i _ _
  exact h'.outputCtrlReloadSlot_pulseMs i

/-- The countdown and the state of one relay after a pass of `RelayPulseTick`. -/
def tickRelay (devices ms i : Nat) (p : Nat × Bool) : Nat × Bool :=
  if p.1 = 0 then p
  else if p.1 ≤ ms then (0, if i < devices * 8 then false else p.2)
  else (p.1 - ms, p.2)

/-- One pass of the pulse tick. -/
theorem relayPulseTickRelay_effect (h : Hub) (ms : Nat) {i : Nat}
    (hi : i < h.chain.relayChainCount) :
    (h.relayPulseTickRelay ms i).outCfg = h.outCfg ∧
      (h.relayPulseTickRelay ms i).ioDevices = h.ioDevices ∧
      (h.relayPulseTickRelay ms i).chain.relayChainCount = h.chain.relayChainCount ∧
      ((h.relayPulseTickRelay ms i).pulseMs i, (h.relayPulseTickRelay ms i).chain.isOn i) =
        tickRelay h.configGetRelayDevices ms i (h.pulseMs i, h.chain.isOn i) ∧
      ∀ j, j ≠ i → ((h.relayPulseTickRelay ms i).pulseMs j,
        (h.relayPulseTickRelay ms i).chain.isOn j) = (h.pulseMs j, h.chain.isOn j) := by
  have hcount := h.chain.relayChainCount_le
  unfold relayPulseTickRelay tickRelay
  by_cases hzero : h.pulseMs i = 0
  · rw [if_pos hzero, if_pos hzero]
    exact ⟨rfl, rfl, rfl, rfl, fun _ _ => rfl⟩
  · rw [if_neg hzero, if_neg hzero]
    by_cases hexpires : h.pulseMs i ≤ ms
    · rw [if_pos hexpires, if_pos hexpires]
      obtain ⟨hkeeps, hon⟩ := (h.setPulse i 0).mqttAppSetRelay_effect i false
      have hpulse := (h.setPulse i 0).mqttAppSetRelay_pulseMs i false
      have hio : ((h.setPulse i 0).mqttAppSetRelay i false).ioDevices = h.ioDevices := by
        unfold mqttAppSetRelay
        split <;> rfl
      have htarget : toU16 (i : Int) = i :=
        toU16_of_lt_pulseMaxRelays (Nat.lt_of_lt_of_le hi hcount)
      refine ⟨hkeeps.outCfg, hio, hkeeps.count, ?_, fun j hj => ?_⟩
      · have hzeroed : (h.setPulse i 0).pulseMs i = 0 := Function.update_self ..
        have hstrikes : (0 ≤ (i : Int) ∧ i < h.configGetRelayDevices * 8 ∧ i = i) ↔
            i < h.configGetRelayDevices * 8 := by
          simp
        rw [hpulse, hzeroed, hon i hi, htarget]
        exact congrArg (Prod.mk 0) (if_congr hstrikes rfl rfl)
      · rw [hpulse]
        have hsame : (h.setPulse i 0).pulseMs j = h.pulseMs j := Function.update_of_ne hj ..
        rw [hsame]
        congr 1
        by_cases hlt : j < h.chain.relayChainCount
        · refine (hon j hlt).trans (if_neg fun hstrike => hj ?_)
          rw [htarget] at hstrike
          exact hstrike.2.2.symm
        · have hcount := Nat.le_of_not_lt hlt
          rw [RelayChain.relayChainGet_of_count_le (by rwa [hkeeps.count]),
            RelayChain.relayChainGet_of_count_le (Nat.le_of_not_lt hlt)]
    · rw [if_neg hexpires, if_neg hexpires]
      refine ⟨rfl, rfl, rfl, ?_, fun j hj => ?_⟩
      · simp [setPulse]
      · have hsame : (h.setPulse i (h.pulseMs i - ms)).pulseMs j = h.pulseMs j :=
          Function.update_of_ne hj ..
        rw [hsame]
        rfl

/-- **The pulse tick**, relay by relay. -/
theorem relayPulseTick_effect (h : Hub) (ms : Nat) :
    (h.relayPulseTick ms).outCfg = h.outCfg ∧
      ∀ r, ((h.relayPulseTick ms).pulseMs r, (h.relayPulseTick ms).chain.isOn r) =
        if r < h.chain.relayChainCount then
          tickRelay h.configGetRelayDevices ms r (h.pulseMs r, h.chain.isOn r)
        else (h.pulseMs r, h.chain.isOn r) := by
  have hpass := Loops.foldl_range_component
    (c := fun (h' : Hub) r => (h'.pulseMs r, h'.chain.isOn r))
    (g := tickRelay h.configGetRelayDevices ms)
    (I := fun h' => h'.outCfg = h.outCfg ∧ h'.ioDevices = h.ioDevices ∧
      h'.chain.relayChainCount = h.chain.relayChainCount)
    (f := relayPulseTickRelay ms) (n := h.chain.relayChainCount)
    (fun h' i hi hI => by
      obtain ⟨hcfg, hdevices, hcount, _⟩ := h'.relayPulseTickRelay_effect ms (hI.2.2 ▸ hi)
      exact ⟨hcfg.trans hI.1, hdevices.trans hI.2.1, hcount.trans hI.2.2⟩)
    (fun h' i hi hI => by
      obtain ⟨_, _, _, hself, _⟩ := h'.relayPulseTickRelay_effect ms (hI.2.2 ▸ hi)
      have hsame : h'.configGetRelayDevices = h.configGetRelayDevices := by
        unfold configGetRelayDevices
        rw [hI.2.1]
      rw [hsame] at hself
      exact hself)
    (fun h' i hi hI j hj => (h'.relayPulseTickRelay_effect ms (hI.2.2 ▸ hi)).2.2.2.2 j hj)
    (s := h) ⟨rfl, rfl, rfl⟩
  exact ⟨hpass.1.1, hpass.2⟩

/-! ## Runs -/

/-- Every relay with a running countdown has been held since the countdown was started. -/
def CountdownsHeld (w : Watched) : Prop :=
  ∀ r, w.hub.pulseMs r ≠ 0 → w.held r ∧ w.hub.Running r

/-- After a reload, a relay that counts down is on and no shutter's, -/
theorem counts_outputCtrlReload {h : Hub} {started : Option Nat} {r : Nat}
    (hrunning : h.pulseMs r ≠ 0 → h.Running r)
    (hfree : h.pulseMs r ≠ 0 → ¬∃ i < cfgMaxShutters, h.outCfg.Releases i (h.sh i) r)
    (hafter : h.outputCtrlReload.pulseMs r ≠ 0) : Counts h h.outputCtrlReload started r := by
  rw [outputCtrlReload_pulseMs] at hafter
  have hwas := hrunning hafter
  refine ⟨.inr hafter, ?_, ?_⟩
  · apply (h.isOn_outputCtrlReload r).mpr
    refine ⟨hwas.isOn, fun i hi hreleases => ?_⟩
    exact hfree hafter ⟨i, hi, hreleases⟩
  · exact not_member_of_outCfg h.reloadedTo_outputCtrlReload.outCfg hwas.member

/-- and after the controller's tick. -/
theorem counts_outputCtrlTick {h : Hub} {ms : Nat} {started : Option Nat} {r : Nat}
    (hrunning : h.pulseMs r ≠ 0 → h.Running r)
    (hfree : h.pulseMs r ≠ 0 → ¬∃ i < cfgMaxShutters, h.Holds i r ∧ (h.sh i).state ≠ .idle)
    (hafter : (h.outputCtrlTick ms).pulseMs r ≠ 0) :
    Counts h (h.outputCtrlTick ms) started r := by
  have htick := h.tickStep_outputCtrlTick ms r
  rw [htick.pulseMs] at hafter
  have hwas := hrunning hafter
  refine ⟨.inr hafter, ?_, not_member_of_outCfg htick.outCfg hwas.member⟩
  refine (htick.isOn fun j hj hholds => ?_).trans hwas.isOn
  by_contra hmoving
  exact hfree hafter ⟨j, hj, hholds, hmoving⟩

/-- What an event leaves of a running countdown. -/
theorem counts_outputStep {h : Hub} {e : OutputEvent} {r : Nat}
    (hrunning : h.pulseMs r ≠ 0 → h.Running r)
    (htakes : h.pulseMs r ≠ 0 → ¬h.Takes e r)
    (hpulsable : h.startsPulse e = some r → h.Pulsable r)
    (hafter : (h.outputStep e).pulseMs r ≠ 0) :
    Counts h (h.outputStep e) (h.startsPulse e) r := by
  cases e with
  | command iOut cmd => exact counts_outputCtrlCommand hrunning htakes hpulsable hafter
  | pulseStart iRelay ms => exact counts_relayPulseStart hrunning hpulsable hafter
  | shutter iShutter cmd => exact counts_outputCtrlShutter hrunning htakes hafter
  | setConfig cfg =>
      have hpulse : h.pulseMs r ≠ 0 := hafter
      exact ⟨.inr hpulse, (hrunning hpulse).isOn, htakes hpulse⟩
  | reload =>
      dsimp only [outputStep] at hafter ⊢
      exact counts_outputCtrlReload hrunning htakes hafter
  | configDevices ioDevices =>
      have hpulse : h.pulseMs r ≠ 0 := hafter
      exact ⟨.inr hpulse, (hrunning hpulse).isOn, (hrunning hpulse).member⟩
  | setDevices devices =>
      have hpulse : h.pulseMs r ≠ 0 := hafter
      exact absurd trivial (htakes hpulse)
  | outputCtrlTick ms => exact counts_outputCtrlTick hrunning htakes hafter
  | relayPulseTick ms =>
      obtain ⟨hcfg, heffect⟩ := h.relayPulseTick_effect ms
      obtain ⟨hpulse', hon'⟩ := Prod.ext_iff.mp (heffect r)
      dsimp only at hpulse' hon'
      have hleft : h.pulseMs r ≠ 0 ∧ (h.relayPulseTick ms).chain.isOn r = h.chain.isOn r := by
        rw [hon']
        have hleft : (h.relayPulseTick ms).pulseMs r ≠ 0 := hafter
        rw [hpulse'] at hleft
        split at hleft
        · rename_i hlt
          rw [if_pos hlt]
          unfold tickRelay at hleft ⊢
          split at hleft
          · exact absurd ‹_› hleft
          · rename_i hne
            split at hleft
            · exact absurd rfl hleft
            · rename_i hlong
              rw [if_neg hne, if_neg hlong]
              exact ⟨hne, rfl⟩
        · rename_i hge
          rw [if_neg hge]
          exact ⟨hleft, rfl⟩
      have hwas := hrunning hleft.1
      exact ⟨.inr hleft.1, hleft.2.trans hwas.isOn, not_member_of_outCfg hcfg hwas.member⟩

/-- **One event** keeps every countdown held that the condition asks to be, -/
theorem CountdownsHeld.step {w : Watched} (hw : CountdownsHeld w) {e : OutputEvent}
    (hok : KeepsCountdowns w e) : CountdownsHeld (watchedStep w e) := by
  intro r hafter
  obtain ⟨hstarted, hon, hmember⟩ := counts_outputStep (fun hpulse => (hw r hpulse).2)
    (hok.1 r) (hok.2 r) hafter
  refine ⟨⟨?_, hon, hmember⟩, hon, hmember⟩
  rcases hstarted with hnow | hpulse
  · exact .inl hnow
  · exact .inr (hw r hpulse).1

/-- and a countdown that is held switches off when it is earned. -/
theorem CountdownsHeld.offEarned {w : Watched} (hw : CountdownsHeld w) (e : OutputEvent) :
    OffEarned w e := by
  cases e with
  | relayPulseTick ms =>
      intro r hon hoff
      obtain ⟨_, heffect⟩ := w.hub.relayPulseTick_effect ms
      have hsecond := congrArg Prod.snd (heffect r)
      dsimp only at hsecond
      have hpulse : w.hub.pulseMs r ≠ 0 := by
        intro hzero
        rw [hoff, hzero] at hsecond
        unfold tickRelay at hsecond
        simp [hon] at hsecond
      exact (hw r hpulse).1
  | _ => trivial

/-- **Timed switch-off.**  In a run in which no event takes a relay from a running countdown
and every countdown is started for a relay that can be switched on, whatever the tick of the
countdowns switches off has been on, and no shutter's, since its countdown was started. -/
theorem timedOff_earned {h : Hub} (hidle : ∀ r, h.pulseMs r = 0) {es : List OutputEvent}
    (hok : Runs.EveryStep watchedStep KeepsCountdowns (watchedStart h) es) :
    Runs.EveryStep watchedStep OffEarned (watchedStart h) es := by
  apply hok.imp (I := CountdownsHeld)
  · exact fun w e hw hstep => hw.step hstep
  · exact fun w e hw _ => hw.offEarned e
  · exact fun r hpulse => absurd (hidle r) hpulse

theorem oneShutterHub_pulseMs (r : Nat) : oneShutterHub.pulseMs r = 0 := rfl

/-- A pulse on relay 3, and a standard OFF of relay 4 while it runs. -/
theorem pulse_beside_off_earned :
    Runs.EveryStep watchedStep OffEarned (watchedStart oneShutterHub)
      [.pulseStart 3 500, .command 4 .off, .relayPulseTick 600] := by
  refine timedOff_earned oneShutterHub_pulseMs ⟨⟨fun r hpulse => ?_, fun r hstarts => ?_⟩,
    ⟨fun r hpulse htakes => ?_, fun r hstarts => ?_⟩, ⟨fun _ _ htakes => htakes, fun r h => ?_⟩,
    trivial⟩
  · exact absurd rfl hpulse
  · obtain ⟨hrelay, _⟩ := pulseStarts_eq_some_iff.mp hstarts
    have hr : r = 3 := by omega
    subst hr
    decide
  · obtain ⟨_, _, _, _, hr⟩ : oneShutterHub.StandardOff 4 .off r := htakes
    have hr4 : r = 4 := hr.symm
    subst hr4
    exact hpulse (by decide)
  · cases hstarts
  · cases h

/-- A pulse of one second on relay 3, which is switched off and on again while it runs. -/
theorem old_countdown_ends_new_activation :
    ¬Runs.EveryStep watchedStep OffEarned (watchedStart oneShutterHub)
      [.pulseStart 3 1000, .command 3 .off, .command 3 .on, .relayPulseTick 1000] := by
  intro h
  have hearned := h.2.2.2.1 3 (by decide +kernel) (by decide +kernel)
  rcases hearned.1 with hnow | hheld
  · revert hnow
    decide +kernel
  · have hon := hheld.2.1
    revert hon
    decide +kernel

end Hub

end HomeAuto
