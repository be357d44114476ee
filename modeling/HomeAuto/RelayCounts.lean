import HomeAuto.Lib.Runs
import HomeAuto.RelayHardware

/-!
# Changing the number of relay devices (`relay_chain.c`)

`RelayChainSetDevices` clears the state array and shifts as many zeros as the new count
needs.  The devices behind the new count take over what the devices in front of them held,
so a smaller count can switch relays on.
-/

namespace HomeAuto

/-- The chain, its hardware, and the largest count it has been driven with. -/
structure RelayFleet where
  chain : RelayChain
  hw : DrvChain
  driven : Nat

/-- A call of the driver. -/
inductive RelayCall
  | set (relay : Nat) (on : Bool)
  | setDevices (devices : Nat)

namespace RelayFleet

/-- `RelayChainSetDevices`. -/
def setDevices (s : RelayFleet) (devices : Nat) : RelayFleet where
  chain := .relayChainSetDevices devices
  hw := DrvChain.relayChainShift (.relayChainSetDevices devices) s.hw
  driven := max s.driven (RelayChain.relayChainSetDevices devices).devices

/-- `RelayChainInit` with whatever the chain holds at power-up. -/
def relayChainInit (h : DrvChain) (devices : Nat) : RelayFleet where
  chain := .relayChainInit devices
  hw := DrvChain.relayChainShift (.relayChainInit devices)
    (((h.palGpioWrite .clk false).palGpioWrite .din false).palGpioWrite .latch false)
  driven := (RelayChain.relayChainInit devices).devices

/-- A call. -/
def step (s : RelayFleet) : RelayCall → RelayFleet
  | .set relay on =>
      { s with
        chain := (DrvChain.relayChainSet s.chain s.hw relay on).1
        hw := (DrvChain.relayChainSet s.chain s.hw relay on).2 }
  | .setDevices devices => s.setDevices devices

/-- Every output of the devices that have ever been driven is off. -/
def DrivenOff (s : RelayFleet) : Prop := ∀ p < s.driven * 8, s.hw.out p = false

/-- All is off right after a change of the count. -/
def OffAfter (s : RelayFleet) : RelayCall → Prop
  | .setDevices devices => (s.step (.setDevices devices)).DrivenOff
  | .set _ _ => True

/-- Before a change of the count, no register holds a one that it pushes into a device past
the new count. -/
def Emptied (s : RelayFleet) : RelayCall → Prop
  | .setDevices devices =>
      ∀ p < (s.driven - (RelayChain.relayChainSetDevices devices).devices) * 8,
        s.hw.reg p = false
  | .set _ _ => True

/-! ## One call -/

open ShiftRegister

theorem bit_relayChainSetDevices (devices p : Nat) :
    (RelayChain.relayChainSetDevices devices).bit p = false := by
  simp [RelayChain.bit, RelayChain.relayChainSetDevices]

theorem idle_init (h : DrvChain) (devices : Nat) : (relayChainInit h devices).hw.Idle :=
  (DrvChain.relayChainShift_spec _ (h :=
    ((h.palGpioWrite .clk false).palGpioWrite .din false).palGpioWrite .latch false)
    ⟨rfl, rfl⟩).2.2

theorem idle_step {s : RelayFleet} (h : s.hw.Idle) (e : RelayCall) : (s.step e).hw.Idle := by
  cases e with
  | set relay on =>
      change (DrvChain.relayChainSet s.chain s.hw relay on).2.Idle
      unfold DrvChain.relayChainSet
      split
      · exact h
      · exact (DrvChain.relayChainShift_spec _ h).2.2
  | setDevices devices => exact (DrvChain.relayChainShift_spec _ h).2.2

/-- What a change of the count latches: zeros, and behind them what the registers held. -/
theorem out_setDevices {s : RelayFleet} (h : s.hw.Idle) (devices p : Nat) :
    (s.setDevices devices).hw.out p =
      if p < (RelayChain.relayChainSetDevices devices).devices * 8 then false
      else s.hw.reg (p - (RelayChain.relayChainSetDevices devices).devices * 8) := by
  obtain ⟨-, hout, -⟩ := DrvChain.relayChainShift_spec (.relayChainSetDevices devices) h
  change (DrvChain.relayChainShift (.relayChainSetDevices devices) s.hw).out p = _
  rw [hout, load_apply, bit_relayChainSetDevices]
  rfl

/-- **A change of the count**, exactly. -/
theorem offAfter_iff {s : RelayFleet} (h : s.hw.Idle) (e : RelayCall) :
    s.OffAfter e ↔ s.Emptied e := by
  cases e with
  | set relay on => exact Iff.rfl
  | setDevices devices =>
      change (∀ p < max s.driven (RelayChain.relayChainSetDevices devices).devices * 8,
        (s.setDevices devices).hw.out p = false) ↔
        ∀ p < (s.driven - (RelayChain.relayChainSetDevices devices).devices) * 8,
          s.hw.reg p = false
      generalize hn : (RelayChain.relayChainSetDevices devices).devices = n
      constructor
      · intro hoff p hp
        have hout := hoff (n * 8 + p) (by omega)
        rwa [out_setDevices h, hn, if_neg (by omega), Nat.add_sub_cancel_left] at hout
      · intro hempty p hp
        rw [out_setDevices h, hn]
        split
        · rfl
        · exact hempty _ (by omega)

/-- **All off after a new count.**  Over any calls, the outputs that were ever driven are
off after every change of the count exactly when no change pushes a one out of the
registers into a device past the new count. -/
theorem everyStep_offAfter_iff (h : DrvChain) (devices : Nat) (es : List RelayCall) :
    Runs.EveryStep step OffAfter (relayChainInit h devices) es ↔
      Runs.EveryStep step Emptied (relayChainInit h devices) es :=
  Runs.everyStep_congr (I := fun s => s.hw.Idle) (fun _ e hs _ => idle_step hs e)
    (fun _ e hs => offAfter_iff hs e) (idle_init h devices) es

/-- Two devices, relay 0 on, and then a single device: relay 8 goes on. -/
theorem fewer_devices_switch_on : ¬Runs.EveryStep step OffAfter
    (relayChainInit (.poweredUp (fun _ => 0#8) fun _ => 0#8) 2)
    [.set 0 true, .setDevices 1] := by
  intro h
  obtain ⟨-, hoff, -⟩ := h
  exact absurd (hoff 8 (by decide)) (by decide +kernel)

end RelayFleet

end HomeAuto
