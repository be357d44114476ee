import HomeAuto.RelayChain
import HomeAuto.OutputConfig

/-!
# The output controller (`output_ctrl.c`, `relay_pulse.c`)

The controller routes a relay command by the output's mode: standard outputs are
switched directly, timed outputs start an auto-OFF countdown, and the members of
a shutter are driven by a state machine per shutter slot.  `Hub` gathers the
static state these files share: the relay chain, the saved output record, the
shutter runtime table `g_asSh`, the pulse countdowns, and the publish calls made
so far.

Milliseconds are natural numbers: every subtraction below is guarded by the same
comparison as in the source, so no unsigned wrap-around can occur.
-/

namespace HomeAuto

/-- `tShState`. -/
inductive ShState
  | idle
  | movingUp
  | movingDown
  | switchDelay
  deriving DecidableEq, Repr

/-- The cover-state strings, which are also the MQTT payloads. -/
inductive CoverState
  | opening
  | closing
  | open
  | closed
  | stopped
  deriving DecidableEq, Repr

/-- `tShutterRt`; `pcState` is `none` while the pointer is still `NULL`. -/
structure ShutterRt where
  valid : Bool
  up : Nat
  down : Nat
  travelMs : Nat
  state : ShState
  timerMs : Nat
  interlockMs : Nat
  pendingUp : Bool
  lastUp : Bool
  pcState : Option CoverState
  deriving DecidableEq

/-- A runtime slot as the C startup code leaves it: all zero. -/
def ShutterRt.zero : ShutterRt where
  valid := false
  up := 0
  down := 0
  travelMs := 0
  state := .idle
  timerMs := 0
  interlockMs := 0
  pendingUp := false
  lastUp := false
  pcState := none

/-- The relay that drives a direction. -/
def ShutterRt.relay (p : ShutterRt) (up : Bool) : Nat := if up then p.up else p.down

/-- The state, and the announcement, of a motion in the given direction. -/
def movingState (up : Bool) : ShState := if up then .movingUp else .movingDown
def movingCover (up : Bool) : CoverState := if up then .opening else .closing

/-- A publish call of the controller. -/
inductive Publish
  | relayState (relay : Int) (on : Bool)
  | coverState (shutter : Nat) (state : CoverState)
  deriving DecidableEq, Repr

/-- The static state of the home-automation product that the outputs depend on.
`ioDevices` is the packed count byte of the saved configuration. -/
structure Hub where
  chain : RelayChain
  ioDevices : Nat
  outCfg : OutputConfig
  baseTopic : List UInt8
  sh : Nat → ShutterRt
  pulseMs : Nat → Nat
  published : List Publish

/-- `SHUTTER_INTERLOCK_MS`. -/
def shutterInterlockMs : Nat := 500

/-- `PULSE_MAX_RELAYS`. -/
def pulseMaxRelays : Nat := 120

/-- `tOutCmd`. -/
inductive OutCmd
  | off
  | on
  | toggle
  | cycle
  deriving DecidableEq, Repr

/-- `tShCmd`. -/
inductive ShCmd
  | open
  | close
  | stop
  | up
  | down
  | toggle
  deriving DecidableEq, Repr

/-- The conversion `(uint16_t)` of an `int`. -/
def toU16 (n : Int) : Nat := (n % 65536).toNat

namespace Hub

/-- `ConfigGetRelayDevices`: the high nibble of the packed count byte. -/
def configGetRelayDevices (h : Hub) : Nat := (h.ioDevices >>> 4) &&& 0x0F

/-- `RelayChainSet` on the hub's chain. -/
def setRelay (h : Hub) (relay : Nat) (on : Bool) : Hub :=
  { h with chain := h.chain.relayChainSet relay on }

/-- Assign to fields of one runtime slot. -/
def modSh (h : Hub) (i : Nat) (f : ShutterRt → ShutterRt) : Hub :=
  { h with sh := Function.update h.sh i (f (h.sh i)) }

/-- Assign one pulse countdown. -/
def setPulse (h : Hub) (i ms : Nat) : Hub :=
  { h with pulseMs := Function.update h.pulseMs i ms }

/-- Hand a state change to MQTT. -/
def publish (h : Hub) (p : Publish) : Hub :=
  { h with published := h.published ++ [p] }

section Fields

variable (h : Hub) (i : Nat) (relay : Nat) (on : Bool) (f : ShutterRt → ShutterRt) (p : Publish)

@[simp] theorem setRelay_sh : (h.setRelay relay on).sh = h.sh := rfl
@[simp] theorem setRelay_outCfg : (h.setRelay relay on).outCfg = h.outCfg := rfl
@[simp] theorem setRelay_pulseMs : (h.setRelay relay on).pulseMs = h.pulseMs := rfl
@[simp] theorem setRelay_chain :
    (h.setRelay relay on).chain = h.chain.relayChainSet relay on := rfl
@[simp] theorem modSh_chain : (h.modSh i f).chain = h.chain := rfl
@[simp] theorem modSh_outCfg : (h.modSh i f).outCfg = h.outCfg := rfl
@[simp] theorem modSh_pulseMs : (h.modSh i f).pulseMs = h.pulseMs := rfl
@[simp] theorem modSh_sh_self : (h.modSh i f).sh i = f (h.sh i) := Function.update_self ..
@[simp] theorem publish_sh : (h.publish p).sh = h.sh := rfl
@[simp] theorem publish_chain : (h.publish p).chain = h.chain := rfl
@[simp] theorem publish_outCfg : (h.publish p).outCfg = h.outCfg := rfl

theorem modSh_sh_of_ne {j : Nat} (hj : j ≠ i) : (h.modSh i f).sh j = h.sh j :=
  Function.update_of_ne hj ..

end Fields

/-- `MQTTAppSetRelay`: the bound is checked on the truncated index. -/
def mqttAppSetRelay (h : Hub) (iRelay : Int) (on : Bool) : Hub :=
  if iRelay < 0 ∨ h.configGetRelayDevices * 8 ≤ toU16 iRelay then h
  else
    (h.setRelay (toU16 iRelay) on).publish
      (.relayState iRelay ((h.setRelay (toU16 iRelay) on).chain.relayChainGet (toU16 iRelay)))

/-- `RelayPulseStart`. -/
def relayPulseStart (h : Hub) (iRelay : Int) (ms : Nat) : Hub :=
  if iRelay < 0 ∨ (pulseMaxRelays : Int) ≤ iRelay then h
  else if ms = 0 then h.setPulse iRelay.toNat 0
  else (h.mqttAppSetRelay iRelay true).setPulse iRelay.toNat ms

/-- The loop body of `RelayPulseTick`. -/
def relayPulseTickRelay (elapsedMs : Nat) (h : Hub) (i : Nat) : Hub :=
  if h.pulseMs i = 0 then h
  else if h.pulseMs i ≤ elapsedMs then (h.setPulse i 0).mqttAppSetRelay i false
  else h.setPulse i (h.pulseMs i - elapsedMs)

/-- `RelayPulseTick`. -/
def relayPulseTick (h : Hub) (elapsedMs : Nat) : Hub :=
  (List.range h.chain.relayChainCount).foldl (relayPulseTickRelay elapsedMs) h

/-- `ShPublish`. -/
def shPublish (h : Hub) (i : Nat) (s : CoverState) : Hub :=
  (h.modSh i fun p => { p with pcState := some s }).publish (.coverState i s)

/-- `ShBothOff`. -/
def shBothOff (h : Hub) (i : Nat) : Hub :=
  (h.setRelay (h.sh i).up false).setRelay (h.sh i).down false

/-- `OutputCtrlReload` on a newly defined or re-paired slot: stop any motion, both
relays safely off.  An unchanged pair is left alone. -/
def reloadStop (h : Hub) (i : Nat) (slot : ShutterSlot) : Hub :=
  if (h.sh i).valid = false ∨ (h.sh i).up ≠ slot.up ∨ (h.sh i).down ≠ slot.down then
    ((h.setRelay slot.up false).setRelay slot.down false).modSh i fun p =>
      { p with state := .idle, timerMs := 0, interlockMs := 0, pcState := some .stopped }
  else h

/-- The loop body of `OutputCtrlReload`. -/
def outputCtrlReloadSlot (h : Hub) (i : Nat) : Hub :=
  match h.outCfg.configShutterGet i with
  | some slot =>
      (h.reloadStop i slot).modSh i fun p =>
        { p with valid := true, up := slot.up, down := slot.down, travelMs := slot.travelMs }
  | none =>
      (if (h.sh i).valid then h.shBothOff i else h).modSh i fun p =>
        { p with valid := false, state := .idle, timerMs := 0, interlockMs := 0 }

/-- `OutputCtrlReload`. -/
def outputCtrlReload (h : Hub) : Hub :=
  (List.range cfgMaxShutters).foldl outputCtrlReloadSlot h

/-- `ShStop`. -/
def shStop (h : Hub) (i : Nat) : Hub :=
  ((h.shBothOff i).modSh i fun p =>
    { p with state := .idle, timerMs := 0, interlockMs := 0 }).shPublish i .stopped

/-- Energise one direction: opposite relay OFF first, then this relay ON and the
travel timer started.  `ShMove` does this from IDLE and `OutputCtrlTick` when the
interlock has elapsed. -/
def energise (h : Hub) (i : Nat) (up : Bool) : Hub :=
  (((h.setRelay ((h.sh i).relay !up) false).setRelay ((h.sh i).relay up) true).modSh i
    fun p => { p with state := movingState up, timerMs := p.travelMs }).shPublish i
      (movingCover up)

/-- `ShMove` on a shutter that moves the other way or waits in its switch delay: both
relays OFF, and the new direction pending.  The interlock is started on leaving the
motion only. -/
def shReverse (h : Hub) (i : Nat) (up : Bool) : Hub :=
  (((h.shBothOff i).modSh i fun p =>
      if p.state ≠ .switchDelay then
        { p with interlockMs := shutterInterlockMs, state := .switchDelay }
      else p).modSh i
    fun p => { p with timerMs := 0, pendingUp := up }).shPublish i (movingCover up)

/-- `ShMove`. -/
def shMove (h : Hub) (i : Nat) (up : Bool) : Hub :=
  if (h.sh i).state = movingState up then
    -- already moving this way: refresh, do not cycle the relay
    h.modSh i fun p => { p with timerMs := p.travelMs }
  else if (h.sh i).state = .idle then
    (h.modSh i fun p => { p with lastUp := up }).energise i up
  else (h.modSh i fun p => { p with lastUp := up }).shReverse i up

/-- The `switch` of `OutputCtrlShutter` on a defined slot. -/
def shCommand (h : Hub) (i : Nat) (cmd : ShCmd) : Hub :=
  match cmd with
  | .stop => h.shStop i
  | .open => h.shMove i true
  | .close => h.shMove i false
  | .up => if (h.sh i).state ≠ .idle then h.shStop i else h.shMove i true
  | .down => if (h.sh i).state ≠ .idle then h.shStop i else h.shMove i false
  | .toggle => if (h.sh i).state ≠ .idle then h.shStop i else h.shMove i !(h.sh i).lastUp

/-- `OutputCtrlShutter`. -/
def outputCtrlShutter (h : Hub) (iShutter : Int) (cmd : ShCmd) : Hub :=
  if iShutter < 0 ∨ (cfgMaxShutters : Int) ≤ iShutter then h
  else if (h.sh iShutter.toNat).valid = false then h
  else h.shCommand iShutter.toNat cmd

/-- The shutter command which `OutputCtrlCommand` makes of a relay command. -/
def memberCommand (isUp : Bool) : OutCmd → ShCmd
  | .off => .stop
  | .cycle => .toggle
  | .on | .toggle => if isUp then .up else .down

/-- The level a relay command asks of a standard or timed output. -/
def commandLevel (h : Hub) (iOut : Int) : OutCmd → Bool
  | .toggle | .cycle => !h.chain.relayChainGet (toU16 iOut)
  | .on => true
  | .off => false

/-- `OutputCtrlCommand`. -/
def outputCtrlCommand (h : Hub) (iOut : Int) (cmd : OutCmd) : Hub :=
  match h.outCfg.configShutterOfRelay iOut with
  | some (iSh, isUp) => h.outputCtrlShutter iSh (memberCommand isUp cmd)
  | none =>
      if h.outCfg.configOutMode iOut = outModeTimed then
        if h.commandLevel iOut cmd then h.relayPulseStart iOut (h.outCfg.configOutTimedMs iOut)
        else (h.relayPulseStart iOut 0).mqttAppSetRelay iOut false
      else h.mqttAppSetRelay iOut (h.commandLevel iOut cmd)

/-- `OutputCtrlTick` on a motion whose travel time has run out. -/
def travelEnd (h : Hub) (i : Nat) (s : CoverState) : Hub :=
  (((h.modSh i fun p => { p with timerMs := 0 }).shBothOff i).modSh i
    fun p => { p with state := .idle }).shPublish i s

/-- `OutputCtrlTick` on a motion: `s` is the state announced when the travel time is
over. -/
def tickMotion (h : Hub) (i ms : Nat) (s : CoverState) : Hub :=
  if (h.sh i).timerMs = 0 then h
  else if (h.sh i).timerMs ≤ ms then h.travelEnd i s
  else h.modSh i fun p => { p with timerMs := p.timerMs - ms }

/-- `OutputCtrlTick` on a switch delay. -/
def tickDelay (h : Hub) (i ms : Nat) : Hub :=
  if (h.sh i).interlockMs ≤ ms then
    (h.modSh i fun p => { p with interlockMs := 0 }).energise i (h.sh i).pendingUp
  else h.modSh i fun p => { p with interlockMs := p.interlockMs - ms }

/-- The loop body of `OutputCtrlTick`. -/
def outputCtrlTickSlot (ms : Nat) (h : Hub) (i : Nat) : Hub :=
  if (h.sh i).valid = false then h
  else
    match (h.sh i).state with
    | .idle => h
    | .movingUp => h.tickMotion i ms .open
    | .movingDown => h.tickMotion i ms .closed
    | .switchDelay => h.tickDelay i ms

/-- `OutputCtrlTick`. -/
def outputCtrlTick (h : Hub) (ms : Nat) : Hub :=
  (List.range cfgMaxShutters).foldl (outputCtrlTickSlot ms) h

end Hub

end HomeAuto
