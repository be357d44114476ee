import HomeAuto.ProductWeb
import HomeAuto.Lib.Runs

/-!
# The outputs as one system

Everything that reaches the relay chain while the saved configuration stays put:
MQTT messages, the three web requests, input bindings, the two ticks of the main
loop, and a reload of the shutter table.  A run is any list of these events.
-/

namespace HomeAuto

/-- An event that reaches the outputs. -/
inductive HubEvent
  | mqtt (topic : CStr) (payload : List UInt8)
  | relaySet (params : CgiParams)
  | relayPulse (params : CgiParams)
  | cover (params : CgiParams)
  | binding (out : Nat) (cmd : OutCmd)
  | relayPulseTick (ms : Nat)
  | outputCtrlTick (ms : Nat)
  | reload

/-- `BIND_OUTPUT_NONE`. -/
def bindOutputNone : Nat := 0x7F

namespace Hub

variable (palStrToUl : StrToUl)

/-- `ApplyBindings` for one slot whose trigger matches: an unused slot or an output
past the chain is skipped. -/
def applyBinding (h : Hub) (out : Nat) (cmd : OutCmd) : Hub :=
  if out = bindOutputNone ∨ h.chain.relayChainCount ≤ out then h
  else h.outputCtrlCommand out cmd

/-- One event. -/
def step (h : Hub) : HubEvent → Hub
  | .mqtt topic payload => h.productOnMqtt palStrToUl topic payload
  | .relaySet params => h.relaySetCGIHandler palStrToUl params
  | .relayPulse params => h.relayPulseCGIHandler palStrToUl params
  | .cover params => h.coverCGIHandler palStrToUl params
  | .binding out cmd => h.applyBinding out cmd
  | .relayPulseTick ms => h.relayPulseTick ms
  | .outputCtrlTick ms => h.outputCtrlTick ms
  | .reload => h.outputCtrlReload

/-- The saved record with one shutter, UP on relay 0 and DOWN on relay 1, ten seconds of
travel. -/
def oneShutterConfig : OutputConfig where
  mode := fun _ => outModeStandard
  timedMs := fun _ => 1000
  shUp := fun i => if i = 0 then 0 else shutterNone
  shDown := fun i => if i = 0 then 1 else shutterNone
  shTravelMs := fun _ => 10000

theorem configShutterGet_oneShutterConfig {i : Nat} {slot : ShutterSlot}
    (h : oneShutterConfig.configShutterGet i = some slot) : i = 0 ∧ slot = ⟨0, 1, 10000⟩ := by
  obtain ⟨_, hdef, rfl⟩ := OutputConfig.configShutterGet_eq_some_iff.mp h
  by_cases hi : i = 0
  · subst hi
    exact ⟨rfl, rfl⟩
  · simp [oneShutterConfig, hi] at hdef

theorem oneShutterConfig_wellFormed : oneShutterConfig.WellFormed where
  up_lt := by
    intro i slot h
    obtain ⟨rfl, rfl⟩ := configShutterGet_oneShutterConfig h
    decide
  down_lt := by
    intro i slot h
    obtain ⟨rfl, rfl⟩ := configShutterGet_oneShutterConfig h
    decide
  up_ne_down := by
    intro i slot h
    obtain ⟨rfl, rfl⟩ := configShutterGet_oneShutterConfig h
    decide
  disjoint := by
    intro i j s t hs ht hij
    obtain ⟨rfl, rfl⟩ := configShutterGet_oneShutterConfig hs
    obtain ⟨rfl, rfl⟩ := configShutterGet_oneShutterConfig ht
    exact absurd rfl hij

/-- A hub with that record and one relay device, as it boots. -/
def oneShutterHub : Hub where
  chain := RelayChain.relayChainInit 1
  ioDevices := 0x10
  outCfg := oneShutterConfig
  baseTopic := ascii "home"
  sh := fun _ => .zero
  pulseMs := fun _ => 0
  published := []

/-- The same record with the shutter on other relays. -/
def onePairConfig (up down : Nat) : OutputConfig :=
  { oneShutterConfig with
    shUp := fun i => if i = 0 then up else shutterNone
    shDown := fun i => if i = 0 then down else shutterNone }

theorem configShutterGet_onePairConfig {up down i : Nat} {slot : ShutterSlot}
    (h : (onePairConfig up down).configShutterGet i = some slot) :
    i = 0 ∧ slot = ⟨up, down, 10000⟩ := by
  obtain ⟨_, hdef, rfl⟩ := OutputConfig.configShutterGet_eq_some_iff.mp h
  by_cases hi : i = 0
  · subst hi
    exact ⟨rfl, rfl⟩
  · simp [onePairConfig, hi] at hdef

theorem onePairConfig_wellFormed {up down : Nat} (hup : up < cfgMaxOutputs)
    (hdown : down < cfgMaxOutputs) (hne : up ≠ down) : (onePairConfig up down).WellFormed where
  up_lt := by
    intro i slot h
    obtain ⟨rfl, rfl⟩ := configShutterGet_onePairConfig h
    exact hup
  down_lt := by
    intro i slot h
    obtain ⟨rfl, rfl⟩ := configShutterGet_onePairConfig h
    exact hdown
  up_ne_down := by
    intro i slot h
    obtain ⟨rfl, rfl⟩ := configShutterGet_onePairConfig h
    exact hne
  disjoint := by
    intro i j s t hs ht hij
    obtain ⟨rfl, rfl⟩ := configShutterGet_onePairConfig hs
    obtain ⟨rfl, rfl⟩ := configShutterGet_onePairConfig ht
    exact absurd rfl hij

end Hub

end HomeAuto
