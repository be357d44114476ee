import HomeAuto.HubEvents
import HomeAuto.Lib.Runs
import HomeAuto.ShutterReload
import HomeAuto.ShutterRuns

/-!
# A changed relay count (`enet_io.c`, main loop)

When the number of relay devices has changed, the main loop resets the relay chain, which
switches every relay off, and reloads the shutter table.  The reset goes behind the back
of the shutter state machine, and the reload keeps the runtime of a slot whose pair is
unchanged: a shutter that was moving goes on reporting motion, and one in its switch delay
starts its motor when the delay is over.

`fullyStopped_iff_atRest` is exact: everything stays off and at rest precisely when every
shutter that keeps its relays was at rest before.
-/

namespace HomeAuto

/-- `OutputCtrlCoverState` on a slot of the table. -/
def Hub.outputCtrlCoverState (h : Hub) (i : Nat) : CoverState :=
  if (h.sh i).valid = false then .stopped else (h.sh i).pcState.getD .stopped

/-- A cover state that says that the shutter moves. -/
def CoverState.InMotion (s : CoverState) : Prop := s = .opening ∨ s = .closing

/-- The ticks of the main loop. -/
inductive TickEvent
  | relayPulseTick (ms : Nat)
  | outputCtrlTick (ms : Nat)

namespace Hub

/-- The main loop applies a changed configuration: the relay chain is reset if the device
count differs, and the table is reloaded. -/
def applyPending (h : Hub) : Hub :=
  (if h.chain.devices ≠ h.configGetRelayDevices then
      { h with chain := RelayChain.relayChainSetDevices h.configGetRelayDevices }
    else h).outputCtrlReload

def tickStep (h : Hub) : TickEvent → Hub
  | .relayPulseTick ms => h.relayPulseTick ms
  | .outputCtrlTick ms => h.outputCtrlTick ms

/-- Every relay of the configured chain is off, and every defined shutter is IDLE and does not
report motion. -/
def FullyStopped (h : Hub) : Prop :=
  h.chain.AllOff ∧ ∀ i slot, h.outCfg.configShutterGet i = some slot →
    (h.sh i).state = .idle ∧ ¬(h.outputCtrlCoverState i).InMotion

/-- Every shutter whose relays the saved table leaves alone is IDLE and does not report
motion. -/
def AtRestWhereKept (h : Hub) : Prop :=
  ∀ i slot, h.outCfg.configShutterGet i = some slot → ¬(h.sh i).Repaired slot →
    (h.sh i).state = .idle ∧ ¬(h.outputCtrlCoverState i).InMotion

/-- Every relay off and every loaded slot at rest: nothing is left for a tick to do. -/
structure Still (h : Hub) : Prop where
  off : h.chain.AllOff
  loaded : ∀ i slot, h.outCfg.configShutterGet i = some slot → (h.sh i).valid = true
  rest : ∀ i, i < cfgMaxShutters → (h.sh i).valid = true →
    (h.sh i).state = .idle ∧ ¬(h.outputCtrlCoverState i).InMotion

theorem Still.fullyStopped {h : Hub} (hs : h.Still) : h.FullyStopped :=
  ⟨hs.off, fun i slot hslot =>
    hs.rest i (OutputConfig.configShutterGet_lt hslot) (hs.loaded i slot hslot)⟩

/-! ## Ticks -/

/-- A controller tick passes over slots at rest. -/
theorem outputCtrlTick_of_idle {h : Hub}
    (hidle : ∀ i, i < cfgMaxShutters → (h.sh i).valid = true → (h.sh i).state = .idle)
    (ms : Nat) : h.outputCtrlTick ms = h := by
  refine Loops.foldl_range (P := fun _ h' => h' = h) (fun i h' hi heq => ?_) rfl
  subst heq
  unfold outputCtrlTickSlot
  cases hvalid : (h'.sh i).valid with
  | false => rfl
  | true =>
      rw [if_neg (by simp), hidle i hi hvalid]

/-- A pulse tick touches no shutter, and switches no relay on. -/
theorem relayPulseTick_still (h : Hub) (ms : Nat) :
    (h.relayPulseTick ms).sh = h.sh ∧ (h.relayPulseTick ms).outCfg = h.outCfg ∧
      (h.chain.AllOff → (h.relayPulseTick ms).chain.AllOff) := by
  refine Loops.foldl_range (P := fun _ (h' : Hub) => h'.sh = h.sh ∧ h'.outCfg = h.outCfg ∧
    (h.chain.AllOff → h'.chain.AllOff)) (fun i h' _ heq => ?_) ⟨rfl, rfl, id⟩
  unfold relayPulseTickRelay
  split
  · exact heq
  · split
    · unfold mqttAppSetRelay
      split
      · exact heq
      · refine ⟨heq.1, heq.2.1, fun hoff relay => ?_⟩
        have hold := heq.2.2 hoff relay
        rw [publish_chain, setRelay_chain, RelayChain.isOn_relayChainSet_false]
        by_cases hr : relay = toU16 i
        · rw [hr, Function.update_self]
        · rw [Function.update_of_ne hr]
          exact hold
    · exact heq

theorem Still.tickStep {h : Hub} (hs : h.Still) (e : TickEvent) : (h.tickStep e).Still := by
  cases e with
  | relayPulseTick ms =>
      obtain ⟨hsh, hcfg, hoff⟩ := h.relayPulseTick_still ms
      unfold Hub.tickStep
      refine ⟨hoff hs.off, ?_, ?_⟩
      · rw [hcfg, hsh]
        exact hs.loaded
      · unfold outputCtrlCoverState
        rw [hsh]
        exact hs.rest
  | outputCtrlTick ms =>
      change (h.outputCtrlTick ms).Still
      rw [outputCtrlTick_of_idle fun i hi hvalid => (hs.rest i hi hvalid).1]
      exact hs

/-! ## The change -/

/-- A slot after the reload is at rest, unless it is one that was kept and was not. -/
theorem rest_reloadRt {cfg : OutputConfig} {i : Nat} {slot : ShutterSlot} {p : ShutterRt}
    (hslot : cfg.configShutterGet i = some slot) :
    (cfg.reloadRt i p).valid = true ∧
      (p.Repaired slot → (cfg.reloadRt i p).state = .idle ∧
        (cfg.reloadRt i p).pcState = some .stopped) ∧
      (¬p.Repaired slot → (cfg.reloadRt i p).state = p.state ∧
        (cfg.reloadRt i p).pcState = p.pcState) := by
  unfold OutputConfig.reloadRt
  rw [hslot]
  refine ⟨rfl, fun hpair => ?_, fun hpair => ?_⟩
  · simp [hpair]
  · dsimp only
    rw [if_neg hpair]
    exact ⟨rfl, rfl⟩

/-- What the change leaves: all relays off, and each slot as the reload makes it. -/
theorem applyPending_effect {h : Hub} (hcount : h.chain.devices ≠ h.configGetRelayDevices) :
    h.applyPending.chain.AllOff ∧ h.applyPending.outCfg = h.outCfg ∧
      ∀ i, i < cfgMaxShutters → h.applyPending.sh i = h.outCfg.reloadRt i (h.sh i) := by
  unfold applyPending
  rw [if_pos hcount]
  refine ⟨fun relay => ?_, (tame_outputCtrlReload _).outCfg, fun i hi => sh_outputCtrlReload _ hi⟩
  have hoff := RelayChain.relayChainSetDevices_allOff h.configGetRelayDevices relay
  by_contra hon
  rw [Bool.not_eq_false, isOn_outputCtrlReload] at hon
  exact absurd hon.1 (by simp [hoff])

/-- **A shutter that keeps its relays decides.** -/
theorem stopped_slot_iff {h : Hub} (hcount : h.chain.devices ≠ h.configGetRelayDevices)
    {i : Nat} {slot : ShutterSlot} (hslot : h.outCfg.configShutterGet i = some slot) :
    (h.applyPending.sh i).valid = true ∧
      ((h.applyPending.sh i).state = .idle ∧
          ¬(h.applyPending.outputCtrlCoverState i).InMotion ↔
        (¬(h.sh i).Repaired slot →
          (h.sh i).state = .idle ∧ ¬(h.outputCtrlCoverState i).InMotion)) := by
  have hsh := (applyPending_effect hcount).2.2 i (OutputConfig.configShutterGet_lt hslot)
  obtain ⟨hvalid, hnew, hkept⟩ := rest_reloadRt (p := h.sh i) hslot
  unfold outputCtrlCoverState
  rw [hsh, if_neg (by simp [hvalid])]
  refine ⟨hvalid, ?_⟩
  by_cases hpair : (h.sh i).Repaired slot
  · obtain ⟨hstate, hcover⟩ := hnew hpair
    rw [hstate, hcover]
    exact iff_of_true ⟨rfl, by simp [CoverState.InMotion]⟩ fun hnot => absurd hpair hnot
  · obtain ⟨hstate, hcover⟩ := hkept hpair
    have hv : ¬(h.sh i).valid = false := fun hv => hpair (.inl hv)
    rw [hstate, hcover, if_neg hv]
    exact ⟨fun hrest _ => hrest, fun hrest => hrest hpair⟩

/-- **A full stop, exactly.**  After a change of the relay count, with any table, every
relay stays off and every shutter stays at rest over any ticks precisely when every shutter
that keeps its relays was at rest. -/
theorem fullyStopped_iff_atRest {h : Hub}
    (hcount : h.chain.devices ≠ h.configGetRelayDevices) :
    (∀ ticks, Runs.EveryState tickStep FullyStopped h.applyPending ticks) ↔
      h.AtRestWhereKept := by
  obtain ⟨hoff, hcfg, hsh⟩ := applyPending_effect hcount
  constructor
  · intro hall i slot hslot
    have hnow := (hall []).head.2 i slot (by rw [hcfg]; exact hslot)
    exact (stopped_slot_iff hcount hslot).2.mp hnow
  · intro hrest ticks
    have hstill : h.applyPending.Still := by
      refine ⟨hoff, fun i slot hslot => ?_, fun i hi hvalid => ?_⟩
      · rw [hcfg] at hslot
        exact (stopped_slot_iff hcount hslot).1
      · cases hslot : h.outCfg.configShutterGet i with
        | some slot => exact (stopped_slot_iff hcount hslot).2.mpr (hrest i slot hslot)
        | none =>
            rw [hsh i hi, OutputConfig.reloadRt, hslot] at hvalid
            cases hvalid
    have hstep (h : Hub) (e : TickEvent) (hs : h.Still) : (h.tickStep e).Still := hs.tickStep e
    have hrun := Runs.invariant hstep hstill ticks
    exact hrun.mono fun _ hs => hs.fullyStopped

/-- A hub whose saved configuration now asks for two relay devices. -/
def secondDevice (h : Hub) : Hub := { h with ioDevices := 0x20 }

/-- A shutter that moves up, a pulse that runs on relay 5, and a saved table that has the shutter
on relays 2 and 3 now. -/
def movedHub : Hub :=
  { (Runs.final shutterStep oneShutterHub [.reload, .shutter 0 .open]).relayPulseStart 5 3000 with
    outCfg := onePairConfig 2 3 }

/-- The change stops it. -/
theorem moved_shutter_stopped :
    movedHub.secondDevice.configGetRelayDevices = 2 ∧ movedHub.outputCtrlCoverState 0 = .opening ∧
      movedHub.chain.isOn 0 = true ∧ movedHub.pulseMs 5 = 3000 ∧
      ∀ ticks, Runs.EveryState tickStep FullyStopped movedHub.secondDevice.applyPending ticks := by
  refine ⟨rfl, by decide +kernel, by decide +kernel, by decide +kernel,
    (fullyStopped_iff_atRest (by decide +kernel)).mpr fun i slot hslot hkept => ?_⟩
  obtain ⟨rfl, rfl⟩ := configShutterGet_onePairConfig hslot
  exact absurd (by decide +kernel) hkept

/-- Sent up and then down, the shutter waits in its switch delay. -/
def reversingHub : Hub :=
  Runs.final shutterStep oneShutterHub [.reload, .shutter 0 .open, .shutter 0 .close]

/-- The motor starts 500 ms after the change. -/
theorem reversing_shutter_restarts :
    ¬∀ ticks, Runs.EveryState tickStep FullyStopped
      reversingHub.secondDevice.applyPending ticks := by
  intro hall
  have hoff := (hall [.outputCtrlTick 500]).last.1 1
  revert hoff
  decide +kernel

end Hub

end HomeAuto
