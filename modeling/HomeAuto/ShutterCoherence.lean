import HomeAuto.HubEvents
import HomeAuto.MotorTravel
import HomeAuto.OutputRecord
import HomeAuto.ShutterReload

/-!
# Coherent shutters over whole runs

Shutter commands, relay commands, ticks and reloads, of the same or of another proper
table, keep every shutter coherent, and with that no motor relay stays on for its full
travel time.  One thing breaks it: `OutputCtrlCommand` looks the relay up in the table by
its full number, and then switches the relay of its low 16 bits.  A number from 120 on
reaches a motor relay that way, past the state machine.

`coherent_iff_noStray` is exact: a run keeps all shutters coherent precisely when such a
command only ever asks for the level that the motor relay has.
-/

namespace HomeAuto

/-- The calls of the output controller.  `reload` finds the table `cfg`. -/
inductive CtrlEvent
  | shutter (iShutter : Int) (cmd : ShCmd)
  | command (iOut : Int) (cmd : OutCmd)
  | tick (ms : Nat)
  | reload (cfg : OutputConfig)

/-- The tick time that passes with an event. -/
def CtrlEvent.dur : CtrlEvent → Nat
  | .tick ms => ms
  | _ => 0

/-- The relays of every defined slot are on a chain of `n` relays. -/
def OutputConfig.InChain (cfg : OutputConfig) (n : Nat) : Prop :=
  ∀ i slot, cfg.configShutterGet i = some slot → ∀ d, slot.relay d < n

/-- A reload finds a proper table, with its relays on the chain. -/
def CtrlEvent.Admissible (n : Nat) : CtrlEvent → Prop
  | .reload cfg => cfg.ProperTable ∧ cfg.InChain n
  | _ => True

/-- The slot which an event commands, and the command it gets. -/
def OutputConfig.commanded (cfg : OutputConfig) : CtrlEvent → Option (Int × ShCmd)
  | .shutter iShutter cmd => some (iShutter, cmd)
  | .command iOut cmd =>
      (cfg.configShutterOfRelay iOut).map fun p => ((p.1 : Int), Hub.memberCommand p.2 cmd)
  | .tick _ | .reload _ => none

namespace Hub

/-- One event. -/
def ctrlStep (h : Hub) : CtrlEvent → Hub
  | .shutter iShutter cmd => h.outputCtrlShutter iShutter cmd
  | .command iOut cmd => h.outputCtrlCommand iOut cmd
  | .tick ms => h.outputCtrlTick ms
  | .reload cfg => { h with outCfg := cfg }.outputCtrlReload

/-- A step switches on a relay of slot `i`. -/
def energises (h h' : Hub) (i : Nat) : Bool :=
  match h'.outCfg.configShutterGet i with
  | some slot => (!h.chain.isOn slot.up && h'.chain.isOn slot.up) ||
      (!h.chain.isOn slot.down && h'.chain.isOn slot.down)
  | none => false

/-- An event tells slot `i` to open while it opens, or to close while it closes. -/
def refreshes (h : Hub) (e : CtrlEvent) (i : Nat) : Bool :=
  match h.outCfg.commanded e with
  | some (j, .open) =>
      decide (j = i) && ((h.sh i).valid && decide ((h.sh i).state = .movingUp))
  | some (j, .close) =>
      decide (j = i) && ((h.sh i).valid && decide ((h.sh i).state = .movingDown))
  | _ => false

/-- The hub, and the travel of each slot. -/
structure Traveled where
  hub : Hub
  travel : Nat → Travel

/-- One event, with the travel of each slot kept. -/
def traveledStep (t : Traveled) (e : CtrlEvent) : Traveled where
  hub := t.hub.ctrlStep e
  travel i :=
    if t.hub.energises (t.hub.ctrlStep e) i || t.hub.refreshes e i then
      ⟨0, ((t.hub.ctrlStep e).sh i).travelMs⟩
    else ⟨(t.travel i).since + e.dur, (t.travel i).inForce⟩

theorem hub_traveledStep (t : Traveled) (e : CtrlEvent) :
    (traveledStep t e).hub = t.hub.ctrlStep e := rfl

/-- The start of a run: no slot has travelled. -/
def traveledStart (h : Hub) : Traveled := ⟨h, fun _ => ⟨0, 0⟩⟩

/-- Every defined shutter is coherent, and none of its relays has been on for the travel
time that was in force when it was energised or refreshed. -/
def ShuttersCoherent (t : Traveled) : Prop :=
  ∀ i slot, t.hub.outCfg.configShutterGet i = some slot →
    (t.hub.motorOf i slot).Coherent (t.travel i) ∧
      ∀ d, t.hub.chain.isOn (slot.relay d) = true → (t.travel i).since < (t.travel i).inForce

/-- A relay command past the table's indices does not change the level of a motor relay. -/
def NoStray (t : Traveled) : CtrlEvent → Prop
  | .command iOut cmd => (cfgMaxOutputs : Int) ≤ iOut →
      toU16 iOut < t.hub.configGetRelayDevices * 8 →
      ∀ i slot d, t.hub.outCfg.configShutterGet i = some slot → toU16 iOut = slot.relay d →
        t.hub.chain.isOn (toU16 iOut) = t.hub.commandLevel iOut cmd
  | _ => True

/-- What every state of a run satisfies, coherent or not: the runtime follows a proper
table on the chain. -/
structure Equipped (n : Nat) (h : Hub) : Prop extends Paired h where
  count : h.chain.relayChainCount = n
  inChain : h.outCfg.InChain n
  travel : ∀ i, i < cfgMaxShutters → (h.sh i).valid = true → 1 ≤ (h.sh i).travelMs

theorem Equipped.motor {n : Nat} {h : Hub} (he : h.Equipped n) {i : Nat} {slot : ShutterSlot}
    (hslot : h.outCfg.configShutterGet i = some slot) : (h.motorOf i slot).Equipped where
  inChain d := by
    have hlt := he.inChain i slot hslot d
    rw [← he.count] at hlt
    exact decide_eq_true hlt
  travel := he.travel i (OutputConfig.configShutterGet_lt hslot)

/-! ## Relay commands on no member -/

/-- A step that leaves the shutters' runtime, the table and the length of the chain. -/
structure KeepsShutters (h h' : Hub) : Prop where
  sh : h'.sh = h.sh
  outCfg : h'.outCfg = h.outCfg
  count : h'.chain.relayChainCount = h.chain.relayChainCount

theorem mqttAppSetRelay_effect (h : Hub) (iRelay : Int) (on : Bool) :
    KeepsShutters h (h.mqttAppSetRelay iRelay on) ∧ ∀ r, r < h.chain.relayChainCount →
      (h.mqttAppSetRelay iRelay on).chain.isOn r =
        if 0 ≤ iRelay ∧ toU16 iRelay < h.configGetRelayDevices * 8 ∧ toU16 iRelay = r then on
        else h.chain.isOn r := by
  unfold mqttAppSetRelay
  split
  · refine ⟨⟨rfl, rfl, rfl⟩, fun r _ => ?_⟩
    rw [if_neg (by omega)]
  · rename_i hrange
    refine ⟨⟨rfl, rfl, RelayChain.relayChainSet_count ..⟩, fun r hr => ?_⟩
    rw [publish_chain, setRelay_chain, RelayChain.isOn_relayChainSet]
    by_cases heq : r = toU16 iRelay
    · subst heq
      rw [if_pos ⟨rfl, hr⟩, if_pos ⟨by omega, by omega, rfl⟩]
    · rw [if_neg (fun h => heq h.1), if_neg (fun h => heq h.2.2.symm)]

theorem relayPulseStart_effect (h : Hub) (iRelay : Int) (ms : Nat) :
    KeepsShutters h (h.relayPulseStart iRelay ms) ∧ ∀ r, r < h.chain.relayChainCount →
      r ≠ toU16 iRelay → (h.relayPulseStart iRelay ms).chain.isOn r = h.chain.isOn r := by
  unfold relayPulseStart
  split
  · exact ⟨⟨rfl, rfl, rfl⟩, fun _ _ _ => rfl⟩
  · split
    · exact ⟨⟨rfl, rfl, rfl⟩, fun _ _ _ => rfl⟩
    · obtain ⟨hkeeps, hon⟩ := h.mqttAppSetRelay_effect iRelay true
      refine ⟨⟨hkeeps.sh, hkeeps.outCfg, hkeeps.count⟩, fun r hr hne => ?_⟩
      exact (hon r hr).trans (if_neg fun h => hne h.2.2.symm)

/-- An output below the table's indices that is no member is no motor relay. -/
theorem toU16_ne_relay {h : Hub} {iOut : Int}
    (hnone : h.outCfg.configShutterOfRelay iOut = none) (h0 : 0 ≤ iOut)
    (hlt : iOut < (cfgMaxOutputs : Int)) {i : Nat} {slot : ShutterSlot}
    (hslot : h.outCfg.configShutterGet i = some slot) (d : Bool) : slot.relay d ≠ toU16 iOut := by
  obtain ⟨hup, hdown⟩ := OutputConfig.configShutterOfRelay_none hnone h0 hlt hslot
  have hu : toU16 iOut = iOut.toNat := by
    unfold toU16 cfgMaxOutputs at *
    omega
  rw [hu]
  cases d
  · change slot.down ≠ iOut.toNat
    omega
  · change slot.up ≠ iOut.toNat
    omega

/-- A relay command on a relay that is no member reaches at most the relay of its low 16
bits, and a motor relay only from a number past the table's indices. -/
theorem outputCtrlCommand_stray {h : Hub} {iOut : Int}
    (hnone : h.outCfg.configShutterOfRelay iOut = none) (cmd : OutCmd) :
    KeepsShutters h (h.outputCtrlCommand iOut cmd) ∧
      ∀ i slot d, h.outCfg.configShutterGet i = some slot →
        slot.relay d < h.chain.relayChainCount →
        (h.outputCtrlCommand iOut cmd).chain.isOn (slot.relay d) =
          if (cfgMaxOutputs : Int) ≤ iOut ∧ toU16 iOut < h.configGetRelayDevices * 8 ∧
            toU16 iOut = slot.relay d then h.commandLevel iOut cmd
          else h.chain.isOn (slot.relay d) := by
  unfold outputCtrlCommand
  rw [hnone]
  dsimp only
  by_cases htimed : h.outCfg.configOutMode iOut = outModeTimed
  · have hrange : 0 ≤ iOut ∧ iOut < (cfgMaxOutputs : Int) := by
      by_contra hout
      rw [OutputConfig.configOutMode, if_pos (by omega)] at htimed
      exact absurd htimed (by decide)
    rw [if_pos htimed]
    split
    · obtain ⟨hkeeps, hon⟩ := h.relayPulseStart_effect iOut (h.outCfg.configOutTimedMs iOut)
      refine ⟨hkeeps, fun i slot d hslot hr => ?_⟩
      rw [if_neg (by omega)]
      exact hon _ hr (toU16_ne_relay hnone hrange.1 hrange.2 hslot d)
    · obtain ⟨hkeeps, hon⟩ := h.relayPulseStart_effect iOut 0
      obtain ⟨hkeeps', hon'⟩ := (h.relayPulseStart iOut 0).mqttAppSetRelay_effect iOut false
      refine ⟨⟨hkeeps'.sh.trans hkeeps.sh, hkeeps'.outCfg.trans hkeeps.outCfg,
        hkeeps'.count.trans hkeeps.count⟩, fun i slot d hslot hr => ?_⟩
      have hne := toU16_ne_relay hnone hrange.1 hrange.2 hslot d
      rw [if_neg (by omega), hon' _ (by rw [hkeeps.count]; exact hr),
        if_neg fun hstrike => hne hstrike.2.2.symm]
      exact hon _ hr hne
  · rw [if_neg htimed]
    obtain ⟨hkeeps, hon⟩ := h.mqttAppSetRelay_effect iOut (h.commandLevel iOut cmd)
    refine ⟨hkeeps, fun i slot d hslot hr => ?_⟩
    rw [hon _ hr]
    by_cases hpast : (cfgMaxOutputs : Int) ≤ iOut
    · have h0 : 0 ≤ iOut := by
        unfold cfgMaxOutputs at hpast
        omega
      simp only [hpast, h0, true_and]
    · have hmiss : ¬(0 ≤ iOut ∧ toU16 iOut < h.configGetRelayDevices * 8 ∧
          toU16 iOut = slot.relay d) := by
        rintro ⟨h0, _, heq⟩
        exact toU16_ne_relay hnone h0 (by omega) hslot d heq.symm
      rw [if_neg hmiss, if_neg fun hstrike => hpast hstrike.1]

/-! ## One event -/

/-- The event as the controller of one table knows it. -/
def shutterEvent : CtrlEvent → ShutterEvent
  | .shutter iShutter cmd => .shutter iShutter cmd
  | .command iOut cmd => .relay iOut cmd
  | .tick ms => .tick ms
  | .reload _ => .reload

/-- An event that is neither a reload nor a relay command on no member. -/
def Routine (h : Hub) : CtrlEvent → Prop
  | .command iOut _ => h.outCfg.outputCtrlIsShutterMember iOut = true
  | .reload _ => False
  | _ => True

theorem ctrlStep_of_routine {h : Hub} {e : CtrlEvent} (hr : h.Routine e) :
    h.ctrlStep e = h.shutterStep (shutterEvent e) := by
  cases e with
  | shutter iShutter cmd => rfl
  | command iOut cmd => exact (if_pos hr).symm
  | tick ms => rfl
  | reload cfg => exact absurd hr id

/-- The three kinds of event. -/
theorem event_cases (h : Hub) (e : CtrlEvent) :
    h.Routine e ∨ (∃ cfg, e = .reload cfg) ∨
      ∃ iOut cmd, e = .command iOut cmd ∧ h.outCfg.configShutterOfRelay iOut = none := by
  cases e with
  | shutter iShutter cmd => exact .inl trivial
  | tick ms => exact .inl trivial
  | reload cfg => exact .inr (.inl ⟨cfg, rfl⟩)
  | command iOut cmd =>
      cases hmember : h.outCfg.configShutterOfRelay iOut with
      | none => exact .inr (.inr ⟨iOut, cmd, rfl, hmember⟩)
      | some p =>
          refine .inl ?_
          simp [Routine, OutputConfig.outputCtrlIsShutterMember, hmember]

theorem ctrlStep_reload (h : Hub) (cfg : OutputConfig) :
    h.ctrlStep (.reload cfg) = { h with outCfg := cfg }.outputCtrlReload := rfl

theorem outCfg_reload (h : Hub) (cfg : OutputConfig) :
    (h.ctrlStep (.reload cfg)).outCfg = cfg := by
  rw [ctrlStep_reload, (tame_outputCtrlReload { h with outCfg := cfg }).outCfg]

/-- The reload of another slot leaves the relays of a slot alone whose pair is unchanged:
the new tables of the two are disjoint, and so were the old ones. -/
theorem not_releases_of_ne {h : Hub} (hp : h.Paired) {cfg : OutputConfig}
    (hwf : cfg.WellFormed) {i j : Nat} {slot : ShutterSlot}
    (hslot : cfg.configShutterGet i = some slot) (hpair : ¬(h.sh i).Repaired slot)
    (hj : j < cfgMaxShutters) (hij : i ≠ j) (d : Bool) :
    ¬cfg.Releases j (h.sh j) (slot.relay d) := by
  intro hrel
  have hmeets {s t : ShutterSlot} (hmeet : s.relay d = t.up ∨ s.relay d = t.down)
      (hdisj : s.up ≠ t.up ∧ s.up ≠ t.down ∧ s.down ≠ t.up ∧ s.down ≠ t.down) : False := by
    obtain ⟨huu, hud, hdu, hdd⟩ := hdisj
    cases d
    · exact hmeet.elim hdu hdd
    · exact hmeet.elim huu hud
  rw [not_or, not_or, Bool.not_eq_false, not_not, not_not] at hpair
  obtain ⟨hvalid, hup, hdown⟩ := hpair
  unfold OutputConfig.Releases at hrel
  cases hother : cfg.configShutterGet j with
  | some other =>
      rw [hother] at hrel
      exact hmeets hrel.2 (hwf.disjoint i j slot other hslot hother hij)
  | none =>
      rw [hother] at hrel
      obtain ⟨was, hwas, hwup, hwdown⟩ :=
        hp.agrees i (OutputConfig.configShutterGet_lt hslot) hvalid
      obtain ⟨gone, hgone, hgup, hgdown⟩ := hp.agrees j hj hrel.1
      have hsame : slot.relay d = was.relay d := by
        unfold ShutterSlot.relay
        rw [← hup, ← hdown, hwup, hwdown]
      have hmeet := hrel.2
      rw [hgup, hgdown, hsame] at hmeet
      exact hmeets hmeet (hp.wellFormed.disjoint i j was gone hwas hgone hij)

/-- A relay of the new table after the reload. -/
theorem isOn_reload {h : Hub} (hp : h.Paired) {cfg : OutputConfig} (hwf : cfg.WellFormed)
    {i : Nat} {slot : ShutterSlot} (hslot : cfg.configShutterGet i = some slot) (d : Bool) :
    (h.ctrlStep (.reload cfg)).chain.isOn (slot.relay d) =
      if (h.sh i).Repaired slot then false else h.chain.isOn (slot.relay d) := by
  have hi : i < cfgMaxShutters := OutputConfig.configShutterGet_lt hslot
  have hon := isOn_outputCtrlReload { h with outCfg := cfg } (slot.relay d)
  rw [Bool.eq_iff_iff]
  refine hon.trans ?_
  by_cases hpair : (h.sh i).Repaired slot
  · rw [if_pos hpair]
    refine iff_of_false (fun hkept => hkept.2 i hi ?_) (by simp)
    unfold OutputConfig.Releases
    rw [hslot]
    cases d
    · exact ⟨hpair, .inr rfl⟩
    · exact ⟨hpair, .inl rfl⟩
  · rw [if_neg hpair]
    refine ⟨fun hkept => hkept.1, fun hwas => ⟨hwas, fun j hj => ?_⟩⟩
    by_cases hij : i = j
    · subst hij
      intro hrel
      unfold OutputConfig.Releases at hrel
      rw [hslot] at hrel
      exact hpair hrel.1
    · exact not_releases_of_ne hp hwf hslot hpair hj hij d

theorem sh_reload (h : Hub) (cfg : OutputConfig) {i : Nat} (hi : i < cfgMaxShutters) :
    (h.ctrlStep (.reload cfg)).sh i = cfg.reloadRt i (h.sh i) := by
  rw [ctrlStep_reload, sh_outputCtrlReload _ hi]

theorem count_reload (h : Hub) (cfg : OutputConfig) :
    (h.ctrlStep (.reload cfg)).chain.relayChainCount = h.chain.relayChainCount := by
  rw [ctrlStep_reload, (tame_outputCtrlReload { h with outCfg := cfg }).count]

/-- **A reload, seen from one slot of the new table**, is a reload of that slot's motor. -/
theorem motorOf_reload {h : Hub} (hp : h.Paired) {cfg : OutputConfig} (hwf : cfg.WellFormed)
    {i : Nat} {slot : ShutterSlot} (hslot : cfg.configShutterGet i = some slot) :
    (h.ctrlStep (.reload cfg)).motorOf i slot = (h.motorOf i slot).step (.reload slot) := by
  have hsh := h.sh_reload cfg (OutputConfig.configShutterGet_lt hslot)
  have hcount := h.count_reload cfg
  have hon (d : Bool) := isOn_reload hp hwf hslot d
  generalize h.ctrlStep (.reload cfg) = h' at hsh hcount hon
  unfold OutputConfig.reloadRt at hsh
  rw [hslot] at hsh
  have hin : (h'.motorOf i slot).inChain = (h.motorOf i slot).inChain := by
    unfold motorOf
    rw [hcount]
  unfold Motor.step Motor.reload
  dsimp only
  by_cases hpair : (h.sh i).Repaired slot
  · have hmotor : (h.motorOf i slot).rt.Repaired slot := hpair
    simp only [hpair, if_true] at hsh hon
    rw [if_pos hmotor]
    refine Motor.eq_of hsh ?_ hin
    exact (funext hon).trans (h.motorOf i slot).bothOff_on.symm
  · have hmotor : ¬(h.motorOf i slot).rt.Repaired slot := hpair
    simp only [hpair, if_false] at hsh hon
    rw [if_neg hmotor]
    exact Motor.eq_of hsh (funext hon) hin

/-- A routine event, seen from one slot, is the motor's own event. -/
theorem motorOf_routine {h : Hub} (hp : h.Paired) {e : CtrlEvent} (hr : h.Routine e) {i : Nat}
    {slot : ShutterSlot} (hslot : h.outCfg.configShutterGet i = some slot) :
    (h.ctrlStep e).motorOf i slot =
      (h.motorOf i slot).step (h.outCfg.motorEvent i slot (shutterEvent e)) := by
  rw [ctrlStep_of_routine hr]
  exact motorOf_shutterStep hp hslot (shutterEvent e)

theorem motorEvent_ne_reload {h : Hub} {e : CtrlEvent} (hr : h.Routine e) (i : Nat)
    (slot s : ShutterSlot) : h.outCfg.motorEvent i slot (shutterEvent e) ≠ .reload s := by
  have hcommand (j : Int) (cmd : ShCmd) :
      (if j = (i : Int) then MotorEvent.command cmd else .nothing) ≠ .reload s := by
    by_cases hj : j = (i : Int)
    · rw [if_pos hj]
      exact MotorEvent.noConfusion
    · rw [if_neg hj]
      exact MotorEvent.noConfusion
  cases e with
  | shutter iShutter cmd => exact hcommand iShutter cmd
  | command iOut cmd =>
      cases hrelay : h.outCfg.configShutterOfRelay iOut with
      | none =>
          rw [shutterEvent, OutputConfig.motorEvent_relay_none hrelay]
          exact MotorEvent.noConfusion
      | some p =>
          rw [shutterEvent, OutputConfig.motorEvent_relay_some hrelay]
          exact hcommand _ _
  | tick ms => exact MotorEvent.noConfusion
  | reload cfg => exact absurd hr id

/-! ## The travel of a slot -/

variable {n : Nat} {t : Traveled} {i : Nat} {slot : ShutterSlot}

/-- The travel kept beside the hub is the travel of the slot's motor. -/
theorem travel_traveledStep {e : CtrlEvent} (me : MotorEvent)
    (hslot : (t.hub.ctrlStep e).outCfg.configShutterGet i = some slot)
    (hmotor : (t.hub.ctrlStep e).motorOf i slot = (t.hub.motorOf i slot).step me)
    (hrefresh : t.hub.refreshes e i = (t.hub.motorOf i slot).refreshes me)
    (hdur : me.dur = e.dur) :
    (traveledStep t e).travel i = (t.hub.motorOf i slot).travelAfter (t.travel i) me := by
  have henergise : t.hub.energises (t.hub.ctrlStep e) i =
      (t.hub.motorOf i slot).energises ((t.hub.ctrlStep e).motorOf i slot) := by
    unfold energises
    rw [hslot]
    rfl
  unfold Motor.travelAfter
  rw [← hmotor, ← henergise, ← hrefresh, hdur]
  rfl

theorem refreshes_routine {h : Hub} {e : CtrlEvent} (hr : h.Routine e) (i : Nat)
    (slot : ShutterSlot) : h.refreshes e i =
      (h.motorOf i slot).refreshes (h.outCfg.motorEvent i slot (shutterEvent e)) := by
  have hcommand {j : Int} {cmd : ShCmd} (hcmd : h.outCfg.commanded e = some (j, cmd)) :
      h.refreshes e i =
        (h.motorOf i slot).refreshes (if j = (i : Int) then .command cmd else .nothing) := by
    rw [refreshes, hcmd]
    by_cases hj : j = (i : Int)
    · subst hj
      cases cmd with
      | «open» =>
          simp only [decide_true, Bool.true_and, if_true]
          rfl
      | close =>
          simp only [decide_true, Bool.true_and, if_true]
          rfl
      | stop | up | down | toggle =>
          simp only [if_true]
          rfl
    · cases cmd <;> simp [hj, Motor.refreshes]
  cases e with
  | shutter iShutter cmd => exact hcommand rfl
  | command iOut cmd =>
      cases hrelay : h.outCfg.configShutterOfRelay iOut with
      | none =>
          rw [shutterEvent, OutputConfig.motorEvent_relay_none hrelay, refreshes,
            OutputConfig.commanded, hrelay]
          rfl
      | some p =>
          rw [shutterEvent, OutputConfig.motorEvent_relay_some hrelay]
          refine hcommand ?_
          rw [OutputConfig.commanded, hrelay]
          rfl
  | tick ms => rfl
  | reload cfg => exact absurd hr id

/-! ## Runs -/

/-- What no relay command takes away: the runtime follows the table, and the chain. -/
theorem Equipped.ctrlStep {h : Hub} (he : h.Equipped n) {e : CtrlEvent} (hadm : e.Admissible n) :
    (h.ctrlStep e).Equipped n := by
  rcases event_cases h e with hr | ⟨cfg, rfl⟩ | ⟨iOut, cmd, rfl, hnone⟩
  · have ht := tame_shutterStep he.toPaired (shutterEvent e)
    rw [← ctrlStep_of_routine hr] at ht
    refine ⟨he.toPaired.tame ht, ht.count.trans he.count, ?_, fun i hi hvalid => ?_⟩
    · rw [ht.outCfg]
      exact he.inChain
    · obtain ⟨slot, hslot, _⟩ := (he.toPaired.tame ht).agrees i hi hvalid
      rw [ht.outCfg] at hslot
      have hmotor := motorOf_routine he.toPaired hr hslot
      obtain ⟨hv, htravel⟩ := (h.motorOf i slot).keeps_step (e := h.outCfg.motorEvent i slot
        (shutterEvent e)) (motorEvent_ne_reload hr i slot)
      have hrt : (h.ctrlStep e).sh i = ((h.ctrlStep e).motorOf i slot).rt := rfl
      rw [hrt, hmotor] at hvalid ⊢
      rw [hv] at hvalid
      rw [htravel]
      exact he.travel i hi hvalid
  · obtain ⟨hproper, hchain⟩ := hadm
    refine ⟨⟨?_, ?_⟩, (h.count_reload cfg).trans he.count, ?_, fun i hi hvalid => ?_⟩
    · rw [outCfg_reload]
      exact hproper.toWellFormed
    · rw [ctrlStep_reload]
      exact agrees_outputCtrlReload _
    · rw [outCfg_reload]
      exact hchain
    · rw [sh_reload h cfg hi] at hvalid ⊢
      cases hslot : cfg.configShutterGet i with
      | none =>
          simp only [OutputConfig.reloadRt, hslot] at hvalid
          cases hvalid
      | some slot =>
          simp only [OutputConfig.reloadRt, hslot]
          exact (hproper.travel i slot hslot).1
  · obtain ⟨hkeeps, _⟩ := outputCtrlCommand_stray hnone cmd
    refine ⟨⟨?_, ?_⟩, hkeeps.count.trans he.count, ?_, ?_⟩
    · rw [Hub.ctrlStep, hkeeps.outCfg]
      exact he.wellFormed
    · unfold Agrees
      rw [Hub.ctrlStep, hkeeps.outCfg, hkeeps.sh]
      exact he.agrees
    · rw [Hub.ctrlStep, hkeeps.outCfg]
      exact he.inChain
    · rw [Hub.ctrlStep, hkeeps.sh]
      exact he.travel

/-- A coherent shutter is stopped in time. -/
theorem shuttersCoherent_iff : ShuttersCoherent t ↔
    ∀ i slot, t.hub.outCfg.configShutterGet i = some slot →
      (t.hub.motorOf i slot).Coherent (t.travel i) := by
  refine ⟨fun h i slot hslot => (h i slot hslot).1, fun h i slot hslot => ?_⟩
  exact ⟨h i slot hslot, fun d hon => (h i slot hslot).autoStop (d := d) hon⟩

/-- A routine event and a reload keep every shutter coherent. -/
theorem ShuttersCoherent.step (hc : ShuttersCoherent t) (he : t.hub.Equipped n) {e : CtrlEvent}
    (hadm : e.Admissible n)
    (hmember : t.hub.Routine e ∨ ∃ cfg, e = .reload cfg) : ShuttersCoherent (traveledStep t e) := by
  rw [shuttersCoherent_iff] at hc ⊢
  intro i slot hslot
  rcases hmember with hr | ⟨cfg, rfl⟩
  · have ht := tame_shutterStep he.toPaired (shutterEvent e)
    rw [← ctrlStep_of_routine hr] at ht
    have hold : t.hub.outCfg.configShutterGet i = some slot := ht.outCfg ▸ hslot
    have hmotor := motorOf_routine he.toPaired hr hold
    have hdur : (t.hub.outCfg.motorEvent i slot (shutterEvent e)).dur = e.dur := by
      rw [OutputConfig.dur_motorEvent]
      cases e <;> rfl
    rw [travel_traveledStep _ hslot hmotor (refreshes_routine hr i slot) hdur]
    rw [hub_traveledStep, hmotor]
    exact (hc i slot hold).step (he.motor hold) _
  · rw [hub_traveledStep] at hslot
    have hnew : cfg.configShutterGet i = some slot := by
      rw [← outCfg_reload t.hub cfg]
      exact hslot
    have hmotor := motorOf_reload he.toPaired hadm.1.toWellFormed hnew
    rw [travel_traveledStep (.reload slot) hslot hmotor rfl rfl]
    rw [hub_traveledStep, hmotor]
    refine Motor.coherent_reload fun hpair => ?_
    rw [not_or, not_or, Bool.not_eq_false, not_not, not_not] at hpair
    obtain ⟨hvalid, hup, hdown⟩ := hpair
    obtain ⟨was, hwas, hwup, hwdown⟩ :=
      he.agrees i (OutputConfig.configShutterGet_lt hnew) hvalid
    have hsame : t.hub.motorOf i slot = t.hub.motorOf i was := by
      have hrelay (d : Bool) : slot.relay d = was.relay d := by
        unfold ShutterSlot.relay
        rw [← hwup, ← hwdown, ← hup, ← hdown]
        rfl
      unfold motorOf
      simp only [hrelay]
    rw [hsame]
    exact hc i was hwas

/-- **A relay command on no member** keeps the shutters coherent exactly when it leaves the
motor relays at their levels. -/
theorem coherent_stray_iff (hc : ShuttersCoherent t) (he : t.hub.Equipped n) {iOut : Int}
    (hnone : t.hub.outCfg.configShutterOfRelay iOut = none) (cmd : OutCmd) :
    ShuttersCoherent (traveledStep t (.command iOut cmd)) ↔ NoStray t (.command iOut cmd) := by
  obtain ⟨hkeeps, hon⟩ := outputCtrlCommand_stray hnone cmd
  rw [shuttersCoherent_iff] at hc ⊢
  change (∀ i slot, (t.hub.outputCtrlCommand iOut cmd).outCfg.configShutterGet i = some slot → _)
    ↔ _
  rw [hkeeps.outCfg]
  constructor
  · intro hafter hpast hcount i slot d hslot hrelay
    have hbefore := (hc i slot hslot).on_eq d
    have hthen := (hafter i slot hslot).on_eq d
    have hlevel := hon i slot d hslot (he.count ▸ he.inChain i slot hslot d)
    rw [if_pos ⟨hpast, hcount, hrelay⟩] at hlevel
    have hstate : ((traveledStep t (.command iOut cmd)).hub.motorOf i slot).rt.state =
        (t.hub.motorOf i slot).rt.state := by
      change ((t.hub.outputCtrlCommand iOut cmd).sh i).state = _
      rw [hkeeps.sh]
      rfl
    rw [hstate, ← hbefore] at hthen
    rw [hrelay, ← hlevel]
    exact hthen.symm
  · intro hstray i slot hslot
    have hmotor : (t.hub.outputCtrlCommand iOut cmd).motorOf i slot = t.hub.motorOf i slot := by
      refine Motor.eq_of (congrFun hkeeps.sh i) (funext fun d => ?_) ?_
      · change (t.hub.outputCtrlCommand iOut cmd).chain.isOn (slot.relay d) = _
        rw [hon i slot d hslot (he.count ▸ he.inChain i slot hslot d)]
        split
        · rename_i hstrike
          obtain ⟨hpast, hcount, hrelay⟩ := hstrike
          rw [← hstray hpast hcount i slot d hslot hrelay, hrelay]
          rfl
        · rfl
      · unfold motorOf
        dsimp only
        rw [hkeeps.count]
    have hslot' : (t.hub.ctrlStep (.command iOut cmd)).outCfg.configShutterGet i = some slot := by
      rw [ctrlStep, hkeeps.outCfg]
      exact hslot
    have hrefresh : t.hub.refreshes (.command iOut cmd) i = false := by
      simp only [refreshes, OutputConfig.commanded, hnone, Option.map_none]
    rw [travel_traveledStep .nothing hslot' hmotor hrefresh rfl]
    change ((t.hub.outputCtrlCommand iOut cmd).motorOf i slot).Coherent _
    rw [hmotor]
    exact (hc i slot hslot).step (he.motor hslot) .nothing

theorem shuttersCoherent_step_iff (hc : ShuttersCoherent t) (he : t.hub.Equipped n)
    {e : CtrlEvent} (hadm : e.Admissible n) :
    ShuttersCoherent (traveledStep t e) ↔ NoStray t e := by
  rcases event_cases t.hub e with hr | ⟨cfg, rfl⟩ | ⟨iOut, cmd, rfl, hnone⟩
  · refine iff_of_true (hc.step he hadm (.inl hr)) ?_
    cases e with
    | command iOut cmd =>
        -- a member is below the table's indices
        intro hpast
        have hmember : t.hub.outCfg.configShutterOfRelay iOut = none := by
          rw [OutputConfig.configShutterOfRelay, if_pos (.inr hpast)]
        have hsome : (t.hub.outCfg.configShutterOfRelay iOut).isSome = true := hr
        rw [hmember] at hsome
        cases hsome
    | shutter iShutter cmd => trivial
    | tick ms => trivial
    | reload cfg => trivial
  · exact iff_of_true (hc.step he hadm (.inr ⟨cfg, rfl⟩)) trivial
  · exact coherent_stray_iff hc he hnone cmd

/-- **Coherence, exactly.**  From power-on with a proper table on the chain, a run keeps
every shutter coherent, and stops it in time, precisely when none of its relay commands
strays onto a motor relay. -/
theorem coherent_iff_noStray {h : Hub} (hproper : h.outCfg.ProperTable)
    (hchain : h.outCfg.InChain h.chain.relayChainCount) (hboot : ∀ i, h.sh i = .zero)
    (hoff : h.chain.AllOff) (es : List CtrlEvent)
    (hes : ∀ e ∈ es, e.Admissible h.chain.relayChainCount) :
    Runs.EveryState traveledStep ShuttersCoherent (traveledStart h) es ↔
      Runs.EveryStep traveledStep NoStray (traveledStart h) es := by
  have hequipped : (traveledStart h).hub.Equipped h.chain.relayChainCount := by
    refine ⟨⟨hproper.toWellFormed, fun i _ hvalid => ?_⟩, rfl, hchain, fun i _ hvalid => ?_⟩
    · change (h.sh i).valid = true at hvalid
      rw [hboot] at hvalid
      cases hvalid
    · change (h.sh i).valid = true at hvalid
      rw [hboot] at hvalid
      cases hvalid
  have hcoherent : ShuttersCoherent (traveledStart h) := by
    rw [shuttersCoherent_iff]
    intro i slot _
    refine Motor.coherent_of_idle ?_ (fun d => hoff (slot.relay d)) _
    change (h.sh i).state = .idle
    rw [hboot]
    rfl
  exact Runs.everyState_iff_everyStep_of
    (I := fun t : Traveled => t.hub.Equipped h.chain.relayChainCount)
    (fun _ _ hadm he _ _ => he.ctrlStep hadm)
    (fun _ _ hadm he hc => shuttersCoherent_step_iff hc he hadm) hequipped hcoherent es hes

theorem oneShutterConfig_proper : oneShutterConfig.ProperTable where
  toWellFormed := oneShutterConfig_wellFormed
  travel := by
    intro i slot h
    obtain ⟨rfl, rfl⟩ := configShutterGet_oneShutterConfig h
    decide

theorem oneShutterConfig_inChain :
    oneShutterConfig.InChain oneShutterHub.chain.relayChainCount := by
  intro i slot h d
  obtain ⟨rfl, rfl⟩ := configShutterGet_oneShutterConfig h
  cases d <;> decide

/-- Up, reversed by the cover command, stopped by the binding of its DOWN relay. -/
theorem driven_shutter_coherent :
    Runs.EveryState traveledStep ShuttersCoherent (traveledStart oneShutterHub)
      [.reload oneShutterConfig, .shutter 0 .open, .tick 4000, .shutter 0 .close, .tick 500,
        .command 1 .off] := by
  refine (coherent_iff_noStray oneShutterConfig_proper oneShutterConfig_inChain (fun _ => rfl)
    (RelayChain.relayChainSetDevices_allOff 1) _ ?_).mpr ?_
  · simp only [List.forall_mem_cons, List.not_mem_nil, false_imp_iff, implies_true, and_true]
    exact ⟨⟨oneShutterConfig_proper, oneShutterConfig_inChain⟩, trivial, trivial, trivial,
      trivial, trivial⟩
  · refine ⟨trivial, trivial, trivial, trivial, trivial, ?_, trivial⟩
    intro hpast
    exact absurd hpast (by decide)

/-- Relay 65536 is none of the table, and its low 16 bits are the UP relay. -/
theorem stray_command_breaks_coherence :
    ¬Runs.EveryState traveledStep ShuttersCoherent (traveledStart oneShutterHub)
      [.reload oneShutterConfig, .command 65536 .on] := by
  intro hrun
  have hlast := (hrun.last 0 ⟨0, 1, 10000⟩ (by decide +kernel)).1
  have hoff := hlast.idle (by decide +kernel) true
  revert hoff
  decide +kernel

end Hub

end HomeAuto
