import HomeAuto.TameSteps
import HomeAuto.HubEvents

/-!
# No shutter is driven both ways

Over every run of the outputs the two relays of a shutter should never be on
together.  All entry points but two keep to the shutter state machine or to relays
outside the table.  The two that do not are the web pulse, which never asks whether
its relay is a shutter member, and a relay command over MQTT whose index exceeds 16
bits: it is not found in the table, and its low half is then switched on.

`shuttersExclusive_iff` is exact: a run keeps all shutters exclusive precisely when
each of its bypassing steps finds the opposite relay off.
-/

namespace HomeAuto

open Switchboard

namespace Hub

variable (palStrToUl : StrToUl)

/-- No shutter of the saved table has both relays on. -/
def ShuttersExclusive (h : Hub) : Prop :=
  ∀ i slot, h.outCfg.configShutterGet i = some slot →
    ¬ (h.chain.isOn slot.up = true ∧ h.chain.isOn slot.down = true)

theorem shuttersExclusive_iff_exclusive (h : Hub) :
    h.ShuttersExclusive ↔ Exclusive h.outCfg.Opposes h.chain.isOn := by
  constructor
  · rintro hex a b ⟨i, slot, hslot, ⟨rfl, rfl⟩ | ⟨rfl, rfl⟩⟩ hboth
    · exact hex i slot hslot hboth
    · exact hex i slot hslot hboth.symm
  · intro hex i slot hslot hboth
    exact hex slot.up slot.down ⟨i, slot, hslot, .inl ⟨rfl, rfl⟩⟩ hboth

/-- The relay which an event switches on without asking the shutter table: an accepted
web pulse, or an MQTT relay-ON whose index does not fit in 16 bits. -/
def bypassedRelay (h : Hub) : HubEvent → Option Nat
  | .relayPulse params =>
      (findCGIParameter (ascii "relay") params).bind fun relay =>
        if pulseMaxMs < relayPulseMs palStrToUl params ∨
            h.chain.relayChainCount ≤ (palStrToUl relay 10).toNat ∨
            h.configGetRelayDevices * 8 ≤ (palStrToUl relay 10).toNat then none
        else some (palStrToUl relay 10).toNat
  | .mqtt topic payload =>
      (mqttAppParseRelaySet h.baseTopic topic).bind fun iRelay =>
        if iRelay < 65536 ∨ h.relayOutOfRange iRelay ∨ relayPayloadCmd payload ≠ .on then none
        else some (toU16 iRelay)
  | _ => none

/-- A bypassing step finds every relay opposing the one it switches on off. -/
def FindsOppositeOff (h : Hub) (e : HubEvent) : Prop :=
  ∀ relay, h.bypassedRelay palStrToUl e = some relay →
    ∀ b, h.outCfg.Opposes relay b → h.chain.isOn b = false

theorem configGetRelayDevices_le (h : Hub) : h.configGetRelayDevices ≤ 15 :=
  Nat.and_le_right

theorem toU16_of_lt {n : Int} (h0 : 0 ≤ n) (hlt : n < 65536) : (toU16 n : Int) = n := by
  unfold toU16
  omega

/-- A relay that is not found in the table has no opponents. -/
theorem not_opposes_of_none {h : Hub} {iOut : Int}
    (hnone : h.outCfg.configShutterOfRelay iOut = none) (h0 : 0 ≤ iOut)
    (hlt : iOut < (cfgMaxOutputs : Int)) (b : Nat) : ¬ h.outCfg.Opposes (toU16 iOut) b := by
  have hu : (toU16 iOut : Int) = iOut :=
    toU16_of_lt h0 (hlt.trans (by decide))
  rintro ⟨i, slot, hslot, ⟨ha, _⟩ | ⟨ha, _⟩⟩
  · have := (OutputConfig.configShutterOfRelay_none hnone h0 hlt hslot).1
    omega
  · have := (OutputConfig.configShutterOfRelay_none hnone h0 hlt hslot).2
    omega

/-- **A relay command is tame** unless it switches on, past the table's indices, a
relay whose opponent is on. -/
theorem tame_outputCtrlCommand {h : Hub} (hl : h.Loaded) {iOut : Int} {cmd : OutCmd}
    (hopen : (cfgMaxOutputs : Int) ≤ iOut → h.commandLevel iOut cmd = true →
      ∀ b, h.outCfg.Opposes (toU16 iOut) b → h.chain.isOn b = false) :
    Tame h (h.outputCtrlCommand iOut cmd) := by
  unfold outputCtrlCommand
  split
  · exact tame_outputCtrlShutter hl.toPaired _ _
  · rename_i hnone
    have hon (hlevel : h.commandLevel iOut cmd = true) (h0 : 0 ≤ iOut) (b : Nat)
        (hb : h.outCfg.Opposes (toU16 iOut) b) : h.chain.isOn b = false := by
      by_cases hlt : iOut < (cfgMaxOutputs : Int)
      · exact absurd hb (not_opposes_of_none hnone h0 hlt b)
      · exact hopen (by omega) hlevel b hb
    split
    · split
      · rename_i hlevel
        exact tame_relayPulseStart (fun h0 _ => hon hlevel h0) _
      · exact ((Tame.refl h).relayPulseStart_zero iOut).mqttAppSetRelay_false iOut
    · cases hlevel : h.commandLevel iOut cmd with
      | true => exact tame_mqttAppSetRelay_true (hon hlevel)
      | false => exact (Tame.refl h).mqttAppSetRelay_false iOut

/-- What a direct switch-on leaves behind: the commanded relay set, the table and the
runtime slots as they were. -/
structure SwitchesOn (h h' : Hub) (relay : Nat) : Prop where
  outCfg : h'.outCfg = h.outCfg
  sh : h'.sh = h.sh
  chain : h'.chain = h.chain.relayChainSet relay true

theorem SwitchesOn.loaded {h h' : Hub} {relay : Nat} (hs : SwitchesOn h h' relay)
    (hl : h.Loaded) : h'.Loaded where
  wellFormed := hs.outCfg ▸ hl.wellFormed
  agrees := by
    unfold Agrees
    rw [hs.outCfg, hs.sh]
    exact hl.agrees
  inChain := by
    rw [hs.outCfg, hs.chain, RelayChain.relayChainSet_count]
    exact hl.inChain

theorem switchesOn_mqttAppSetRelay {h : Hub} {iRelay : Int} (h0 : 0 ≤ iRelay)
    (hrange : ¬ h.relayOutOfRange iRelay) :
    SwitchesOn h (h.mqttAppSetRelay iRelay true) (toU16 iRelay) := by
  unfold relayOutOfRange at hrange
  rw [mqttAppSetRelay, if_neg (by omega)]
  exact ⟨rfl, rfl, rfl⟩

theorem pulseDuration_ne_zero (ui32Ms : BitVec 32) : pulseDuration ui32Ms ≠ 0 := by
  unfold pulseDuration
  split
  · decide
  · assumption

theorem switchesOn_relayPulseStart {h : Hub} {iRelay : Int} {ms : Nat} (h0 : 0 ≤ iRelay)
    (hlt : iRelay < (pulseMaxRelays : Int)) (hrange : ¬ h.relayOutOfRange iRelay)
    (hms : ms ≠ 0) : SwitchesOn h (h.relayPulseStart iRelay ms) (toU16 iRelay) := by
  rw [relayPulseStart, if_neg (by omega), if_neg hms]
  obtain ⟨hout, hsh, hchain⟩ := switchesOn_mqttAppSetRelay h0 hrange
  exact ⟨hout, hsh, hchain⟩

theorem tame_relayPulseStart_outOfRange {h : Hub} {iRelay : Int}
    (hrange : h.relayOutOfRange iRelay) (ms : Nat) : Tame h (h.relayPulseStart iRelay ms) := by
  unfold relayPulseStart
  split
  · exact .refl h
  · split
    · exact (Tame.refl h).setPulse ..
    · rw [mqttAppSetRelay, if_pos (.inr hrange)]
      exact (Tame.refl h).setPulse ..

/-- A direct switch-on keeps all shutters exclusive exactly when every opponent is
off. -/
theorem SwitchesOn.exclusive_iff {h h' : Hub} {relay : Nat} (hs : SwitchesOn h h' relay)
    (hl : h.Loaded) (hex : h.ShuttersExclusive) :
    h'.ShuttersExclusive ↔ ∀ b, h.outCfg.Opposes relay b → h.chain.isOn b = false := by
  rw [shuttersExclusive_iff_exclusive] at hex ⊢
  rw [hs.outCfg, hs.chain]
  by_cases hcount : relay < h.chain.relayChainCount
  · rw [RelayChain.isOn_relayChainSet_true hcount]
    exact hex.engage_iff OutputConfig.opposes_symm hl.wellFormed.opposes_irrefl relay
  · rw [RelayChain.relayChainSet_of_count_le (by omega)]
    constructor
    · intro _ b hb
      exact absurd (hl.inChain relay b hb) hcount
    · intro _
      exact hex

/-- A relay-command message is tame or bypasses the table. -/
theorem relaySetMessage_cases {h : Hub} (hl : h.Loaded) {iRelay : Int}
    (hrange : ¬ h.relayOutOfRange iRelay) (payload : List UInt8) :
    (iRelay < 65536 ∨ relayPayloadCmd payload ≠ .on) ∧
        Tame h (h.outputCtrlCommand iRelay (relayPayloadCmd payload)) ∨
      (65536 ≤ iRelay ∧ relayPayloadCmd payload = .on) ∧
        SwitchesOn h (h.outputCtrlCommand iRelay (relayPayloadCmd payload)) (toU16 iRelay) := by
  have hdev := h.configGetRelayDevices_le
  by_cases hlong : 65536 ≤ iRelay ∧ relayPayloadCmd payload = .on
  · refine .inr ⟨hlong, ?_⟩
    have hnone : h.outCfg.configShutterOfRelay iRelay = none := by
      rw [OutputConfig.configShutterOfRelay, if_pos]
      simp only [cfgMaxOutputs]
      omega
    have hmode : h.outCfg.configOutMode iRelay = outModeStandard := by
      rw [OutputConfig.configOutMode, if_pos]
      simp only [cfgMaxOutputs]
      omega
    rw [outputCtrlCommand, hnone]
    simp only [hmode, hlong.2]
    exact switchesOn_mqttAppSetRelay (by omega) hrange
  · refine .inl ⟨?_, tame_outputCtrlCommand hl ?_⟩
    · by_cases hlt : iRelay < 65536
      · exact .inl hlt
      · exact .inr fun hon => hlong ⟨by omega, hon⟩
    · intro hge hlevel
      have hon : relayPayloadCmd payload = .on := by
        unfold relayPayloadCmd at hlevel ⊢
        split at hlevel
        · rename_i hpay
          rw [if_pos hpay]
        · cases hlevel
      -- the truncated index of a number in 120..65535 is the number itself
      unfold relayOutOfRange at hrange
      simp only [cfgMaxOutputs] at hge
      have hlt : iRelay < 65536 := by
        by_contra hge'
        exact hlong ⟨by omega, hon⟩
      have hu := toU16_of_lt (by omega) hlt
      omega

/-- **Every event is tame or bypasses the table**, and `bypassedRelay` names which. -/
theorem step_cases {h : Hub} (hl : h.Loaded) (e : HubEvent) :
    h.bypassedRelay palStrToUl e = none ∧ Tame h (h.step palStrToUl e) ∨
      ∃ relay, h.bypassedRelay palStrToUl e = some relay ∧
        SwitchesOn h (h.step palStrToUl e) relay := by
  have hcount := h.chain.relayChainCount_le
  cases e with
  | mqtt topic payload =>
      simp only [step, productOnMqtt, bypassedRelay]
      cases hset : mqttAppParseRelaySet h.baseTopic topic with
      | some iRelay =>
          simp only [Option.bind_some]
          by_cases hrange : h.relayOutOfRange iRelay
          · rw [if_pos hrange, if_pos (.inr (.inl hrange))]
            exact .inl ⟨rfl, .refl h⟩
          · rw [if_neg hrange]
            rcases relaySetMessage_cases hl hrange payload with ⟨hc, ht⟩ | ⟨hc, hs⟩
            · rw [if_pos (by tauto)]
              exact .inl ⟨rfl, ht⟩
            · rw [if_neg (by rintro (h1 | h1 | h1); omega; exact hrange h1; exact h1 hc.2)]
              exact .inr ⟨_, rfl, hs⟩
      | none =>
          refine .inl ⟨rfl, ?_⟩
          simp only
          split
          · split
            · exact .refl h
            · exact tame_outputCtrlShutter hl.toPaired _ _
          · split
            · rename_i iRelay hpulse
              split
              · exact .refl h
              · split
                · exact .refl h
                · rename_i hmember
                  split
                  · exact .refl h
                  · refine tame_relayPulseStart (fun h0 hlt b hb => ?_) _
                    refine absurd hb (not_opposes_of_none ?_ h0 hlt b)
                    simpa [OutputConfig.outputCtrlIsShutterMember] using hmember
            · exact .refl h
  | relaySet params =>
      refine .inl ⟨rfl, ?_⟩
      simp only [step, relaySetCGIHandler]
      split
      · split
        · exact .refl h
        · rename_i relay cmd _ _ hlt
          refine tame_outputCtrlCommand hl fun hge => ?_
          rw [BitVec.toInt_eq_toNat_of_lt (by omega)] at hge
          simp only [cfgMaxOutputs] at hge
          omega
      · exact .refl h
  | relayPulse params =>
      simp only [step, relayPulseCGIHandler, bypassedRelay]
      cases hrelay : findCGIParameter (ascii "relay") params with
      | none => exact .inl ⟨rfl, .refl h⟩
      | some relay =>
          simp only [Option.bind_some]
          by_cases hrej : pulseMaxMs < relayPulseMs palStrToUl params ∨
              h.chain.relayChainCount ≤ (palStrToUl relay 10).toNat
          · rw [if_pos hrej, if_pos (by tauto)]
            exact .inl ⟨rfl, .refl h⟩
          · rw [if_neg hrej]
            have hint : (palStrToUl relay 10).toInt = (palStrToUl relay 10).toNat :=
              BitVec.toInt_eq_toNat_of_lt (by omega)
            have hu : toU16 (palStrToUl relay 10).toInt = (palStrToUl relay 10).toNat := by
              rw [hint, toU16]
              omega
            by_cases hdev : h.configGetRelayDevices * 8 ≤ (palStrToUl relay 10).toNat
            · rw [if_pos (by tauto)]
              refine .inl ⟨rfl, ?_⟩
              exact tame_relayPulseStart_outOfRange (by rw [relayOutOfRange, hu]; exact hdev) _
            · rw [if_neg (by tauto)]
              refine .inr ⟨_, rfl, ?_⟩
              rw [← hu]
              refine switchesOn_relayPulseStart (by omega) ?_ ?_ (pulseDuration_ne_zero _)
              · simp only [pulseMaxRelays]
                omega
              · rw [relayOutOfRange, hu]
                exact hdev
  | cover params =>
      refine .inl ⟨rfl, ?_⟩
      simp only [step, coverCGIHandler]
      split
      · split
        · exact .refl h
        · exact tame_outputCtrlShutter hl.toPaired _ _
      · exact .refl h
  | binding out cmd =>
      refine .inl ⟨rfl, ?_⟩
      simp only [step, applyBinding]
      split
      · exact .refl h
      · refine tame_outputCtrlCommand hl fun hge => ?_
        simp only [cfgMaxOutputs] at hge
        omega
  | relayPulseTick ms => exact .inl ⟨rfl, h.tame_relayPulseTick ms⟩
  | outputCtrlTick ms => exact .inl ⟨rfl, tame_outputCtrlTick hl.toPaired ms⟩
  | reload => exact .inl ⟨rfl, h.tame_outputCtrlReload⟩

/-- Every event leaves a loaded hub loaded. -/
theorem Loaded.step {h : Hub} (hl : h.Loaded) (e : HubEvent) :
    (h.step palStrToUl e).Loaded := by
  rcases step_cases palStrToUl hl e with ⟨_, ht⟩ | ⟨_, _, hs⟩
  · exact hl.tame ht
  · exact hs.loaded hl

/-- Guarded moves keep the shutters exclusive. -/
theorem Tame.shuttersExclusive {h h' : Hub} (ht : Tame h h') (hwf : h.outCfg.WellFormed)
    (hex : h.ShuttersExclusive) : h'.ShuttersExclusive := by
  rw [shuttersExclusive_iff_exclusive] at hex ⊢
  rw [ht.outCfg]
  exact ht.relays.exclusive OutputConfig.opposes_symm hwf.opposes_irrefl hex

/-- One event keeps the shutters exclusive exactly when it finds the opposite relay of
a relay it switches on past the table off. -/
theorem step_shuttersExclusive_iff {h : Hub} (hl : h.Loaded) (hex : h.ShuttersExclusive)
    (e : HubEvent) :
    (h.step palStrToUl e).ShuttersExclusive ↔ h.FindsOppositeOff palStrToUl e := by
  unfold FindsOppositeOff
  rcases step_cases palStrToUl hl e with ⟨hnone, ht⟩ | ⟨relay, hsome, hs⟩
  · rw [hnone]
    simp [ht.shuttersExclusive hl.wellFormed hex]
  · rw [hsome, hs.exclusive_iff hl hex]
    simp

theorem shuttersExclusive_of_allOff {h : Hub} (hoff : h.chain.AllOff) :
    h.ShuttersExclusive := by
  rintro i slot _ ⟨hup, _⟩
  rw [hoff slot.up] at hup
  cases hup

/-- A reload makes the hub loaded, whatever the runtime slots held before. -/
theorem loaded_outputCtrlReload {h : Hub} (hwf : h.outCfg.WellFormed)
    (hin : ∀ a b, h.outCfg.Opposes a b → a < h.chain.relayChainCount) :
    h.outputCtrlReload.Loaded := by
  have ht := h.tame_outputCtrlReload
  refine ⟨⟨?_, h.agrees_outputCtrlReload⟩, ?_⟩
  · rw [ht.outCfg]
    exact hwf
  · rw [ht.outCfg, ht.count]
    exact hin

/-- **Shutter exclusion, exactly.**  From any state in which the table is well formed
and inside the chain, all relays are off and a reload has just been run, a run keeps
every shutter's two relays from being on together precisely when each of its steps
that switches a relay on past the shutter table finds the opposing relay off. -/
theorem shuttersExclusive_iff {h : Hub} (hwf : h.outCfg.WellFormed)
    (hin : ∀ i slot, h.outCfg.configShutterGet i = some slot →
      slot.up < h.chain.relayChainCount ∧ slot.down < h.chain.relayChainCount)
    (hoff : h.chain.AllOff) (es : List HubEvent) :
    Runs.EveryState (step palStrToUl) ShuttersExclusive h.outputCtrlReload es ↔
      Runs.EveryStep (step palStrToUl) (FindsOppositeOff palStrToUl) h.outputCtrlReload es := by
  have hl : h.outputCtrlReload.Loaded := by
    refine loaded_outputCtrlReload hwf ?_
    rintro a b ⟨i, slot, hslot, ⟨rfl, _⟩ | ⟨rfl, _⟩⟩
    · exact (hin i slot hslot).1
    · exact (hin i slot hslot).2
  have hex : h.outputCtrlReload.ShuttersExclusive :=
    h.tame_outputCtrlReload.shuttersExclusive hwf (shuttersExclusive_of_allOff hoff)
  generalize h.outputCtrlReload = start at hl hex ⊢
  exact Runs.everyState_iff_everyStep (I := Loaded) (P := ShuttersExclusive)
    (fun _ e hl _ => Loaded.step palStrToUl hl e)
    (fun _ e hl hex => step_shuttersExclusive_iff palStrToUl hl hex e) hl hex es

theorem oneShutterHub_inChain (i : Nat) (slot : ShutterSlot)
    (h : oneShutterHub.outCfg.configShutterGet i = some slot) :
    slot.up < oneShutterHub.chain.relayChainCount ∧
      slot.down < oneShutterHub.chain.relayChainCount := by
  obtain ⟨_, rfl⟩ := configShutterGet_oneShutterConfig h
  decide

theorem oneShutterHub_allOff : oneShutterHub.chain.AllOff :=
  RelayChain.relayChainSetDevices_allOff 1

/-- Open the shutter from the web page, then pulse its DOWN relay. -/
def pulseDuringMotion : List HubEvent :=
  [.cover [(ascii "sh", ascii "0"), (ascii "cmd", ascii "up")],
   .relayPulse [(ascii "relay", ascii "1"), (ascii "ms", ascii "1000")]]

/-- A web pulse on the other relay of a moving shutter drives it both ways. -/
theorem pulse_drives_both_ways :
    ¬ ∀ (palStrToUl : StrToUl) (h : Hub), h.outCfg.WellFormed →
      (∀ i slot, h.outCfg.configShutterGet i = some slot →
        slot.up < h.chain.relayChainCount ∧ slot.down < h.chain.relayChainCount) →
      h.chain.AllOff → ∀ es,
        Runs.EveryState (step palStrToUl) ShuttersExclusive h.outputCtrlReload es := by
  intro hall
  have hrun := hall ustrtoul oneShutterHub oneShutterConfig_wellFormed oneShutterHub_inChain
    oneShutterHub_allOff pulseDuringMotion
  refine hrun.last 0 ⟨0, 1, 10000⟩ ?_ ?_
  · decide +kernel
  · decide +kernel

theorem oneShutterHub_opposes {a b : Nat} (h : oneShutterConfig.Opposes a b) : b ≤ 1 := by
  obtain ⟨i, slot, hslot, ⟨_, rfl⟩ | ⟨_, rfl⟩⟩ := h
  · obtain ⟨_, rfl⟩ := configShutterGet_oneShutterConfig hslot
    decide
  · obtain ⟨_, rfl⟩ := configShutterGet_oneShutterConfig hslot
    decide

/-- The same pulse on the shutter at rest is harmless. -/
theorem pulse_at_rest_exclusive :
    Runs.EveryState (step ustrtoul) ShuttersExclusive oneShutterHub.outputCtrlReload
      [.relayPulse [(ascii "relay", ascii "1"), (ascii "ms", ascii "1000")]] := by
  refine (shuttersExclusive_iff ustrtoul oneShutterConfig_wellFormed oneShutterHub_inChain
    oneShutterHub_allOff _).mpr ⟨fun relay _ b hb => ?_, trivial⟩
  have hle : b ≤ 1 := oneShutterHub_opposes (by rwa [tame_outputCtrlReload _ |>.outCfg] at hb)
  interval_cases b <;> decide +kernel

-- the other bypass: index 65537 is no shutter member, and its low half is relay 1
example : (Runs.final (step ustrtoul) oneShutterHub.outputCtrlReload
    [.mqtt (ascii "home/cover/0/set") (ascii "OPEN"),
     .mqtt (ascii "home/relay/65537/set") (ascii "ON")]).chain.isOn 1 = true := by
  decide +kernel

end Hub

end HomeAuto
