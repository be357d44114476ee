import HomeAuto.Lib.Switchboard
import HomeAuto.Lib.Loops
import HomeAuto.ProductWeb

/-!
# Tame steps of the output controller

The relay chain is a switchboard on which the two relays of a shutter oppose each
other.  A step of the hub is *tame* when it leaves the configuration alone, keeps
the runtime slots in agreement with the saved table, and changes the relays by
guarded moves only: whatever it switches on, every opposing relay is off at that
moment.

Everything the shutter state machine does is tame, and so is every switch-off.  A
direct switch-on is tame exactly when it is guarded by accident; the functions that
can do one appear below with that premise.
-/

namespace HomeAuto

open Switchboard

/-- In a well-formed table the relay opposing a slot's relay is the slot's other
relay. -/
theorem OutputConfig.WellFormed.opposes_slot {cfg : OutputConfig} (hwf : cfg.WellFormed)
    {i : Nat} {slot : ShutterSlot} (hslot : cfg.configShutterGet i = some slot) {b : Nat} :
    (cfg.Opposes slot.up b → b = slot.down) ∧ (cfg.Opposes slot.down b → b = slot.up) := by
  constructor
  · rintro ⟨j, other, hother, ⟨ha, hb⟩ | ⟨ha, hb⟩⟩
    · by_cases hij : i = j
      · subst hij
        rw [hslot] at hother
        cases hother
        exact hb
      · exact absurd ha (hwf.disjoint i j slot other hslot hother hij).1
    · by_cases hij : i = j
      · subst hij
        rw [hslot] at hother
        cases hother
        exact absurd ha (hwf.up_ne_down i slot hslot)
      · exact absurd ha (hwf.disjoint i j slot other hslot hother hij).2.1
  · rintro ⟨j, other, hother, ⟨ha, hb⟩ | ⟨ha, hb⟩⟩
    · by_cases hij : i = j
      · subst hij
        rw [hslot] at hother
        cases hother
        exact absurd ha.symm (hwf.up_ne_down i slot hslot)
      · exact absurd ha (hwf.disjoint i j slot other hslot hother hij).2.2.1
    · by_cases hij : i = j
      · subst hij
        rw [hslot] at hother
        cases hother
        exact hb
      · exact absurd ha (hwf.disjoint i j slot other hslot hother hij).2.2.2

theorem OutputConfig.WellFormed.opposes_irrefl {cfg : OutputConfig} (hwf : cfg.WellFormed)
    (a : Nat) : ¬ cfg.Opposes a a := by
  rintro ⟨i, slot, hslot, ⟨hu, hd⟩ | ⟨hd, hu⟩⟩
  · exact hwf.up_ne_down i slot hslot (hu.symm.trans hd)
  · exact hwf.up_ne_down i slot hslot (hu.symm.trans hd)

namespace Hub

/-- Every valid runtime slot drives the relay pair of its slot in the saved table. -/
def Agrees (h : Hub) : Prop :=
  ∀ i, i < cfgMaxShutters → (h.sh i).valid = true →
    ∃ slot, h.outCfg.configShutterGet i = some slot ∧
      (h.sh i).up = slot.up ∧ (h.sh i).down = slot.down

/-- A hub whose shutter table is well formed and is the one the runtime slots follow. -/
structure Paired (h : Hub) : Prop where
  wellFormed : h.outCfg.WellFormed
  agrees : h.Agrees

/-- A paired hub whose shutter table lies inside the chain. -/
structure Loaded (h : Hub) : Prop extends Paired h where
  inChain : ∀ a b, h.outCfg.Opposes a b → a < h.chain.relayChainCount

/-- What a tame step does. -/
structure Tame (h h' : Hub) : Prop where
  outCfg : h'.outCfg = h.outCfg
  baseTopic : h'.baseTopic = h.baseTopic
  ioDevices : h'.ioDevices = h.ioDevices
  count : h'.chain.relayChainCount = h.chain.relayChainCount
  agrees : h.Agrees → h'.Agrees
  relays : GuardedMoves h.outCfg.Opposes h.chain.isOn h'.chain.isOn

theorem Tame.refl (h : Hub) : Tame h h where
  outCfg := rfl
  baseTopic := rfl
  ioDevices := rfl
  count := rfl
  agrees := id
  relays := .refl

theorem Tame.trans {h₁ h₂ h₃ : Hub} (h₁₂ : Tame h₁ h₂) (h₂₃ : Tame h₂ h₃) :
    Tame h₁ h₃ where
  outCfg := h₂₃.outCfg.trans h₁₂.outCfg
  baseTopic := h₂₃.baseTopic.trans h₁₂.baseTopic
  ioDevices := h₂₃.ioDevices.trans h₁₂.ioDevices
  count := h₂₃.count.trans h₁₂.count
  agrees := h₂₃.agrees ∘ h₁₂.agrees
  relays := h₁₂.relays.trans (h₁₂.outCfg ▸ h₂₃.relays)

theorem Paired.tame {h h' : Hub} (hp : h.Paired) (ht : Tame h h') : h'.Paired where
  wellFormed := ht.outCfg ▸ hp.wellFormed
  agrees := ht.agrees hp.agrees

theorem Loaded.tame {h h' : Hub} (hl : h.Loaded) (ht : Tame h h') : h'.Loaded where
  toPaired := hl.toPaired.tame ht
  inChain := by
    rw [ht.outCfg, ht.count]
    exact hl.inChain

/-- A loop whose body is tame is tame. -/
theorem tame_foldl {α : Type*} {f : Hub → α → Hub} {I : Hub → Prop}
    (hI : ∀ h h', I h → Tame h h' → I h') (xs : List α)
    (hf : ∀ h, ∀ x ∈ xs, I h → Tame h (f h x)) {h : Hub} (hh : I h) :
    Tame h (xs.foldl f h) :=
  Loops.foldl_rel Tame.refl (fun _ _ _ => Tame.trans) hI xs hf hh

/-- Switching a relay off is tame. -/
theorem Tame.release {h₀ h : Hub} (ht : Tame h₀ h) (relay : Nat) :
    Tame h₀ (h.setRelay relay false) where
  outCfg := ht.outCfg
  baseTopic := ht.baseTopic
  ioDevices := ht.ioDevices
  count := (RelayChain.relayChainSet_count ..).trans ht.count
  agrees := ht.agrees
  relays := by
    rw [setRelay_chain, RelayChain.isOn_relayChainSet_false]
    exact ht.relays.release relay

/-- Switching a relay on is tame when its opponents are off. -/
theorem Tame.engage {h₀ h : Hub} (ht : Tame h₀ h) {relay : Nat}
    (hopen : ∀ b, h.outCfg.Opposes relay b → h.chain.isOn b = false) :
    Tame h₀ (h.setRelay relay true) where
  outCfg := ht.outCfg
  baseTopic := ht.baseTopic
  ioDevices := ht.ioDevices
  count := (RelayChain.relayChainSet_count ..).trans ht.count
  agrees := ht.agrees
  relays := by
    by_cases hcount : h.chain.relayChainCount ≤ relay
    · rw [setRelay_chain, RelayChain.relayChainSet_of_count_le hcount]
      exact ht.relays
    · rw [setRelay_chain, RelayChain.isOn_relayChainSet_true (Nat.lt_of_not_le hcount)]
      exact ht.relays.engage relay (ht.outCfg ▸ hopen)

/-- An assignment to a runtime slot which leaves it invalid or with its relay pair. -/
def KeepsPair (f : ShutterRt → ShutterRt) : Prop :=
  ∀ p, (f p).valid = true → p.valid = true ∧ (f p).up = p.up ∧ (f p).down = p.down

/-- Assigning to a runtime slot without touching its relay pair is tame. -/
theorem Tame.modSh {h₀ h : Hub} (ht : Tame h₀ h) (i : Nat) {f : ShutterRt → ShutterRt}
    (hf : KeepsPair f) : Tame h₀ (h.modSh i f) where
  outCfg := ht.outCfg
  baseTopic := ht.baseTopic
  ioDevices := ht.ioDevices
  count := ht.count
  agrees := by
    intro hagrees j hj hvalid
    by_cases hji : j = i
    · subst hji
      rw [modSh_sh_self] at hvalid ⊢
      obtain ⟨hold, hup, hdown⟩ := hf _ hvalid
      rw [hup, hdown]
      exact ht.agrees hagrees j hj hold
    · rw [modSh_sh_of_ne _ _ _ hji] at hvalid ⊢
      exact ht.agrees hagrees j hj hvalid
  relays := ht.relays

/-- Loading a slot of the saved table into the runtime table is tame. -/
theorem Tame.modSh_loaded {h₀ h : Hub} (ht : Tame h₀ h) {i : Nat} {slot : ShutterSlot}
    (hslot : h₀.outCfg.configShutterGet i = some slot) {f : ShutterRt → ShutterRt}
    (hf : ∀ p, (f p).up = slot.up ∧ (f p).down = slot.down) : Tame h₀ (h.modSh i f) where
  outCfg := ht.outCfg
  baseTopic := ht.baseTopic
  ioDevices := ht.ioDevices
  count := ht.count
  agrees := by
    intro hagrees j hj hvalid
    by_cases hji : j = i
    · subst hji
      rw [modSh_sh_self, modSh_outCfg, ht.outCfg]
      exact ⟨slot, hslot, hf _⟩
    · rw [modSh_sh_of_ne _ _ _ hji] at hvalid ⊢
      exact ht.agrees hagrees j hj hvalid
  relays := ht.relays

/-- Recording a publish call is tame. -/
theorem Tame.publish {h₀ h : Hub} (ht : Tame h₀ h) (p : Publish) : Tame h₀ (h.publish p) :=
  ⟨ht.outCfg, ht.baseTopic, ht.ioDevices, ht.count, ht.agrees, ht.relays⟩

/-- Arming or disarming a countdown is tame. -/
theorem Tame.setPulse {h₀ h : Hub} (ht : Tame h₀ h) (i ms : Nat) :
    Tame h₀ (h.setPulse i ms) :=
  ⟨ht.outCfg, ht.baseTopic, ht.ioDevices, ht.count, ht.agrees, ht.relays⟩

theorem keepsPair_of_eq {f : ShutterRt → ShutterRt}
    (hf : ∀ p, (f p).valid = p.valid ∧ (f p).up = p.up ∧ (f p).down = p.down) :
    KeepsPair f :=
  fun p hv => ⟨(hf p).1 ▸ hv, (hf p).2⟩

theorem Tame.shPublish {h₀ h : Hub} (ht : Tame h₀ h) (i : Nat) (s : CoverState) :
    Tame h₀ (h.shPublish i s) := by
  refine Tame.publish (Tame.modSh ht i ?_) _
  exact keepsPair_of_eq fun _ => ⟨rfl, rfl, rfl⟩

theorem Tame.shBothOff {h₀ h : Hub} (ht : Tame h₀ h) (i : Nat) :
    Tame h₀ (h.shBothOff i) :=
  (ht.release _).release _

theorem tame_shStop (h : Hub) (i : Nat) : Tame h (h.shStop i) := by
  refine Tame.shPublish (Tame.modSh ((Tame.refl h).shBothOff i) i ?_) i _
  exact keepsPair_of_eq fun _ => ⟨rfl, rfl, rfl⟩

/-- In a paired hub the only opponent of a slot's relay is the slot's other relay. -/
theorem Paired.opposes_relay {h : Hub} (hp : h.Paired) {i : Nat} (hi : i < cfgMaxShutters)
    (hvalid : (h.sh i).valid = true) (up : Bool) {b : Nat}
    (hb : h.outCfg.Opposes ((h.sh i).relay up) b) : b = (h.sh i).relay !up := by
  obtain ⟨slot, hslot, hup, hdown⟩ := hp.agrees i hi hvalid
  cases up with
  | true =>
      rw [ShutterRt.relay, if_pos rfl, hup] at hb
      simpa [ShutterRt.relay, hdown] using (hp.wellFormed.opposes_slot hslot).1 hb
  | false =>
      rw [ShutterRt.relay, if_neg (by decide), hdown] at hb
      simpa [ShutterRt.relay, hup] using (hp.wellFormed.opposes_slot hslot).2 hb

/-- **Energising a direction is tame.**  The opposite relay has just been switched
off, and in a well-formed table it is the only opponent. -/
theorem tame_energise {h : Hub} (hp : h.Paired) {i : Nat} (hi : i < cfgMaxShutters)
    (hvalid : (h.sh i).valid = true) (up : Bool) : Tame h (h.energise i up) := by
  have hoff := (Tame.refl h).release ((h.sh i).relay !up)
  refine Tame.shPublish (Tame.modSh (hoff.engage ?_) i ?_) i _
  · intro b hb
    rw [hp.opposes_relay hi hvalid up hb, setRelay_chain,
      RelayChain.isOn_relayChainSet_false, Function.update_self]
  · exact keepsPair_of_eq fun _ => ⟨rfl, rfl, rfl⟩

theorem tame_shReverse (h : Hub) (i : Nat) (up : Bool) : Tame h (h.shReverse i up) := by
  refine Tame.shPublish (Tame.modSh (Tame.modSh ((Tame.refl h).shBothOff i) i ?_) i ?_) i _
  · refine keepsPair_of_eq fun p => ?_
    split <;> exact ⟨rfl, rfl, rfl⟩
  · exact keepsPair_of_eq fun _ => ⟨rfl, rfl, rfl⟩

theorem tame_shMove {h : Hub} (hp : h.Paired) {i : Nat} (hi : i < cfgMaxShutters)
    (hvalid : (h.sh i).valid = true) (up : Bool) : Tame h (h.shMove i up) := by
  have hlast : Tame h (h.modSh i fun p => { p with lastUp := up }) := by
    refine (Tame.refl h).modSh i ?_
    exact keepsPair_of_eq fun _ => ⟨rfl, rfl, rfl⟩
  unfold shMove
  split
  · refine (Tame.refl h).modSh i ?_
    exact keepsPair_of_eq fun _ => ⟨rfl, rfl, rfl⟩
  · split
    · exact hlast.trans (tame_energise (hp.tame hlast) hi (by simpa using hvalid) up)
    · exact hlast.trans (tame_shReverse ..)

theorem tame_shCommand {h : Hub} (hp : h.Paired) {i : Nat} (hi : i < cfgMaxShutters)
    (hvalid : (h.sh i).valid = true) (cmd : ShCmd) : Tame h (h.shCommand i cmd) := by
  have hpress (up : Bool) : Tame h
      (if (h.sh i).state ≠ .idle then h.shStop i else h.shMove i up) := by
    split
    · exact h.tame_shStop i
    · exact tame_shMove hp hi hvalid up
  cases cmd with
  | stop => exact h.tame_shStop i
  | «open» => exact tame_shMove hp hi hvalid true
  | close => exact tame_shMove hp hi hvalid false
  | up => exact hpress true
  | down => exact hpress false
  | toggle => exact hpress _

/-- **A shutter command is tame.** -/
theorem tame_outputCtrlShutter {h : Hub} (hp : h.Paired) (iShutter : Int) (cmd : ShCmd) :
    Tame h (h.outputCtrlShutter iShutter cmd) := by
  unfold outputCtrlShutter
  split
  · exact .refl h
  · split
    · exact .refl h
    · rename_i hrange hvalid
      exact tame_shCommand hp (by omega) (by simpa using hvalid) cmd

theorem Tame.mqttAppSetRelay_false {h₀ h : Hub} (ht : Tame h₀ h) (iRelay : Int) :
    Tame h₀ (h.mqttAppSetRelay iRelay false) := by
  unfold mqttAppSetRelay
  split
  · exact ht
  · exact (ht.release _).publish _

theorem tame_mqttAppSetRelay_true {h : Hub} {iRelay : Int}
    (hopen : 0 ≤ iRelay → ∀ b, h.outCfg.Opposes (toU16 iRelay) b → h.chain.isOn b = false) :
    Tame h (h.mqttAppSetRelay iRelay true) := by
  unfold mqttAppSetRelay
  split
  · exact .refl h
  · exact ((Tame.refl h).engage (hopen (by omega))).publish _

theorem tame_relayPulseStart {h : Hub} {iRelay : Int}
    (hopen : 0 ≤ iRelay → iRelay < (pulseMaxRelays : Int) →
      ∀ b, h.outCfg.Opposes (toU16 iRelay) b → h.chain.isOn b = false)
    (ms : Nat) : Tame h (h.relayPulseStart iRelay ms) := by
  unfold relayPulseStart
  split
  · exact .refl h
  · rename_i hrange
    split
    · exact (Tame.refl h).setPulse ..
    · refine Tame.setPulse (tame_mqttAppSetRelay_true ?_) ..
      exact fun h0 => hopen h0 (by omega)

/-- Cancelling a countdown is tame. -/
theorem Tame.relayPulseStart_zero {h₀ h : Hub} (ht : Tame h₀ h) (iRelay : Int) :
    Tame h₀ (h.relayPulseStart iRelay 0) := by
  unfold relayPulseStart
  split
  · exact ht
  · exact ht.setPulse ..

/-- Expiring countdowns only switch off. -/
theorem tame_relayPulseTick (h : Hub) (ms : Nat) : Tame h (h.relayPulseTick ms) := by
  refine tame_foldl (I := fun _ => True) (fun _ _ _ _ => trivial) _ ?_ trivial
  intro h i _ _
  unfold relayPulseTickRelay
  split
  · exact .refl h
  · split
    · exact ((Tame.refl h).setPulse i 0).mqttAppSetRelay_false i
    · exact (Tame.refl h).setPulse ..

theorem tame_tickMotion (h : Hub) (i ms : Nat) (s : CoverState) :
    Tame h (h.tickMotion i ms s) := by
  unfold tickMotion
  split
  · exact .refl h
  · split
    · refine Tame.shPublish (Tame.modSh (Tame.shBothOff (Tame.modSh (.refl h) i ?_) i) i ?_) i s
      · exact keepsPair_of_eq fun _ => ⟨rfl, rfl, rfl⟩
      · exact keepsPair_of_eq fun _ => ⟨rfl, rfl, rfl⟩
    · refine Tame.modSh (.refl h) i ?_
      exact keepsPair_of_eq fun _ => ⟨rfl, rfl, rfl⟩

theorem tame_tickDelay {h : Hub} (hp : h.Paired) {i : Nat} (hi : i < cfgMaxShutters)
    (hvalid : (h.sh i).valid = true) (ms : Nat) : Tame h (h.tickDelay i ms) := by
  unfold tickDelay
  split
  · have hlock : Tame h (h.modSh i fun p => { p with interlockMs := 0 }) := by
      refine Tame.modSh (.refl h) i ?_
      exact keepsPair_of_eq fun _ => ⟨rfl, rfl, rfl⟩
    exact hlock.trans (tame_energise (hp.tame hlock) hi (by simpa using hvalid) _)
  · refine Tame.modSh (.refl h) i ?_
    exact keepsPair_of_eq fun _ => ⟨rfl, rfl, rfl⟩

theorem tame_outputCtrlTickSlot {h : Hub} (hp : h.Paired) {i : Nat} (hi : i < cfgMaxShutters)
    (ms : Nat) : Tame h (h.outputCtrlTickSlot ms i) := by
  unfold outputCtrlTickSlot
  split
  · exact .refl h
  · rename_i hvalid
    split
    · exact .refl h
    · exact h.tame_tickMotion i ms _
    · exact h.tame_tickMotion i ms _
    · exact tame_tickDelay hp hi (by simpa using hvalid) ms

/-- **A controller tick is tame.** -/
theorem tame_outputCtrlTick {h : Hub} (hp : h.Paired) (ms : Nat) :
    Tame h (h.outputCtrlTick ms) :=
  tame_foldl (I := Paired) (fun _ _ hp ht => hp.tame ht) _
    (fun _ _ hi hp => tame_outputCtrlTickSlot hp (List.mem_range.mp hi) ms) hp

theorem tame_reloadStop (h : Hub) (i : Nat) (slot : ShutterSlot) :
    Tame h (h.reloadStop i slot) := by
  unfold reloadStop
  split
  · refine Tame.modSh (((Tame.refl h).release slot.up).release slot.down) i ?_
    exact keepsPair_of_eq fun _ => ⟨rfl, rfl, rfl⟩
  · exact .refl h

theorem tame_outputCtrlReloadSlot (h : Hub) (i : Nat) :
    Tame h (h.outputCtrlReloadSlot i) := by
  unfold outputCtrlReloadSlot
  split
  · rename_i slot hslot
    exact (h.tame_reloadStop i slot).modSh_loaded hslot fun _ => ⟨rfl, rfl⟩
  · refine Tame.modSh ?_ i fun _ hv => by cases hv
    split
    · exact (Tame.refl h).shBothOff i
    · exact .refl h

/-- **A reload is tame**, from any state: it only switches off. -/
theorem tame_outputCtrlReload (h : Hub) : Tame h h.outputCtrlReload :=
  tame_foldl (I := fun _ => True) (fun _ _ _ _ => trivial) _
    (fun h i _ _ => h.tame_outputCtrlReloadSlot i) trivial

theorem outputCtrlReloadSlot_sh_of_ne (h : Hub) {i j : Nat} (hj : j ≠ i) :
    (h.outputCtrlReloadSlot i).sh j = h.sh j := by
  unfold outputCtrlReloadSlot reloadStop
  split
  · rw [modSh_sh_of_ne _ _ _ hj]
    split
    · rw [modSh_sh_of_ne _ _ _ hj]
      rfl
    · rfl
  · rw [modSh_sh_of_ne _ _ _ hj]
    split <;> rfl

/-- Whether a runtime slot is valid, and its relay pair. -/
def slotPair (h : Hub) (i : Nat) : Bool × Nat × Nat :=
  ((h.sh i).valid, (h.sh i).up, (h.sh i).down)

/-- The pair a reload leaves in a runtime slot: the saved one where the slot is
defined. -/
def reloadPair (cfg : OutputConfig) (i : Nat) (old : Bool × Nat × Nat) : Bool × Nat × Nat :=
  match cfg.configShutterGet i with
  | some slot => (true, slot.up, slot.down)
  | none => (false, old.2)

theorem slotPair_outputCtrlReloadSlot (h : Hub) (i : Nat) :
    (h.outputCtrlReloadSlot i).slotPair i = reloadPair h.outCfg i (h.slotPair i) := by
  unfold slotPair outputCtrlReloadSlot reloadPair
  cases h.outCfg.configShutterGet i with
  | some slot => simp
  | none =>
      simp only [modSh_sh_self]
      split <;> rfl

theorem slotPair_outputCtrlReload (h : Hub) {i : Nat} (hi : i < cfgMaxShutters) :
    h.outputCtrlReload.slotPair i = reloadPair h.outCfg i (h.slotPair i) := by
  have hloop := Loops.foldl_range_component (n := cfgMaxShutters) (c := slotPair)
    (f := outputCtrlReloadSlot) (I := fun h' => h'.outCfg = h.outCfg)
    (g := reloadPair h.outCfg)
    (fun h' j _ hI => (h'.tame_outputCtrlReloadSlot j).outCfg.trans hI)
    (fun h' j _ hI => by rw [slotPair_outputCtrlReloadSlot, hI])
    (fun h' j _ _ k hk => by unfold slotPair; rw [outputCtrlReloadSlot_sh_of_ne h' hk])
    (s := h) rfl
  rw [outputCtrlReload, hloop.2 i, if_pos hi]

/-- After a reload the runtime slots agree with the saved table. -/
theorem agrees_outputCtrlReload (h : Hub) : h.outputCtrlReload.Agrees := by
  intro i hi hvalid
  have hpair := h.slotPair_outputCtrlReload hi
  unfold slotPair reloadPair at hpair
  rw [h.tame_outputCtrlReload.outCfg]
  cases hslot : h.outCfg.configShutterGet i with
  | none =>
      rw [hslot] at hpair
      simp only [Prod.mk.injEq] at hpair
      rw [hpair.1] at hvalid
      cases hvalid
  | some slot =>
      rw [hslot] at hpair
      simp only [Prod.mk.injEq] at hpair
      exact ⟨slot, rfl, hpair.2⟩

end Hub

end HomeAuto
