import HomeAuto.HubCommands
import HomeAuto.ShutterReload

/-!
# Relays that a reload forgets

When the saved table has changed, `OutputCtrlReload` stops the slots that are new, re-paired
or gone.  Of a slot that is gone it switches off the former relays.  Of a slot that is
re-paired it switches off the new ones, and a relay that the slot had before, and that no
slot has any more, is left as it is: a motor that was running on it runs on, and no timer
is left to stop it.

`reload_releases_iff` is exact: a reload releases all that it should, and disturbs nothing
else, precisely when no energised relay of a re-paired slot drops out of the table.
-/

namespace HomeAuto

/-- A slot of the old table is re-paired or gone in the new one. -/
def OutputConfig.Replaces (new : OutputConfig) (i : Nat) (slot : ShutterSlot) : Prop :=
  ∀ slot', new.configShutterGet i = some slot' → slot'.up ≠ slot.up ∨ slot'.down ≠ slot.down

namespace Hub

/-- A reload that finds another table. -/
def reloadTable (h : Hub) (new : OutputConfig) : Hub := { h with outCfg := new }.outputCtrlReload

/-- What a reload should do.  The relays of a slot that is re-paired or gone are off; a slot
that has its pair still keeps all its runtime, but for the travel time of the new table, and
its relays. -/
structure ReloadsSafely (h : Hub) (new : OutputConfig) : Prop where
  released : ∀ i slot, h.outCfg.configShutterGet i = some slot → new.Replaces i slot →
    ∀ d, (h.reloadTable new).chain.isOn (slot.relay d) = false
  kept : ∀ i slot slot', h.outCfg.configShutterGet i = some slot →
    new.configShutterGet i = some slot' → slot'.up = slot.up → slot'.down = slot.down →
    (h.reloadTable new).sh i = { h.sh i with travelMs := slot'.travelMs } ∧
      ∀ d, (h.reloadTable new).chain.isOn (slot.relay d) = h.chain.isOn (slot.relay d)

/-- Every relay that is on, of a slot that is re-paired, is in the new table. -/
def NoneDropped (h : Hub) (new : OutputConfig) : Prop :=
  ∀ i slot slot', h.outCfg.configShutterGet i = some slot →
    new.configShutterGet i = some slot' → slot'.up ≠ slot.up ∨ slot'.down ≠ slot.down →
    ∀ d, h.chain.isOn (slot.relay d) = true →
      ∃ j s x, new.configShutterGet j = some s ∧ s.relay x = slot.relay d

/-- The runtime slots are those of the saved table, all of them. -/
structure Follows (h : Hub) : Prop where
  agrees : h.Agrees
  valid : ∀ i slot, h.outCfg.configShutterGet i = some slot → (h.sh i).valid = true

/-! ## Steps that keep the pairs of the runtime slots -/

/-- The table, and which relays each runtime slot drives, are as before. -/
structure KeepsPairs (h h' : Hub) : Prop where
  outCfg : h'.outCfg = h.outCfg
  slotPair : h'.slotPair = h.slotPair

namespace KeepsPairs

variable {h₀ h h' : Hub}

theorem refl (h : Hub) : KeepsPairs h h := ⟨rfl, rfl⟩

theorem trans (h₁ : KeepsPairs h₀ h) (h₂ : KeepsPairs h h') : KeepsPairs h₀ h' :=
  ⟨h₂.outCfg.trans h₁.outCfg, h₂.slotPair.trans h₁.slotPair⟩

/-- A relay has no part in the pairs. -/
theorem setRelay (hk : KeepsPairs h₀ h) (relay : Nat) (on : Bool) :
    KeepsPairs h₀ (h.setRelay relay on) := hk.trans ⟨rfl, rfl⟩

theorem setPulse (hk : KeepsPairs h₀ h) (i ms : Nat) : KeepsPairs h₀ (h.setPulse i ms) :=
  hk.trans ⟨rfl, rfl⟩

theorem publish (hk : KeepsPairs h₀ h) (p : Publish) : KeepsPairs h₀ (h.publish p) :=
  hk.trans ⟨rfl, rfl⟩

/-- A runtime slot keeps its pair when its other fields change. -/
theorem modSh (hk : KeepsPairs h₀ h) (i : Nat) {f : ShutterRt → ShutterRt}
    (hf : ∀ p, (f p).valid = p.valid ∧ (f p).up = p.up ∧ (f p).down = p.down) :
    KeepsPairs h₀ (h.modSh i f) := by
  refine hk.trans ⟨rfl, funext fun j => ?_⟩
  unfold Hub.slotPair
  by_cases hj : j = i
  · subst hj
    obtain ⟨hvalid, hup, hdown⟩ := hf (h.sh j)
    rw [modSh_sh_self, hvalid, hup, hdown]
  · rw [modSh_sh_of_ne _ _ _ hj]

theorem shPublish (hk : KeepsPairs h₀ h) (i : Nat) (s : CoverState) :
    KeepsPairs h₀ (h.shPublish i s) := by
  refine KeepsPairs.publish (hk.modSh i ?_) _
  exact fun _ => ⟨rfl, rfl, rfl⟩

theorem shBothOff (hk : KeepsPairs h₀ h) (i : Nat) : KeepsPairs h₀ (h.shBothOff i) :=
  (hk.setRelay _ _).setRelay _ _

theorem energise (hk : KeepsPairs h₀ h) (i : Nat) (up : Bool) :
    KeepsPairs h₀ (h.energise i up) := by
  refine KeepsPairs.shPublish (KeepsPairs.modSh ((hk.setRelay _ _).setRelay _ _) i ?_) i _
  exact fun _ => ⟨rfl, rfl, rfl⟩

theorem mqttAppSetRelay (hk : KeepsPairs h₀ h) (iRelay : Int) (on : Bool) :
    KeepsPairs h₀ (h.mqttAppSetRelay iRelay on) := by
  unfold Hub.mqttAppSetRelay
  split
  · exact hk
  · exact (hk.setRelay _ _).publish _

end KeepsPairs

section Steps

variable (palStrToUl : StrToUl) (h : Hub)

theorem keepsPairs_shStop (i : Nat) : KeepsPairs h (h.shStop i) := by
  refine KeepsPairs.shPublish (KeepsPairs.modSh ((KeepsPairs.refl h).shBothOff i) i ?_) i _
  exact fun _ => ⟨rfl, rfl, rfl⟩

theorem keepsPairs_shReverse (i : Nat) (up : Bool) : KeepsPairs h (h.shReverse i up) := by
  refine KeepsPairs.shPublish (KeepsPairs.modSh (KeepsPairs.modSh
    ((KeepsPairs.refl h).shBothOff i) i ?_) i ?_) i _
  · intro p
    split <;> exact ⟨rfl, rfl, rfl⟩
  · exact fun _ => ⟨rfl, rfl, rfl⟩

theorem keepsPairs_shMove (i : Nat) (up : Bool) : KeepsPairs h (h.shMove i up) := by
  have hlast : KeepsPairs h (h.modSh i fun p => { p with lastUp := up }) :=
    (KeepsPairs.refl h).modSh i fun _ => ⟨rfl, rfl, rfl⟩
  unfold shMove
  split
  · exact (KeepsPairs.refl h).modSh i fun _ => ⟨rfl, rfl, rfl⟩
  · split
    · exact hlast.energise i up
    · exact hlast.trans (keepsPairs_shReverse _ i up)

/-- Each command of a shutter keeps the pairs. -/
theorem keepsPairs_shCommand (i : Nat) (cmd : ShCmd) : KeepsPairs h (h.shCommand i cmd) := by
  have hpress (up : Bool) : KeepsPairs h
      (if (h.sh i).state ≠ .idle then h.shStop i else h.shMove i up) := by
    split
    · exact h.keepsPairs_shStop i
    · exact h.keepsPairs_shMove i up
  cases cmd with
  | stop => exact h.keepsPairs_shStop i
  | «open» => exact h.keepsPairs_shMove i true
  | close => exact h.keepsPairs_shMove i false
  | up => exact hpress true
  | down => exact hpress false
  | toggle => exact hpress _

theorem keepsPairs_outputCtrlShutter (iShutter : Int) (cmd : ShCmd) :
    KeepsPairs h (h.outputCtrlShutter iShutter cmd) := by
  unfold outputCtrlShutter
  split
  · exact .refl h
  · split
    · exact .refl h
    · exact h.keepsPairs_shCommand _ cmd

theorem keepsPairs_relayPulseStart (iRelay : Int) (ms : Nat) :
    KeepsPairs h (h.relayPulseStart iRelay ms) := by
  unfold relayPulseStart
  split
  · exact .refl h
  · split
    · exact (KeepsPairs.refl h).setPulse _ _
    · exact ((KeepsPairs.refl h).mqttAppSetRelay iRelay true).setPulse _ _

theorem keepsPairs_relayPulseTick (ms : Nat) : KeepsPairs h (h.relayPulseTick ms) := by
  refine Loops.foldl_rel (I := fun _ => True) .refl (fun _ _ _ => .trans)
    (fun _ _ _ _ => trivial) _ (fun h i _ _ => ?_) trivial
  unfold relayPulseTickRelay
  split
  · exact .refl h
  · split
    · exact ((KeepsPairs.refl h).setPulse i 0).mqttAppSetRelay i false
    · exact (KeepsPairs.refl h).setPulse _ _

/-- An output command does, whether it goes to a relay or a shutter. -/
theorem keepsPairs_outputCtrlCommand (iOut : Int) (cmd : OutCmd) :
    KeepsPairs h (h.outputCtrlCommand iOut cmd) := by
  unfold outputCtrlCommand
  split
  · exact h.keepsPairs_outputCtrlShutter _ _
  · split
    · split
      · exact h.keepsPairs_relayPulseStart iOut _
      · exact (h.keepsPairs_relayPulseStart iOut 0).mqttAppSetRelay iOut false
    · exact (KeepsPairs.refl h).mqttAppSetRelay iOut _

theorem keepsPairs_tickMotion (i ms : Nat) (s : CoverState) :
    KeepsPairs h (h.tickMotion i ms s) := by
  unfold tickMotion
  split
  · exact .refl h
  · split
    · refine KeepsPairs.shPublish (KeepsPairs.modSh (KeepsPairs.shBothOff
        ((KeepsPairs.refl h).modSh i ?_) i) i ?_) i s
      · exact fun _ => ⟨rfl, rfl, rfl⟩
      · exact fun _ => ⟨rfl, rfl, rfl⟩
    · exact (KeepsPairs.refl h).modSh i fun _ => ⟨rfl, rfl, rfl⟩

theorem keepsPairs_tickDelay (i ms : Nat) : KeepsPairs h (h.tickDelay i ms) := by
  unfold tickDelay
  split
  · refine KeepsPairs.energise ?_ i _
    exact (KeepsPairs.refl h).modSh i fun _ => ⟨rfl, rfl, rfl⟩
  · exact (KeepsPairs.refl h).modSh i fun _ => ⟨rfl, rfl, rfl⟩

/-- The shutter timer does. -/
theorem keepsPairs_outputCtrlTick (ms : Nat) : KeepsPairs h (h.outputCtrlTick ms) := by
  refine Loops.foldl_rel (I := fun _ => True) .refl (fun _ _ _ => .trans)
    (fun _ _ _ _ => trivial) _ (fun h i _ _ => ?_) trivial
  unfold outputCtrlTickSlot
  split
  · exact .refl h
  · split
    · exact .refl h
    · exact h.keepsPairs_tickMotion i ms _
    · exact h.keepsPairs_tickMotion i ms _
    · exact h.keepsPairs_tickDelay i ms

/-- A message does. -/
theorem keepsPairs_productOnMqtt (topic : CStr) (payload : List UInt8) :
    KeepsPairs h (h.productOnMqtt palStrToUl topic payload) :=
  productOnMqtt_elim palStrToUl topic payload (.refl h)
    (fun iOut cmd _ _ => h.keepsPairs_outputCtrlCommand iOut cmd) h.keepsPairs_outputCtrlShutter
    h.keepsPairs_relayPulseStart

/-- **Every event but a reload** keeps the pairs. -/
theorem keepsPairs_step (e : HubEvent) (he : e ≠ .reload) :
    KeepsPairs h (h.step palStrToUl e) := by
  cases e with
  | mqtt topic payload => exact h.keepsPairs_productOnMqtt palStrToUl topic payload
  | relaySet params =>
      simp only [step, relaySetCGIHandler]
      split
      · split
        · exact .refl h
        · exact h.keepsPairs_outputCtrlCommand _ _
      · exact .refl h
  | relayPulse params =>
      simp only [step, relayPulseCGIHandler]
      split
      · exact .refl h
      · split
        · exact .refl h
        · exact h.keepsPairs_relayPulseStart _ _
  | cover params =>
      simp only [step, coverCGIHandler]
      split
      · split
        · exact .refl h
        · exact h.keepsPairs_outputCtrlShutter _ _
      · exact .refl h
  | binding out cmd =>
      simp only [step, applyBinding]
      split
      · exact .refl h
      · exact h.keepsPairs_outputCtrlCommand _ _
  | relayPulseTick ms => exact h.keepsPairs_relayPulseTick ms
  | outputCtrlTick ms => exact h.keepsPairs_outputCtrlTick ms
  | reload => exact absurd rfl he

end Steps

/-! ## The runtime follows the table -/

variable {palStrToUl : StrToUl} {h : Hub} {new : OutputConfig}

/-- A runtime that follows the table goes on following it. -/
theorem KeepsPairs.follows {h' : Hub} (hk : KeepsPairs h h') (hf : h.Follows) : h'.Follows := by
  have hpair (i : Nat) : (h'.sh i).valid = (h.sh i).valid ∧ (h'.sh i).up = (h.sh i).up ∧
      (h'.sh i).down = (h.sh i).down := by
    have hi := congrFun hk.slotPair i
    exact ⟨congrArg Prod.fst hi, congrArg (fun q => q.2.1) hi, congrArg (fun q => q.2.2) hi⟩
  constructor
  · intro i hi hvalid
    obtain ⟨hv, hup, hdown⟩ := hpair i
    rw [hv] at hvalid
    rw [hup, hdown, hk.outCfg]
    exact hf.agrees i hi hvalid
  · intro i slot hslot
    rw [hk.outCfg] at hslot
    rw [(hpair i).1]
    exact hf.valid i slot hslot

/-- A reload makes the runtime follow the table. -/
theorem follows_outputCtrlReload (h : Hub) : h.outputCtrlReload.Follows := by
  refine ⟨h.agrees_outputCtrlReload, fun i slot hslot => ?_⟩
  rw [h.tame_outputCtrlReload.outCfg] at hslot
  rw [h.sh_outputCtrlReload (OutputConfig.configShutterGet_lt hslot)]
  simp only [OutputConfig.reloadRt, hslot]

/-- The table is changed by the web server only, not by an event of the hub. -/
theorem outCfg_step (h : Hub) (e : HubEvent) : (h.step palStrToUl e).outCfg = h.outCfg := by
  by_cases he : e = .reload
  · subst he
    exact h.tame_outputCtrlReload.outCfg
  · exact (h.keepsPairs_step palStrToUl e he).outCfg

/-- **An invariant:** after every event the runtime follows the table. -/
theorem Follows.step (hf : h.Follows) (e : HubEvent) : (h.step palStrToUl e).Follows := by
  by_cases he : e = .reload
  · subst he
    exact h.follows_outputCtrlReload
  · exact (h.keepsPairs_step palStrToUl e he).follows hf

/-- The runtime slot of a defined slot has its pair. -/
theorem Follows.pair (hf : h.Follows) {i : Nat} {slot : ShutterSlot}
    (hslot : h.outCfg.configShutterGet i = some slot) :
    (h.sh i).valid = true ∧ (h.sh i).up = slot.up ∧ (h.sh i).down = slot.down := by
  have hvalid := hf.valid i slot hslot
  obtain ⟨slot', hslot', hup, hdown⟩ :=
    hf.agrees i (OutputConfig.configShutterGet_lt hslot) hvalid
  rw [hslot, Option.some.injEq] at hslot'
  subst hslot'
  exact ⟨hvalid, hup, hdown⟩

/-- Under a table that is followed, a slot is re-paired where the new table differs. -/
theorem Follows.repaired_iff (hf : h.Follows) {i : Nat} {slot slot' : ShutterSlot}
    (hslot : h.outCfg.configShutterGet i = some slot) :
    (h.sh i).Repaired slot' ↔ slot'.up ≠ slot.up ∨ slot'.down ≠ slot.down := by
  obtain ⟨hvalid, hup, hdown⟩ := hf.pair hslot
  unfold ShutterRt.Repaired
  rw [hvalid, hup, hdown, ne_comm (a := slot.up), ne_comm (a := slot.down)]
  simp only [Bool.true_eq_false, false_or]

/-! ## What a reload with another table does -/

/-- Which relays a reload releases for one slot. -/
theorem releases_iff {cfg : OutputConfig} {i : Nat} {p : ShutterRt} {relay : Nat} :
    cfg.Releases i p relay ↔
      (∃ s, cfg.configShutterGet i = some s ∧ p.Repaired s ∧ ∃ d, s.relay d = relay) ∨
        cfg.configShutterGet i = none ∧ p.valid = true ∧ (relay = p.up ∨ relay = p.down) := by
  have hmember (s : ShutterSlot) : (∃ d, s.relay d = relay) ↔ relay = s.up ∨ relay = s.down := by
    constructor
    · rintro ⟨d, rfl⟩
      cases d
      · exact .inr rfl
      · exact .inl rfl
    · rintro (rfl | rfl)
      · exact ⟨true, rfl⟩
      · exact ⟨false, rfl⟩
  unfold OutputConfig.Releases
  cases cfg.configShutterGet i with
  | none => simp
  | some s => simp [hmember]

/-- No relay belongs to two slots of a well-formed table. -/
theorem eq_of_relay {cfg : OutputConfig} (hwf : cfg.WellFormed) {i j : Nat} {s t : ShutterSlot}
    (hs : cfg.configShutterGet i = some s) (ht : cfg.configShutterGet j = some t) {d x : Bool}
    (hrelay : s.relay d = t.relay x) : i = j := by
  by_contra hij
  obtain ⟨h₁, h₂, h₃, h₄⟩ := hwf.disjoint i j s t hs ht hij
  cases d with
  | false =>
      cases x with
      | false => exact h₄ hrelay
      | true => exact h₃ hrelay
  | true =>
      cases x with
      | false => exact h₂ hrelay
      | true => exact h₁ hrelay

/-- A slot after the reload. -/
theorem sh_reloadTable (h : Hub) (new : OutputConfig) {i : Nat} (hi : i < cfgMaxShutters) :
    (h.reloadTable new).sh i = new.reloadRt i (h.sh i) := by
  unfold reloadTable
  exact sh_outputCtrlReload { h with outCfg := new } hi

/-- A relay after the reload: on if it was, and no slot released it. -/
theorem isOn_reloadTable (h : Hub) (new : OutputConfig) (relay : Nat) :
    (h.reloadTable new).chain.isOn relay = true ↔ h.chain.isOn relay = true ∧
      ∀ i < cfgMaxShutters, ¬new.Releases i (h.sh i) relay :=
  isOn_outputCtrlReload { h with outCfg := new } relay

/-- A relay of a slot that is gone is switched off by that slot only; one of a slot that is
defined, by a slot which the new table gives it to. -/
theorem Follows.released_iff (hf : h.Follows) (hwf : h.outCfg.WellFormed) {i : Nat}
    {slot : ShutterSlot} (hslot : h.outCfg.configShutterGet i = some slot) (d : Bool) :
    (∃ j < cfgMaxShutters, new.Releases j (h.sh j) (slot.relay d)) ↔
      new.configShutterGet i = none ∨
        ∃ j s x, new.configShutterGet j = some s ∧ (h.sh j).Repaired s ∧
          s.relay x = slot.relay d := by
  constructor
  · rintro ⟨j, hlt, hj⟩
    rcases releases_iff.mp hj with ⟨s, hs, hrep, x, hx⟩ | ⟨hnone, hvalid, hrelay⟩
    · exact .inr ⟨j, s, x, hs, hrep, hx⟩
    · -- the slot that is gone had the relay, so it is the slot `i`
      obtain ⟨t, ht, hup, hdown⟩ := hf.agrees j hlt hvalid
      obtain ⟨x, hx⟩ : ∃ x, slot.relay d = t.relay x := by
        rcases hrelay with h | h
        · exact ⟨true, h.trans hup⟩
        · exact ⟨false, h.trans hdown⟩
      have hij := eq_of_relay hwf hslot ht hx
      subst hij
      exact .inl hnone
  · rintro (hnone | ⟨j, s, x, hs, hrep, hx⟩)
    · obtain ⟨hvalid, hup, hdown⟩ := hf.pair hslot
      refine ⟨i, OutputConfig.configShutterGet_lt hslot,
        releases_iff.mpr (.inr ⟨hnone, hvalid, ?_⟩)⟩
      rw [hup, hdown]
      cases d
      · exact .inr rfl
      · exact .inl rfl
    · exact ⟨j, OutputConfig.configShutterGet_lt hs, releases_iff.mpr (.inl ⟨s, hs, hrep, x, hx⟩)⟩

/-- A slot of the new table with a relay of a re-paired slot has a pair that is new for it. -/
theorem Follows.repaired_of_relay (hf : h.Follows) (hwf : h.outCfg.WellFormed) {i j : Nat}
    {slot s : ShutterSlot} (hslot : h.outCfg.configShutterGet i = some slot)
    (hreplaced : new.Replaces i slot) (hs : new.configShutterGet j = some s) {d x : Bool}
    (hrelay : s.relay x = slot.relay d) : (h.sh j).Repaired s := by
  by_contra hrep
  unfold ShutterRt.Repaired at hrep
  simp only [not_or, Bool.not_eq_false, not_not] at hrep
  obtain ⟨hvalid, hup, hdown⟩ := hrep
  obtain ⟨t, ht, htup, htdown⟩ := hf.agrees j (OutputConfig.configShutterGet_lt hs) hvalid
  have hsame : s.relay x = t.relay x := by
    unfold ShutterSlot.relay
    rw [← hup, ← hdown, htup, htdown]
  have hij := eq_of_relay hwf hslot ht (hrelay.symm.trans hsame)
  subst hij
  rw [hslot, Option.some.injEq] at ht
  subst ht
  rcases hreplaced s hs with hne | hne
  · exact hne (hup.symm.trans htup)
  · exact hne (hdown.symm.trans htdown)

/-- A slot that has its pair still keeps its runtime and its relays. -/
theorem Follows.kept (hf : h.Follows) (hwf : h.outCfg.WellFormed) (hnew : new.WellFormed) {i : Nat}
    {slot slot' : ShutterSlot} (hslot : h.outCfg.configShutterGet i = some slot)
    (hslot' : new.configShutterGet i = some slot') (hup : slot'.up = slot.up)
    (hdown : slot'.down = slot.down) :
    (h.reloadTable new).sh i = { h.sh i with travelMs := slot'.travelMs } ∧
      ∀ d, (h.reloadTable new).chain.isOn (slot.relay d) = h.chain.isOn (slot.relay d) := by
  have hrep : ¬(h.sh i).Repaired slot' := by
    rw [hf.repaired_iff hslot]
    rintro (hne | hne)
    · exact hne hup
    · exact hne hdown
  have hsame (d : Bool) : slot'.relay d = slot.relay d := by
    unfold ShutterSlot.relay
    rw [hup, hdown]
  constructor
  · obtain ⟨hvalid, hrup, hrdown⟩ := hf.pair hslot
    rw [sh_reloadTable h new (OutputConfig.configShutterGet_lt hslot)]
    unfold OutputConfig.reloadRt
    rw [hslot']
    dsimp only
    rw [if_neg hrep, hup, hdown, ← hrup, ← hrdown, ← hvalid]
  · intro d
    rw [Bool.eq_iff_iff, isOn_reloadTable]
    refine and_iff_left fun j hj hrel => ?_
    rcases (hf.released_iff hwf hslot d).mp ⟨j, hj, hrel⟩ with hnone | ⟨k, s, x, hs, hk, hx⟩
    · rw [hslot'] at hnone
      cases hnone
    · have hki := eq_of_relay hnew hs hslot' (hx.trans (hsame d).symm)
      subst hki
      rw [hslot', Option.some.injEq] at hs
      subst hs
      exact hrep hk

/-- A relay of a slot that is re-paired or gone is off after the reload exactly when it was
off before, or the slot is gone, or a slot of the new table has the relay. -/
theorem Follows.released_off_iff (hf : h.Follows) (hwf : h.outCfg.WellFormed) {i : Nat}
    {slot : ShutterSlot} (hslot : h.outCfg.configShutterGet i = some slot)
    (hreplaced : new.Replaces i slot) (d : Bool) :
    (h.reloadTable new).chain.isOn (slot.relay d) = false ↔
      (h.chain.isOn (slot.relay d) = true → new.configShutterGet i = none ∨
        ∃ j s x, new.configShutterGet j = some s ∧ s.relay x = slot.relay d) := by
  have hstep := @Follows.released_iff _ new hf hwf _ _ hslot d
  rw [← Bool.not_eq_true, isOn_reloadTable, not_and]
  refine imp_congr_right fun _ => ?_
  push Not
  rw [hstep]
  refine or_congr_right ?_
  constructor
  · rintro ⟨j, s, x, hs, _, hx⟩
    exact ⟨j, s, x, hs, hx⟩
  · rintro ⟨j, s, x, hs, hx⟩
    exact ⟨j, s, x, hs, hf.repaired_of_relay hwf hslot hreplaced hs hx, hx⟩

/-- One reload, in a state where the runtime follows the table. -/
theorem Follows.reloadsSafely_iff (hf : h.Follows) (hwf : h.outCfg.WellFormed)
    (hnew : new.WellFormed) : h.ReloadsSafely new ↔ h.NoneDropped new := by
  constructor
  · intro hsafe i slot slot' hslot hslot' hne d hon
    have hreplaced : new.Replaces i slot := by
      intro s hs
      rw [hslot', Option.some.injEq] at hs
      subst hs
      exact hne
    have hoff := hsafe.released i slot hslot hreplaced d
    rcases (hf.released_off_iff hwf hslot hreplaced d).mp hoff hon with hnone | hin
    · rw [hslot'] at hnone
      cases hnone
    · exact hin
  · intro hnone
    refine ⟨fun i slot hslot hreplaced d => ?_, fun _ _ _ => hf.kept hwf hnew⟩
    rw [hf.released_off_iff hwf hslot hreplaced d]
    intro hon
    cases hslot' : new.configShutterGet i with
    | none => exact .inl rfl
    | some slot' => exact .inr (hnone i slot slot' hslot hslot' (hreplaced slot' hslot') d hon)

/-- **Orphaned relays.**  From a reload on, after any run of the outputs, a reload that finds
another well-formed table switches off the relays of every slot that is re-paired or gone,
and leaves the other slots as they are, precisely when every relay that is on, of a slot that
is re-paired, is in the new table. -/
theorem reload_releases_iff (palStrToUl : StrToUl) (h : Hub) (hwf : h.outCfg.WellFormed)
    (es : List HubEvent) (hnew : new.WellFormed) :
    (Runs.final (step palStrToUl) h.outputCtrlReload es).ReloadsSafely new ↔
      (Runs.final (step palStrToUl) h.outputCtrlReload es).NoneDropped new := by
  have hkept (h' : Hub) (e : HubEvent) (hi : h'.Follows ∧ h'.outCfg.WellFormed) :
      (step palStrToUl h' e).Follows ∧ (step palStrToUl h' e).outCfg.WellFormed := by
    refine ⟨hi.1.step e, ?_⟩
    rw [outCfg_step]
    exact hi.2
  have hstart : h.outputCtrlReload.Follows ∧ h.outputCtrlReload.outCfg.WellFormed := by
    refine ⟨h.follows_outputCtrlReload, ?_⟩
    rw [h.tame_outputCtrlReload.outCfg]
    exact hwf
  obtain ⟨hf, hwell⟩ := (Runs.invariant hkept hstart es).last
  exact hf.reloadsSafely_iff hwell hnew

/-- The two relays of a shutter that opens are swapped: the motor is stopped. -/
theorem swapped_shutter_released :
    (Runs.final (step fun _ _ => 0) oneShutterHub.outputCtrlReload
      [.binding 0 .on, .outputCtrlTick 4000]).ReloadsSafely (onePairConfig 1 0) := by
  refine (reload_releases_iff (fun _ _ => 0) oneShutterHub oneShutterConfig_wellFormed _
    (onePairConfig_wellFormed (by decide) (by decide) (by decide))).mpr ?_
  intro i slot slot' hslot hslot' _ d _
  rw [Runs.final_cons, Runs.final_cons, Runs.final_nil, outCfg_step, outCfg_step,
    Hub.tame_outputCtrlReload _ |>.outCfg] at hslot
  obtain ⟨rfl, rfl⟩ := configShutterGet_oneShutterConfig hslot
  exact ⟨0, slot', !d, hslot', by
    obtain ⟨_, rfl⟩ := configShutterGet_onePairConfig hslot'
    cases d <;> rfl⟩

/-- A shutter that opens is put on relays 2 and 3: relay 0 stays on. -/
theorem moved_shutter_not_released :
    oneShutterConfig.WellFormed ∧ (onePairConfig 2 3).WellFormed ∧
      ¬(Runs.final (step fun _ _ => 0) oneShutterHub.outputCtrlReload
        [.binding 0 .on]).ReloadsSafely (onePairConfig 2 3) := by
  refine ⟨oneShutterConfig_wellFormed,
    onePairConfig_wellFormed (by decide) (by decide) (by decide), fun hsafe => ?_⟩
  have hreplaced : (onePairConfig 2 3).Replaces 0 ⟨0, 1, 10000⟩ := by
    intro slot' hslot'
    obtain ⟨_, rfl⟩ := configShutterGet_onePairConfig hslot'
    decide
  have hoff := hsafe.released 0 ⟨0, 1, 10000⟩ (by decide +kernel) hreplaced true
  revert hoff
  decide +kernel

end Hub

end HomeAuto
