import HomeAuto.TameSteps

/-!
# What a reload does (`OutputCtrlReload`)

`OutputCtrlReload` may find another table than the one the runtime slots were loaded from.
It rewrites each runtime slot on its own and switches off, of the slots that are new,
re-paired or removed, the two relays: the new pair of a slot that is defined, the former
pair of a slot that is gone.
-/

namespace HomeAuto

/-- The pair of a runtime slot is not the one of the table. -/
abbrev ShutterRt.Repaired (p : ShutterRt) (slot : ShutterSlot) : Prop :=
  p.valid = false ∨ p.up ≠ slot.up ∨ p.down ≠ slot.down

namespace OutputConfig

/-- A runtime slot after the reload. -/
def reloadRt (cfg : OutputConfig) (i : Nat) (p : ShutterRt) : ShutterRt :=
  match cfg.configShutterGet i with
  | some slot =>
      { (if p.Repaired slot then
          { p with state := .idle, timerMs := 0, interlockMs := 0, pcState := some .stopped }
        else p) with
        valid := true, up := slot.up, down := slot.down, travelMs := slot.travelMs }
  | none => { p with valid := false, state := .idle, timerMs := 0, interlockMs := 0 }

/-- The relays that the reload of a slot switches off. -/
def Releases (cfg : OutputConfig) (i : Nat) (p : ShutterRt) (relay : Nat) : Prop :=
  match cfg.configShutterGet i with
  | some slot => p.Repaired slot ∧ (relay = slot.up ∨ relay = slot.down)
  | none => p.valid = true ∧ (relay = p.up ∨ relay = p.down)

end OutputConfig

namespace Hub

theorem isOn_release_release (h : Hub) (a b relay : Nat) :
    ((h.setRelay a false).setRelay b false).chain.isOn relay = true ↔
      h.chain.isOn relay = true ∧ ¬(relay = a ∨ relay = b) := by
  rw [setRelay_chain, setRelay_chain, RelayChain.isOn_relayChainSet_false,
    RelayChain.isOn_relayChainSet_false]
  by_cases hb : relay = b
  · simp [hb]
  · by_cases ha : relay = a
    · simp [Function.update_apply, ha]
    · simp [ha, hb]

/-- One pass of the reload. -/
theorem outputCtrlReloadSlot_effect (h : Hub) (i : Nat) :
    (h.outputCtrlReloadSlot i).sh i = h.outCfg.reloadRt i (h.sh i) ∧
      ∀ relay, (h.outputCtrlReloadSlot i).chain.isOn relay = true ↔
        h.chain.isOn relay = true ∧ ¬h.outCfg.Releases i (h.sh i) relay := by
  unfold outputCtrlReloadSlot OutputConfig.reloadRt OutputConfig.Releases
  cases h.outCfg.configShutterGet i with
  | some slot =>
      dsimp only
      unfold reloadStop
      by_cases hpair : (h.sh i).valid = false ∨ (h.sh i).up ≠ slot.up ∨ (h.sh i).down ≠ slot.down
      · rw [if_pos hpair, if_pos hpair]
        refine ⟨by simp, fun relay => ?_⟩
        rw [modSh_chain, modSh_chain, isOn_release_release]
        simp [hpair]
      · rw [if_neg hpair, if_neg hpair]
        refine ⟨by simp, fun relay => ?_⟩
        rw [modSh_chain]
        simp [hpair]
  | none =>
      dsimp only
      cases hvalid : (h.sh i).valid with
      | true =>
          refine ⟨by simp [shBothOff], fun relay => ?_⟩
          rw [if_pos rfl, modSh_chain, shBothOff, isOn_release_release]
          simp
      | false =>
          refine ⟨by simp, fun relay => ?_⟩
          simp

/-- What the passes before slot `n` have done to the hub `h`. -/
structure ReloadedTo (h : Hub) (n : Nat) (h' : Hub) : Prop where
  outCfg : h'.outCfg = h.outCfg
  sh : ∀ j, h'.sh j = if j < n then h.outCfg.reloadRt j (h.sh j) else h.sh j
  isOn : ∀ relay, h'.chain.isOn relay = true ↔
    h.chain.isOn relay = true ∧ ∀ i < n, ¬h.outCfg.Releases i (h.sh i) relay

/-- **The effect of a reload**, slot by slot and relay by relay. -/
theorem reloadedTo_outputCtrlReload (h : Hub) :
    ReloadedTo h cfgMaxShutters h.outputCtrlReload := by
  refine Loops.foldl_range (P := ReloadedTo h) (fun i h' _ hi => ?_) ⟨rfl, by simp, by simp⟩
  obtain ⟨hsh, hon⟩ := h'.outputCtrlReloadSlot_effect i
  have hself : h'.sh i = h.sh i := (hi.sh i).trans (if_neg (Nat.lt_irrefl i))
  rw [hself, hi.outCfg] at hsh hon
  refine ⟨(h'.tame_outputCtrlReloadSlot i).outCfg.trans hi.outCfg, fun j => ?_, fun relay => ?_⟩
  · by_cases hj : j = i
    · subst hj
      rw [hsh, if_pos (Nat.lt_succ_self j)]
    · rw [h'.outputCtrlReloadSlot_sh_of_ne hj, hi.sh j]
      have hlt : j < i ↔ j < i + 1 := by omega
      simp only [hlt]
  · rw [hon, hi.isOn]
    constructor
    · rintro ⟨⟨hwas, hbefore⟩, hnow⟩
      refine ⟨hwas, fun k hk => ?_⟩
      by_cases hki : k = i
      · subst hki
        exact hnow
      · exact hbefore k (by omega)
    · rintro ⟨hwas, hall⟩
      exact ⟨⟨hwas, fun k hk => hall k (by omega)⟩, hall i (by omega)⟩

theorem sh_outputCtrlReload (h : Hub) {i : Nat} (hi : i < cfgMaxShutters) :
    h.outputCtrlReload.sh i = h.outCfg.reloadRt i (h.sh i) :=
  (h.reloadedTo_outputCtrlReload.sh i).trans (if_pos hi)

theorem isOn_outputCtrlReload (h : Hub) (relay : Nat) :
    h.outputCtrlReload.chain.isOn relay = true ↔ h.chain.isOn relay = true ∧
      ∀ i < cfgMaxShutters, ¬h.outCfg.Releases i (h.sh i) relay :=
  h.reloadedTo_outputCtrlReload.isOn relay

end Hub

end HomeAuto
