import HomeAuto.ShutterRuns
import HomeAuto.HubEvents

/-!
# The dead time between opposite relays

Between switching one relay of a shutter off and switching the opposite one on the
controller should let `SHUTTER_INTERLOCK_MS` pass.  It does so when the direction is
reversed in motion: the switch delay holds the invariant that every relay of the
shutter will have been off for the full time when the interlock timer runs out.  It
does not when the shutter has come to rest first: a stop, the end of the travel time
or a button leave it IDLE, and a command then energises the other relay at once.

`deadTime_iff_startsRested` is exact: a run respects the dead time precisely when
each command that starts a resting shutter finds the opposite relay rested.
-/

namespace HomeAuto

open SwitchClock

/-! ## One motor -/

namespace Motor

/-- A motor with its clocks. -/
abbrev Clocked := Timed Motor Bool

/-- One timed step of a motor. -/
abbrev clockedStep : Clocked → MotorEvent → Clocked :=
  timedStep step Motor.on MotorEvent.dur

/-- At rest and in the switch delay both relays are off. -/
def OffAtRest (m : Motor) : Prop :=
  m.rt.state = .idle ∨ m.rt.state = .switchDelay → ∀ d, m.on d = false

/-- In the switch delay, every relay will have been off for the full dead time when
the interlock timer has run out. -/
def DelayPays (t : Clocked) : Prop :=
  t.state.rt.state = .switchDelay →
    ∀ d u, t.lastOff d = some u → u + shutterInterlockMs ≤ t.now + t.state.rt.interlockMs

/-- What every reachable clocked motor satisfies. -/
structure Clocked.Sound (t : Clocked) : Prop where
  past : Past t
  offAtRest : t.state.OffAtRest
  delayPays : DelayPays t

/-- Whatever a step switches on, the opposite relay has been off for the dead time. -/
def DeadTime (t t' : Clocked) : Prop :=
  ∀ d, t.state.on d = false → t'.state.on d = true → Rested shutterInterlockMs t' !d

/-- An event that starts the motor from rest finds the opposite relay rested. -/
def StartsRested (t : Clocked) (e : MotorEvent) : Prop :=
  ∀ d, t.state.starts e = some d → t.state.inChain d = true → Rested shutterInterlockMs t !d

theorem startsRested_of_none {t : Clocked} {e : MotorEvent} (h : t.state.starts e = none) :
    StartsRested t e := by
  intro d hd
  rw [h] at hd
  cases hd

/-- Nothing switched on, nothing owed. -/
theorem deadTime_of_off {t t' : Clocked} (h : ∀ d, t.state.on d = false → t'.state.on d = false) :
    DeadTime t t' := by
  intro d hoff hon
  rw [h d hoff] at hon
  cases hon

/-- After an energising step the other relay is off. -/
theorem Energised.off {m m' : Motor} {d : Bool} (h : Energised m m' d) : m'.on (!d) = false := by
  rw [h.2.2]
  simp

theorem Energised.offAtRest {m m' : Motor} {d : Bool} (h : Energised m m' d) :
    m'.OffAtRest := by
  have hstate := h.1
  rintro (hidle | hdelay)
  · rw [hidle] at hstate
    cases d <;> cases hstate
  · rw [hdelay] at hstate
    cases d <;> cases hstate

theorem Energised.delayPays {t : Clocked} {e : MotorEvent} {d : Bool}
    (h : Energised t.state (t.state.step e) d) : DelayPays (clockedStep t e) := by
  intro hdelay
  have hstate : (t.state.step e).rt.state = .switchDelay := hdelay
  rw [h.1] at hstate
  cases d <;> cases hstate

/-- When a motor is energised from a state with both relays off, the dead time is kept
exactly when the relay is not on the chain or its opposite is rested. -/
theorem Energised.deadTime_iff {t : Clocked} {e : MotorEvent} {d : Bool}
    (hoff : ∀ d, t.state.on d = false) (h : Energised t.state (t.state.step e) d) :
    DeadTime t (clockedStep t e) ↔
      (t.state.inChain d = true → Rested shutterInterlockMs (clockedStep t e) !d) := by
  constructor
  · intro hdead hchain
    refine hdead d (hoff d) ?_
    simp only [timedStep]
    rw [h.2.2, if_pos rfl]
    exact hchain
  · intro hrest x _ hon
    simp only [timedStep] at hon
    rw [h.2.2] at hon
    split at hon
    · rename_i hx
      subst hx
      exact hrest hon
    · cases hon

/-- **One step of a motor.**  A sound motor stays sound, and the step keeps the dead
time exactly when it does not start the motor against an unrested relay. -/
theorem Clocked.Sound.step {t : Clocked} (hs : t.Sound) (e : MotorEvent) :
    (clockedStep t e).Sound ∧ (DeadTime t (clockedStep t e) ↔ StartsRested t e) := by
  have hpast : Past (clockedStep t e) := hs.past.next e
  cases effect_step t.state e with
  | kept hstarts hon hstate hvalid hlock =>
      refine ⟨⟨hpast, ?_, ?_⟩, iff_of_true (deadTime_of_off ?_) (startsRested_of_none hstarts)⟩
      · intro hrest d
        simp only [timedStep] at hrest ⊢
        rw [hon]
        exact hs.offAtRest (by rwa [hstate] at hrest) d
      · intro hdelay d u hu
        simp only [timedStep] at hdelay
        rw [hstate] at hdelay
        rw [lastOff_of_not_opened (.inl (hs.offAtRest (.inr hdelay) d))] at hu
        have hpays := hs.delayPays hdelay d u hu
        have hlock' := hlock hdelay
        simp only [timedStep]
        omega
      · intro d hoff
        simp only [timedStep]
        rwa [hon]
  | stopped hstarts hon hstate =>
      refine ⟨⟨hpast, fun _ d => hon d, fun hdelay => ?_⟩,
        iff_of_true (deadTime_of_off fun d _ => hon d) (startsRested_of_none hstarts)⟩
      simp only [timedStep] at hdelay
      rw [hstate] at hdelay
      cases hdelay
  | started d hstarts hidle hdur hmotion =>
      have hoff := hs.offAtRest (.inl hidle)
      refine ⟨⟨hpast, hmotion.offAtRest, hmotion.delayPays⟩, ?_⟩
      rw [hmotion.deadTime_iff hoff]
      unfold StartsRested
      rw [hstarts]
      -- no time passes and the opposite relay stays off, so its clock does not move
      have hrest : Rested shutterInterlockMs (clockedStep t e) (!d) ↔
          Rested shutterInterlockMs t !d := by
        unfold Rested
        rw [lastOff_of_not_opened (.inl (hoff !d))]
        simp only [timedStep, hdur, Nat.add_zero]
      rw [hrest]
      simp
  | resumed d hstarts hdelay hlock hmotion =>
      have hoff := hs.offAtRest (.inr hdelay)
      refine ⟨⟨hpast, hmotion.offAtRest, hmotion.delayPays⟩,
        iff_of_true ?_ (startsRested_of_none hstarts)⟩
      rw [hmotion.deadTime_iff hoff]
      intro _ u hu
      rw [lastOff_of_not_opened (.inl (hoff !d))] at hu
      have hpays := hs.delayPays hdelay (!d) u hu
      simp only [timedStep]
      omega
  | reversed hstarts hon hstate hvalid hlock hdur =>
      refine ⟨⟨hpast, fun _ d => hon d, ?_⟩,
        iff_of_true (deadTime_of_off fun d _ => hon d) (startsRested_of_none hstarts)⟩
      intro _ d u hu
      rcases hlock with ⟨hdelay, hlock⟩ | hlock
      · rw [lastOff_of_not_opened (.inl (hs.offAtRest (.inr hdelay) d))] at hu
        have hpays := hs.delayPays hdelay d u hu
        simp only [timedStep, hlock]
        omega
      · have hle := hs.past.le_next hu
        simp only [timedStep, hlock]
        omega

end Motor

/-! ## The hub -/

namespace Hub

/-- A hub with the clocks of its relays. -/
abbrev Clocked := Timed Hub Nat

/-- One timed step of the hub. -/
abbrev clockedStep : Clocked → ShutterEvent → Clocked :=
  timedStep shutterStep (fun h => h.chain.isOn) ShutterEvent.dur

/-- Whatever relay of a shutter a step switches on, the opposite relay was last switched
off at least the dead time ago. -/
def DeadTime (t t' : Clocked) : Prop :=
  ∀ a b, t.state.outCfg.Opposes a b → t.state.chain.isOn a = false →
    t'.state.chain.isOn a = true → Rested shutterInterlockMs t' b

/-- The direction in which an event starts the shutter of slot `i` from rest. -/
def starts (h : Hub) (e : ShutterEvent) (i : Nat) : Option Bool :=
  (h.outCfg.addressed e).bind fun p =>
    if p.1 = i ∧ (h.sh i).valid = true ∧ (h.sh i).state = .idle then
      p.2.direction (h.sh i).lastUp
    else none

/-- An event that starts a resting shutter finds the opposite relay rested. -/
def StartsRested (t : Clocked) (e : ShutterEvent) : Prop :=
  ∀ i slot d, t.state.outCfg.configShutterGet i = some slot → t.state.starts e i = some d →
    slot.relay d < t.state.chain.relayChainCount →
      Rested shutterInterlockMs t (slot.relay !d)

/-- The clocked motor of a slot. -/
def clockedMotor (t : Clocked) (i : Nat) (slot : ShutterSlot) : Motor.Clocked :=
  proj (fun h => h.motorOf i slot) slot.relay t

variable {t : Clocked} {i : Nat} {slot : ShutterSlot}

/-- **Timed simulation.** -/
theorem clockedMotor_step (hp : t.state.Paired)
    (hslot : t.state.outCfg.configShutterGet i = some slot) (e : ShutterEvent) :
    clockedMotor (clockedStep t e) i slot =
      Motor.clockedStep (clockedMotor t i slot) (t.state.outCfg.motorEvent i slot e) :=
  proj_timedStep (motorOf_shutterStep hp hslot e) (OutputConfig.dur_motorEvent ..).symm
    (fun _ => rfl) fun _ => rfl

theorem starts_motorOf (h : Hub) (i : Nat) (slot : ShutterSlot) (e : ShutterEvent) :
    (h.motorOf i slot).starts (h.outCfg.motorEvent i slot e) = h.starts e i := by
  have hcommand (j : Int) (cmd : ShCmd) :
      (h.motorOf i slot).starts (if j = (i : Int) then .command cmd else .nothing) =
        if j = i ∧ (h.sh i).valid = true ∧ (h.sh i).state = .idle then
          cmd.direction (h.sh i).lastUp
        else none := by
    by_cases hj : j = (i : Int)
    · simp only [hj, if_true, true_and]
      rfl
    · simp only [hj, if_false, false_and]
      rfl
  cases e with
  | shutter s cmd => exact hcommand s cmd
  | relay iOut cmd =>
      cases hrelay : h.outCfg.configShutterOfRelay iOut with
      | none =>
          rw [OutputConfig.motorEvent_relay_none hrelay, starts, OutputConfig.addressed, hrelay]
          rfl
      | some p =>
          rw [OutputConfig.motorEvent_relay_some hrelay, hcommand, starts,
            OutputConfig.addressed, hrelay]
          rfl
  | tick ms => rfl
  | reload => rfl

/-- The relays of a table oppose each other slot by slot. -/
theorem deadTime_iff_motors {t' : Clocked} :
    DeadTime t t' ↔ ∀ i slot, t.state.outCfg.configShutterGet i = some slot →
      Motor.DeadTime (clockedMotor t i slot) (clockedMotor t' i slot) := by
  constructor
  · intro hdead i slot hslot d hoff hon
    refine hdead (slot.relay d) (slot.relay !d) ⟨i, slot, hslot, ?_⟩ hoff hon
    cases d
    · exact .inr ⟨rfl, rfl⟩
    · exact .inl ⟨rfl, rfl⟩
  · rintro hmotors a b ⟨i, slot, hslot, ⟨rfl, rfl⟩ | ⟨rfl, rfl⟩⟩ hoff hon
    · exact hmotors i slot hslot true hoff hon
    · exact hmotors i slot hslot false hoff hon

theorem startsRested_iff_motors {e : ShutterEvent} :
    StartsRested t e ↔ ∀ i slot, t.state.outCfg.configShutterGet i = some slot →
      Motor.StartsRested (clockedMotor t i slot) (t.state.outCfg.motorEvent i slot e) := by
  have hstarts (i : Nat) (slot : ShutterSlot) :
      (clockedMotor t i slot).state.starts (t.state.outCfg.motorEvent i slot e) =
        t.state.starts e i := starts_motorOf t.state i slot e
  have hchain (i : Nat) (slot : ShutterSlot) (d : Bool) :
      (clockedMotor t i slot).state.inChain d = true ↔
        slot.relay d < t.state.chain.relayChainCount := decide_eq_true_iff
  constructor
  · intro h i slot hslot d hd hin
    rw [hstarts] at hd
    exact h i slot d hslot hd ((hchain i slot d).mp hin)
  · intro h i slot d hslot hd hin
    rw [← hstarts i slot] at hd
    exact h i slot hslot d hd ((hchain i slot d).mpr hin)

/-- What every reachable clocked hub satisfies: its shutters follow the table, and every
clocked motor is sound. -/
structure Clocked.Sound (t : Clocked) : Prop where
  paired : t.state.Paired
  motors : ∀ i slot, t.state.outCfg.configShutterGet i = some slot →
    (clockedMotor t i slot).Sound

theorem Clocked.Sound.step {t : Clocked} (hs : t.Sound) (e : ShutterEvent) :
    (clockedStep t e).Sound ∧ (DeadTime t (clockedStep t e) ↔ StartsRested t e) := by
  have ht := tame_shutterStep hs.paired e
  have hmotor (i : Nat) (slot : ShutterSlot)
      (hslot : t.state.outCfg.configShutterGet i = some slot) :=
    (hs.motors i slot hslot).step (t.state.outCfg.motorEvent i slot e)
  refine ⟨⟨hs.paired.tame ht, ?_⟩, ?_⟩
  · intro i slot hslot
    have hslot' : t.state.outCfg.configShutterGet i = some slot := ht.outCfg ▸ hslot
    rw [clockedMotor_step hs.paired hslot']
    exact (hmotor i slot hslot').1
  · rw [deadTime_iff_motors, startsRested_iff_motors]
    refine forall_congr' fun i => forall_congr' fun slot => forall_congr' fun hslot => ?_
    rw [clockedMotor_step hs.paired hslot]
    exact (hmotor i slot hslot).2

/-- A hub at power-on is sound: no slot is loaded and no relay was ever on. -/
theorem sound_start {h : Hub} (hwf : h.outCfg.WellFormed) (hboot : ∀ i, h.sh i = .zero)
    (hoff : h.chain.AllOff) : Clocked.Sound (start h) where
  paired := ⟨hwf, fun i _ hvalid => by
    change (h.sh i).valid = true at hvalid
    rw [hboot] at hvalid
    cases hvalid⟩
  motors := by
    intro i slot _
    refine ⟨?_, fun _ d => hoff (slot.relay d), ?_⟩
    · intro d u hu
      cases hu
    · intro _ d u hu
      cases hu

/-- **The dead time, exactly.**  From power-on with a well-formed table, a run of the
shutters keeps the dead time before every switch-on precisely when each of its
commands that starts a resting shutter finds the opposite relay off for that long. -/
theorem deadTime_iff_startsRested {h : Hub} (hwf : h.outCfg.WellFormed)
    (hboot : ∀ i, h.sh i = .zero) (hoff : h.chain.AllOff) (es : List ShutterEvent) :
    Runs.EveryStep clockedStep (fun t e => DeadTime t (clockedStep t e)) (start h) es ↔
      Runs.EveryStep clockedStep StartsRested (start h) es :=
  Runs.everyStep_congr (I := Clocked.Sound) (fun _ e hs _ => (hs.step e).1)
    (fun _ e hs => (hs.step e).2) (sound_start hwf hboot hoff) es

/-- Move up, stop, move down: the reversal goes through rest. -/
def reverseThroughStop : List ShutterEvent :=
  [.reload, .shutter 0 .open, .tick 1000, .shutter 0 .stop, .shutter 0 .close]

/-- A stopped shutter can be sent the other way with no dead time at all. -/
theorem stop_then_reverse_skips_deadTime :
    ¬ ∀ h : Hub, h.outCfg.WellFormed → (∀ i, h.sh i = .zero) → h.chain.AllOff → ∀ es,
      Runs.EveryStep clockedStep (fun t e => DeadTime t (clockedStep t e)) (start h) es := by
  intro hall
  have hrun := hall oneShutterHub oneShutterConfig_wellFormed (fun _ => rfl)
    (RelayChain.relayChainSetDevices_allOff 1) reverseThroughStop
  obtain ⟨_, _, _, _, hlast, _⟩ := hrun
  have hrest := hlast 1 0 ⟨0, ⟨0, 1, 10000⟩, by decide +kernel, .inr ⟨rfl, rfl⟩⟩
    (by decide +kernel) (by decide +kernel)
  have := hrest 1000 (by decide +kernel)
  revert this
  decide +kernel

/-- A reversal in motion keeps it. -/
theorem reverse_in_motion_keeps_deadTime :
    Runs.EveryStep clockedStep (fun t e => DeadTime t (clockedStep t e)) (start oneShutterHub)
      [.reload, .shutter 0 .open, .shutter 0 .close, .tick 500] := by
  have hsound := sound_start (h := oneShutterHub) oneShutterConfig_wellFormed (fun _ => rfl)
    (RelayChain.relayChainSetDevices_allOff 1)
  have hcfg := (tame_shutterStep hsound.paired .reload).outCfg
  refine (deadTime_iff_startsRested oneShutterConfig_wellFormed (fun _ => rfl)
    (RelayChain.relayChainSetDevices_allOff 1) _).mpr ⟨?_, ?_, ?_, ?_, trivial⟩
  · intro i slot d _ hd
    cases hd
  · intro i slot d hslot _ _ u hu
    obtain ⟨rfl, rfl⟩ := configShutterGet_oneShutterConfig (hcfg ▸ hslot)
    have hnone : (clockedStep (start oneShutterHub) .reload).lastOff
        (ShutterSlot.relay ⟨0, 1, 10000⟩ !d) = none := by
      cases d <;> decide +kernel
    rw [hnone] at hu
    cases hu
  · intro i slot d _ hd
    have hmoving : (clockedStep (clockedStep (start oneShutterHub) .reload)
        (.shutter 0 .open)).state.starts (.shutter 0 .close) i = none := by
      by_cases hi : i = 0
      · subst hi
        decide +kernel
      · exact if_neg fun h => hi (by simpa using h.1.symm)
    rw [hmoving] at hd
    cases hd
  · intro i slot d _ hd
    cases hd

end Hub

end HomeAuto
