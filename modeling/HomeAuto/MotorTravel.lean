import HomeAuto.ShutterRuns

/-!
# State, relays and timers of one shutter

In a coherent motor the state tells everything else: at rest and in the switch delay both
relays are off, in motion exactly the relay of the direction is on, and the remaining travel
time and the time that has passed since the motor was energised, or its travel refreshed,
add up to the travel time that was in force at that moment.  Every event keeps a motor
coherent.  So no relay is on for the full travel time: `autoStop`.
-/

namespace HomeAuto

/-- The tick time since a shutter was last energised or its travel refreshed, and the
travel time that was in force then. -/
structure Travel where
  since : Nat
  inForce : Nat

namespace Motor

/-- A step that switches a relay on. -/
def energises (m m' : Motor) : Bool :=
  (!m.on true && m'.on true) || (!m.on false && m'.on false)

/-- A command for the direction in which the shutter moves already. -/
def refreshes (m : Motor) : MotorEvent → Bool
  | .command .open => m.rt.valid && decide (m.rt.state = .movingUp)
  | .command .close => m.rt.valid && decide (m.rt.state = .movingDown)
  | _ => false

/-- The travel of a motor after an event. -/
def travelAfter (m : Motor) (tr : Travel) (e : MotorEvent) : Travel :=
  if m.energises (m.step e) || m.refreshes e then ⟨0, (m.step e).rt.travelMs⟩
  else ⟨tr.since + e.dur, tr.inForce⟩

/-- State, relays and timers of a shutter fit together. -/
structure Coherent (m : Motor) (tr : Travel) : Prop where
  idle : m.rt.state = .idle → ∀ d, m.on d = false
  switchDelay : m.rt.state = .switchDelay → (∀ d, m.on d = false) ∧ 1 ≤ m.rt.interlockMs ∧
    m.rt.interlockMs ≤ shutterInterlockMs ∧ m.rt.lastUp = m.rt.pendingUp
  moving : ∀ d, m.rt.state = movingState d → m.on d = true ∧ m.on (!d) = false ∧
    1 ≤ m.rt.timerMs ∧ m.rt.timerMs + tr.since = tr.inForce ∧ m.rt.lastUp = d
  loaded : m.rt.state ≠ .idle → m.rt.valid = true

theorem movingState_ne_idle (d : Bool) : movingState d ≠ .idle := by cases d <;> decide

theorem movingState_ne_switchDelay (d : Bool) : movingState d ≠ .switchDelay := by
  cases d <;> decide

theorem movingState_inj {d e : Bool} (h : movingState d = movingState e) : d = e := by
  cases d <;> cases e <;> first | rfl | cases h

/-- The four states, with the direction of a motion. -/
theorem state_cases (s : ShState) :
    s = .idle ∨ s = .switchDelay ∨ ∃ d, s = movingState d := by
  cases s with
  | idle => exact .inl rfl
  | switchDelay => exact .inr (.inl rfl)
  | movingUp => exact .inr (.inr ⟨true, rfl⟩)
  | movingDown => exact .inr (.inr ⟨false, rfl⟩)

section

variable {m : Motor} {tr : Travel}

/-- The state tells which relay is on. -/
theorem Coherent.on_eq (h : m.Coherent tr) (d : Bool) :
    m.on d = decide (m.rt.state = movingState d) := by
  rcases state_cases m.rt.state with hidle | hdelay | ⟨e, hmoving⟩
  · rw [h.idle hidle, hidle]
    cases d <;> rfl
  · rw [(h.switchDelay hdelay).1, hdelay]
    cases d <;> rfl
  · obtain ⟨hon, hoff, _⟩ := h.moving e hmoving
    rw [hmoving]
    by_cases hde : d = e
    · subst hde
      simpa using hon
    · have hd : d = !e := by
        cases d <;> cases e <;> simp_all
      subst hd
      rw [hoff]
      cases e <;> rfl

/-- **Automatic stop.**  A relay that is on has been on for less than the travel time. -/
theorem Coherent.autoStop (h : m.Coherent tr) {d : Bool} (hon : m.on d = true) :
    tr.since < tr.inForce := by
  rw [h.on_eq, decide_eq_true_eq] at hon
  obtain ⟨_, _, htimer, hsum, _⟩ := h.moving d hon
  omega

/-- At rest with both relays off, whatever the timers are. -/
theorem coherent_of_idle (hstate : m.rt.state = .idle) (hoff : ∀ d, m.on d = false)
    (tr : Travel) : m.Coherent tr where
  idle _ := hoff
  switchDelay h := by rw [hstate] at h; cases h
  moving d h := absurd (h.symm.trans hstate) (movingState_ne_idle d)
  loaded h := absurd hstate h

theorem coherent_stop (m : Motor) (tr : Travel) : m.stop.Coherent tr :=
  coherent_of_idle rfl (fun d => congrFun m.stop_on d) tr

theorem coherent_travelEnd (m : Motor) (s : CoverState) (tr : Travel) :
    (m.travelEnd s).Coherent tr :=
  coherent_of_idle rfl (fun d => congrFun (m.travelEnd_on s) d) tr

/-- A motor that has just been energised starts its full travel time. -/
theorem coherent_energise (hin : ∀ d, m.inChain d = true) (htravel : 1 ≤ m.rt.travelMs)
    (hvalid : m.rt.valid = true) {d : Bool} (hlast : m.rt.lastUp = d) :
    (m.energise d).Coherent ⟨0, (m.energise d).rt.travelMs⟩ where
  idle h := absurd h (movingState_ne_idle d)
  switchDelay h := absurd h (movingState_ne_switchDelay d)
  moving e h := by
    have hde : d = e := movingState_inj h
    subst hde
    rw [energise_on, energise_on, if_pos rfl, if_neg (by simp)]
    exact ⟨hin d, rfl, htravel, rfl, hlast⟩
  loaded _ := hvalid

/-- Energising a motor whose relays are off is seen on its relays. -/
theorem energises_energise (hoff : ∀ d, m.on d = false) (hin : ∀ d, m.inChain d = true)
    (f : ShutterRt → ShutterRt) (d : Bool) :
    m.energises ((m.modRt f).energise d) = true := by
  unfold energises
  rw [hoff, hoff, energise_on, energise_on]
  cases d <;> simp [hin]

/-- A reversal waits in the switch delay, with both relays off. -/
theorem coherent_reverse (hvalid : m.rt.valid = true) {d : Bool} (hlast : m.rt.lastUp = d)
    (hlock : m.rt.state = .switchDelay →
      1 ≤ m.rt.interlockMs ∧ m.rt.interlockMs ≤ shutterInterlockMs) (tr : Travel) :
    (m.reverse d).Coherent tr := by
  obtain ⟨hstate, hv, hms⟩ := reverse_rt m d
  refine ⟨fun h => ?_, fun _ => ⟨fun e => ?_, ?_⟩, fun e h => ?_, fun _ => hv.trans hvalid⟩
  · rw [hstate] at h
    cases h
  · rw [reverse_on]
  · rw [hms]
    have hpending : (m.reverse d).rt.lastUp = (m.reverse d).rt.pendingUp := by
      simp only [reverse, announce_rt, modRt_rt, bothOff_rt]
      by_cases hdelay : m.rt.state = .switchDelay
      · simpa [hdelay] using hlast
      · simpa [hdelay] using hlast
    split
    · rename_i hdelay
      exact ⟨(hlock hdelay).1, (hlock hdelay).2, hpending⟩
    · exact ⟨by decide, Nat.le_refl _, hpending⟩
  · rw [hstate] at h
    exact absurd h.symm (movingState_ne_switchDelay e)

end

/-! ## One event -/

/-- What coherence needs of a motor besides itself: the chain has both relays, and a loaded
slot has a travel time. -/
structure Equipped (m : Motor) : Prop where
  inChain : ∀ d, m.inChain d = true
  travel : m.rt.valid = true → 1 ≤ m.rt.travelMs

variable {m : Motor} {tr : Travel}

theorem Coherent.move (h : m.Coherent tr) (he : m.Equipped) (hvalid : m.rt.valid = true)
    {cmd : ShCmd} {d : Bool} (hstep : m.step (.command cmd) = m.move d)
    (hrefresh : m.rt.state = movingState d → m.refreshes (.command cmd) = true) :
    (m.move d).Coherent (m.travelAfter tr (.command cmd)) := by
  unfold travelAfter
  rw [hstep]
  have htravel := he.travel hvalid
  unfold Motor.move
  by_cases hsame : m.rt.state = movingState d
  · -- the travel time is refreshed
    obtain ⟨hon, hoff, _, _, hlast⟩ := h.moving d hsame
    rw [if_pos hsame, hrefresh hsame, Bool.or_true, if_pos rfl]
    refine ⟨fun hs => ?_, fun hs => ?_, fun e hs => ?_, fun _ => hvalid⟩
    · exact absurd (hsame.symm.trans hs) (movingState_ne_idle d)
    · exact absurd (hsame.symm.trans hs) (movingState_ne_switchDelay d)
    · have hde : d = e := movingState_inj (hsame.symm.trans hs)
      subst hde
      exact ⟨hon, hoff, htravel, rfl, hlast⟩
  · by_cases hidle : m.rt.state = .idle
    · -- from rest the motor is energised
      rw [if_neg hsame, if_pos hidle, energises_energise (h.idle hidle) he.inChain,
        Bool.true_or, if_pos rfl]
      apply coherent_energise
      · exact he.inChain
      · exact htravel
      · exact hvalid
      · rfl
    · rw [if_neg hsame, if_neg hidle]
      apply coherent_reverse
      · exact hvalid
      · rfl
      · intro hdelay
        obtain ⟨_, hpos, hle, _⟩ := h.switchDelay hdelay
        exact ⟨hpos, hle⟩

/-- A command. -/
theorem Coherent.command (h : m.Coherent tr) (he : m.Equipped) (cmd : ShCmd) :
    (m.command cmd).Coherent (m.travelAfter tr (.command cmd)) := by
  by_cases hvalid : m.rt.valid = true
  · have hnot : ¬m.rt.valid = false := by simp [hvalid]
    have hstop (hcmd : m.command cmd = m.stop) :
        (m.command cmd).Coherent (m.travelAfter tr (.command cmd)) := by
      rw [hcmd]
      exact m.coherent_stop _
    have hmove (d : Bool) (hcmd : m.command cmd = m.move d)
        (hrefresh : m.rt.state = movingState d → m.refreshes (.command cmd) = true) :
        (m.command cmd).Coherent (m.travelAfter tr (.command cmd)) := by
      rw [hcmd]
      exact h.move he hvalid hcmd hrefresh
    have hpress (d : Bool) (hcmd : m.command cmd = m.press d) :
        (m.command cmd).Coherent (m.travelAfter tr (.command cmd)) := by
      by_cases hidle : m.rt.state = .idle
      · refine hmove d ?_ fun hs => absurd (hs.symm.trans hidle) (movingState_ne_idle d)
        rw [hcmd, press, if_neg (by simp [hidle])]
      · refine hstop ?_
        rw [hcmd, press, if_pos hidle]
    cases cmd with
    | stop => exact hstop (if_neg hnot)
    | «open» =>
        refine hmove true (if_neg hnot) fun hs => ?_
        simp [refreshes, hvalid, hs, movingState]
    | close =>
        refine hmove false (if_neg hnot) fun hs => ?_
        simp [refreshes, hvalid, hs, movingState]
    | up => exact hpress true (if_neg hnot)
    | down => exact hpress false (if_neg hnot)
    | toggle => exact hpress _ (if_neg hnot)
  · have hidle : m.rt.state = .idle := by
      by_contra hs
      exact hvalid (h.loaded hs)
    have hsame : m.command cmd = m := if_pos (by simpa using hvalid)
    rw [hsame]
    exact coherent_of_idle hidle (h.idle hidle) _

/-- An event that leaves relays and state alone lets its time pass. -/
theorem travelAfter_of_on_eq {e : MotorEvent} (hon : (m.step e).on = m.on)
    (hrefresh : m.refreshes e = false) :
    m.travelAfter tr e = ⟨tr.since + e.dur, tr.inForce⟩ := by
  unfold travelAfter energises
  rw [hon, hrefresh]
  cases m.on true <;> cases m.on false <;> rfl

/-- A tick in motion. -/
theorem Coherent.tickMotion (h : m.Coherent tr) {ms : Nat} {s : CoverState} {d : Bool}
    (hstate : m.rt.state = movingState d) (hstep : m.step (.tick ms) = m.tickMotion ms s) :
    (m.tickMotion ms s).Coherent (m.travelAfter tr (.tick ms)) := by
  obtain ⟨hon, hoff, hpos, hsum, hlast⟩ := h.moving d hstate
  unfold Motor.tickMotion at hstep ⊢
  rw [if_neg (by omega)] at hstep ⊢
  split
  · exact m.coherent_travelEnd s _
  · rename_i hlt
    rw [if_neg hlt] at hstep
    rw [travelAfter_of_on_eq (by rw [hstep]; rfl) rfl]
    refine ⟨fun hs => ?_, fun hs => ?_, fun e hs => ?_, h.loaded⟩
    · exact absurd (hstate.symm.trans hs) (movingState_ne_idle d)
    · exact absurd (hstate.symm.trans hs) (movingState_ne_switchDelay d)
    · have hde : d = e := movingState_inj (hstate.symm.trans hs)
      subst hde
      refine ⟨hon, hoff, ?_, ?_, hlast⟩
      · simp only [modRt_rt]
        omega
      · simp only [modRt_rt, MotorEvent.dur]
        omega

/-- A tick in the switch delay. -/
theorem Coherent.tickDelay (h : m.Coherent tr) (he : m.Equipped) {ms : Nat}
    (hstate : m.rt.state = .switchDelay) (hstep : m.step (.tick ms) = m.tickDelay ms) :
    (m.tickDelay ms).Coherent (m.travelAfter tr (.tick ms)) := by
  obtain ⟨hoff, hpos, hle, hlast⟩ := h.switchDelay hstate
  have hvalid : m.rt.valid = true := h.loaded (by rw [hstate]; decide)
  unfold Motor.tickDelay at hstep ⊢
  split
  · -- the interlock is over: the pending direction is energised
    rename_i hover
    rw [if_pos hover] at hstep
    unfold travelAfter
    rw [hstep, energises_energise hoff he.inChain, Bool.true_or, if_pos rfl]
    apply coherent_energise
    · exact he.inChain
    · exact he.travel hvalid
    · exact hvalid
    · exact hlast
  · refine ⟨fun hs => ?_, fun _ => ⟨hoff, ?_, ?_, hlast⟩, fun d hs => ?_, fun _ => hvalid⟩
    · exact absurd (hstate.symm.trans hs) (by decide)
    · simp only [modRt_rt]
      omega
    · simp only [modRt_rt]
      omega
    · exact absurd (hs.symm.trans hstate) (movingState_ne_switchDelay d)

/-- A tick. -/
theorem Coherent.tick (h : m.Coherent tr) (he : m.Equipped) (ms : Nat) :
    (m.tick ms).Coherent (m.travelAfter tr (.tick ms)) := by
  by_cases hidle : m.rt.state = .idle
  · have hsame : m.tick ms = m := by
      unfold Motor.tick
      rw [hidle, ite_self]
    rw [hsame]
    exact coherent_of_idle hidle (h.idle hidle) _
  · have hvalid : ¬m.rt.valid = false := by simp [h.loaded hidle]
    have htick : m.step (.tick ms) = m.tick ms := rfl
    unfold Motor.tick at htick ⊢
    rw [if_neg hvalid] at htick ⊢
    cases hstate : m.rt.state with
    | idle => exact absurd hstate hidle
    | movingUp =>
        rw [hstate] at htick
        exact h.tickMotion (d := true) hstate htick
    | movingDown =>
        rw [hstate] at htick
        exact h.tickMotion (d := false) hstate htick
    | switchDelay =>
        rw [hstate] at htick
        exact h.tickDelay he hstate htick

/-- A reload of the slot: a new pair is put to rest, an unchanged one goes on. -/
theorem coherent_reload {slot : ShutterSlot}
    (h : ¬(m.rt.valid = false ∨ m.rt.up ≠ slot.up ∨ m.rt.down ≠ slot.down) → m.Coherent tr) :
    (m.reload slot).Coherent (m.travelAfter tr (.reload slot)) := by
  by_cases hpair : m.rt.valid = false ∨ m.rt.up ≠ slot.up ∨ m.rt.down ≠ slot.down
  · unfold reload
    rw [if_pos hpair]
    apply coherent_of_idle
    · rfl
    · exact fun d => congrFun m.bothOff_on d
  · have hreload : m.step (.reload slot) = m.modRt fun p =>
        { p with valid := true, up := slot.up, down := slot.down, travelMs := slot.travelMs } := by
      change m.reload slot = _
      unfold reload
      rw [if_neg hpair]
    have hc := h hpair
    rw [travelAfter_of_on_eq (by rw [hreload]; rfl) rfl]
    change (m.step (.reload slot)).Coherent _
    rw [hreload]
    exact ⟨hc.idle, hc.switchDelay, hc.moving, fun _ => rfl⟩

/-- **Every event keeps a motor coherent.** -/
theorem Coherent.step (h : m.Coherent tr) (he : m.Equipped) (e : MotorEvent) :
    (m.step e).Coherent (m.travelAfter tr e) := by
  cases e with
  | nothing =>
      rw [travelAfter_of_on_eq rfl rfl]
      exact h
  | command cmd => exact h.command he cmd
  | tick ms => exact h.tick he ms
  | reload slot => exact coherent_reload fun _ => h

/-! ## The loaded slot -/

/-- A step that leaves alone whether the slot is loaded, and its travel time. -/
def KeepsSlot (m m' : Motor) : Prop :=
  m'.rt.valid = m.rt.valid ∧ m'.rt.travelMs = m.rt.travelMs

theorem keepsSlot_move (m : Motor) (d : Bool) : KeepsSlot m (m.move d) := by
  unfold Motor.move
  split
  · exact ⟨rfl, rfl⟩
  · split
    · exact ⟨rfl, rfl⟩
    · unfold KeepsSlot reverse
      simp only [announce_rt, modRt_rt, bothOff_rt]
      by_cases hdelay : m.rt.state = .switchDelay
      · simp [hdelay]
      · simp [hdelay]

theorem keepsSlot_press (m : Motor) (d : Bool) : KeepsSlot m (m.press d) := by
  unfold press
  split
  · exact ⟨rfl, rfl⟩
  · exact m.keepsSlot_move d

theorem keepsSlot_command (m : Motor) (cmd : ShCmd) : KeepsSlot m (m.command cmd) := by
  unfold Motor.command
  split
  · exact ⟨rfl, rfl⟩
  · cases cmd with
    | stop => exact ⟨rfl, rfl⟩
    | «open» => exact m.keepsSlot_move true
    | close => exact m.keepsSlot_move false
    | up => exact m.keepsSlot_press true
    | down => exact m.keepsSlot_press false
    | toggle => exact m.keepsSlot_press _

theorem keepsSlot_tickMotion (m : Motor) (ms : Nat) (s : CoverState) :
    KeepsSlot m (m.tickMotion ms s) := by
  unfold Motor.tickMotion
  split
  · exact ⟨rfl, rfl⟩
  · split <;> exact ⟨rfl, rfl⟩

theorem keepsSlot_tick (m : Motor) (ms : Nat) : KeepsSlot m (m.tick ms) := by
  unfold Motor.tick
  split
  · exact ⟨rfl, rfl⟩
  · cases m.rt.state with
    | idle => exact ⟨rfl, rfl⟩
    | movingUp => exact m.keepsSlot_tickMotion ms _
    | movingDown => exact m.keepsSlot_tickMotion ms _
    | switchDelay =>
        unfold Motor.tickDelay
        dsimp only
        split <;> exact ⟨rfl, rfl⟩

/-- Only a reload changes the loaded slot. -/
theorem keeps_step (m : Motor) {e : MotorEvent} (he : ∀ slot, e ≠ .reload slot) :
    KeepsSlot m (m.step e) := by
  cases e with
  | nothing => exact ⟨rfl, rfl⟩
  | command cmd => exact m.keepsSlot_command cmd
  | tick ms => exact m.keepsSlot_tick ms
  | reload slot => exact absurd rfl (he slot)

end Motor

end HomeAuto
