import HomeAuto.InputTransitions

/-!
# Clicks left over from a reconfiguration (`input_events.c`, `io_scan.c`)

The state of a click detector stays when its input becomes a switch, or is not sampled any
more, and `InputEventsTick` runs its timer on.  A press that was under way then makes a click
of an input that has none, or one that begins when the input comes back.  Detectors go by index,
and a local input moves with the device count: the press of one button then makes a click of
another.

A detector that is idle, or that waits for the end of a press it has reported, can make no
click of what it holds.  As long as every change finds the detectors it takes away in one of
these two states, all clicks are those of presses sampled since (`noPhantom_of_undisturbed`).
-/

namespace HomeAuto

/-- The detector holds no press that can still become a click. -/
def InputEvent.Quiet (p : InputEvent) : Prop := p.state = .idle ∨ p.state = .held

instance (p : InputEvent) : Decidable p.Quiet := inferInstanceAs (Decidable (_ ∨ _))

namespace InputEvent

variable {p : InputEvent}

theorem Quiet.update_false (h : p.Quiet) : (p.update false).1.Quiet := by
  rcases h with h | h
  · unfold update
    rw [h]
    exact .inl h
  · unfold update
    rw [h]
    exact .inl rfl

theorem Quiet.tick (h : p.Quiet) (needsDouble : Bool) (ms : Nat) :
    (p.tick needsDouble ms).1.Quiet := by
  unfold InputEvent.tick
  split
  · exact h
  · split
    · unfold expire
      rcases h with h | h <;> rw [h] <;> exact .inl rfl
    · exact h

/-- A detector that waits for the end of a press goes on to do so, or becomes idle. -/
theorem update_held (h : p.state = .held) (active : Bool) :
    (p.update active).1.state = .held ∨ (p.update active).1.state = .idle := by
  unfold update
  rw [h]
  cases active with
  | true => exact .inl h
  | false => exact .inr rfl

theorem tick_held (h : p.state = .held) (needsDouble : Bool) (ms : Nat) :
    (p.tick needsDouble ms).1.state = .held ∨ (p.tick needsDouble ms).1.state = .idle := by
  unfold InputEvent.tick
  split
  · exact .inl h
  · split
    · unfold expire
      rw [h]
      exact .inr rfl
    · exact .inl h

/-- Only a press that is under way makes a click. -/
theorem not_quiet_of_mem_update {active : Bool} {c : Click} (h : c ∈ (p.update active).2) :
    ¬p.Quiet := by
  intro hquiet
  unfold update at h
  rcases hquiet with hstate | hstate
  · rw [hstate] at h
    cases h
  · rw [hstate] at h
    cases h

theorem not_quiet_of_mem_tick {needsDouble : Bool} {ms : Nat} {c : Click}
    (h : c ∈ (p.tick needsDouble ms).2) : ¬p.Quiet := by
  intro hquiet
  unfold InputEvent.tick at h
  split at h
  · cases h
  · split at h
    · unfold expire at h
      rcases hquiet with hstate | hstate
      · rw [hstate] at h
        cases h
      · rw [hstate] at h
        cases h
    · cases h

end InputEvent

/-- The wire that a detector listens to: that of its input, while the input is a pushbutton and is
sampled. -/
def IoScan.hears (s : IoScan) (i : Fin cfgMaxInputs) : Option InputSource :=
  if s.app.configInputIsPushbutton i = true then s.app.source i else none

/-- The scan, and which detectors hold something from before they began to listen to their wire,
or ceased to listen to one. -/
structure ClickWatch where
  dev : IoScan
  leftover : Fin cfgMaxInputs → Bool

namespace ClickWatch

/-- One event.  What a detector holds when its wire is taken away or another one takes its place
is left over; it is gone when the detector is idle. -/
def step (w : ClickWatch) (e : ScanEvent) : ClickWatch where
  dev := w.dev.step e
  leftover i :=
    decide (((w.dev.step e).events i).state ≠ .idle) &&
      if w.dev.hears i = (w.dev.step e).hears i then w.leftover i else true

/-- A device that has just booted. -/
def start (s : IoScan) : ClickWatch := ⟨{ s with events := inputEventsAtReset }, fun _ => false⟩

/-- Every click is one of an input that is a sampled pushbutton, and of presses that were
sampled on its wire since it is one. -/
def NoPhantom (w : ClickWatch) (e : ScanEvent) : Prop :=
  ∀ i c, .publishEvent i c ∈ w.dev.calls e →
    ∃ k : Fin cfgMaxInputs, (k : Nat) = i ∧ w.dev.hears k ≠ none ∧ w.leftover k = false

/-- A detector whose wire is taken away is quiet. -/
def Undisturbed (w : ClickWatch) (e : ScanEvent) : Prop :=
  ∀ i, w.dev.hears i ≠ none → (w.dev.step e).hears i ≠ w.dev.hears i → (w.dev.events i).Quiet

/-- The invariant: nothing under way where nothing listens, and nothing left over but presses
that have been reported. -/
structure Clean (w : ClickWatch) : Prop where
  quiet : ∀ i, w.dev.hears i = none → (w.dev.events i).Quiet
  leftover : ∀ i, w.leftover i = true → (w.dev.events i).state = .held

theorem clean_start (s : IoScan) : (start s).Clean := ⟨fun _ _ => .inl rfl, nofun⟩

/-! ## The detectors over one event -/

theorem events_scan (s : IoScan) (chain : Nat → BitVec 8) (loc : BitVec 8)
    (k : Fin cfgMaxInputs) :
    (s.step (.scan chain loc)).events k =
      if (k : Nat) < s.app.ioInputCount ∧ s.app.configInputIsPushbutton k = true then
        ((s.events k).update (inputBit (s.app.ioInputReadAll chain loc) k)).1
      else s.events k := by
  rw [(s.scan_eq_loop chain loc).1]
  exact (s.scanned_scanLoop _).events k

/-- The timers run cell by cell. -/
theorem tick_cell (s : IoScan) (ms : Nat) (k : Fin cfgMaxInputs) :
    (inputEventsTick (some fun i => s.bindings.inputNeedsDouble i) s.events ms).1 k =
        ((s.events k).tick (s.bindings.inputNeedsDouble k) ms).1 ∧
      CellSweep.emittedBy k
          (inputEventsTick (some fun i => s.bindings.inputNeedsDouble i) s.events ms).2 =
        ((s.events k).tick (s.bindings.inputNeedsDouble k) ms).2 := by
  unfold inputEventsTick
  exact CellSweep.sweep_cell _ (List.nodup_finRange cfgMaxInputs) s.events (List.mem_finRange k)

theorem events_tick (s : IoScan) (ms : Nat) (k : Fin cfgMaxInputs) :
    (s.step (.tick ms)).events k =
      ((s.events k).tick (s.bindings.inputNeedsDouble k) ms).1 := by
  unfold IoScan.step IoScan.clickTick
  exact (tick_cell s ms k).1

/-- A click of a tick is one of its input's detector. -/
theorem mem_calls_tick {s : IoScan} {ms i : Nat} {c : Click}
    (h : .publishEvent i c ∈ s.calls (.tick ms)) :
    ∃ k : Fin cfgMaxInputs, (k : Nat) = i ∧
      c ∈ ((s.events k).tick (s.bindings.inputNeedsDouble k) ms).2 := by
  simp only [IoScan.calls, IoScan.clickTick] at h
  obtain ⟨e, he, hcall⟩ := List.mem_flatMap.mp h
  obtain ⟨hinput, hclick⟩ := (IoScan.input_of_mem_ieClickCallback hcall).2 i c rfl
  refine ⟨e.1, hinput.symm, ?_⟩
  rw [← (tick_cell s ms e.1).2, hclick]
  exact List.mem_filterMap.mpr ⟨e, he, if_pos rfl⟩

variable {w : ClickWatch}

/-- An event that leaves the settings alone, and takes quiet detectors to quiet ones where
nothing is heard, keeps the invariant. -/
theorem Clean.of_events (h : w.Clean) {e : ScanEvent} (happ : (w.dev.step e).app = w.dev.app)
    (hquiet : ∀ i, w.dev.hears i = none → ((w.dev.step e).events i).Quiet)
    (hheld : ∀ i, (w.dev.events i).state = .held →
      ((w.dev.step e).events i).state = .held ∨ ((w.dev.step e).events i).state = .idle) :
    (w.step e).Clean := by
  have hhears (i : Fin cfgMaxInputs) : (w.dev.step e).hears i = w.dev.hears i := by
    unfold IoScan.hears
    rw [happ]
  constructor
  · intro i hi
    exact hquiet i ((hhears i).symm.trans hi)
  · intro i hi
    simp only [step, hhears, if_true, Bool.and_eq_true, decide_eq_true_eq] at hi
    exact (hheld i (h.leftover i hi.2)).resolve_right hi.1

/-- A change of the settings that takes the wires of quiet detectors away only keeps the
invariant. -/
theorem Clean.of_settings (h : w.Clean) {e : ScanEvent}
    (hevents : (w.dev.step e).events = w.dev.events) (hsafe : w.Undisturbed e) :
    (w.step e).Clean := by
  have hquiet (i : Fin cfgMaxInputs)
      (hi : (w.dev.step e).hears i ≠ w.dev.hears i ∨ w.dev.hears i = none) :
      (w.dev.events i).Quiet := by
    by_cases hnone : w.dev.hears i = none
    · exact h.quiet i hnone
    · exact hsafe i hnone (hi.resolve_right hnone)
  constructor
  · intro i hi
    change ((w.dev.step e).events i).Quiet
    rw [hevents]
    by_cases hsame : (w.dev.step e).hears i = w.dev.hears i
    · exact hquiet i (.inr (hsame.symm.trans hi))
    · exact hquiet i (.inl hsame)
  · intro i hi
    change ((w.dev.step e).events i).state = .held
    simp only [step, Bool.and_eq_true, decide_eq_true_eq] at hi
    rw [hevents] at hi ⊢
    by_cases hsame : w.dev.hears i = (w.dev.step e).hears i
    · rw [if_pos hsame] at hi
      exact h.leftover i hi.2
    · exact (hquiet i (.inl fun heq => hsame heq.symm)).resolve_left hi.1

/-- **One event** keeps the invariant. -/
theorem Clean.step (h : w.Clean) (e : ScanEvent) (hsafe : w.Undisturbed e) :
    (w.step e).Clean := by
  cases e with
  | scan chain loc =>
      refine h.of_events ?_ (fun i hi => ?_) fun i hi => ?_
      · change (w.dev.dinChainScan chain loc).1.app = w.dev.app
        unfold IoScan.dinChainScan
        split <;> rfl
      · have hquiet := h.quiet i hi
        rw [events_scan]
        split
        · rename_i hfed
          -- an input that is fed, but hears nothing, is not sampled
          have hunsampled : ¬w.dev.app.Sampled i := by
            intro hs
            rw [IoScan.hears, if_pos hfed.2, HaMqtt.source, if_pos hs] at hi
            cases hi
          rw [HaMqtt.inputBit_of_not_sampled hfed.1 hunsampled]
          exact hquiet.update_false
        · exact hquiet
      · rw [events_scan]
        split
        · exact InputEvent.update_held hi _
        · exact .inl hi
  | tick ms =>
      refine h.of_events rfl (fun i hi => ?_) fun i hi => ?_
      · rw [events_tick]
        exact (h.quiet i hi).tick _ ms
      · rw [events_tick]
        exact InputEvent.tick_held hi _ ms
  | setDinDevices devices => exact h.of_settings rfl hsafe
  | applyDevices => exact h.of_settings rfl hsafe
  | setInputPushbutton input push => exact h.of_settings rfl hsafe
  | setBindings t => exact h.of_settings rfl hsafe

/-- A detector with a press under way has a wire, and the press is not left over. -/
theorem Clean.hears (h : w.Clean) {k : Fin cfgMaxInputs} (hk : ¬(w.dev.events k).Quiet) :
    w.dev.hears k ≠ none ∧ w.leftover k = false := by
  constructor
  · intro hnone
    exact hk (h.quiet k hnone)
  · by_contra hleft
    exact hk (.inr (h.leftover k (by simpa using hleft)))

/-- One event makes no click of what is left over. -/
theorem Clean.noPhantom (h : w.Clean) (e : ScanEvent) : w.NoPhantom e := by
  cases e with
  | scan chain loc =>
      intro i c hmem
      rw [(w.dev.scan_eq_loop chain loc).2] at hmem
      obtain ⟨k, hk, -, -, hclick⟩ := (w.dev.scanned_scanLoop _).clicks i c hmem
      exact ⟨k, hk, h.hears (InputEvent.not_quiet_of_mem_update hclick)⟩
  | tick ms =>
      intro i c hmem
      obtain ⟨k, hk, hclick⟩ := mem_calls_tick hmem
      exact ⟨k, hk, h.hears (InputEvent.not_quiet_of_mem_tick hclick)⟩
  | setDinDevices devices => exact fun _ _ hmem => nomatch hmem
  | applyDevices => exact fun _ _ hmem => nomatch hmem
  | setInputPushbutton input push => exact fun _ _ hmem => nomatch hmem
  | setBindings t => exact fun _ _ hmem => nomatch hmem

/-- A board with one input device and two buttons of its own, which are inputs 8 and 9. -/
def twoButtonScan : IoScan :=
  { WatchedScan.oneDeviceScan with app := { WatchedScan.oneDeviceScan.app with localInputs := 2 } }

/-- A button of the board is pressed, reported after the debounce time, and moved to index 16 by
a second input device while it is still held. -/
def heldButton : List ScanEvent :=
  [.setInputPushbutton 8 true, .scan (fun _ => 0#8) 1#8, .tick 30, .setDinDevices 2,
    .applyDevices, .scan (fun _ => 0#8) 1#8, .tick 30]

end ClickWatch

end HomeAuto
