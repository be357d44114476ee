import HomeAuto.IoScan

/-!
# Switch inputs and their transitions (`DINChainScan`)

A switch input is published, and its bindings are applied, when its level differs from the
one that `pui8Prev` holds for its index.  That is the level of the scan before only if the scan
before sampled the same wire at this index.  For an input of a device that has just been
enabled it is off, or the level of a time when the device was enabled already; for a local
input, whose index moves with the device count, it is the level of another wire.

`everyStep_onlyTransitions_iff` is exact: a run reports real transitions only, precisely when
every other switch input is found as it is remembered.
-/

namespace HomeAuto

/-- The scan, with what the scan before has sampled: the level on each wire that it read, and the
wire behind each index. -/
structure WatchedScan where
  dev : IoScan
  last : InputSource → Option Bool
  wiring : Nat → Option InputSource

namespace WatchedScan

/-- What a scan samples. -/
def sampled (a : HaMqtt) (chain : Nat → BitVec 8) (loc : BitVec 8) (src : InputSource) :
    Option Bool :=
  if a.Reads src then some (src.level chain loc) else none

/-- One event.  A scan replaces the samples of the scan before. -/
def step (w : WatchedScan) (e : ScanEvent) : WatchedScan :=
  match e with
  | .scan chain loc => ⟨w.dev.step e, sampled w.dev.app chain loc, w.dev.app.source⟩
  | _ => { w with dev := w.dev.step e }

/-- The start of a run: nothing has been sampled. -/
def start (s : IoScan) : WatchedScan := ⟨s, fun _ => none, fun _ => none⟩

/-- What a scan publishes or commands for a switch input comes from a transition: the scan
before has sampled the input's wire, and so does this one, at another level. -/
def OnlyTransitions (w : WatchedScan) : ScanEvent → Prop
  | .scan chain loc => ∀ call ∈ w.dev.calls (.scan chain loc),
      w.dev.app.configInputIsPushbutton call.input = false →
        ∃ src before, w.dev.app.source call.input = some src ∧ w.last src = some before ∧
          src.level chain loc ≠ before
  | _ => True

/-- Two scans in a row sample the same wire at this index. -/
def Steady (w : WatchedScan) (i : Nat) : Prop :=
  w.wiring i = w.dev.app.source i ∧ w.wiring i ≠ none

/-- A switch input that is scanned, and is not sampled twice in a row at its index, is found at
the level that `pui8Prev` has for the index, unless that happens to be the level at which the
scan before sampled its wire elsewhere. -/
def AsRemembered (w : WatchedScan) : ScanEvent → Prop
  | .scan chain loc => w.dev.primed = true → ∀ i < w.dev.app.ioInputCount,
      w.dev.app.configInputIsPushbutton i = false → ¬w.Steady i →
        inputBit (w.dev.app.ioInputReadAll chain loc) i = inputBit w.dev.prev i ∨
          ∃ src ∈ w.dev.app.source i, w.last src = some (inputBit w.dev.prev i)
  | _ => True

/-- `pui8Prev` has what the scan before has sampled. -/
def Remembers (w : WatchedScan) : Prop :=
  ∀ i src, w.wiring i = some src → w.last src = some (inputBit w.dev.prev i)

theorem remembers_start (s : IoScan) : (start s).Remembers := by
  intro i src h
  cases h

/-- Every event keeps the memory. -/
theorem Remembers.step {w : WatchedScan} (h : w.Remembers) (e : ScanEvent) :
    (w.step e).Remembers := by
  cases e with
  | scan chain loc =>
      intro i src hsource
      have hwire : w.dev.app.source i = some src := hsource
      have hcount : i < w.dev.app.ioInputCount := (HaMqtt.sampled_of_source hwire).1
      have hbyte : i >>> 3 < w.dev.scanBytes := by
        unfold IoScan.scanBytes
        rw [Nat.shiftRight_eq_div_pow]
        omega
      have hbytes : w.dev.scanBytes ≠ 0 := by omega
      have hlast : (w.step (.scan chain loc)).last src = some (src.level chain loc) :=
        if_pos (HaMqtt.reads_of_source hwire)
      have hprev : (w.step (.scan chain loc)).dev.prev (i >>> 3) =
          w.dev.app.ioInputReadAll chain loc (i >>> 3) := by
        change (w.dev.dinChainScan chain loc).1.prev (i >>> 3) = _
        rw [IoScan.dinChainScan, if_neg hbytes]
        exact if_pos hbyte
      rw [hlast, ← HaMqtt.inputBit_of_source hwire, inputBit_eq, inputBit_eq, hprev]
  | tick ms => exact h
  | setDinDevices devices => exact h
  | applyDevices => exact h
  | setInputPushbutton input push => exact h
  | setBindings t => exact h

/-- One event reports transitions only, exactly when it finds what is remembered. -/
theorem Remembers.onlyTransitions_iff {w : WatchedScan} (h : w.Remembers) (e : ScanEvent) :
    w.OnlyTransitions e ↔ w.AsRemembered e := by
  cases e with
  | scan chain loc =>
      have hloop := w.dev.scanned_scanLoop (w.dev.app.ioInputReadAll chain loc)
      have hcalls := (w.dev.scan_eq_loop chain loc).2
      constructor
      · intro honly hprimed i hi hswitch _
        by_cases hsame : inputBit (w.dev.app.ioInputReadAll chain loc) i = inputBit w.dev.prev i
        · exact .inl hsame
        · have hchanged : w.dev.changed (w.dev.app.ioInputReadAll chain loc) i = true := by
            rw [IoScan.changed_eq, bne_iff_ne]
            exact hsame
          have hreport := hloop.reports i hi hswitch hprimed hchanged
          rw [← hcalls] at hreport
          obtain ⟨src, before, hwire, hbefore, hne⟩ := honly _ hreport hswitch
          dsimp only [ScanCall.input] at hwire
          rw [HaMqtt.inputBit_of_source hwire] at hsame
          -- of two levels that differ from the one on the wire, one is the other
          have hprev : before = inputBit w.dev.prev i :=
            (Bool.eq_not.mpr (Ne.symm hne)).trans (Bool.eq_not.mpr (Ne.symm hsame)).symm
          exact .inr ⟨src, hwire, hbefore.trans (congrArg some hprev)⟩
      · intro hknown call hcall hswitch
        rw [hcalls] at hcall
        obtain ⟨hi, hprimed, hchanged⟩ := hloop.switches call hcall hswitch
        rw [IoScan.changed_eq, bne_iff_ne] at hchanged
        have hsampled : ∃ src ∈ w.dev.app.source call.input,
            w.last src = some (inputBit w.dev.prev call.input) := by
          by_cases hsteady : w.Steady call.input
          · obtain ⟨hwire, hsome⟩ := hsteady
            obtain ⟨src, hsrc⟩ := Option.ne_none_iff_exists'.mp hsome
            exact ⟨src, hwire ▸ hsrc, h _ _ hsrc⟩
          · exact (hknown hprimed _ hi hswitch hsteady).resolve_left hchanged
        obtain ⟨src, hwire, hlast⟩ := hsampled
        refine ⟨src, _, hwire, hlast, ?_⟩
        rwa [← HaMqtt.inputBit_of_source hwire]
  | tick ms => exact Iff.rfl
  | setDinDevices devices => exact Iff.rfl
  | applyDevices => exact Iff.rfl
  | setInputPushbutton input push => exact Iff.rfl
  | setBindings t => exact Iff.rfl

/-- **Only transitions, exactly.**  Over any scans, ticks and changes of the settings, the
scans publish and command real transitions of switch inputs only, precisely when every switch
input that was not sampled twice in a row at its index is found at the level remembered for
it. -/
theorem everyStep_onlyTransitions_iff (s : IoScan) (es : List ScanEvent) :
    Runs.EveryStep step OnlyTransitions (start s) es ↔
      Runs.EveryStep step AsRemembered (start s) es :=
  Runs.everyStep_congr (fun _ e h _ => h.step e) (fun _ e h => h.onlyTransitions_iff e)
    (remembers_start s) es

/-- A board with one input device, as it boots; all inputs are switches. -/
def oneDeviceScan : IoScan where
  app :=
    { hub := { Hub.oneShutterHub with ioDevices := 0x11 }
      cfg := ⟨1883, false, [], [], [], [], []⟩
      devId := []
      topicStatus := []
      shName := fun _ => []
      inputType := fun _ => 0#8
      dinDevices := 1
      localInputs := 0
      hasTempSensor := false
      inSnap := fun _ => 0#8
      pubStep := 0
      pubMax := 0 }
  bindings := .defaults
  events := inputEventsAtReset
  live := fun _ => 0#8
  prev := fun _ => 0#8
  primed := false

/-- A second device is enabled, on which input 8 has been on all the time: it is published as
switched on. -/
theorem enabled_device_is_published :
    ¬Runs.EveryStep step OnlyTransitions (start oneDeviceScan)
      [.scan (fun k => if k = 1 then 1#8 else 0#8) 0#8, .setDinDevices 2, .applyDevices,
        .scan (fun k => if k = 1 then 1#8 else 0#8) 0#8] := by
  intro hrun
  obtain ⟨src, before, hwire, hbefore, -⟩ :=
    hrun.2.2.2.1 (.publishInput 8 true) (by decide +kernel) (by decide +kernel)
  obtain rfl : InputSource.chain 8 = src :=
    Option.some.inj ((show some (InputSource.chain 8) = _ by decide +kernel).trans hwire)
  exact absurd ((show none = _ by decide +kernel).trans hbefore) nofun

end WatchedScan

end HomeAuto
