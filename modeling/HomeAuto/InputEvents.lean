import HomeAuto.HaPublish
import HomeAuto.Lib.CellSweep

/-!
# Click detection (`input_events.c`)

Each pushbutton input has a small state machine that debounces it and tells single from
double clicks.  Its edges are taken by `InputEventsUpdate`, from the level of a scan, and
its timeouts by `InputEventsTick`.  The callback with "single" or "double" is the output of
the functions here.
-/

namespace HomeAuto

/-- `DEBOUNCE_MS`. -/
def debounceMs : Nat := 30

/-- `DBLCLICK_MS`. -/
def dblclickMs : Nat := 350

/-- `tIEState`. -/
inductive IEState
  | idle
  | debounce
  | down
  | upWait
  | dblDebounce
  | held
  deriving DecidableEq

/-- `tInputEvent`. -/
structure InputEvent where
  state : IEState
  timer : Nat
  deriving DecidableEq

/-- The string handed to the callback. -/
inductive Click
  | single
  | double
  deriving DecidableEq

/-- `g_asEvents`. -/
abbrev InputEvents := Fin cfgMaxInputs → InputEvent

namespace InputEvent

/-- The `switch` of `InputEventsUpdate`. -/
def update (p : InputEvent) (active : Bool) : InputEvent × List Click :=
  match p.state with
  | .idle => (if active then ⟨.debounce, debounceMs⟩ else p, [])
  | .debounce => (if active then p else ⟨.idle, 0⟩, [])
  | .down => (if active then p else ⟨.upWait, dblclickMs⟩, [])
  | .held => (if active then p else ⟨.idle, 0⟩, [])
  | .upWait => (if active then ⟨.dblDebounce, debounceMs⟩ else p, [])
  | .dblDebounce => if active then (p, []) else (⟨.idle, 0⟩, [.double])

/-- The `switch` of `InputEventsTick`, for a timer that has run out. -/
def expire (needsDouble : Bool) (p : InputEvent) : InputEvent × List Click :=
  match p.state with
  | .debounce => if needsDouble then (⟨.down, 0⟩, []) else (⟨.held, 0⟩, [.single])
  | .upWait => (⟨.idle, 0⟩, [.single])
  | .dblDebounce => (⟨.idle, 0⟩, [.double])
  | _ => (⟨.idle, 0⟩, [])

/-- The loop body of `InputEventsTick`. -/
def tick (needsDouble : Bool) (ms : Nat) (p : InputEvent) : InputEvent × List Click :=
  if p.timer = 0 then (p, [])
  else if p.timer ≤ ms then p.expire needsDouble
  else ({ p with timer := p.timer - ms }, [])

end InputEvent

/-- `InputEventsUpdate`. -/
def inputEventsUpdate (es : InputEvents) (input : Int) (active : Bool) :
    InputEvents × List (Fin cfgMaxInputs × Click) :=
  if h : input < 0 ∨ (cfgMaxInputs : Int) ≤ input then (es, [])
  else CellSweep.visit (fun _ p => p.update active) (es, []) ⟨input.toNat, by omega⟩

/-- `IENeedsDouble`: without a registered predicate every input waits out the window. -/
def ieNeedsDouble (query : Option (Fin cfgMaxInputs → Bool)) (i : Fin cfgMaxInputs) : Bool :=
  (query.map fun q => q i).getD true

/-- `InputEventsTick`. -/
def inputEventsTick (query : Option (Fin cfgMaxInputs → Bool)) (es : InputEvents) (ms : Nat) :
    InputEvents × List (Fin cfgMaxInputs × Click) :=
  CellSweep.sweep (fun i p => p.tick (ieNeedsDouble query i) ms) (List.finRange cfgMaxInputs) es

/-- What a poll finds: the level of every input that is scanned as a pushbutton, and the
answers of the double-click predicate. -/
structure Poll where
  level : Fin cfgMaxInputs → Option Bool
  query : Option (Fin cfgMaxInputs → Bool)

/-- The loop of `DINChainScan`, as far as it feeds the click detector. -/
def scanPushbuttons (es : InputEvents) (levels : Fin cfgMaxInputs → Option Bool) :
    InputEvents × List (Fin cfgMaxInputs × Click) :=
  (List.finRange cfgMaxInputs).foldl (fun acc (i : Fin cfgMaxInputs) =>
    match levels i with
    | none => acc
    | some active =>
        ((inputEventsUpdate acc.1 (i : Nat) active).1,
          acc.2 ++ (inputEventsUpdate acc.1 (i : Nat) active).2)) (es, [])

/-- `product_poll`, as far as it drives the click detector: the scan, then the timers. -/
def pollClicks (ms : Nat) (es : InputEvents) (p : Poll) :
    InputEvents × List (Fin cfgMaxInputs × Click) :=
  ((inputEventsTick p.query (scanPushbuttons es p.level).1 ms).1,
    (scanPushbuttons es p.level).2 ++
      (inputEventsTick p.query (scanPushbuttons es p.level).1 ms).2)

/-- `g_asEvents` as the C startup code leaves it. -/
def inputEventsAtReset : InputEvents := fun _ => ⟨.idle, 0⟩

/-! ## One input at a time -/

/-- What a scan does to one input. -/
def scanOne (levels : Fin cfgMaxInputs → Option Bool) (i : Fin cfgMaxInputs) (p : InputEvent) :
    InputEvent × List Click :=
  match levels i with
  | none => (p, [])
  | some active => p.update active

theorem inputEventsUpdate_fin (es : InputEvents) (i : Fin cfgMaxInputs) (active : Bool) :
    inputEventsUpdate es (i : Nat) active =
      CellSweep.visit (fun _ p => p.update active) (es, []) i := by
  have hi := i.isLt
  unfold inputEventsUpdate
  rw [dif_neg (by omega)]
  rfl

/-- The scan is a sweep. -/
theorem scanPushbuttons_eq (es : InputEvents) (levels : Fin cfgMaxInputs → Option Bool) :
    scanPushbuttons es levels =
      CellSweep.sweep (scanOne levels) (List.finRange cfgMaxInputs) es := by
  unfold scanPushbuttons CellSweep.sweep
  congr 1
  funext acc i
  cases hlevel : levels i with
  | none =>
      have hsame : Function.update acc.1 i (acc.1 i) = acc.1 := Function.update_eq_self i acc.1
      simp only [CellSweep.visit, scanOne, hlevel, hsame, List.map_nil, List.append_nil]
  | some active =>
      dsimp only
      rw [inputEventsUpdate_fin]
      simp only [CellSweep.visit, scanOne, hlevel, List.nil_append]

/-- A poll of one input with double-click detection. -/
def pollOne (ms : Nat) (p : InputEvent) (active : Bool) : InputEvent × List Click :=
  (((p.update active).1.tick true ms).1, (p.update active).2 ++ ((p.update active).1.tick true ms).2)

/-- **A poll** steps every input by itself. -/
theorem pollClicks_cell (ms : Nat) (es : InputEvents) (p : Poll) {i : Fin cfgMaxInputs}
    {active : Bool} (hlevel : p.level i = some active) :
    (pollClicks ms es p).1 i =
        (((es i).update active).1.tick (ieNeedsDouble p.query i) ms).1 ∧
      CellSweep.emittedBy i (pollClicks ms es p).2 =
        ((es i).update active).2 ++
          (((es i).update active).1.tick (ieNeedsDouble p.query i) ms).2 := by
  have hmem := List.mem_finRange i
  have hnodup := List.nodup_finRange cfgMaxInputs
  obtain ⟨hscan, hheard⟩ := CellSweep.sweep_cell (scanOne p.level) hnodup es hmem
  obtain ⟨htick, hfired⟩ := CellSweep.sweep_cell
    (fun i c => InputEvent.tick (ieNeedsDouble p.query i) ms c) hnodup
    (CellSweep.sweep (scanOne p.level) (List.finRange cfgMaxInputs) es).1 hmem
  have hone : scanOne p.level i (es i) = (es i).update active := by
    unfold scanOne
    rw [hlevel]
  rw [hone] at hscan hheard
  rw [hscan] at htick hfired
  unfold pollClicks inputEventsTick
  rw [scanPushbuttons_eq, CellSweep.emittedBy_append, htick, hfired, hheard]
  exact ⟨rfl, rfl⟩

/-- So it does at an input with double-click detection. -/
theorem pollClicks_at (ms : Nat) (es : InputEvents) (p : Poll) {i : Fin cfgMaxInputs}
    {active : Bool} (hlevel : p.level i = some active) (hneeds : ieNeedsDouble p.query i = true) :
    (pollClicks ms es p).1 i = (pollOne ms (es i) active).1 ∧
      CellSweep.emittedBy i (pollClicks ms es p).2 = (pollOne ms (es i) active).2 := by
  have hcell := pollClicks_cell ms es p hlevel
  rw [hneeds] at hcell
  exact hcell

end HomeAuto
