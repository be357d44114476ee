import HomeAuto.BindTable
import HomeAuto.InputEvents
import HomeAuto.Lib.Loops
import HomeAuto.Lib.Runs

/-!
# The input scan and the binding engine (`io_scan.c`)

`DINChainScan` reads all inputs once per tick.  A pushbutton input is fed to the click
detector; a switch input that differs from the scan before is published, and its bindings
are applied.  `InputEventsTick` runs the timers of the click detector, whose clicks are
published and applied in the same way.

The settings change in between: the input device count, which the driver takes over later
than the configuration, and the type of each input.
-/

namespace HomeAuto

/-- `BIND_TRIG_LEVEL_ON`, `BIND_TRIG_LEVEL_OFF`, `BIND_TRIG_SINGLE`, `BIND_TRIG_DOUBLE`. -/
def bindTrigLevelOn : Nat := 1
def bindTrigLevelOff : Nat := 2
def bindTrigSingle : Nat := 3
def bindTrigDouble : Nat := 4

/-- The command of an action: `BIND_ACT_ON`, `BIND_ACT_OFF`, `BIND_ACT_CYCLE`, or else a
toggle. -/
def bindCmd (act : Nat) : OutCmd :=
  if act = 0 then .on else if act = 1 then .off else if act = 3 then .cycle else .toggle

/-- A call that the scan makes: `MQTTAppPublishInput`, `MQTTAppPublishInputEvent`, and
`OutputCtrlCommand` for a slot of an input. -/
inductive ScanCall
  | publishInput (input : Nat) (on : Bool)
  | publishEvent (input : Nat) (click : Click)
  | command (input out : Nat) (cmd : OutCmd)
  deriving DecidableEq

/-- The input that a call is about. -/
def ScanCall.input : ScanCall → Nat
  | publishInput input _ => input
  | publishEvent input _ => input
  | command input _ _ => input

/-- Bit `i % 8` of byte `i / 8`. -/
def inputBit (bytes : Nat → BitVec 8) (i : Nat) : Bool :=
  (bytes (i >>> 3) &&& (1#8 <<< (i &&& 7))) != 0#8

namespace BindTable

variable (t : BindTable)

/-- A slot answers a trigger: it has this one, or "On Change" and this one is a level. -/
def answers (trig slotTrig : Nat) : Bool :=
  slotTrig = trig ||
    (slotTrig = bindTrigChange.toNat && (trig = bindTrigLevelOn || trig = bindTrigLevelOff))

/-- `ApplyBindings`, for a chain of `relays` relays. -/
def applyBindings (relays input trig : Nat) : List ScanCall :=
  (List.range cfgBindSlots).filterMap fun slot =>
    if (t.configBindingGet input slot).output = bindOutputNoneByte ∨
        relays ≤ (t.configBindingGet input slot).output.toNat then none
    else if answers trig (t.configBindingGet input slot).trig = true then
      some (.command input (t.configBindingGet input slot).output.toNat
        (bindCmd (t.configBindingGet input slot).act))
    else none

/-- `InputNeedsDouble`. -/
def inputNeedsDouble (input : Nat) : Bool :=
  (List.range cfgBindSlots).any fun slot =>
    (t.configBindingGet input slot).trig = bindTrigDouble &&
      (t.configBindingGet input slot).output ≠ bindOutputNoneByte

end BindTable

/-- The static state of `io_scan.c` and of what it uses: the settings and the input chain,
the binding table, the click detector, the live inputs of the web page, and `pui8Prev` and
`bPrimed` of the scan. -/
structure IoScan where
  app : HaMqtt
  bindings : BindTable
  events : InputEvents
  live : Nat → BitVec 8
  prev : Nat → BitVec 8
  primed : Bool

/-- Where an input is wired: to a bit of the chain, or to the board itself.  The indices of the
local inputs follow those of the configured chain, so they move with its length. -/
inductive InputSource
  | chain (n : Nat)
  | loc (n : Nat)
  deriving DecidableEq

/-- The level on a wire. -/
def InputSource.level (chain : Nat → BitVec 8) (loc : BitVec 8) : InputSource → Bool
  | .chain n => (chain (n >>> 3)).getLsbD (n &&& 7)
  | .loc n => loc.getLsbD n

namespace HaMqtt

variable (a : HaMqtt)

/-- `ConfigSetDinDevices` and `ConfigSetInputPushbutton` on the saved settings. -/
def setDinDevices (devices : Nat) : HaMqtt :=
  { a with hub := { a.hub with ioDevices := configSetDinDevices a.hub.ioDevices devices } }
def setInputPushbutton (input : Nat) (push : Bool) : HaMqtt :=
  { a with inputType := configSetInputPushbutton a.inputType input push }

/-- `DINChainSetDevices(ConfigGetDinDevices())`. -/
def dinChainApply : HaMqtt :=
  { a with
    dinDevices := if dinMaxBytes < a.configGetDinDevices then dinMaxBytes
      else a.configGetDinDevices }

/-- A local input, and an input that the driver reads from the chain. -/
def IsLocal (i : Nat) : Prop := a.HasLocalInputs ∧ i >>> 3 = a.configGetDinDevices
def OnChain (i : Nat) : Prop := a.dinDevices ≤ ioMaxBytes ∧ i >>> 3 < a.dinDevices

/-- An input that a scan samples.  An input that is configured, but that the driver does not
read yet, is only zero in the buffer. -/
def Sampled (i : Nat) : Prop := i < a.ioInputCount ∧ (a.IsLocal i ∨ a.OnChain i)

instance (i : Nat) : Decidable (a.IsLocal i) := inferInstanceAs (Decidable (_ ∧ _))
instance (i : Nat) : Decidable (a.OnChain i) := inferInstanceAs (Decidable (_ ∧ _))
instance (i : Nat) : Decidable (a.Sampled i) := inferInstanceAs (Decidable (_ ∧ _))

/-- The wire behind a sampled input. -/
def source (i : Nat) : Option InputSource :=
  if a.Sampled i then some (if a.IsLocal i then .loc (i &&& 7) else .chain i) else none

/-- A scan reads this wire. -/
def Reads (src : InputSource) : Prop := ∃ i < a.ioInputCount, a.source i = some src

instance (src : InputSource) : Decidable (a.Reads src) :=
  inferInstanceAs (Decidable (∃ i < a.ioInputCount, a.source i = some src))

end HaMqtt

namespace IoScan

variable (s : IoScan)

/-- `ApplyBindings`. -/
def applyBindings (input trig : Nat) : List ScanCall :=
  s.bindings.applyBindings s.app.hub.chain.relayChainCount input trig

/-- `IEClickCallback`. -/
def ieClickCallback (input : Nat) (click : Click) : List ScanCall :=
  .publishEvent input click ::
    s.applyBindings input
      (match click with
        | .single => bindTrigSingle
        | .double => bindTrigDouble)

/-- The input differs from the scan before. -/
def changed (cur : Nat → BitVec 8) (i : Nat) : Bool :=
  ((cur (i >>> 3) ^^^ s.prev (i >>> 3)) &&& (1#8 <<< (i &&& 7))) != 0#8

/-- The loop body of `DINChainScan`. -/
def scanInput (cur : Nat → BitVec 8) (acc : InputEvents × List ScanCall) (i : Nat) :
    InputEvents × List ScanCall :=
  if s.app.configInputIsPushbutton i then
    ((inputEventsUpdate acc.1 i (inputBit cur i)).1,
      acc.2 ++ (inputEventsUpdate acc.1 i (inputBit cur i)).2.flatMap fun e =>
        s.ieClickCallback e.1 e.2)
  else if s.primed && s.changed cur i then
    (acc.1, acc.2 ++ .publishInput i (inputBit cur i) ::
      s.applyBindings i (if inputBit cur i then bindTrigLevelOn else bindTrigLevelOff))
  else acc

/-- The loop of `DINChainScan`. -/
def scanLoop (cur : Nat → BitVec 8) : InputEvents × List ScanCall :=
  (List.range s.app.ioInputCount).foldl (s.scanInput cur) (s.events, [])

/-- The bytes that `IOInputReadAll` returns. -/
def scanBytes : Nat := (s.app.ioInputCount + 7) / 8

/-- `DINChainScan`, of the bytes that the chain shifts out and of the local inputs. -/
def dinChainScan (chain : Nat → BitVec 8) (loc : BitVec 8) : IoScan × List ScanCall :=
  if s.scanBytes = 0 then (s, [])
  else
    ({ s with
        events := (s.scanLoop (s.app.ioInputReadAll chain loc)).1
        live := fun k => if k < s.scanBytes then s.app.ioInputReadAll chain loc k else s.live k
        prev := fun k => if k < s.scanBytes then s.app.ioInputReadAll chain loc k else s.prev k
        primed := true },
      (s.scanLoop (s.app.ioInputReadAll chain loc)).2)

/-- `InputEventsTick`, with the callback and the predicate of `IOScanInit`. -/
def clickTick (ms : Nat) : IoScan × List ScanCall :=
  ({ s with
      events := (inputEventsTick (some fun i => s.bindings.inputNeedsDouble i) s.events ms).1 },
    (inputEventsTick (some fun i => s.bindings.inputNeedsDouble i) s.events ms).2.flatMap fun e =>
      s.ieClickCallback e.1 e.2)

end IoScan

/-- A scan, a tick, or a change of the settings.  `applyDevices` is the main loop, where the
driver takes over the configured count. -/
inductive ScanEvent
  | scan (chain : Nat → BitVec 8) (loc : BitVec 8)
  | tick (ms : Nat)
  | setDinDevices (devices : Nat)
  | applyDevices
  | setInputPushbutton (input : Nat) (push : Bool)
  | setBindings (t : BindTable)

namespace IoScan

/-- One event. -/
def step (s : IoScan) : ScanEvent → IoScan
  | .scan chain loc => (s.dinChainScan chain loc).1
  | .tick ms => (s.clickTick ms).1
  | .setDinDevices devices => { s with app := s.app.setDinDevices devices }
  | .applyDevices => { s with app := s.app.dinChainApply }
  | .setInputPushbutton input push => { s with app := s.app.setInputPushbutton input push }
  | .setBindings t => { s with bindings := t }

/-- The calls it makes. -/
def calls (s : IoScan) : ScanEvent → List ScanCall
  | .scan chain loc => (s.dinChainScan chain loc).2
  | .tick ms => (s.clickTick ms).2
  | _ => []

end IoScan

/-! ## What a scan reads -/

theorem inputBit_eq (bytes : Nat → BitVec 8) (i : Nat) :
    inputBit bytes i = (bytes (i >>> 3)).getLsbD (i &&& 7) :=
  RelayChain.and_mask_ne_zero _ (RelayChain.relay_bit_lt i)

theorem IoScan.changed_eq (s : IoScan) (cur : Nat → BitVec 8) (i : Nat) :
    s.changed cur i = (inputBit cur i != inputBit s.prev i) := by
  rw [inputBit_eq, inputBit_eq]
  refine (RelayChain.and_mask_ne_zero _ (RelayChain.relay_bit_lt i)).trans ?_
  rw [BitVec.getLsbD_xor]

namespace HaMqtt

variable {a : HaMqtt} {i : Nat}

/-- A bit of the mask of the local inputs. -/
theorem getLsbD_localMask (n : Nat) {k : Nat} (hk : k < 8) :
    (BitVec.ofNat 8 (2 ^ n - 1)).getLsbD k = decide (k < n) := by
  rw [BitVec.getLsbD_ofNat, Nat.testBit_two_pow_sub_one]
  simp [hk]

theorem sampled_of_source {src : InputSource} (h : a.source i = some src) : a.Sampled i := by
  unfold source at h
  split at h
  · assumption
  · cases h

theorem reads_of_source {src : InputSource} (h : a.source i = some src) : a.Reads src :=
  ⟨i, (sampled_of_source h).1, h⟩

/-- The buffer has the level on the wire. -/
theorem inputBit_of_source {src : InputSource} (h : a.source i = some src)
    (chain : Nat → BitVec 8) (loc : BitVec 8) :
    inputBit (a.ioInputReadAll chain loc) i = src.level chain loc := by
  obtain ⟨hcount, hsource⟩ := sampled_of_source h
  rw [source, if_pos ⟨hcount, hsource⟩, Option.some.injEq] at h
  subst h
  rw [inputBit_eq]
  unfold ioInputReadAll
  by_cases hlocal : a.IsLocal i
  · have hhere : a.HasLocalInputs ∧ i >>> 3 = a.configGetDinDevices := hlocal
    have hbit : i &&& 7 < a.localInputs := by
      have hmod : i &&& 7 = i % 8 := Nat.and_two_pow_sub_one_eq_mod i 3
      have hbyte : i / 8 = a.configGetDinDevices := by
        have hshift := hlocal.2
        rwa [Nat.shiftRight_eq_div_pow] at hshift
      unfold ioInputCount at hcount
      rw [if_pos hhere.1] at hcount
      omega
    rw [if_pos hhere, if_pos hlocal, BitVec.getLsbD_and,
      getLsbD_localMask _ (RelayChain.relay_bit_lt i), decide_eq_true hbit, Bool.and_true]
    rfl
  · have haway : ¬(a.HasLocalInputs ∧ i >>> 3 = a.configGetDinDevices) := hlocal
    have hchain : a.dinDevices ≤ ioMaxBytes ∧ i >>> 3 < a.dinDevices :=
      hsource.resolve_left hlocal
    rw [if_neg haway, if_neg hlocal, if_pos hchain]
    rfl

/-- The buffer is zero where nothing is sampled. -/
theorem inputBit_of_not_sampled {chain : Nat → BitVec 8} {loc : BitVec 8}
    (hcount : i < a.ioInputCount) (h : ¬a.Sampled i) :
    inputBit (a.ioInputReadAll chain loc) i = false := by
  have hlocal : ¬(a.HasLocalInputs ∧ i >>> 3 = a.configGetDinDevices) :=
    fun hl => h ⟨hcount, .inl hl⟩
  have hchain : ¬(a.dinDevices ≤ ioMaxBytes ∧ i >>> 3 < a.dinDevices) :=
    fun hc => h ⟨hcount, .inr hc⟩
  rw [inputBit_eq]
  unfold ioInputReadAll
  rw [if_neg hlocal, if_neg hchain, BitVec.getLsbD_zero]

end HaMqtt

/-! ## What a scan does -/

/-- What an update emits is about its input. -/
theorem input_of_mem_update {es : InputEvents} {i : Nat} {active : Bool}
    {e : Fin cfgMaxInputs × Click} (h : e ∈ (inputEventsUpdate es i active).2) :
    (e.1 : Nat) = i := by
  unfold inputEventsUpdate at h
  split at h
  · cases h
  · obtain ⟨c, -, rfl⟩ := List.mem_map.mp (by simpa [CellSweep.visit] using h)
    exact Int.toNat_natCast i

namespace IoScan

variable {s : IoScan} {i : Nat}

theorem input_of_mem_applyBindings {trig : Nat} {call : ScanCall}
    (h : call ∈ s.applyBindings i trig) : call.input = i ∧ ∀ j c, call ≠ .publishEvent j c := by
  obtain ⟨slot, -, hslot⟩ := List.mem_filterMap.mp h
  split at hslot
  · cases hslot
  · split at hslot
    · cases hslot
      exact ⟨rfl, nofun⟩
    · cases hslot

theorem input_of_mem_ieClickCallback {click : Click} {call : ScanCall}
    (h : call ∈ s.ieClickCallback i click) :
    call.input = i ∧ ∀ j c, call = .publishEvent j c → j = i ∧ c = click := by
  rcases List.mem_cons.mp h with rfl | hbind
  · refine ⟨rfl, fun j c heq => ?_⟩
    cases heq
    exact ⟨rfl, rfl⟩
  · obtain ⟨hinput, hne⟩ := input_of_mem_applyBindings hbind
    exact ⟨hinput, fun j c heq => absurd heq (hne j c)⟩

theorem lt_of_isPushbutton {a : HaMqtt} (h : a.configInputIsPushbutton i = true) :
    i < cfgMaxInputs := by
  by_contra hi
  unfold HaMqtt.configInputIsPushbutton at h
  rw [if_pos (Nat.le_of_not_lt hi)] at h
  cases h

/-- What the loop has done before input `n`. -/
structure Scanned (s : IoScan) (cur : Nat → BitVec 8) (n : Nat)
    (acc : InputEvents × List ScanCall) : Prop where
  events : ∀ k : Fin cfgMaxInputs, acc.1 k =
    if (k : Nat) < n ∧ s.app.configInputIsPushbutton k = true then
      ((s.events k).update (inputBit cur k)).1
    else s.events k
  clicks : ∀ i c, .publishEvent i c ∈ acc.2 → ∃ k : Fin cfgMaxInputs, (k : Nat) = i ∧ i < n ∧
    s.app.configInputIsPushbutton i = true ∧ c ∈ ((s.events k).update (inputBit cur k)).2
  reports : ∀ i, i < n → s.app.configInputIsPushbutton i = false → s.primed = true →
    s.changed cur i = true → .publishInput i (inputBit cur i) ∈ acc.2
  switches : ∀ call ∈ acc.2, s.app.configInputIsPushbutton call.input = false →
    call.input < n ∧ s.primed = true ∧ s.changed cur call.input = true

/-- One pass of the loop at a pushbutton: its detector, and its clicks. -/
theorem Scanned.pushbutton {cur : Nat → BitVec 8} {acc : InputEvents × List ScanCall}
    (h : s.Scanned cur i acc) (hpush : s.app.configInputIsPushbutton i = true) :
    s.Scanned cur (i + 1) (s.scanInput cur acc i) := by
  have hi := lt_of_isPushbutton hpush
  have hcell := h.events ⟨i, hi⟩
  rw [if_neg fun hlt => Nat.lt_irrefl i hlt.1] at hcell
  have hvisit := inputEventsUpdate_fin acc.1 ⟨i, hi⟩ (inputBit cur i)
  unfold scanInput
  rw [if_pos hpush]
  constructor
  · intro k
    rw [hvisit]
    by_cases hk : k = ⟨i, hi⟩
    · subst hk
      rw [if_pos ⟨Nat.lt_succ_self i, hpush⟩]
      simp only [CellSweep.visit, Function.update_self, hcell]
    · have hne : (k : Nat) ≠ i := fun heq => hk (Fin.ext heq)
      have hlt : (k : Nat) < i + 1 ↔ (k : Nat) < i := by omega
      simp only [CellSweep.visit, Function.update_of_ne hk, hlt]
      exact h.events k
  · intro j c hmem
    rcases List.mem_append.mp hmem with hold | hnew
    · obtain ⟨k, hk, hlt, hclick⟩ := h.clicks j c hold
      exact ⟨k, hk, by omega, hclick⟩
    · obtain ⟨e, he, hcall⟩ := List.mem_flatMap.mp hnew
      obtain ⟨rfl, rfl⟩ := (input_of_mem_ieClickCallback hcall).2 j c rfl
      have hinput := input_of_mem_update he
      rw [hvisit] at he
      obtain ⟨c, hc, rfl⟩ := List.mem_map.mp (by simpa [CellSweep.visit] using he)
      rw [hcell] at hc
      exact ⟨⟨i, hi⟩, rfl, Nat.lt_succ_self i, hpush, hc⟩
  · intro j hj hswitch hprimed hchanged
    have hne : j ≠ i := by
      rintro rfl
      rw [hpush] at hswitch
      cases hswitch
    exact List.mem_append_left _ (h.reports j (by omega) hswitch hprimed hchanged)
  · intro call hmem hswitch
    rcases List.mem_append.mp hmem with hold | hnew
    · obtain ⟨hlt, hrest⟩ := h.switches call hold hswitch
      exact ⟨by omega, hrest⟩
    · obtain ⟨e, he, hcall⟩ := List.mem_flatMap.mp hnew
      rw [(input_of_mem_ieClickCallback hcall).1, input_of_mem_update he, hpush] at hswitch
      cases hswitch

/-- One pass of the loop at a switch. -/
theorem Scanned.switch {cur : Nat → BitVec 8} {acc : InputEvents × List ScanCall}
    (h : s.Scanned cur i acc) (hswitch : s.app.configInputIsPushbutton i = false) :
    s.Scanned cur (i + 1) (s.scanInput cur acc i) := by
  have hevents (k : Fin cfgMaxInputs) : acc.1 k =
      if (k : Nat) < i + 1 ∧ s.app.configInputIsPushbutton k = true then
        ((s.events k).update (inputBit cur k)).1
      else s.events k := by
    rw [h.events k]
    by_cases hk : (k : Nat) = i
    · rw [hk, hswitch]
      simp
    · have hlt : (k : Nat) < i + 1 ↔ (k : Nat) < i := by omega
      simp only [hlt]
  unfold scanInput
  rw [if_neg (by rw [hswitch]; exact Bool.false_ne_true)]
  by_cases hreport : (s.primed && s.changed cur i) = true
  · rw [if_pos hreport]
    rw [Bool.and_eq_true] at hreport
    refine ⟨hevents, fun j c hmem => ?_, fun j hj hsw hprimed hchanged => ?_,
      fun call hmem hsw => ?_⟩
    · rcases List.mem_append.mp hmem with hold | hnew
      · obtain ⟨k, hk, hlt, hclick⟩ := h.clicks j c hold
        exact ⟨k, hk, by omega, hclick⟩
      · rcases List.mem_cons.mp hnew with heq | hbind
        · cases heq
        · exact absurd rfl ((input_of_mem_applyBindings hbind).2 j c)
    · by_cases hji : j = i
      · subst hji
        exact List.mem_append_right _ (List.mem_cons_self ..)
      · exact List.mem_append_left _ (h.reports j (by omega) hsw hprimed hchanged)
    · rcases List.mem_append.mp hmem with hold | hnew
      · obtain ⟨hlt, hrest⟩ := h.switches call hold hsw
        exact ⟨by omega, hrest⟩
      · have hinput : call.input = i := by
          rcases List.mem_cons.mp hnew with rfl | hbind
          · rfl
          · exact (input_of_mem_applyBindings hbind).1
        rw [hinput]
        exact ⟨Nat.lt_succ_self i, hreport⟩
  · rw [if_neg hreport]
    refine ⟨hevents, fun j c hmem => ?_, fun j hj hsw hprimed hchanged => ?_,
      fun call hmem hsw => ?_⟩
    · obtain ⟨k, hk, hlt, hclick⟩ := h.clicks j c hmem
      exact ⟨k, hk, by omega, hclick⟩
    · by_cases hji : j = i
      · subst hji
        rw [hprimed, hchanged] at hreport
        exact absurd rfl hreport
      · exact h.reports j (by omega) hsw hprimed hchanged
    · obtain ⟨hlt, hrest⟩ := h.switches call hmem hsw
      exact ⟨by omega, hrest⟩

/-- **What the loop does**, input by input. -/
theorem scanned_scanLoop (s : IoScan) (cur : Nat → BitVec 8) :
    s.Scanned cur s.app.ioInputCount (s.scanLoop cur) := by
  refine Loops.foldl_range (P := s.Scanned cur) (fun i acc _ h => ?_) ⟨?_, ?_, ?_, ?_⟩
  · cases hpush : s.app.configInputIsPushbutton i with
    | true => exact h.pushbutton hpush
    | false => exact h.switch hpush
  · simp
  · simp
  · simp
  · simp

/-- A scan is its loop; without inputs, both do nothing. -/
theorem scan_eq_loop (s : IoScan) (chain : Nat → BitVec 8) (loc : BitVec 8) :
    (s.step (.scan chain loc)).events = (s.scanLoop (s.app.ioInputReadAll chain loc)).1 ∧
      s.calls (.scan chain loc) = (s.scanLoop (s.app.ioInputReadAll chain loc)).2 := by
  change (s.dinChainScan chain loc).1.events = _ ∧ (s.dinChainScan chain loc).2 = _
  unfold dinChainScan
  by_cases hbytes : s.scanBytes = 0
  · have hcount : s.app.ioInputCount = 0 := by
      unfold scanBytes at hbytes
      omega
    rw [if_pos hbytes]
    unfold scanLoop
    rw [hcount]
    exact ⟨rfl, rfl⟩
  · rw [if_neg hbytes]
    exact ⟨rfl, rfl⟩

end IoScan

end HomeAuto
