import HomeAuto.HaPublish

/-!
# The steps of the post-connect sequence

`MQTTAppPostConnect` cuts one step counter into blocks whose bounds come from the device
counts.  `HaMqtt.Due` says which items a configuration asks for and `HaMqtt.stepOf` which
step an item belongs to; the blocks are a partition, in that a step issues an item exactly
when the item is due and belongs to it.  The items of the first `m` steps are `issued m`.
-/

namespace HomeAuto

namespace HaMqtt

variable (a : HaMqtt)

/-- What the current configuration asks the sequence to issue. -/
def Due : PubItem → Prop
  | .status | .coverSub => True
  | .relayDiscovery relay => relay < a.relays
  | .relayState relay => relay < a.relays ∧
      a.hub.outCfg.outputCtrlIsShutterMember relay = false
  | .relaySetSub | .relayPulseSub => 0 < a.relays
  | .inputStale input | .inputDiscovery input => input < a.ioInputCount
  | .inputState input => input < a.ioInputCount ∧ a.configInputIsPushbutton input = false
  | .coverDiscovery shutter => shutter < cfgMaxShutters
  | .coverState shutter => shutter < cfgMaxShutters ∧ a.outputCtrlShutterValid shutter = true
  | .tempDiscovery => a.hasTempSensor = true

/-- The step an item belongs to. -/
def stepOf : PubItem → Nat
  | .status => 1
  | .relayDiscovery relay => 2 + relay
  | .relayState relay => 2 + a.relays + relay
  | .relaySetSub | .relayPulseSub => a.subStep
  | .inputStale input | .inputDiscovery input => a.subStep + 1 + input
  | .inputState input => a.subStep + a.ioInputCount + 1 + input
  | .coverDiscovery shutter => a.coverBase + 1 + shutter
  | .coverState shutter => a.coverBase + cfgMaxShutters + 1 + shutter
  | .coverSub => a.coverSubStep
  | .tempDiscovery => a.coverSubStep + 1

variable {a} {item : PubItem} {step : Nat}

/-- The bounds of the blocks, as sums. -/
theorem steps_eq (a : HaMqtt) : a.subStep = 2 + 2 * a.relays ∧
    a.coverBase = a.subStep + 2 * a.ioInputCount ∧
    a.coverSubStep = a.coverBase + 2 * cfgMaxShutters + 1 := ⟨rfl, rfl, rfl⟩

/-- **What a step can be.**  A property of every block of the sequence is a property of
every step. -/
theorem mqttAppPostConnect_elim {P : List PubItem → Prop} (hstep : 1 ≤ step) (none : P [])
    (status : step = 1 → P [.status])
    (relayDiscovery : 2 ≤ step → step ≤ 1 + a.relays → P [.relayDiscovery (step - 2)])
    (relayState : 2 + a.relays ≤ step → step ≤ 1 + 2 * a.relays →
      a.hub.outCfg.outputCtrlIsShutterMember ((step - (2 + a.relays) : Nat) : Int) = false →
        P [.relayState (step - (2 + a.relays))])
    (relaySub : step = a.subStep → 0 < a.relays → P [.relaySetSub, .relayPulseSub])
    (input : a.subStep < step → step ≤ a.subStep + a.ioInputCount →
      P [.inputStale (step - a.subStep - 1), .inputDiscovery (step - a.subStep - 1)])
    (inputState : a.subStep + a.ioInputCount < step → step ≤ a.subStep + 2 * a.ioInputCount →
      a.configInputIsPushbutton (step - a.subStep - a.ioInputCount - 1) = false →
        P [.inputState (step - a.subStep - a.ioInputCount - 1)])
    (coverDiscovery : a.coverBase < step → step ≤ a.coverBase + cfgMaxShutters →
      P [.coverDiscovery (step - a.coverBase - 1)])
    (coverState : a.coverBase + cfgMaxShutters < step →
      step ≤ a.coverBase + 2 * cfgMaxShutters →
      a.outputCtrlShutterValid (step - a.coverBase - cfgMaxShutters - 1) = true →
        P [.coverState (step - a.coverBase - cfgMaxShutters - 1)])
    (coverSub : step = a.coverSubStep → P [.coverSub])
    (temp : a.hasTempSensor = true → step = a.coverSubStep + 1 → P [.tempDiscovery]) :
    P (a.mqttAppPostConnect step) := by
  obtain ⟨hsub, hbase, hcover⟩ := a.steps_eq
  unfold mqttAppPostConnect
  by_cases h1 : step = 1
  · rw [if_pos h1]
    exact status h1
  rw [if_neg h1]
  by_cases h2 : step ≤ 1 + a.relays
  · rw [if_pos h2]
    exact relayDiscovery (by omega) h2
  rw [if_neg h2]
  by_cases h3 : step ≤ 1 + 2 * a.relays
  · rw [if_pos h3]
    by_cases hmember :
        a.hub.outCfg.outputCtrlIsShutterMember ((step - (2 + a.relays) : Nat) : Int) = true
    · rw [if_pos hmember]
      exact none
    · rw [if_neg hmember]
      exact relayState (by omega) h3 (Bool.eq_false_iff.mpr hmember)
  rw [if_neg h3]
  by_cases h4 : step = a.subStep
  · rw [if_pos h4]
    by_cases hrelays : 0 < a.relays
    · rw [if_pos hrelays]
      exact relaySub h4 hrelays
    · rw [if_neg hrelays]
      exact none
  rw [if_neg h4]
  by_cases h5 : step ≤ a.subStep + a.ioInputCount
  · rw [if_pos h5]
    exact input (by omega) h5
  rw [if_neg h5]
  by_cases h6 : step ≤ a.subStep + 2 * a.ioInputCount
  · rw [if_pos h6]
    by_cases hpush : a.configInputIsPushbutton (step - a.subStep - a.ioInputCount - 1) = true
    · rw [if_pos hpush]
      exact none
    · rw [if_neg hpush]
      exact inputState (by omega) h6 (Bool.eq_false_iff.mpr hpush)
  rw [if_neg h6]
  by_cases h7 : step ≤ a.coverBase + cfgMaxShutters
  · rw [if_pos h7]
    exact coverDiscovery (by omega) h7
  rw [if_neg h7]
  by_cases h8 : step ≤ a.coverBase + 2 * cfgMaxShutters
  · rw [if_pos h8]
    by_cases hvalid : a.outputCtrlShutterValid (step - a.coverBase - cfgMaxShutters - 1) = true
    · rw [if_pos hvalid]
      exact coverState (by omega) h8 hvalid
    · rw [if_neg hvalid]
      exact none
  rw [if_neg h8]
  by_cases h9 : step = a.coverSubStep
  · rw [if_pos h9]
    exact coverSub h9
  rw [if_neg h9]
  by_cases h10 : a.hasTempSensor = true ∧ step = a.coverSubStep + 1
  · rw [if_pos h10]
    exact temp h10.1 h10.2
  · rw [if_neg h10]
    exact none

/-- Every item of a step is due, and belongs to that step. -/
theorem due_of_mem (hstep : 1 ≤ step) (h : item ∈ a.mqttAppPostConnect step) :
    a.Due item ∧ step = a.stepOf item := by
  obtain ⟨hsub, hbase, hcover⟩ := a.steps_eq
  have hone (x : PubItem) (hx : a.Due x ∧ step = a.stepOf x) :
      ∀ y ∈ [x], a.Due y ∧ step = a.stepOf y := by
    intro y hy
    rw [List.mem_singleton.mp hy]
    exact hx
  have htwo (x y : PubItem) (hx : a.Due x ∧ step = a.stepOf x)
      (hy : a.Due y ∧ step = a.stepOf y) : ∀ z ∈ [x, y], a.Due z ∧ step = a.stepOf z := by
    intro z hz
    rcases List.mem_cons.mp hz with heq | hz
    · rw [heq]
      exact hx
    · exact hone y hy z hz
  revert item
  apply mqttAppPostConnect_elim
    (P := fun items => ∀ {item}, item ∈ items → a.Due item ∧ step = a.stepOf item) hstep nofun
  · intro h1
    exact hone .status ⟨trivial, h1⟩ _
  · intro hlo hhi
    refine hone _ ?_ _
    simp only [Due, stepOf]
    omega
  · intro hlo hhi hmember
    refine hone _ ?_ _
    simp only [Due, stepOf]
    exact ⟨⟨by omega, hmember⟩, by omega⟩
  · intro hsubStep hrelays
    exact htwo .relaySetSub .relayPulseSub ⟨hrelays, hsubStep⟩ ⟨hrelays, hsubStep⟩ _
  · intro hlo hhi
    refine htwo _ _ ?_ ?_ _
    · simp only [Due, stepOf]
      omega
    · simp only [Due, stepOf]
      omega
  · intro hlo hhi hpush
    refine hone _ ?_ _
    simp only [Due, stepOf]
    exact ⟨⟨by omega, hpush⟩, by omega⟩
  · intro hlo hhi
    refine hone _ ?_ _
    simp only [Due, stepOf]
    omega
  · intro hlo hhi hvalid
    refine hone _ ?_ _
    simp only [Due, stepOf]
    exact ⟨⟨by omega, hvalid⟩, by omega⟩
  · intro hlast
    exact hone .coverSub ⟨trivial, hlast⟩ _
  · intro htemp hlast
    exact hone .tempDiscovery ⟨htemp, hlast⟩ _

/-- A due item is issued by the step it belongs to. -/
theorem mem_of_due (h : a.Due item) (hstep : step = a.stepOf item) :
    item ∈ a.mqttAppPostConnect step := by
  obtain ⟨hsub, hbase, hcover⟩ := a.steps_eq
  unfold mqttAppPostConnect
  cases item with
  | status =>
      change step = 1 at hstep
      rw [if_pos hstep]
      exact List.mem_singleton.mpr rfl
  | relayDiscovery relay =>
      change relay < a.relays at h
      change step = 2 + relay at hstep
      have hindex : step - 2 = relay := by omega
      rw [if_neg (by omega), if_pos (by omega), hindex]
      exact List.mem_singleton.mpr rfl
  | relayState relay =>
      obtain ⟨hlt, hmember⟩ := h
      change step = 2 + a.relays + relay at hstep
      have hindex : step - (2 + a.relays) = relay := by omega
      rw [if_neg (by omega), if_neg (by omega), if_pos (by omega), hindex, hmember]
      exact List.mem_singleton.mpr rfl
  | relaySetSub =>
      change 0 < a.relays at h
      change step = a.subStep at hstep
      rw [if_neg (by omega), if_neg (by omega), if_neg (by omega), if_pos hstep, if_pos h]
      exact List.mem_cons_self
  | relayPulseSub =>
      change 0 < a.relays at h
      change step = a.subStep at hstep
      rw [if_neg (by omega), if_neg (by omega), if_neg (by omega), if_pos hstep, if_pos h]
      exact List.mem_cons_of_mem _ (List.mem_singleton.mpr rfl)
  | inputStale input =>
      change input < a.ioInputCount at h
      change step = a.subStep + 1 + input at hstep
      have hindex : step - a.subStep - 1 = input := by omega
      rw [if_neg (by omega), if_neg (by omega), if_neg (by omega), if_neg (by omega),
        if_pos (by omega), hindex]
      exact List.mem_cons_self
  | inputDiscovery input =>
      change input < a.ioInputCount at h
      change step = a.subStep + 1 + input at hstep
      have hindex : step - a.subStep - 1 = input := by omega
      rw [if_neg (by omega), if_neg (by omega), if_neg (by omega), if_neg (by omega),
        if_pos (by omega), hindex]
      exact List.mem_cons_of_mem _ (List.mem_singleton.mpr rfl)
  | inputState input =>
      obtain ⟨hlt, hpush⟩ := h
      change step = a.subStep + a.ioInputCount + 1 + input at hstep
      have hindex : step - a.subStep - a.ioInputCount - 1 = input := by omega
      rw [if_neg (by omega), if_neg (by omega), if_neg (by omega), if_neg (by omega),
        if_neg (by omega), if_pos (by omega), hindex, hpush]
      exact List.mem_singleton.mpr rfl
  | coverDiscovery shutter =>
      change shutter < cfgMaxShutters at h
      change step = a.coverBase + 1 + shutter at hstep
      have hindex : step - a.coverBase - 1 = shutter := by omega
      rw [if_neg (by omega), if_neg (by omega), if_neg (by omega), if_neg (by omega),
        if_neg (by omega), if_neg (by omega), if_pos (by omega), hindex]
      exact List.mem_singleton.mpr rfl
  | coverState shutter =>
      obtain ⟨hlt, hvalid⟩ := h
      change step = a.coverBase + cfgMaxShutters + 1 + shutter at hstep
      have hindex : step - a.coverBase - cfgMaxShutters - 1 = shutter := by omega
      rw [if_neg (by omega), if_neg (by omega), if_neg (by omega), if_neg (by omega),
        if_neg (by omega), if_neg (by omega), if_neg (by omega), if_pos (by omega), hindex,
        if_pos hvalid]
      exact List.mem_singleton.mpr rfl
  | coverSub =>
      change step = a.coverSubStep at hstep
      rw [if_neg (by omega), if_neg (by omega), if_neg (by omega), if_neg (by omega),
        if_neg (by omega), if_neg (by omega), if_neg (by omega), if_neg (by omega), if_pos hstep]
      exact List.mem_singleton.mpr rfl
  | tempDiscovery =>
      change step = a.coverSubStep + 1 at hstep
      rw [if_neg (by omega), if_neg (by omega), if_neg (by omega), if_neg (by omega),
        if_neg (by omega), if_neg (by omega), if_neg (by omega), if_neg (by omega),
        if_neg (by omega), if_pos ⟨h, hstep⟩]
      exact List.mem_singleton.mpr rfl

theorem nodup_mqttAppPostConnect (hstep : 1 ≤ step) : (a.mqttAppPostConnect step).Nodup := by
  have hone (item : PubItem) : [item].Nodup := List.nodup_singleton item
  have htwo {x y : PubItem} (h : x ≠ y) : [x, y].Nodup :=
    List.nodup_cons.mpr ⟨List.mem_singleton.not.mpr h, hone y⟩
  apply mqttAppPostConnect_elim hstep List.nodup_nil
  · exact fun _ => hone _
  · exact fun _ _ => hone _
  · exact fun _ _ _ => hone _
  · exact fun _ _ => htwo nofun
  · exact fun _ _ => htwo nofun
  · exact fun _ _ _ => hone _
  · exact fun _ _ => hone _
  · exact fun _ _ _ => hone _
  · exact fun _ => hone _
  · exact fun _ _ => hone _

/-- The items of the first `m` steps, in order. -/
def issued (a : HaMqtt) (m : Nat) : List PubItem :=
  (List.range' 1 m).flatMap a.mqttAppPostConnect

/-- The items of the first steps are those that are due and belong to them. -/
theorem mem_issued_iff {m : Nat} : item ∈ a.issued m ↔ a.Due item ∧ a.stepOf item ≤ m := by
  rw [issued, List.mem_flatMap]
  constructor
  · intro h
    obtain ⟨step, hstep, hmem⟩ := h
    rw [List.mem_range'_1] at hstep
    obtain ⟨hdue, heq⟩ := due_of_mem hstep.1 hmem
    exact ⟨hdue, by omega⟩
  · intro h
    have hpos : 1 ≤ a.stepOf item := by
      obtain ⟨hsub, hbase, hcover⟩ := a.steps_eq
      cases item <;> simp only [stepOf] <;> omega
    exact ⟨a.stepOf item, List.mem_range'_1.mpr ⟨hpos, by omega⟩, mem_of_due h.1 rfl⟩

/-- No item is issued twice. -/
theorem nodup_issued (a : HaMqtt) (m : Nat) : (a.issued m).Nodup := by
  rw [issued, List.nodup_flatMap]
  refine ⟨fun step hstep => nodup_mqttAppPostConnect (List.mem_range'_1.mp hstep).1, ?_⟩
  have hne : (List.range' 1 m).Pairwise fun s t => 1 ≤ s ∧ 1 ≤ t ∧ s ≠ t := by
    rw [List.pairwise_iff_getElem]
    intro i j hi hj hij
    rw [List.getElem_range', List.getElem_range']
    omega
  refine hne.imp fun {s t} hst => ?_
  intro item hs ht
  exact hst.2.2 ((due_of_mem hst.1 hs).2.trans (due_of_mem hst.2.1 ht).2.symm)

/-- The last item of the sequence. -/
def lastItem (a : HaMqtt) : PubItem := if a.hasTempSensor = true then .tempDiscovery else .coverSub

theorem due_lastItem (a : HaMqtt) : a.Due a.lastItem := by
  unfold lastItem
  split
  · assumption
  · trivial

/-- The bound that `product_on_connect` computes is the step of the last item. -/
theorem stepOf_lastItem (a : HaMqtt) : a.stepOf a.lastItem = a.lastStep := by
  unfold lastItem lastStep
  split
  · rfl
  · rfl

/-- No item comes after the last one. -/
theorem stepOf_le_lastStep (h : a.Due item) : a.stepOf item ≤ a.lastStep := by
  obtain ⟨hsub, hbase, hcover⟩ := a.steps_eq
  have hlast : a.coverSubStep ≤ a.lastStep := Nat.le_add_right _ _
  cases item with
  | tempDiscovery =>
      have hdue : a.lastItem = .tempDiscovery := if_pos h
      exact (a.stepOf_lastItem.symm.trans (congrArg a.stepOf hdue)).ge
  | status => simp only [stepOf]; omega
  | coverSub => exact hlast
  | relaySetSub => simp only [stepOf]; omega
  | relayPulseSub => simp only [stepOf]; omega
  | relayDiscovery relay => simp only [Due] at h; simp only [stepOf]; omega
  | relayState relay => simp only [Due] at h; simp only [stepOf]; omega
  | inputStale input => simp only [Due] at h; simp only [stepOf]; omega
  | inputDiscovery input => simp only [Due] at h; simp only [stepOf]; omega
  | inputState input => simp only [Due] at h; simp only [stepOf]; omega
  | coverDiscovery shutter => simp only [Due] at h; simp only [stepOf]; omega
  | coverState shutter => simp only [Due] at h; simp only [stepOf]; omega

/-- **The sequence is exact.**  The first `m` steps issue every due item exactly when `m`
reaches the step of the last one. -/
theorem issued_complete_iff (a : HaMqtt) (m : Nat) :
    (∀ item, item ∈ a.issued m ↔ a.Due item) ↔ a.lastStep ≤ m := by
  constructor
  · intro h
    have hmem := (h a.lastItem).mpr a.due_lastItem
    rw [← a.stepOf_lastItem]
    exact (mem_issued_iff.mp hmem).2
  · intro hm item
    rw [mem_issued_iff]
    constructor
    · intro h
      exact h.1
    · intro hdue
      exact ⟨hdue, (stepOf_le_lastStep hdue).trans hm⟩

/-! ## Configurations with the same sequence -/

/-- Two states in which the sequence is the same: what the step counter is cut by, and
which items are left out. -/
structure SameLayout (a b : HaMqtt) : Prop where
  relays : b.relays = a.relays
  inputs : b.ioInputCount = a.ioInputCount
  members : b.hub.outCfg.outputCtrlIsShutterMember = a.hub.outCfg.outputCtrlIsShutterMember
  pushbuttons : b.configInputIsPushbutton = a.configInputIsPushbutton
  valid : b.outputCtrlShutterValid = a.outputCtrlShutterValid
  temp : b.hasTempSensor = a.hasTempSensor

namespace SameLayout

variable {a b c : HaMqtt}

theorem refl (a : HaMqtt) : SameLayout a a := ⟨rfl, rfl, rfl, rfl, rfl, rfl⟩

theorem symm (h : SameLayout a b) : SameLayout b a where
  relays := h.relays.symm
  inputs := h.inputs.symm
  members := h.members.symm
  pushbuttons := h.pushbuttons.symm
  valid := h.valid.symm
  temp := h.temp.symm

theorem trans (hab : SameLayout a b) (hbc : SameLayout b c) : SameLayout a c where
  relays := hbc.relays.trans hab.relays
  inputs := hbc.inputs.trans hab.inputs
  members := hbc.members.trans hab.members
  pushbuttons := hbc.pushbuttons.trans hab.pushbuttons
  valid := hbc.valid.trans hab.valid
  temp := hbc.temp.trans hab.temp

theorem steps (h : SameLayout a b) : b.subStep = a.subStep ∧ b.coverBase = a.coverBase ∧
    b.coverSubStep = a.coverSubStep := by
  simp only [subStep, coverBase, coverSubStep, h.relays, h.inputs, and_self]

theorem mqttAppPostConnect (h : SameLayout a b) (step : Nat) :
    b.mqttAppPostConnect step = a.mqttAppPostConnect step := by
  obtain ⟨hsub, hbase, hcover⟩ := h.steps
  simp only [HaMqtt.mqttAppPostConnect, hsub, hbase, hcover, h.relays, h.inputs, h.members,
    h.pushbuttons, h.valid, h.temp]

theorem due (h : SameLayout a b) (item : PubItem) : b.Due item ↔ a.Due item := by
  cases item <;>
    simp only [Due, h.relays, h.inputs, h.members, h.pushbuttons, h.valid, h.temp]

end SameLayout

end HaMqtt

end HomeAuto
