import HomeAuto.RoomRecord

/-!
# The tags of the output settings (`product_ssi_handler`)

The texts that the server-side tags insert into the pages, from the records in RAM.  The
insert buffer has 800 bytes; each tag stops when its next piece would not fit.
-/

namespace HomeAuto

/-- `LWIP_HTTPD_MAX_TAG_INSERT_LEN`. -/
def tagInsertLen : Nat := 800

/-- The defined shutter slots, in slot order. -/
def definedSlots (r : OutputRecord) : List (Fin cfgMaxShutters × ShutterSlot) :=
  (List.finRange cfgMaxShutters).filterMap fun i : Fin cfgMaxShutters =>
    (r.outCfg.configShutterGet i).map fun s => (i, s)

/-- `usnprintf(tmp, sizeof(tmp), "%d:%d:%u;", up, down, travel)`, without the `;`. -/
def shutterText (s : ShutterSlot) : CStr :=
  fmtDecimal s.up ++ 58 :: (fmtDecimal s.down ++ 58 :: fmtDecimal s.travelMs)

/-- The tag `SHUTTERS`. -/
def ssiShutters (r : OutputRecord) : CStr :=
  Delimited.emit (fun pos len => decide (pos + len < tagInsertLen)) 0
    ((definedSlots r).map fun p => ((shutterText p.2) ++ [59]).take 23)

/-- A name as a block of 12 bytes, blank where it has a NUL. -/
def nameBlock (name : Fin cfgNameLen → UInt8) : CStr :=
  (List.finRange cfgNameLen).map fun j =>
    if j.val < cfgNameLen - 1 ∧ name j ≠ 0 then name j else 32

/-- Blocks go in while all of the next one fits. -/
def emitBlocks (blocks : List CStr) : CStr :=
  Delimited.emit (fun pos len => decide (pos + len ≤ tagInsertLen)) 0 blocks

/-- The tag `SHNAMES`. -/
def ssiShNames (r : OutputRecord) : CStr :=
  emitBlocks ((definedSlots r).map fun p => nameBlock (r.shName p.1))

/-- A comma list of small numbers, each printed into `tmp[8]`. -/
def emitRooms (rooms : List UInt8) : CStr :=
  Delimited.emit (fun pos len => decide (pos + len < tagInsertLen)) 0
    ((Delimited.separated 44 (rooms.map fun v => fmtDecimal v.toNat)).map (·.take 7))

/-- The tag `SHROOMS`. -/
def ssiShRooms (r : OutputRecord) (rooms : RoomRecord) : CStr :=
  emitRooms ((definedSlots r).map fun p => rooms.shRoom p.1)

/-- How many outputs `OUTMODES` and `OUTTMO` list: at most 16. -/
def listedOutputs (devices : Nat) : Nat := min (devices * 8) 16

/-- The tag `OUTMODES`. -/
def ssiOutModes (r : OutputRecord) (devices : Nat) : CStr :=
  Delimited.emit (fun pos len => decide (pos + len < tagInsertLen)) 0
    ((List.range (listedOutputs devices)).map fun i : Nat =>
      [if r.outCfg.configOutMode i = outModeTimed then 49 else 48])

/-- The loop of `OUTTMO` over the printed durations. -/
def emitTmo : (pos : Nat) → List CStr → CStr
  | _, [] => []
  | pos, t :: ts =>
      if tagInsertLen ≤ pos + t.length + 2 then []
      else if pos = 0 then t ++ emitTmo t.length ts
      else 44 :: (t ++ emitTmo (pos + 1 + t.length) ts)

/-- The tag `OUTTMO`; each duration is printed into `tmp[12]`. -/
def ssiOutTmo (r : OutputRecord) (devices : Nat) : CStr :=
  emitTmo 0 ((List.range (listedOutputs devices)).map fun i : Nat =>
    (fmtDecimal (r.outCfg.configOutTimedMs i)).take 11)

/-- The tag `RMNAMES`. -/
def ssiRmNames (rooms : RoomRecord) : CStr :=
  emitBlocks ((List.finRange cfgMaxRooms).map fun i => nameBlock (rooms.roomName i))

/-- The tag `OUTROOMS`. -/
def ssiOutRooms (rooms : RoomRecord) (devices : Nat) : CStr :=
  emitRooms ((List.range (devices * 8)).map rooms.configOutRoom)

/-! ## What the tags hold -/

theorem length_definedSlots_le (r : OutputRecord) :
    (definedSlots r).length ≤ cfgMaxShutters := by
  have h := List.length_filterMap_le (fun i : Fin cfgMaxShutters =>
    (r.outCfg.configShutterGet i).map fun s => (i, s)) (List.finRange cfgMaxShutters)
  rwa [List.length_finRange] at h

theorem get_of_mem_definedSlots {r : OutputRecord} {i : Fin cfgMaxShutters} {s : ShutterSlot}
    (h : (i, s) ∈ definedSlots r) : r.outCfg.configShutterGet i = some s := by
  obtain ⟨j, _, hj⟩ := List.mem_filterMap.mp h
  obtain ⟨t, ht, heq⟩ := Option.map_eq_some_iff.mp hj
  cases heq
  exact ht

/-- A slot is printed in at most 18 bytes. -/
theorem length_shutterText_le {r : OutputRecord} {i : Fin cfgMaxShutters} {s : ShutterSlot}
    (h : r.outCfg.configShutterGet i = some s) : (shutterText s).length ≤ 18 := by
  rw [r.configShutterGet_outCfg] at h
  split at h
  · cases h
  · cases h
    have hup := length_fmtDecimal_le (n := (r.shUp i).toNat) (k := 3) (by decide)
      (by have := (r.shUp i).toNat_lt; omega)
    have hdown := length_fmtDecimal_le (n := (r.shDown i).toNat) (k := 3) (by decide)
      (by have := (r.shDown i).toNat_lt; omega)
    have htravel := length_fmtDecimal_le (n := (r.shTravelMs i).toNat) (k := 10) (by decide)
      (by have := (r.shTravelMs i).isLt; omega)
    simp only [shutterText, List.length_append, List.length_cons]
    omega

/-- The shutter list is never cut. -/
theorem ssiShutters_eq (r : OutputRecord) :
    ssiShutters r = (((definedSlots r).map fun p => shutterText p.2).map (· ++ [59])).flatten := by
  have htake : ((definedSlots r).map fun p => (shutterText p.2 ++ [59]).take 23) =
      ((definedSlots r).map fun p => shutterText p.2).map (· ++ [59]) := by
    rw [List.map_map]
    refine List.map_congr_left fun p hp => List.take_of_length_le ?_
    have hlen := length_shutterText_le (get_of_mem_definedSlots hp)
    rw [List.length_append, List.length_singleton]
    omega
  have hle : ∀ e ∈ ((definedSlots r).map fun p => shutterText p.2).map (· ++ [59]),
      e.length ≤ 19 := by
    intro e he
    rw [List.map_map] at he
    obtain ⟨p, hp, rfl⟩ := List.mem_map.mp he
    have hlen := length_shutterText_le (get_of_mem_definedSlots hp)
    simp only [Function.comp, List.length_append, List.length_singleton]
    omega
  have hlen := Delimited.length_flatten_le hle
  rw [List.length_map, List.length_map] at hlen
  have hslots : (definedSlots r).length ≤ 32 := length_definedSlots_le r
  rw [ssiShutters, htake]
  refine Delimited.emit_eq_flatten fun p l hle => decide_eq_true ?_
  unfold tagInsertLen
  omega

theorem not_mem_shutterText (s : ShutterSlot) : 59 ∉ shutterText s := by
  simp [shutterText, not_mem_fmtDecimal (show isDecDigit 59 = false by decide)]

/-- The numbers of one piece of the list. -/
theorem splitOn_shutterText (s : ShutterSlot) : (shutterText s).splitOn 58 =
    [fmtDecimal s.up, fmtDecimal s.down, fmtDecimal s.travelMs] := by
  have hsep : ∀ d ∈ [fmtDecimal s.up, fmtDecimal s.down, fmtDecimal s.travelMs],
      (58 : UInt8) ∉ d := by
    simp [not_mem_fmtDecimal (show isDecDigit 58 = false by decide)]
  simpa [shutterText] using List.splitOn_intercalate 58 hsep (by simp)

/-- A script that reads the pieces of the list reads the defined slots. -/
theorem filterMap_ssiShutters {β : Type} {read : CStr → Option β} {value : ShutterSlot → β}
    (hend : read [] = none) (hread : ∀ s, read (shutterText s) = some (value s))
    (r : OutputRecord) :
    ((ssiShutters r).splitOn 59).filterMap read = (definedSlots r).map fun p => value p.2 := by
  have hsplit : (ssiShutters r).splitOn 59 =
      ((definedSlots r).map fun p => shutterText p.2) ++ [[]] := by
    rw [ssiShutters_eq]
    refine Delimited.splitOn_terminated fun e he => ?_
    obtain ⟨p, _, rfl⟩ := List.mem_map.mp he
    exact not_mem_shutterText p.2
  rw [hsplit, List.filterMap_append, List.filterMap_map, List.filterMap_cons_none hend,
    List.filterMap_nil, List.append_nil, ← List.filterMap_eq_map]
  exact List.filterMap_congr fun p _ => hread p.2

theorem length_nameBlock (name : Fin cfgNameLen → UInt8) :
    (nameBlock name).length = cfgNameLen := by
  rw [nameBlock, List.length_map, List.length_finRange]

/-- Up to 66 blocks go into the buffer whole. -/
theorem emitBlocks_eq {blocks : List CStr} (hw : ∀ b ∈ blocks, b.length = cfgNameLen)
    (hlen : blocks.length ≤ 66) : emitBlocks blocks = blocks.flatten := by
  have htotal := Delimited.length_flatten_uniform hw
  unfold cfgNameLen at htotal
  refine Delimited.emit_eq_flatten fun p l hle => decide_eq_true ?_
  unfold tagInsertLen
  omega

/-- The name list is never cut. -/
theorem ssiShNames_eq (r : OutputRecord) :
    ssiShNames r = ((definedSlots r).map fun p => nameBlock (r.shName p.1)).flatten := by
  refine emitBlocks_eq (fun b hb => ?_) ?_
  · obtain ⟨p, _, rfl⟩ := List.mem_map.mp hb
    exact length_nameBlock _
  · have h : (definedSlots r).length ≤ 32 := length_definedSlots_le r
    rw [List.length_map]
    omega

/-- Up to 199 rooms go into the buffer whole. -/
theorem emitRooms_eq {rooms : List UInt8} (hlen : rooms.length ≤ 199) :
    emitRooms rooms = (Delimited.separated 44 (rooms.map fun v => fmtDecimal v.toNat)).flatten := by
  have hdigits (v : UInt8) : (fmtDecimal v.toNat).length ≤ 3 :=
    length_fmtDecimal_le (by decide) (by have := v.toNat_lt; omega)
  have hle : ∀ e ∈ Delimited.separated 44 (rooms.map fun v => fmtDecimal v.toNat),
      e.length ≤ 4 := by
    intro e he
    cases rooms with
    | nil => cases he
    | cons v rooms =>
        rcases List.mem_cons.mp he with rfl | he
        · exact Nat.le_succ_of_le (hdigits v)
        · obtain ⟨d, hd, rfl⟩ := List.mem_map.mp he
          obtain ⟨x, _, rfl⟩ := List.mem_map.mp hd
          exact Nat.succ_le_succ (hdigits x)
  have htake : (Delimited.separated 44 (rooms.map fun v => fmtDecimal v.toNat)).map (·.take 7) =
      Delimited.separated 44 (rooms.map fun v => fmtDecimal v.toNat) := by
    conv_rhs => rw [← List.map_id (Delimited.separated 44 (rooms.map fun v => fmtDecimal v.toNat))]
    exact List.map_congr_left fun e he => List.take_of_length_le (by have := hle e he; omega)
  have hcount : (Delimited.separated 44 (rooms.map fun v => fmtDecimal v.toNat)).length =
      rooms.length := by
    cases rooms <;> simp [Delimited.separated]
  have htotal := Delimited.length_flatten_le hle
  rw [emitRooms, htake]
  refine Delimited.emit_eq_flatten fun p l hpl => decide_eq_true ?_
  unfold tagInsertLen
  omega

/-- The room list is never cut. -/
theorem ssiShRooms_eq (r : OutputRecord) (rooms : RoomRecord) :
    ssiShRooms r rooms = (Delimited.separated 44
      ((definedSlots r).map fun p => fmtDecimal (rooms.shRoom p.1).toNat)).flatten := by
  have h : (definedSlots r).length ≤ 32 := length_definedSlots_le r
  rw [ssiShRooms, emitRooms_eq (by rw [List.length_map]; omega), List.map_map]
  rfl

/-- The mode list is never cut below the 16 outputs it has. -/
theorem ssiOutModes_eq (r : OutputRecord) (devices : Nat) :
    ssiOutModes r devices = (List.range (listedOutputs devices)).map fun i : Nat =>
      if r.outCfg.configOutMode i = outModeTimed then 49 else 48 := by
  have hsingle (xs : List Nat) (f : Nat → UInt8) :
      (xs.map fun i => [f i]).flatten = xs.map f := by
    induction xs with
    | nil => rfl
    | cons x xs ih => rw [List.map_cons, List.flatten_cons, ih]; rfl
  have hcount : listedOutputs devices ≤ 16 := Nat.min_le_right _ _
  rw [← hsingle]
  refine Delimited.emit_eq_flatten fun p l hle => decide_eq_true ?_
  rw [hsingle, List.length_map, List.length_range] at hle
  unfold tagInsertLen
  omega

theorem emitTmo_rest {ts : List CStr} (hts : ∀ t ∈ ts, t.length ≤ 10) {pos : Nat} (hpos : 0 < pos)
    (hlen : pos + 11 * ts.length ≤ 700) :
    emitTmo pos ts = (ts.map (44 :: ·)).flatten := by
  induction ts generalizing pos with
  | nil => rfl
  | cons t ts ih =>
      have ht := hts t List.mem_cons_self
      rw [List.length_cons] at hlen
      rw [emitTmo, if_neg (by unfold tagInsertLen; omega), if_neg (by omega),
        ih (fun x hx => hts x (List.mem_cons_of_mem _ hx)) (by omega) (by omega)]
      simp

/-- The list of durations is never cut below the 16 outputs it has. -/
theorem ssiOutTmo_eq (r : OutputRecord) (devices : Nat) :
    ssiOutTmo r devices = [44].intercalate
      ((List.range (listedOutputs devices)).map fun i : Nat =>
        fmtDecimal (r.outCfg.configOutTimedMs i)) := by
  have hcount : listedOutputs devices ≤ 16 := Nat.min_le_right _ _
  have hbound (i : Nat) : (fmtDecimal (r.outCfg.configOutTimedMs i)).length ≤ 10 := by
    refine length_fmtDecimal_le (by decide) ?_
    unfold OutputConfig.configOutTimedMs OutputRecord.outCfg
    dsimp only
    split
    · decide
    · split
      · have h := (r.timedMs ⟨(i : Int).toNat, ‹_›⟩).isLt
        omega
      · decide
  have htake : ((List.range (listedOutputs devices)).map fun i : Nat =>
      (fmtDecimal (r.outCfg.configOutTimedMs i)).take 11) =
      (List.range (listedOutputs devices)).map fun i : Nat =>
        fmtDecimal (r.outCfg.configOutTimedMs i) :=
    List.map_congr_left fun i _ => List.take_of_length_le (Nat.le_succ_of_le (hbound i))
  rw [ssiOutTmo, htake, ← Delimited.flatten_separated]
  cases hrange : List.range (listedOutputs devices) with
  | nil => rfl
  | cons i is =>
      have hlen : (i :: is).length ≤ 16 := by
        rw [← hrange, List.length_range]
        exact hcount
      have hi := hbound i
      have hpos : 0 < (fmtDecimal (r.outCfg.configOutTimedMs i)).length :=
        List.length_pos_iff.mpr (isNumeral_fmtDecimal _).1
      rw [List.length_cons] at hlen
      rw [List.map_cons, emitTmo, if_neg (by unfold tagInsertLen; omega), if_pos rfl,
        emitTmo_rest (fun t ht => by
          obtain ⟨j, _, rfl⟩ := List.mem_map.mp ht
          exact hbound j) hpos (by rw [List.length_map]; omega)]
      rfl

/-- The list of room names is never cut. -/
theorem ssiRmNames_eq (rooms : RoomRecord) : ssiRmNames rooms =
    ((List.finRange cfgMaxRooms).map fun i => nameBlock (rooms.roomName i)).flatten := by
  refine emitBlocks_eq (fun b hb => ?_) (by simp [cfgMaxRooms])
  obtain ⟨i, _, rfl⟩ := List.mem_map.mp hb
  exact length_nameBlock _

/-- The room list of the outputs is never cut. -/
theorem ssiOutRooms_eq (rooms : RoomRecord) {devices : Nat} (h : devices ≤ 15) :
    ssiOutRooms rooms devices = [44].intercalate
      ((List.range (devices * 8)).map fun i => fmtDecimal (rooms.configOutRoom i).toNat) := by
  rw [ssiOutRooms, emitRooms_eq (by rw [List.length_map, List.length_range]; omega),
    Delimited.flatten_separated, List.map_map]
  rfl

end HomeAuto
