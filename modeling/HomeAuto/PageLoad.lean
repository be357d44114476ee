import HomeAuto.PageNames

/-!
# Loading the I/O page (`iocfg.shtml`)

The script reads its variables from the tags, and the tables it builds offer them for
editing: a select shows a value only if it has an option for it.  What a save sends
without an edit is what the tables show.
-/

namespace HomeAuto

/-! ## Pieces of the tags -/

/-- Number `n` of a comma list, or what stands for it where it is missing or `NaN`. -/
def nthNumber (list : CStr) (n dflt : Nat) : Nat :=
  ((list.splitOn 44)[n]?.bind parseInt).getD dflt

/-- An element of `SH` as it is first read; `none` is `NaN`. -/
structure LoadedShutter where
  up : Option Nat
  down : Option Nat
  travel : Nat

/-- One segment of the shutter list. -/
def loadShutter (seg : CStr) : Option LoadedShutter :=
  match seg.splitOn 58 with
  | up :: down :: travel :: _ =>
      some ⟨parseInt up, parseInt down, jsOr ((parseInt travel).getD 0) 20000⟩
  | _ => none

/-- `(q>=0&&q<NROOMS)`, as the queries test it. -/
def roomIndex (v : Nat) : Option (Fin cfgMaxRooms) :=
  if h : v < cfgMaxRooms then some ⟨v, h⟩ else none

/-- The value of a select over the rooms (`roomOpts`): "Unassigned" comes first. -/
def ShownNames.roomSelect (names : ShownNames) (v : Nat) : Option (Fin cfgMaxRooms) :=
  if names.offered v then roomIndex v else none

/-! ## The page -/

/-- What the tags insert for the output settings. -/
structure PageTags where
  relay : Nat
  outModes : CStr
  outTmo : CStr
  shutters : CStr
  shNames : CStr
  rmNames : CStr
  outRooms : CStr
  shRooms : CStr

namespace PageTags

/-- `SH` before the tables are built. -/
def loaded (t : PageTags) : List LoadedShutter := (t.shutters.splitOn 59).filterMap loadShutter

/-- `shMemberOf`. -/
def shMemberOf (t : PageTags) (i : Nat) : Bool :=
  t.loaded.any fun s => decide (s.up = some i) || decide (s.down = some i)

/-- The value of a select over the relays: the first one if none is selected. -/
def relaySelect (t : PageTags) (v : Option Nat) : Nat :=
  match v with
  | some k => if k < t.relay * 8 then k else 0
  | none => 0

/-- The variables of the script after `syncOutputsFromDom` and `syncRoomsFromDom` on a
page that nobody has edited.  The row of a shutter member has no fields. -/
def page (t : PageTags) (names : ShownNames) (form : List (CStr × CStr)) : IoPage where
  relay := t.relay
  om i := t.outModes[i]? = some 49
  ot i :=
    if t.shMemberOf i then nthNumber t.outTmo i 1000 else jsOr (nthNumber t.outTmo i 1000) 1000
  sh := t.loaded.mapIdx fun n s => {
    up := t.relaySelect s.up
    down := t.relaySelect s.down
    travel := s.travel
    name := sentText (names.shutter n)
    room := names.roomSelect (nthNumber t.shRooms n 255) }
  roomNames q := sentText (names.room q)
  outRoom i :=
    if t.shMemberOf i then roomIndex (nthNumber t.outRooms i 255)
    else names.roomSelect (nthNumber t.outRooms i 255)
  form := form

end PageTags

namespace WebState

/-- The tags as the device renders them. -/
def pageTags (s : WebState) : PageTags where
  relay := s.panel.hub.configGetRelayDevices
  outModes := ssiOutModes s.panel.out s.panel.hub.configGetRelayDevices
  outTmo := ssiOutTmo s.panel.out s.panel.hub.configGetRelayDevices
  shutters := ssiShutters s.panel.out
  shNames := ssiShNames s.panel.out
  rmNames := ssiRmNames s.rooms
  outRooms := ssiOutRooms s.rooms s.panel.hub.configGetRelayDevices
  shRooms := ssiShRooms s.panel.out s.rooms

/-- The names that a browser shows on it. -/
def shownNames (reader : PageReader) (s : WebState) : Option ShownNames :=
  reader.shownNames s.pageTags.shNames s.pageTags.rmNames

/-- The page as it is loaded and shown. -/
def loadPage (s : WebState) (names : ShownNames) (form : List (CStr × CStr)) : IoPage :=
  s.pageTags.page names form

end WebState

/-! ## The save without an edit -/

/-- The names that `outCfgQuery` sends can be encoded. -/
def IoPage.ShuttersEncode (p : IoPage) (names : ShownNames) : Prop :=
  ∀ n, (hn : n < p.sh.length) → p.sh[n].Valid p.relay → Encodes (names.shutter n)

instance (p : IoPage) (names : ShownNames) : Decidable (p.ShuttersEncode names) :=
  Nat.decidableBallLT _ _

/-- And those that `roomCfgQuery` sends. -/
def ShownNames.RoomsEncode (names : ShownNames) : Prop :=
  ∀ n, n < cfgMaxRooms → Encodes (names.room n)

instance (names : ShownNames) : Decidable names.RoomsEncode := Nat.decidableBallLT _ _

/-- `doSaveNamesAndSubmit` on a page that nobody has edited.  Where `encodeURIComponent` throws,
the request is not sent; where the script does not run, the browser submits the form itself. -/
def WebState.saveUnedited (reader : PageReader) (palStrToUl : StrToUl) (s : WebState)
    (form : List (CStr × CStr)) : WebState :=
  match s.shownNames reader with
  | none => s.submitFields palStrToUl form
  | some names =>
      let p := s.loadPage names form
      let out := if p.ShuttersEncode names then s.fetchOutCfg p else s
      let rooms := if names.RoomsEncode then out.fetchRoomCfg p else out
      rooms.submitForm palStrToUl p

/-! ## Names in literals -/

namespace WebState

section Literals

variable {s : WebState} {names : ShownNames} {reader : PageReader} {t : List Char}
  (hshown : s.shownNames reader = some names)
  (hliteral : ∀ b ∈ s.pageTags.shNames ++ s.pageTags.rmNames, LiteralByte b)

include hshown hliteral

theorem shownNames_eq : names = .ofLiterals s.pageTags.shNames s.pageTags.rmNames := by
  unfold WebState.shownNames PageReader.shownNames at hshown
  rw [if_pos hliteral] at hshown
  split at hshown
  · exact (Option.some.inj hshown).symm
  · cases hshown

/-- **The field of a room holds its name exactly if the name does not end in white space**, where
the names before it are in ASCII, and it is too or no name follows. -/
theorem stands_room_iff {q : Fin cfgMaxRooms} (hname : s.rooms.roomName q = nameField (utf8 t))
    (hzero : 0 ∉ utf8 t) (hlen : (utf8 t).length ≤ cfgNameLen - 1)
    (hbefore : ∀ r < q, ∀ b ∈ nameBlock (s.rooms.roomName r), b.toNat < 0x80)
    (hafter : (∀ c ∈ t, c.toNat < 0x80) ∨
      ∀ r > q, ∀ b ∈ nameBlock (s.rooms.roomName r), b = 32) :
    Stands (names.room q) (s.rooms.roomName q) ↔ trimText t = t := by
  have hlist : s.pageTags.rmNames =
      (((List.finRange cfgMaxRooms).map s.rooms.roomName).map nameBlock).flatten := by
    rw [List.map_map]
    exact ssiRmNames_eq s.rooms
  have hget {n : Nat} {x : Fin cfgNameLen → UInt8} :
      ((List.finRange cfgMaxRooms).map s.rooms.roomName)[n]? = some x →
        ∃ r : Fin cfgMaxRooms, r.val = n ∧ s.rooms.roomName r = x := by
    intro h
    rw [List.getElem?_map] at h
    obtain ⟨r, hr, rfl⟩ := Option.map_eq_some_iff.mp h
    obtain ⟨_, rfl⟩ := List.getElem?_eq_some_iff.mp hr
    exact ⟨_, by simp, rfl⟩
  have hq : ((List.finRange cfgMaxRooms).map s.rooms.roomName)[q.val]? =
      some (nameField (utf8 t)) := by
    rw [List.getElem?_map, List.getElem?_eq_getElem (by simp), ← hname]
    simp
  rw [shownNames_eq hshown hliteral, hname]
  change Stands (listedUnits (literalUnits s.pageTags.rmNames) q) _ ↔ _
  rw [hlist]
  refine stands_listed_iff hq hzero hlen (fun m x hm hx => ?_)
    (hafter.imp_right fun h m x hm hx => ?_)
  · obtain ⟨r, rfl, rfl⟩ := hget hx
    exact hbefore r hm
  · obtain ⟨r, rfl, rfl⟩ := hget hx
    exact h r hm

/-- **And so does the field of a shutter.** -/
theorem stands_shutter_iff {n : Nat} {p : Fin cfgMaxShutters × ShutterSlot}
    (hn : (definedSlots s.panel.out)[n]? = some p)
    (hname : s.panel.out.shName p.1 = nameField (utf8 t)) (hzero : 0 ∉ utf8 t)
    (hlen : (utf8 t).length ≤ cfgNameLen - 1)
    (hbefore : ∀ m p, m < n → (definedSlots s.panel.out)[m]? = some p →
      ∀ b ∈ nameBlock (s.panel.out.shName p.1), b.toNat < 0x80)
    (hafter : (∀ c ∈ t, c.toNat < 0x80) ∨ ∀ m p, n < m →
      (definedSlots s.panel.out)[m]? = some p → ∀ b ∈ nameBlock (s.panel.out.shName p.1), b = 32) :
    Stands (names.shutter n) (s.panel.out.shName p.1) ↔ trimText t = t := by
  have hlist : s.pageTags.shNames =
      (((definedSlots s.panel.out).map fun p => s.panel.out.shName p.1).map nameBlock).flatten := by
    rw [List.map_map]
    exact ssiShNames_eq s.panel.out
  have hp : ((definedSlots s.panel.out).map fun p => s.panel.out.shName p.1)[n]? =
      some (nameField (utf8 t)) := by
    rw [List.getElem?_map, hn, ← hname]
    rfl
  rw [shownNames_eq hshown hliteral, hname]
  change Stands (listedUnits (literalUnits s.pageTags.shNames) n) _ ↔ _
  rw [hlist]
  refine stands_listed_iff hp hzero hlen (fun m x hm hx => ?_)
    (hafter.imp_right fun h m x hm hx => ?_)
  · rw [List.getElem?_map] at hx
    obtain ⟨p', hp', rfl⟩ := Option.map_eq_some_iff.mp hx
    exact hbefore m p' hm hp'
  · rw [List.getElem?_map] at hx
    obtain ⟨p', hp', rfl⟩ := Option.map_eq_some_iff.mp hx
    exact h m p' hm hp'

end Literals

end WebState

/-! ## What is loaded -/

/-- The page reads a printed comma list back. -/
theorem nthNumber_intercalate (vs : List Nat) (n dflt : Nat) :
    nthNumber ([44].intercalate (vs.map fmtDecimal)) n dflt = vs[n]?.getD dflt := by
  unfold nthNumber
  cases hvs : vs with
  | nil => cases n <;> rfl
  | cons v ws =>
      have hsplit : ([44].intercalate (vs.map fmtDecimal)).splitOn 44 = vs.map fmtDecimal := by
        refine List.splitOn_intercalate _ (fun l hl => ?_) (by rw [hvs]; simp)
        obtain ⟨m, _, rfl⟩ := List.mem_map.mp hl
        exact not_mem_fmtDecimal (by decide) m
      rw [← hvs, hsplit, List.getElem?_map]
      cases vs[n]? with
      | none => rfl
      | some m => exact congrArg (Option.getD · dflt) (parseInt_fmtDecimal m)

theorem loadShutter_shutterText (s : ShutterSlot) :
    loadShutter (shutterText s) = some ⟨some s.up, some s.down, jsOr s.travelMs 20000⟩ := by
  unfold loadShutter
  rw [splitOn_shutterText]
  dsimp only
  rw [parseInt_fmtDecimal, parseInt_fmtDecimal, parseInt_fmtDecimal]
  rfl

/-- In a list that is sorted by a key, place `n` has `n` smaller keys before it. -/
theorem countP_lt_key {α : Type} {m : Nat} {key : α → Fin m} {l : List α}
    (hsorted : l.Pairwise (key · < key ·)) {n : Nat} {a : α} (ha : l[n]? = some a) :
    l.countP (fun b => key b < key a) = n := by
  induction l generalizing n with
  | nil => cases ha
  | cons b l ih =>
      obtain ⟨hb, hl⟩ := List.pairwise_cons.mp hsorted
      cases n with
      | zero =>
          cases ha
          refine List.countP_eq_zero.mpr fun c hc => ?_
          rcases List.mem_cons.mp hc with rfl | hmem
          · simp
          · simpa using (hb c hmem).le
      | succ n =>
          have hlt := hb a (List.mem_of_getElem? ha)
          rw [List.countP_cons_of_pos (by exact decide_eq_true hlt), ih hl ha]

namespace WebState

variable (s : WebState)

theorem configGetRelayDevices_le (h : Hub) : h.configGetRelayDevices ≤ 15 := Nat.and_le_right

/-- `SH` is the list of the defined slots. -/
theorem loaded_pageTags : s.pageTags.loaded = (definedSlots s.panel.out).map fun p =>
    ⟨some p.2.up, some p.2.down, jsOr p.2.travelMs 20000⟩ :=
  filterMap_ssiShutters rfl loadShutter_shutterText s.panel.out

/-- The place of a slot in the lists: behind the defined slots before it. -/
def place (i : Fin cfgMaxShutters) : Nat := (definedSlots s.panel.out).countP (·.1 < i)

theorem place_eq {n : Nat} {p : Fin cfgMaxShutters × ShutterSlot}
    (h : (definedSlots s.panel.out)[n]? = some p) : s.place p.1 = n := by
  refine countP_lt_key (List.pairwise_filterMap.mpr ?_) h
  refine (List.pairwise_lt_finRange _).imp fun {i j} hij a ha b hb => ?_
  obtain ⟨_, _, rfl⟩ := Option.map_eq_some_iff.mp ha
  obtain ⟨_, _, rfl⟩ := Option.map_eq_some_iff.mp hb
  exact hij

variable (names : ShownNames)

/-- A shutter as its row shows it. -/
def shownShutter (p : Fin cfgMaxShutters × ShutterSlot) : PageShutter where
  up := s.pageTags.relaySelect (some p.2.up)
  down := s.pageTags.relaySelect (some p.2.down)
  travel := jsOr p.2.travelMs 20000
  name := sentText (names.shutter (s.place p.1))
  room := names.roomSelect (s.rooms.shRoom p.1).toNat

theorem loadPage_relay (form : List (CStr × CStr)) :
    (s.loadPage names form).relay = s.panel.hub.configGetRelayDevices := rfl

/-- The rows of the shutter table, one for each defined slot. -/
theorem loadPage_sh (form : List (CStr × CStr)) :
    (s.loadPage names form).sh = (definedSlots s.panel.out).map (s.shownShutter names) := by
  refine List.ext_getElem? fun n => ?_
  change (s.pageTags.loaded.mapIdx _)[n]? = _
  rw [List.getElem?_mapIdx, loaded_pageTags, List.getElem?_map, List.getElem?_map]
  cases hn : (definedSlots s.panel.out)[n]? with
  | none => rfl
  | some p =>
      have hroom : nthNumber s.pageTags.shRooms n 255 = (s.rooms.shRoom p.1).toNat := by
        have htag : s.pageTags.shRooms = [44].intercalate
            (((definedSlots s.panel.out).map fun p => (s.rooms.shRoom p.1).toNat).map
              fmtDecimal) := by
          rw [List.map_map, ← Delimited.flatten_separated]
          exact ssiShRooms_eq s.panel.out s.rooms
        rw [htag, nthNumber_intercalate, List.getElem?_map, hn]
        rfl
      rw [Option.map_some, Option.map_some, Option.map_some, hroom,
        shownShutter, s.place_eq hn]

/-- Only the first 16 outputs can be shown as timed. -/
theorem loadPage_om (form : List (CStr × CStr)) {i : Nat}
    (hi : i < s.panel.hub.configGetRelayDevices * 8) :
    (s.loadPage names form).om i = true ↔
      i < 16 ∧ s.panel.out.outCfg.configOutMode i = outModeTimed := by
  change decide ((ssiOutModes s.panel.out _)[i]? = some 49) = true ↔ _
  rw [ssiOutModes_eq, decide_eq_true_iff, List.getElem?_map]
  by_cases hlt : i < 16
  · have hlist : i < listedOutputs s.panel.hub.configGetRelayDevices := by
      unfold listedOutputs
      omega
    rw [List.getElem?_range hlist, Option.map_some, Option.some.injEq]
    by_cases hmode : s.panel.out.outCfg.configOutMode i = outModeTimed
    · simp [hmode, hlt]
    · simp [hmode]
  · have hnone : (List.range (listedOutputs s.panel.hub.configGetRelayDevices))[i]? = none := by
      rw [List.getElem?_eq_none]
      unfold listedOutputs
      rw [List.length_range]
      omega
    simp [hnone, hlt]

/-- Only the first 16 outputs can be shown with their own duration. -/
theorem loadPage_ot (form : List (CStr × CStr)) {i : Nat}
    (hi : i < s.panel.hub.configGetRelayDevices * 8) :
    jsOr ((s.loadPage names form).ot i) 1000 =
      if i < 16 then jsOr (s.panel.out.outCfg.configOutTimedMs i) 1000 else 1000 := by
  have hjs (v : Nat) : jsOr (jsOr v 1000) 1000 = jsOr v 1000 := by
    unfold jsOr
    split <;> simp_all
  have hnum : nthNumber s.pageTags.outTmo i 1000 =
      if i < 16 then s.panel.out.outCfg.configOutTimedMs i else 1000 := by
    change nthNumber (ssiOutTmo s.panel.out _) i 1000 = _
    have hmap : (List.range (listedOutputs s.panel.hub.configGetRelayDevices)).map
        (fun i : Nat => fmtDecimal (s.panel.out.outCfg.configOutTimedMs i)) =
        ((List.range (listedOutputs s.panel.hub.configGetRelayDevices)).map
          fun i : Nat => s.panel.out.outCfg.configOutTimedMs i).map fmtDecimal := by
      rw [List.map_map]
      rfl
    rw [ssiOutTmo_eq, hmap, nthNumber_intercalate, List.getElem?_map]
    by_cases hlt : i < 16
    · rw [List.getElem?_range (by unfold listedOutputs; omega), if_pos hlt]
      rfl
    · rw [List.getElem?_eq_none (by rw [List.length_range]; unfold listedOutputs; omega),
        if_neg hlt]
      rfl
  change jsOr (if s.pageTags.shMemberOf i then nthNumber s.pageTags.outTmo i 1000
    else jsOr (nthNumber s.pageTags.outTmo i 1000) 1000) 1000 = _
  rw [hnum]
  have hone : jsOr 1000 1000 = 1000 := rfl
  split <;> split <;> simp only [hjs, hone]

/-- The room of an output, as its row shows it or as it was loaded. -/
theorem loadPage_outRoom (form : List (CStr × CStr)) {i : Nat}
    (hi : i < s.panel.hub.configGetRelayDevices * 8) :
    (s.loadPage names form).outRoom i =
      if s.pageTags.shMemberOf i then roomIndex (s.rooms.configOutRoom i).toNat
      else names.roomSelect (s.rooms.configOutRoom i).toNat := by
  have hnum : nthNumber s.pageTags.outRooms i 255 = (s.rooms.configOutRoom i).toNat := by
    change nthNumber (ssiOutRooms s.rooms _) i 255 = _
    have hmap : (List.range (s.panel.hub.configGetRelayDevices * 8)).map
        (fun i => fmtDecimal (s.rooms.configOutRoom i).toNat) =
        ((List.range (s.panel.hub.configGetRelayDevices * 8)).map
          fun i => (s.rooms.configOutRoom i).toNat).map fmtDecimal := by
      rw [List.map_map]
      rfl
    rw [ssiOutRooms_eq _ (configGetRelayDevices_le _), hmap, nthNumber_intercalate,
      List.getElem?_map, List.getElem?_range hi]
    rfl
  rw [← hnum]
  rfl

end WebState

end HomeAuto
