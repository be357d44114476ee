import HomeAuto.OutCfgRequest
import HomeAuto.RoomCfgRequest

/-!
# The two lists of names (`OutCfgCGIHandler`, `RoomCfgCGIHandler`)

The shutter list and the room list carry names as `encodeURIComponent` writes them.  Both
parsers copy at most 35 characters of a name into `acEnc`, decode at most 11 bytes of these
into `acName`, and go on behind the `;` that ends the entry.

* `readEntries_shutterList` — entry `k` of a shutter list is read, with its numbers and the
  first 11 bytes of its name, as long as fewer than 32 entries before it went into the table;
* `listedName_roomList` — the rooms get the first 11 bytes of the names of their places;
* `snd_lt_of_mem_encodeWrites`, `snd_lt_of_mem_decodeWrites` — the two copies stay in their
  arrays;
* `wellFounded_shNext`, `wellFounded_roomNext` — no text keeps a parser going for ever.
-/

namespace HomeAuto

/-! ## The parsers, one pass at a time -/

/-- One pass of the loop over the `sh` parameter, with the number of free slots: the entry
that it reads, and where the next pass starts if there is one. -/
def shPass (relays : Nat) : Nat × CStr → Option (ShutterEntry × Option (Nat × CStr))
  | (free, p) =>
      if p = [] ∨ free = 0 then none
      else
        (parseShEntry p).map fun x =>
          (x.1, (skipByte 59 x.2).map fun q =>
            (if x.1.Accepted relays then free - 1 else free, q))

/-- The pass that follows. -/
def shNext (relays : Nat) (s : Nat × CStr) : Option (Nat × CStr) := (shPass relays s).bind (·.2)

/-- One pass of the loop over the `rooms` parameter, with the number of rooms that are left:
the name that it reads, and where the next pass starts if there is one. -/
def roomPass : Nat × CStr → Option (List UInt8 × Option (Nat × CStr))
  | (0, _) => none
  | (left + 1, p) =>
      some (urlDecodeParam (cfgNameLen - 1) (encodedName p),
        (skipByte 59 (p.dropWhile (· ≠ 59))).map (left, ·))

/-- The pass that follows. -/
def roomNext (s : Nat × CStr) : Option (Nat × CStr) := (roomPass s).bind (·.2)

/-- A further pass has less text. -/
theorem length_of_shNext {relays : Nat} {s s' : Nat × CStr} (h : shNext relays s = some s') :
    s'.2.length < s.2.length := by
  obtain ⟨free, p⟩ := s
  obtain ⟨pass, hpass, hnext⟩ := Option.bind_eq_some_iff.mp h
  by_cases hend : p = [] ∨ free = 0
  · rw [shPass, if_pos hend] at hpass
    cases hpass
  · rw [shPass, if_neg hend] at hpass
    obtain ⟨x, hparse, rfl⟩ := Option.map_eq_some_iff.mp hpass
    obtain ⟨q, hskip, rfl⟩ := Option.map_eq_some_iff.mp hnext
    have hentry := length_of_parseShEntry hparse
    have hsemi := length_of_skipByte hskip
    dsimp only
    omega

theorem length_of_roomNext {s s' : Nat × CStr} (h : roomNext s = some s') :
    s'.2.length < s.2.length := by
  match s, h with
  | (left + 1, p), h =>
      rw [roomNext, roomPass, Option.bind_some, Option.map_eq_some_iff] at h
      obtain ⟨q, hskip, rfl⟩ := h
      have hdrop := List.length_dropWhile_le (· ≠ 59) p
      have hsemi := length_of_skipByte hskip
      dsimp only
      omega

/-- **The shutter parser ends on every text**: no sequence of passes goes on for ever. -/
theorem wellFounded_shNext (relays : Nat) :
    WellFounded fun s' s : Nat × CStr => shNext relays s = some s' :=
  Subrelation.wf (fun h => length_of_shNext h) (measure fun s : Nat × CStr => s.2.length).wf

/-- **The room parser ends on every text.** -/
theorem wellFounded_roomNext : WellFounded fun s' s : Nat × CStr => roomNext s = some s' :=
  Subrelation.wf (fun h => length_of_roomNext h) (measure fun s : Nat × CStr => s.2.length).wf

/-- The entries that the passes read, those that are not stored among them. -/
def readEntries (relays : Nat) (s : Nat × CStr) : List ShutterEntry :=
  match _h : shPass relays s with
  | none => []
  | some (e, none) => [e]
  | some (e, some s') => e :: readEntries relays s'
termination_by s.2.length
decreasing_by
  apply @length_of_shNext relays
  rw [shNext, _h, Option.bind_some]

theorem shPass_of_ne (relays : Nat) {free : Nat} {p : CStr} (h : ¬(p = [] ∨ free = 0)) :
    shPass relays (free, p) = (parseShEntry p).map fun x =>
      (x.1, (skipByte 59 x.2).map fun q =>
        (if x.1.Accepted relays then free - 1 else free, q)) :=
  if_neg h

/-- What is read from a pass on. -/
def passEntries (relays : Nat) : Option (ShutterEntry × Option (Nat × CStr)) → List ShutterEntry
  | none => []
  | some (e, none) => [e]
  | some (e, some s') => e :: readEntries relays s'

/-- What is read follows the passes. -/
theorem readEntries_eq (relays : Nat) (s : Nat × CStr) :
    readEntries relays s = passEntries relays (shPass relays s) := by
  rw [readEntries]
  split <;> rename_i hpass <;> rw [hpass] <;> rfl

/-- The passes of the room parser set the names of the rooms; the loop after them clears
the rooms that are left. -/
theorem roomNamesLoop_pass (left iRoom : Nat) (p : CStr) (r : RoomRecord) :
    RoomRecord.roomNamesLoop left iRoom p r =
      match roomPass (left, p) with
      | none => r
      | some (name, none) =>
          (List.range' (iRoom + 1) (left - 1)).foldl (fun r i => r.configRoomNameSet i [])
            (r.configRoomNameSet iRoom name)
      | some (name, some (left', q)) =>
          RoomRecord.roomNamesLoop left' (iRoom + 1) q (r.configRoomNameSet iRoom name) := by
  cases left with
  | zero => rfl
  | succ left =>
      rw [RoomRecord.roomNamesLoop, roomPass]
      cases skipByte 59 (p.dropWhile (· ≠ 59)) with
      | none => rfl
      | some q => rfl

/-- **The entries that are stored are the accepted ones that are read.** -/
theorem acceptedEntries_eq_filter (relays free : Nat) (p : CStr) :
    acceptedEntries relays free p =
      (readEntries relays (free, p)).filter (·.Accepted relays) := by
  fun_induction acceptedEntries relays free p with
  | case1 free p h =>
      rw [readEntries_eq, shPass, if_pos h]
      rfl
  | case2 free p h hparse =>
      have hpass := shPass_of_ne relays h
      rw [hparse] at hpass
      rw [readEntries_eq, hpass]
      rfl
  | case3 free p h e q hparse hskip hacc =>
      have hpass := shPass_of_ne relays h
      rw [hparse, Option.map_some, hskip] at hpass
      rw [readEntries_eq, hpass]
      simp [passEntries, hacc]
  | case4 free p h e q hparse hskip hacc =>
      have hpass := shPass_of_ne relays h
      rw [hparse, Option.map_some, hskip] at hpass
      rw [readEntries_eq, hpass]
      simp [passEntries, hacc]
  | case5 free p h e q hparse p' hskip hacc ih =>
      have hpass := shPass_of_ne relays h
      rw [hparse, Option.map_some, hskip, Option.map_some, if_pos hacc] at hpass
      rw [readEntries_eq, hpass, passEntries, ih]
      simp [hacc]
  | case6 free p h e q hparse p' hskip hacc ih =>
      have hpass := shPass_of_ne relays h
      rw [hparse, Option.map_some, hskip, Option.map_some, if_neg hacc] at hpass
      rw [readEntries_eq, hpass, passEntries, ih]
      simp [hacc]

/-! ## The two copies -/

/-- The stores of the copy loop into `acEnc`, with their places: the characters of the entry
while there is room, and the NUL. -/
def encodeWrites : (iEnc : Nat) → CStr → List (UInt8 × Nat)
  | iEnc, [] => [(0, iEnc)]
  | iEnc, c :: p =>
      if c = 59 then [(0, iEnc)]
      else if iEnc < 3 * cfgNameLen - 1 then (c, iEnc) :: encodeWrites (iEnc + 1) p
      else encodeWrites iEnc p

/-- The stores of `UrlDecodeParam` into `pcOut`, with their places. -/
def decodeWrites (iMax : Nat) : (iOut : Nat) → CStr → List (UInt8 × Nat)
  | iOut, [] => [(0, iOut)]
  | iOut, c :: h :: l :: p =>
      if iOut < iMax - 1 then
        if c = 43 then (32, iOut) :: decodeWrites iMax (iOut + 1) (h :: l :: p)
        else if c = 37 then
          ((webHexNibble h <<< 4) ||| webHexNibble l, iOut) :: decodeWrites iMax (iOut + 1) p
        else (c, iOut) :: decodeWrites iMax (iOut + 1) (h :: l :: p)
      else [(0, iOut)]
  | iOut, c :: p =>
      if iOut < iMax - 1 then
        (if c = 43 then 32 else c, iOut) :: decodeWrites iMax (iOut + 1) p
      else [(0, iOut)]

/-- The copy into `acEnc` leaves the encoded name there. -/
theorem encodeWrites_eq {iEnc : Nat} (h : iEnc ≤ 3 * cfgNameLen - 1) (p : CStr) :
    encodeWrites iEnc p =
      ((p.takeWhile (· ≠ 59)).take (3 * cfgNameLen - 1 - iEnc) ++ [0]).zipIdx iEnc := by
  induction p generalizing iEnc with
  | nil => simp [encodeWrites]
  | cons c p ih =>
      rw [encodeWrites]
      by_cases hc : c = 59
      · simp [hc]
      · have hwhile : (c :: p).takeWhile (· ≠ 59) = c :: p.takeWhile (· ≠ 59) :=
          List.takeWhile_cons_of_pos (decide_eq_true hc)
        rw [if_neg hc, hwhile]
        by_cases hroom : iEnc < 3 * cfgNameLen - 1
        · have hleft : 3 * cfgNameLen - 1 - iEnc = 3 * cfgNameLen - 1 - (iEnc + 1) + 1 := by omega
          rw [if_pos hroom, ih hroom, hleft, List.take_succ_cons, List.cons_append,
            List.zipIdx_cons]
        · have hnone : 3 * cfgNameLen - 1 - iEnc = 0 := by omega
          rw [if_neg hroom, ih h, hnone, List.take_zero, List.take_zero]

/-- The decoder leaves the name that it decodes in `pcOut`. -/
theorem decodeWrites_eq {iMax iOut : Nat} (h : iOut ≤ iMax - 1) (p : CStr) :
    decodeWrites iMax iOut p = (urlDecodeParam (iMax - 1 - iOut) p ++ [0]).zipIdx iOut := by
  have hleft (n : Nat) (hn : n < iMax - 1) : iMax - 1 - n = iMax - 1 - (n + 1) + 1 := by omega
  have hfull (n : Nat) (hn : ¬n < iMax - 1) : iMax - 1 - n = 0 := by omega
  fun_induction decodeWrites iMax iOut p with
  | case1 iOut =>
      cases iMax - 1 - iOut with
      | zero => rfl
      | succ room => rfl
  | case2 iOut h' l p hroom ih =>
      rw [ih (by omega), hleft iOut hroom, urlDecodeParam, if_pos rfl, List.cons_append,
        List.zipIdx_cons]
  | case3 iOut h' l p hroom hplus ih =>
      rw [ih (by omega), hleft iOut hroom, urlDecodeParam, if_neg hplus, if_pos rfl,
        List.cons_append, List.zipIdx_cons]
  | case4 iOut c h' l p hroom hplus hpercent ih =>
      rw [ih (by omega), hleft iOut hroom, urlDecodeParam, if_neg hplus, if_neg hpercent,
        List.cons_append, List.zipIdx_cons]
  | case5 iOut c h' l p hroom => rw [hfull iOut hroom, urlDecodeParam, List.nil_append]; rfl
  | case6 iOut c p hshort hroom ih =>
      rw [ih (by omega), hleft iOut hroom, urlDecodeParam.eq_4 _ _ _ hshort, List.cons_append,
        List.zipIdx_cons]
  | case7 iOut c p hshort hroom => rw [hfull iOut hroom, urlDecodeParam, List.nil_append]; rfl

/-- **Every store into `acEnc` is one of its 36 bytes**, for every text. -/
theorem snd_lt_of_mem_encodeWrites {p : CStr} {w : UInt8 × Nat} (hw : w ∈ encodeWrites 0 p) :
    w.2 < 3 * cfgNameLen := by
  rw [encodeWrites_eq (Nat.zero_le _)] at hw
  have hlt := List.snd_lt_of_mem_zipIdx hw
  have htake := List.length_take_le (3 * cfgNameLen - 1 - 0) (p.takeWhile (· ≠ 59))
  have hpos : 0 < 3 * cfgNameLen := by decide
  rw [List.length_append, List.length_singleton] at hlt
  omega

theorem length_urlDecodeParam_le (room : Nat) (p : CStr) :
    (urlDecodeParam room p).length ≤ room := by
  fun_induction urlDecodeParam room p with
  | case1 => exact Nat.le_refl 0
  | case2 => exact Nat.zero_le _
  | case3 room h l p ih => exact Nat.succ_le_succ ih
  | case4 room h l p hplus ih => exact Nat.succ_le_succ ih
  | case5 room c h l p hplus hpercent ih => exact Nat.succ_le_succ ih
  | case6 room c p hshort ih => exact Nat.succ_le_succ ih

/-- **Every store into `acName` is one of its 12 bytes**, for every text. -/
theorem snd_lt_of_mem_decodeWrites {p : CStr} {w : UInt8 × Nat}
    (hw : w ∈ decodeWrites cfgNameLen 0 p) : w.2 < cfgNameLen := by
  rw [decodeWrites_eq (Nat.zero_le _)] at hw
  have hlt := List.snd_lt_of_mem_zipIdx hw
  have hroom := length_urlDecodeParam_le (cfgNameLen - 1 - 0) p
  have hpos : 0 < cfgNameLen := by decide
  rw [List.length_append, List.length_singleton] at hlt
  omega

/-! ## What is read of encoded names -/

/-- A shutter with its name, any bytes but NUL. -/
structure NamedShutter where
  up : BitVec 32
  down : BitVec 32
  travel : BitVec 32
  name : List UInt8
  noNul : 0 ∉ name

namespace NamedShutter

/-- The shutter as it is sent. -/
def sent (x : NamedShutter) : SentShutter where
  up := x.up.toNat
  down := x.down.toNat
  travel := x.travel.toNat
  enc := x.name.flatMap uriByte

/-- The entry that should be read: the numbers, and the first 11 bytes of the name. -/
def entry (x : NamedShutter) : ShutterEntry where
  up := x.up
  down := x.down
  travel := x.travel
  name := x.name.take (cfgNameLen - 1)

theorem entry_sent (x : NamedShutter) : x.sent.entry = x.entry := by
  simp [SentShutter.entry, sent, entry, urlDecodeParam_escaped escapes_uriByte]

end NamedShutter

/-- The text of a shutter list. -/
def shutterList (xs : List NamedShutter) : CStr :=
  [59].intercalate (xs.map fun x => x.sent.text)

/-- The text of a room list. -/
def roomList (names : List (List UInt8)) : CStr :=
  [59].intercalate (names.map fun n => n.flatMap uriByte)

/-- Nothing is read of the empty text. -/
theorem readEntries_nil (relays free : Nat) : readEntries relays (free, []) = [] := by
  rw [readEntries_eq, shPass, if_pos (.inl rfl)]
  rfl

/-- The first entry of a list is read as it was sent, and then the others. -/
theorem readEntries_cons (relays free : Nat) (x : NamedShutter) (xs : List NamedShutter) :
    readEntries relays (free + 1, shutterList (x :: xs)) =
      x.entry :: readEntries relays
        (if x.entry.Accepted relays then free else free + 1, shutterList xs) := by
  have hsep : (59 : UInt8) ∉ x.sent.enc := not_mem_escaped escapes_uriByte (by decide) x.name
  have hne (rest : CStr) : ¬(x.sent.text ++ rest = [] ∨ free + 1 = 0) := by
    simp [SentShutter.text]
  cases xs with
  | nil =>
      have hcat : shutterList [x] = x.sent.text ++ [] := by simp [shutterList]
      have hpass := shPass_of_ne relays (hne [])
      rw [parseShEntry_text x.sent hsep (.inl rfl), x.entry_sent] at hpass
      change _ = x.entry :: readEntries relays (_, [])
      rw [hcat, readEntries_eq, hpass, readEntries_nil]
      rfl
  | cons y ys =>
      have hcat : shutterList (x :: y :: ys) = x.sent.text ++ 59 :: shutterList (y :: ys) := by
        simp [shutterList, List.intercalate_cons_cons]
      have hpass := shPass_of_ne relays (hne (59 :: shutterList (y :: ys)))
      rw [parseShEntry_text x.sent hsep (.inr ⟨_, rfl⟩), x.entry_sent] at hpass
      rw [hcat, readEntries_eq, hpass, Option.map_some, skipByte, if_pos rfl, Option.map_some,
        passEntries, Nat.add_sub_cancel]

/-- **A shutter list is read entry by entry**: each is read as it was sent, with the first 11
bytes of its name, until as many entries as there are slots are accepted. -/
theorem readEntries_shutterList (relays free : Nat) (xs : List NamedShutter) (k : Nat) :
    (readEntries relays (free, shutterList xs))[k]? =
      if ((xs.map NamedShutter.entry).take k).countP (·.Accepted relays) < free then
        (xs.map NamedShutter.entry)[k]?
      else none := by
  induction xs generalizing free k with
  | nil =>
      change (readEntries relays (free, []))[k]? = _
      rw [readEntries_nil]
      simp
  | cons x xs ih =>
      cases free with
      | zero =>
          rw [readEntries_eq, shPass, if_pos (.inr rfl), if_neg (Nat.not_lt_zero _)]
          rfl
      | succ free =>
          rw [readEntries_cons, List.map_cons]
          cases k with
          | zero => simp
          | succ k =>
              rw [List.getElem?_cons_succ, List.getElem?_cons_succ, List.take_succ_cons, ih]
              by_cases hacc : x.entry.Accepted relays
              · simp [hacc]
              · simp [hacc]

/-- What is stored of a shutter list: its accepted entries, as many as there are slots. -/
theorem acceptedEntries_shutterList (relays free : Nat) (xs : List NamedShutter) :
    acceptedEntries relays free (shutterList xs) =
      ((xs.map NamedShutter.entry).filter (·.Accepted relays)).take free := by
  have hsep : ∀ y ∈ xs.map NamedShutter.sent, (59 : UInt8) ∉ y.enc := by
    intro y hy
    obtain ⟨x, _, rfl⟩ := List.mem_map.mp hy
    exact not_mem_escaped escapes_uriByte (by decide) x.name
  have hread := acceptedEntries_text relays free hsep
  have hentries : (xs.map NamedShutter.sent).map SentShutter.entry =
      xs.map NamedShutter.entry := by
    rw [List.map_map]
    exact List.map_congr_left fun x _ => x.entry_sent
  rw [hentries, List.map_map] at hread
  exact hread

/-- The rooms get the first 11 bytes of the names of their places. -/
theorem listedName_roomList (names : List (List UInt8)) (i : Nat) :
    RoomRecord.listedName (names.map fun n => n.flatMap uriByte) i =
      nameField ((names.getD i []).take (cfgNameLen - 1)) := by
  rw [RoomRecord.listedName, List.getElem?_map, List.getD_eq_getElem?_getD]
  cases names[i]? with
  | none => rfl
  | some n =>
      change nameField _ = _
      rw [urlDecodeParam_escaped escapes_uriByte]
      rfl

/-- A name without NUL is stored up to its first 11 bytes. -/
theorem fieldString_of_noNul {name : List UInt8} (h : 0 ∉ name) :
    fieldString (nameField (name.take (cfgNameLen - 1))) = name.take (cfgNameLen - 1) := by
  have hback := (fieldString_eq_iff (name.take (cfgNameLen - 1))).mpr
    ⟨List.length_take_le _ _, fun h0 => h (List.mem_of_mem_take h0)⟩
  rwa [List.take_take, Nat.min_self] at hback

/-- No NUL ends a list before its last entry. -/
theorem zero_not_mem_shutterList (xs : List NamedShutter) : 0 ∉ shutterList xs := by
  refine Delimited.not_mem_intercalate (by decide) fun l hl => ?_
  obtain ⟨x, _, rfl⟩ := List.mem_map.mp hl
  have hdigits (n : Nat) : (0 : UInt8) ∉ fmtDecimal n := not_mem_fmtDecimal (by decide) n
  have hname : (0 : UInt8) ∉ x.name.flatMap uriByte :=
    not_mem_escaped escapes_uriByte (by decide) x.name
  simp [SentShutter.text, NamedShutter.sent, hdigits, hname]

theorem zero_not_mem_roomList (names : List (List UInt8)) : 0 ∉ roomList names := by
  refine Delimited.not_mem_intercalate (by decide) fun l hl => ?_
  obtain ⟨n, _, rfl⟩ := List.mem_map.mp hl
  exact not_mem_escaped escapes_uriByte (by decide) n

/-! ## What the two requests store -/

/-- **The slots after a shutter list**: the accepted entries in order, with the numbers that
were sent and the first 11 bytes of the names; the slots behind them are empty. -/
theorem outCfgEdit_shutterList (r : OutputRecord) (c : RelayChain) {params : CgiParams}
    {xs : List NamedShutter}
    (hsh : findCGIParameter (ascii "sh") params = some (shutterList xs))
    (i : Fin cfgMaxShutters) :
    match ((xs.filter (·.entry.Accepted c.relayChainCount)))[i.val]? with
    | some x => (r.outCfgEdit c.relayChainCount params).slotFields i =
        OutputRecord.entryFields x.entry ∧
        fieldString ((r.outCfgEdit c.relayChainCount params).shName i) =
          x.name.take (cfgNameLen - 1)
    | none => (r.outCfgEdit c.relayChainCount params).Emptied i := by
  have hcount : c.relayChainCount ≤ cfgMaxOutputs :=
    c.relayChainCount_le.trans (by decide)
  have hslot := r.outCfgEdit_slot hcount params i
  have hlist : (submitted c.relayChainCount params)[i.val]? =
      ((xs.filter (·.entry.Accepted c.relayChainCount))[i.val]?).map NamedShutter.entry := by
    unfold submitted
    rw [hsh]
    dsimp only
    rw [acceptedEntries_shutterList, List.getElem?_take_of_lt i.isLt, List.filter_map,
      List.getElem?_map]
    rfl
  rw [hlist] at hslot
  cases hx : (xs.filter (·.entry.Accepted c.relayChainCount))[i.val]? with
  | none =>
      rw [hx] at hslot
      exact hslot
  | some x =>
      rw [hx] at hslot
      dsimp only [Option.map_some] at hslot ⊢
      refine ⟨hslot, ?_⟩
      have hname : (r.outCfgEdit c.relayChainCount params).shName i =
          nameField (x.name.take (cfgNameLen - 1)) := congrArg (·.2.2.2) hslot
      rw [hname]
      exact fieldString_of_noNul x.noNul

/-- **The rooms after a room list.** -/
theorem roomCfg_roomList (r : RoomRecord) {params : CgiParams} {names : List (List UInt8)}
    (hnul : ∀ n ∈ names, 0 ∉ n)
    (hrooms : findCGIParameter (ascii "rooms") params = some (roomList names))
    (i : Fin cfgMaxRooms) :
    fieldString ((r.roomCfgCGIHandler params).roomName i) =
      (names.getD i.val []).take (cfgNameLen - 1) := by
  have hsep : ∀ n ∈ names.map fun n => n.flatMap uriByte, (59 : UInt8) ∉ n := by
    intro n hn
    obtain ⟨m, _, rfl⟩ := List.mem_map.mp hn
    exact not_mem_escaped escapes_uriByte (by decide) m
  rw [r.roomName_roomCfgCGIHandler hrooms hsep, listedName_roomList]
  refine fieldString_of_noNul fun h0 => ?_
  rw [List.getD_eq_getElem?_getD] at h0
  cases hn : names[i.val]? with
  | none =>
      rw [hn] at h0
      cases h0
  | some n =>
      rw [hn] at h0
      exact hnul n (List.mem_of_getElem? hn) h0

/-- **The lists of names in requests.**  An entry of a shutter list is read as it was sent,
with the first 11 bytes of its name, as long as fewer entries than there are slots were
accepted before it, and the accepted entries go to the slots in order; the rooms get the
first 11 bytes of the names of their places.  No NUL cuts a list.  On every text the copies
stay in their arrays and the passes come to an end. -/
theorem nameLists_read :
    (∀ (relays : Nat) (xs : List NamedShutter) (k : Nat),
      (readEntries relays (cfgMaxShutters, shutterList xs))[k]? =
        if ((xs.map NamedShutter.entry).take k).countP (·.Accepted relays) < cfgMaxShutters then
          (xs.map NamedShutter.entry)[k]?
        else none) ∧
    (∀ (r : OutputRecord) (c : RelayChain) (params : CgiParams) (xs : List NamedShutter)
      (i : Fin cfgMaxShutters),
      findCGIParameter (ascii "sh") params = some (shutterList xs) →
      match (xs.filter (·.entry.Accepted c.relayChainCount))[i.val]? with
      | some x => (r.outCfgEdit c.relayChainCount params).slotFields i =
          OutputRecord.entryFields x.entry ∧
          fieldString ((r.outCfgEdit c.relayChainCount params).shName i) =
            x.name.take (cfgNameLen - 1)
      | none => (r.outCfgEdit c.relayChainCount params).Emptied i) ∧
    (∀ (r : RoomRecord) (params : CgiParams) (names : List (List UInt8)) (i : Fin cfgMaxRooms),
      (∀ n ∈ names, 0 ∉ n) →
      findCGIParameter (ascii "rooms") params = some (roomList names) →
      fieldString ((r.roomCfgCGIHandler params).roomName i) =
        (names.getD i.val []).take (cfgNameLen - 1)) ∧
    (∀ (xs : List NamedShutter) (names : List (List UInt8)),
      0 ∉ shutterList xs ∧ 0 ∉ roomList names) ∧
    (∀ p : CStr, (∀ w ∈ encodeWrites 0 p, w.2 < 3 * cfgNameLen) ∧
      ∀ w ∈ decodeWrites cfgNameLen 0 (encodedName p), w.2 < cfgNameLen) ∧
    (∀ relays, WellFounded fun s' s : Nat × CStr => shNext relays s = some s') ∧
    WellFounded fun s' s : Nat × CStr => roomNext s = some s' := by
  refine ⟨fun relays xs k => readEntries_shutterList relays _ xs k, ?_, ?_, ?_, ?_,
    wellFounded_shNext, wellFounded_roomNext⟩
  · intro r c params xs i hsh
    exact outCfgEdit_shutterList r c hsh i
  · intro r params names i hnul hrooms
    exact roomCfg_roomList r hnul hrooms i
  · intro xs names
    exact ⟨zero_not_mem_shutterList xs, zero_not_mem_roomList names⟩
  · intro p
    exact ⟨fun w hw => snd_lt_of_mem_encodeWrites hw, fun w hw => snd_lt_of_mem_decodeWrites hw⟩

/-- An entry behind as many accepted ones as there are slots is not read. -/
theorem shutterNames_beyond_slots :
    ¬∀ (relays : Nat) (xs : List NamedShutter) (k : Nat),
      (readEntries relays (cfgMaxShutters, shutterList xs))[k]? =
        (xs.map NamedShutter.entry)[k]? := by
  intro h
  have h33 := h 8 (List.replicate 33 ⟨0#32, 1#32, 20000#32, ascii "Blind", by decide⟩) 32
  rw [readEntries_shutterList] at h33
  revert h33
  decide +kernel

end HomeAuto
