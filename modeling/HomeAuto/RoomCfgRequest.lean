import HomeAuto.OutCfgRequest
import HomeAuto.RoomRecord

/-!
# The room request (`RoomCfgCGIHandler`)

`/roomcfg.cgi?rooms=..&outr=..&shr=..` sets the names of the rooms and the room of each
output and each shutter.  The entries of `shr` go to the shutter slots by position, one
after the other, whatever is stored in the slots.
-/

namespace HomeAuto

namespace RoomRecord

/-- The loop over the `rooms` parameter: names up to the sixteenth, and then empty names
for the rooms that the request does not have. -/
def roomNamesLoop : (left iRoom : Nat) → CStr → RoomRecord → RoomRecord
  | 0, _, _, r => r
  | left + 1, iRoom, p, r =>
      match skipByte 59 (p.dropWhile (· ≠ 59)) with
      | some q =>
          roomNamesLoop left (iRoom + 1) q
            (r.configRoomNameSet iRoom (urlDecodeParam (cfgNameLen - 1) (encodedName p)))
      | none =>
          (List.range' (iRoom + 1) left).foldl (fun r i => r.configRoomNameSet i [])
            (r.configRoomNameSet iRoom (urlDecodeParam (cfgNameLen - 1) (encodedName p)))

/-- The loop over the `outr` parameter. -/
def outRoomLoop (p : CStr) (r : RoomRecord) : RoomRecord :=
  csvLoop (fun i v r => r.configOutRoomSet i (roomOf v)) cfgMaxOutputs 0 p r

/-- The loop over the `shr` parameter. -/
def shRoomLoop (p : CStr) (r : RoomRecord) : RoomRecord :=
  csvLoop (fun i v r => r.configShRoomSet i (roomOf v)) cfgMaxShutters 0 p r

/-- A loop over a parameter, if the request has it. -/
def onParam (name : String) (params : CgiParams) (loop : CStr → RoomRecord → RoomRecord)
    (r : RoomRecord) : RoomRecord :=
  match findCGIParameter (ascii name) params with
  | some p => loop p r
  | none => r

/-- `RoomCfgCGIHandler`: edit and save. -/
def roomCfgCGIHandler (r : RoomRecord) (params : CgiParams) : RoomRecord :=
  (onParam "shr" params shRoomLoop
    (onParam "outr" params outRoomLoop
      (onParam "rooms" params (roomNamesLoop cfgMaxRooms 0) r))).stamped

end RoomRecord

/-! ## The rooms of the shutters -/

namespace RoomRecord

@[simp] theorem shRoom_configRoomNameSet (r : RoomRecord) (i : Nat) (name : List UInt8) :
    (r.configRoomNameSet i name).shRoom = r.shRoom := by
  unfold configRoomNameSet
  split <;> rfl

@[simp] theorem shRoom_configOutRoomSet (r : RoomRecord) (i : Nat) (room : UInt8) :
    (r.configOutRoomSet i room).shRoom = r.shRoom := by
  unfold configOutRoomSet
  split <;> rfl

/-- A room as it is stored. -/
def storedRoom (v : BitVec 32) : UInt8 :=
  if (roomOf v).toNat < cfgMaxRooms then roomOf v else roomNone

theorem shRoom_configShRoomSet (r : RoomRecord) (i : Fin cfgMaxShutters) (v : BitVec 32) :
    (r.configShRoomSet i (roomOf v)).shRoom = Function.update r.shRoom i (storedRoom v) := by
  rw [configShRoomSet, dif_pos i.isLt]
  rfl

theorem shRoom_roomNamesLoop (left i : Nat) (p : CStr) (r : RoomRecord) :
    (roomNamesLoop left i p r).shRoom = r.shRoom := by
  induction left generalizing i p r with
  | zero => rfl
  | succ left ih =>
      rw [roomNamesLoop]
      split
      · rw [ih, shRoom_configRoomNameSet]
      · have hrest (is : List Nat) (r : RoomRecord) :
            (is.foldl (fun r i => r.configRoomNameSet i []) r).shRoom = r.shRoom := by
          induction is generalizing r with
          | nil => rfl
          | cons j is ih => rw [List.foldl_cons, ih, shRoom_configRoomNameSet]
        rw [hrest, shRoom_configRoomNameSet]

theorem shRoom_outRoomLoop (p : CStr) (r : RoomRecord) : (outRoomLoop p r).shRoom = r.shRoom := by
  have hloop (left i : Nat) (p : CStr) (r : RoomRecord) :
      (csvLoop (fun i v r => r.configOutRoomSet i (roomOf v)) left i p r).shRoom = r.shRoom := by
    induction left generalizing i p r with
    | zero => rfl
    | succ left ih =>
        rw [csvLoop]
        split
        · rfl
        · split
          · rw [ih, shRoom_configOutRoomSet]
          · exact shRoom_configOutRoomSet _ _ _
  exact hloop _ _ p r

/-- **The rooms of the shutter slots after the request**: entry `i` goes to slot `i`. -/
theorem shRoom_roomCfgCGIHandler (r : RoomRecord) {params : CgiParams} {vs : List Nat}
    (hshr : findCGIParameter (ascii "shr") params = some ([44].intercalate (vs.map fmtDecimal)))
    (hlen : vs.length ≤ cfgMaxShutters) (i : Fin cfgMaxShutters) :
    (r.roomCfgCGIHandler params).shRoom i =
      (vs[i.val]?).elim (r.shRoom i) fun v => storedRoom (BitVec.ofNat 32 v) := by
  have hbefore : (onParam "outr" params outRoomLoop
      (onParam "rooms" params (roomNamesLoop cfgMaxRooms 0) r)).shRoom = r.shRoom := by
    unfold onParam
    split <;> split <;> simp [shRoom_outRoomLoop, shRoom_roomNamesLoop]
  have hbound : 0 + vs.length ≤ cfgMaxShutters := by omega
  have hcalls := csvCalls_array (fun i v r => configShRoomSet r i (roomOf v)) shRoom
    (fun i v r => shRoom_configShRoomSet r i v) hbound
    (onParam "outr" params outRoomLoop (onParam "rooms" params (roomNamesLoop cfgMaxRooms 0) r)) i
  rw [if_neg (Nat.not_lt_zero _), Nat.sub_zero, hbefore] at hcalls
  change (onParam "shr" params shRoomLoop _).shRoom i = _
  rw [onParam, hshr]
  dsimp only
  rw [shRoomLoop, csvLoop_text, List.take_of_length_le hlen]
  exact hcalls

/-! ## The rooms of the outputs, and the names -/

@[simp] theorem outRoom_configRoomNameSet (r : RoomRecord) (i : Nat) (name : List UInt8) :
    (r.configRoomNameSet i name).outRoom = r.outRoom := by
  unfold configRoomNameSet
  split <;> rfl

theorem outRoom_configOutRoomSet (r : RoomRecord) (i : Fin cfgMaxOutputs) (v : BitVec 32) :
    (r.configOutRoomSet i (roomOf v)).outRoom = Function.update r.outRoom i (storedRoom v) := by
  rw [configOutRoomSet, dif_pos i.isLt]
  rfl

theorem outRoom_roomNamesLoop (left i : Nat) (p : CStr) (r : RoomRecord) :
    (roomNamesLoop left i p r).outRoom = r.outRoom := by
  induction left generalizing i p r with
  | zero => rfl
  | succ left ih =>
      rw [roomNamesLoop]
      split
      · rw [ih, outRoom_configRoomNameSet]
      · have hrest (is : List Nat) (r : RoomRecord) :
            (is.foldl (fun r i => r.configRoomNameSet i []) r).outRoom = r.outRoom := by
          induction is generalizing r with
          | nil => rfl
          | cons j is ih => rw [List.foldl_cons, ih, outRoom_configRoomNameSet]
        rw [hrest, outRoom_configRoomNameSet]

/-- The loop over `shr` touches the rooms of the shutters only. -/
theorem shRoomLoop_frame (p : CStr) (r : RoomRecord) :
    (shRoomLoop p r).roomName = r.roomName ∧ (shRoomLoop p r).outRoom = r.outRoom := by
  have hset (r : RoomRecord) (i : Nat) (room : UInt8) :
      (r.configShRoomSet i room).roomName = r.roomName ∧
        (r.configShRoomSet i room).outRoom = r.outRoom := by
    unfold configShRoomSet
    split <;> exact ⟨rfl, rfl⟩
  have hloop (left i : Nat) (p : CStr) (r : RoomRecord) :
      (csvLoop (fun i v r => r.configShRoomSet i (roomOf v)) left i p r).roomName = r.roomName ∧
        (csvLoop (fun i v r => r.configShRoomSet i (roomOf v)) left i p r).outRoom =
          r.outRoom := by
    induction left generalizing i p r with
    | zero => exact ⟨rfl, rfl⟩
    | succ left ih =>
        rw [csvLoop]
        split
        · exact ⟨rfl, rfl⟩
        · split
          · rename_i q _
            obtain ⟨hname, hout⟩ := ih (i + 1) q (r.configShRoomSet i (roomOf (scanU32 0#32 p).1))
            exact ⟨hname.trans (hset _ _ _).1, hout.trans (hset _ _ _).2⟩
          · exact hset _ _ _
  exact hloop _ _ p r

/-- The loop over `outr` leaves the names. -/
theorem roomName_outRoomLoop (p : CStr) (r : RoomRecord) :
    (outRoomLoop p r).roomName = r.roomName := by
  have hset (r : RoomRecord) (i : Nat) (room : UInt8) :
      (r.configOutRoomSet i room).roomName = r.roomName := by
    unfold configOutRoomSet
    split <;> rfl
  have hloop (left i : Nat) (p : CStr) (r : RoomRecord) :
      (csvLoop (fun i v r => r.configOutRoomSet i (roomOf v)) left i p r).roomName =
        r.roomName := by
    induction left generalizing i p r with
    | zero => rfl
    | succ left ih =>
        rw [csvLoop]
        split
        · rfl
        · split
          · rw [ih, hset]
          · exact hset _ _ _
  exact hloop _ _ p r

/-- **The rooms of the outputs after the request.** -/
theorem outRoom_roomCfgCGIHandler (r : RoomRecord) {params : CgiParams} {vs : List Nat}
    (houtr : findCGIParameter (ascii "outr") params = some ([44].intercalate (vs.map fmtDecimal)))
    (hlen : vs.length ≤ cfgMaxOutputs) (i : Fin cfgMaxOutputs) :
    (r.roomCfgCGIHandler params).outRoom i =
      (vs[i.val]?).elim (r.outRoom i) fun v => storedRoom (BitVec.ofNat 32 v) := by
  have hbefore : (onParam "rooms" params (roomNamesLoop cfgMaxRooms 0) r).outRoom = r.outRoom := by
    unfold onParam
    split
    · exact outRoom_roomNamesLoop _ _ _ _
    · rfl
  have hafter (s : RoomRecord) : (onParam "shr" params shRoomLoop s).outRoom = s.outRoom := by
    unfold onParam
    split
    · exact (shRoomLoop_frame _ _).2
    · rfl
  have hbound : 0 + vs.length ≤ cfgMaxOutputs := by omega
  have hcalls := csvCalls_array (fun i v r => configOutRoomSet r i (roomOf v)) outRoom
    (fun i v r => outRoom_configOutRoomSet r i v) hbound
    (onParam "rooms" params (roomNamesLoop cfgMaxRooms 0) r) i
  rw [if_neg (Nat.not_lt_zero _), Nat.sub_zero, hbefore] at hcalls
  change (onParam "shr" params shRoomLoop _).outRoom i = _
  rw [hafter, onParam, houtr]
  dsimp only
  rw [outRoomLoop, csvLoop_text, List.take_of_length_le hlen]
  exact hcalls

/-- One name goes to its room. -/
theorem roomName_configRoomNameSet (r : RoomRecord) {k : Nat} (hk : k < cfgMaxRooms)
    (name : List UInt8) :
    (r.configRoomNameSet k name).roomName =
      Function.update r.roomName ⟨k, hk⟩ (nameField name) := by
  rw [configRoomNameSet, dif_pos hk]

/-- The name of a room in a list of encoded names, as it is stored; a room that the list
does not reach has none. -/
def listedName (names : List CStr) (iRoom : Nat) : Fin cfgNameLen → UInt8 :=
  (names[iRoom]?).elim (nameField []) fun n =>
    nameField (urlDecodeParam (cfgNameLen - 1) (n.take (3 * cfgNameLen - 1)))

/-- Rooms that a list does not reach are emptied. -/
theorem roomName_clearRooms {left k : Nat} (hk : k + left = cfgMaxRooms) (r : RoomRecord)
    (i : Fin cfgMaxRooms) :
    ((List.range' k left).foldl (fun r j => r.configRoomNameSet j []) r).roomName i =
      if i.val < k then r.roomName i else nameField [] := by
  induction left generalizing k r with
  | zero =>
      have hi := i.isLt
      rw [List.range'_zero, List.foldl_nil, if_pos (by omega)]
  | succ left ih =>
      have hset := r.roomName_configRoomNameSet (k := k) (by omega) []
      rw [List.range'_succ, List.foldl_cons, ih (by omega), hset]
      exact Loops.update_then_rest r.roomName _ (fun _ _ => nameField [])
        (fun _ _ => nameField []) (fun _ => rfl) (fun _ _ => rfl) i

/-- **The loop over `rooms`**: the names of the list in order, as far as there are rooms. -/
theorem roomName_roomNamesLoop {names : List CStr} (hsep : ∀ n ∈ names, 59 ∉ n) {left k : Nat}
    (hk : k + left = cfgMaxRooms) (hne : names ≠ []) (r : RoomRecord) (i : Fin cfgMaxRooms) :
    (roomNamesLoop left k ([59].intercalate names) r).roomName i =
      if i.val < k then r.roomName i else listedName names (i.val - k) := by
  have hi := i.isLt
  induction names generalizing left k r with
  | nil => exact absurd rfl hne
  | cons n ns ih =>
      cases left with
      | zero => rw [roomNamesLoop, if_pos (by omega)]
      | succ left =>
          have hn : ∀ c ∈ n, decide (c ≠ 59) = true := fun c hc =>
            decide_eq_true fun h => hsep n List.mem_cons_self (h ▸ hc)
          have hset := r.roomName_configRoomNameSet (k := k) (by omega)
            (urlDecodeParam (cfgNameLen - 1) (n.take (3 * cfgNameLen - 1)))
          cases ns with
          | nil =>
              have hcat : [59].intercalate [n] = n := by simp
              have hdrop : n.dropWhile (· ≠ 59) = [] := List.dropWhile_eq_nil_iff.mpr hn
              have htake : n.takeWhile (· ≠ 59) = n := List.takeWhile_eq_self_iff.mpr hn
              rw [hcat, roomNamesLoop, hdrop]
              change
                (List.foldl _ (r.configRoomNameSet k _) (List.range' (k + 1) left)).roomName i = _
              rw [roomName_clearRooms (by omega), encodedName, htake, hset]
              exact Loops.update_then_rest r.roomName _ (fun _ _ => nameField [])
                (fun j _ => listedName [n] j) (fun _ => rfl) (fun _ _ => rfl) i
          | cons m ms =>
              have hcat : [59].intercalate (n :: m :: ms) =
                  n ++ 59 :: [59].intercalate (m :: ms) := by
                simp [List.intercalate_cons_cons]
              have hskip (q : CStr) :
                  skipByte 59 ((n ++ 59 :: q).dropWhile (· ≠ 59)) = some q := by
                rw [List.dropWhile_append_of_pos hn, List.dropWhile_cons_of_neg (by decide),
                  skipByte, if_pos rfl]
              have htake (q : CStr) : (n ++ 59 :: q).takeWhile (· ≠ 59) = n := by
                rw [List.takeWhile_append_of_pos hn, List.takeWhile_cons_of_neg (by decide),
                  List.append_nil]
              rw [hcat, roomNamesLoop, hskip]
              dsimp only
              rw [encodedName, htake, ih (fun x hx => hsep x (List.mem_cons_of_mem _ hx))
                (by omega) (List.cons_ne_nil _ _), hset]
              exact Loops.update_then_rest r.roomName _ (fun j _ => listedName (m :: ms) j)
                (fun j _ => listedName (n :: m :: ms) j) (fun _ => rfl) (fun _ _ => rfl) i

/-- **The names of the rooms after the request**, whatever the length of the list. -/
theorem roomName_roomCfgCGIHandler (r : RoomRecord) {params : CgiParams} {names : List CStr}
    (hrooms : findCGIParameter (ascii "rooms") params = some ([59].intercalate names))
    (hsep : ∀ n ∈ names, 59 ∉ n) (i : Fin cfgMaxRooms) :
    (r.roomCfgCGIHandler params).roomName i = listedName names i.val := by
  have hafter (s : RoomRecord) : (onParam "shr" params shRoomLoop
      (onParam "outr" params outRoomLoop s)).roomName = s.roomName := by
    unfold onParam
    split <;> split <;> simp [(shRoomLoop_frame _ _).1, roomName_outRoomLoop]
  have hloop : (roomNamesLoop cfgMaxRooms 0 ([59].intercalate names) r).roomName i =
      listedName names i.val := by
    by_cases hne : names = []
    · -- the empty text is read as one empty name
      have hone := @roomName_roomNamesLoop [[]] (by simp) cfgMaxRooms 0 (Nat.zero_add cfgMaxRooms)
        (List.cons_ne_nil _ _) r i
      rw [if_neg (Nat.not_lt_zero _), Nat.sub_zero] at hone
      subst hne
      refine Eq.trans hone ?_
      cases i.val with
      | zero => rfl
      | succ n => rfl
    · have hmany := roomName_roomNamesLoop hsep (Nat.zero_add cfgMaxRooms) hne r i
      rwa [if_neg (Nat.not_lt_zero _), Nat.sub_zero] at hmany
  change (onParam "shr" params shRoomLoop _).roomName i = _
  rw [hafter, onParam, hrooms]
  exact hloop

end RoomRecord

end HomeAuto
