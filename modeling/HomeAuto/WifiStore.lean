import HomeAuto.ConfigBoot
import HomeAuto.PalStorageFlat
import HomeAuto.WifiLink

/-!
# The stored networks (`wifi_store.c`)

The credentials of two networks, the primary one and a backup, are records with a magic word and
a CRC in the persistent store.  A save writes the whole record, and a clear only the magic word.

What the module is for is a pair of slots that survive a power cycle (`Networks`).  Over a store
that works the records are just that, whatever else is written around them (`stored_networks`).
-/

namespace HomeAuto.Wifi

open PalStorage LastWord

/-! ## The record -/

/-- `WIFI_SSID_BUF`, `WIFI_PASS_BUF` and `CFG_WIFI_MAGIC`. -/
def wifiSsidBuf : Nat := 36
def wifiPassBuf : Nat := 64
def cfgWifiMagic : BitVec 32 := 0x57494649#32

/-- `tWifiRecord`. -/
structure WifiRecord where
  magic : BitVec 32
  ssid : Fin wifiSsidBuf → UInt8
  pass : Fin wifiPassBuf → UInt8
  crc : BitVec 32

/-- How `tWifiRecord` lies in memory. -/
def wifiRecordLayout : Layout WifiRecord :=
  (wordLayout.pair <| (textField wifiSsidBuf).pair <| (textField wifiPassBuf).pair wordLayout).via
    (fun r => (r.magic, r.ssid, r.pass, r.crc))
    (fun (magic, ssid, pass, crc) => ⟨magic, ssid, pass, crc⟩)
    (fun _ => rfl)

example : wifiRecordLayout.size = 108 := by decide

/-- The bytes of a C string, and none for `NULL`. -/
def cText (s : Option CStr) : CStr := (s.getD []).takeWhile (· ≠ 0)

/-- `strncpy` of at most `n` bytes into a zeroed buffer. -/
def intoBuf (size n : Nat) (s : CStr) : Fin size → UInt8 := fun i => (s.take n).getD i 0

/-- `strncpy` of at most `n` bytes out of a buffer, and a NUL behind them. -/
def outOfBuf {size : Nat} (n : Nat) (buf : Fin size → UInt8) : CStr :=
  ((List.ofFn buf).take n).takeWhile (· ≠ 0)

/-- The check on a record that was read, and the strings that are copied out of it. -/
def WifiRecord.credentials (r : WifiRecord) : Option Credentials :=
  if r.magic ≠ cfgWifiMagic ∨ r.crc ≠ recordCrc wifiRecordLayout r ∨ r.ssid ⟨0, by decide⟩ = 0 then
    none
  else some ⟨outOfBuf wifiSsidMax r.ssid, outOfBuf wifiPassMax r.pass⟩

/-- The record that `WifiStoreSave` makes, before the CRC. -/
def WifiRecord.unstamped (pcSsid pcPass : Option CStr) : WifiRecord where
  magic := cfgWifiMagic
  ssid := intoBuf wifiSsidBuf wifiSsidMax (cText pcSsid)
  pass := intoBuf wifiPassBuf wifiPassMax (cText pcPass)
  crc := 0

def WifiRecord.stamped (pcSsid pcPass : Option CStr) : WifiRecord :=
  { WifiRecord.unstamped pcSsid pcPass with
    crc := recordCrc wifiRecordLayout (WifiRecord.unstamped pcSsid pcPass) }

/-! ## The calls -/

/-- `aui32SlotAddr`, with the check of the slot. -/
def slotAddr (iSlot : Int) : Option UInt32 :=
  if iSlot = 0 then some 4608 else if iSlot = 1 then some 4720 else none

section Calls

variable {σ : Type*} (nv : NvFuncts σ) (st : PalStorage σ) (iSlot : Int)

/-- `WifiStoreLoad`; `none` is `false`. -/
def wifiStoreLoad : Option Credentials :=
  (slotAddr iSlot).bind fun addr =>
    (palStorageRead st addr.toNat wifiRecordLayout.size).bind fun bytes =>
      (wifiRecordLayout.get bytes).credentials

/-- `WifiStoreSave`. -/
def wifiStoreSave (pcSsid pcPass : Option CStr) : PalStorage σ × Bool :=
  match slotAddr iSlot with
  | none => (st, false)
  | some addr =>
      let w := palStorageWrite nv st addr.toNat
        (wifiRecordLayout.put (.stamped pcSsid pcPass))
      (w.1, w.2 = 0)

/-- `WifiStoreClear`. -/
def wifiStoreClear : PalStorage σ :=
  match slotAddr iSlot with
  | none => st
  | some addr => (palStorageWrite nv st addr.toNat (wordBytes 0#32)).1

end Calls

/-! ## What the module is for -/

/-- Networks in slots, which are read and written while the store is up. -/
structure Networks where
  up : Bool
  saved : Int → Option Credentials

/-- The credentials which are kept of two strings; a network has a name. -/
def kept (pcSsid pcPass : Option CStr) : Option Credentials :=
  let c := Credentials.adopt ⟨cText pcSsid, cText pcPass⟩
  if c.ssid = [] then none else some c

/-- A call of the module, a call of the rest of the firmware on the store, or a power cycle. -/
inductive StoreCall
  | init
  | save (iSlot : Int) (pcSsid pcPass : Option CStr)
  | clear (iSlot : Int)
  | other (addr : UInt32) (buf : Buffer)
  | reset

namespace Networks

def put (n : Networks) (iSlot : Int) (c : Option Credentials) : Networks :=
  if n.up = true ∧ (iSlot = 0 ∨ iSlot = 1) then { n with saved := Function.update n.saved iSlot c }
  else n

def load (n : Networks) (iSlot : Int) : Option Credentials :=
  if n.up = true ∧ (iSlot = 0 ∨ iSlot = 1) then n.saved iSlot else none

def step (n : Networks) : StoreCall → Networks
  | .init => { n with up := true }
  | .save iSlot pcSsid pcPass => n.put iSlot (kept pcSsid pcPass)
  | .clear iSlot => n.put iSlot none
  | .other _ _ => n
  | .reset => { n with up := false }

end Networks

/-- The storage after a call. -/
def storeStep {σ : Type*} (nv : NvFuncts σ) (st : PalStorage σ) : StoreCall → PalStorage σ
  | .init => (palStorageInit nv st).1
  | .save iSlot pcSsid pcPass => (wifiStoreSave nv st iSlot pcSsid pcPass).1
  | .clear iSlot => wifiStoreClear nv st iSlot
  | .other addr buf => (palStorageWrite nv st addr.toNat buf.1).1
  | .reset => atReset st.nv

/-- The rest of the firmware writes inside the store, and not into the two records. -/
def StoreCall.KeepsOff : StoreCall → Prop
  | .other addr buf => addr.toNat + buf.1.length ≤ 4608 ∨
      4828 ≤ addr.toNat ∧ addr.toNat + buf.1.length ≤ palStorageSize
  | _ => True

/-! ## Strings in buffers -/

theorem nul_not_mem_cText (s : Option CStr) : 0 ∉ cText s := by
  intro h
  have hne := List.mem_takeWhile_imp h
  simp at hne

/-- A buffer holds the string, and zeros behind it. -/
theorem ofFn_getD {size : Nat} {t : CStr} (h : t.length ≤ size) :
    List.ofFn (fun i : Fin size => t.getD i 0) = t ++ List.replicate (size - t.length) 0 := by
  apply List.ext_getElem
  · simp [h]
  · intro i hi hi'
    rw [List.getElem_ofFn]
    by_cases hlt : i < t.length
    · rw [List.getElem_append_left hlt, List.getD_eq_getElem _ _ hlt]
    · rw [List.getElem_append_right (not_lt.mp hlt), List.getElem_replicate,
        List.getD_eq_default _ _ (not_lt.mp hlt)]

theorem outOfBuf_intoBuf {size n : Nat} (hn : n ≤ size) {s : CStr} (hs : 0 ∉ s) :
    outOfBuf n (intoBuf size n s) = s.take n := by
  have hlen : (s.take n).length ≤ n := List.length_take_le n s
  have hclean : ∀ c ∈ s.take n, decide (c ≠ 0) = true := by
    intro c hc
    rw [decide_eq_true_eq]
    rintro rfl
    exact hs (List.mem_of_mem_take hc)
  unfold outOfBuf intoBuf
  rw [ofFn_getD (hlen.trans hn), List.take_append, List.take_of_length_le hlen,
    List.take_replicate, List.takeWhile_append_of_pos hclean]
  simp

theorem intoBuf_zero {size n : Nat} (hsize : 0 < size) {s : CStr} (hs : 0 ∉ s) :
    intoBuf size n s ⟨0, hsize⟩ = 0 ↔ s.take n = [] := by
  unfold intoBuf
  cases htake : s.take n with
  | nil => simp
  | cons c cs =>
      have hc : c ∈ s := List.mem_of_mem_take (htake ▸ List.mem_cons_self ..)
      simp only [List.getD_cons_zero, reduceCtorEq, iff_false]
      rintro rfl
      exact hs hc

/-! ## Records -/

/-- The CRC field is the last one. -/
def wifiClosed : LastWord wifiRecordLayout :=
  LastWord.via (.pair _ <| .pair _ <| .pair _ .word) _ _ _

theorem recordCrc_stamped (pcSsid pcPass : Option CStr) :
    recordCrc wifiRecordLayout (.stamped pcSsid pcPass) =
      (WifiRecord.stamped pcSsid pcPass).crc := by
  have hfront : wifiClosed.front (.stamped pcSsid pcPass) =
      wifiClosed.front (.unstamped pcSsid pcPass) := by
    rw [wifiClosed, front_via, front_via]
    exact front_pair rfl <| front_pair rfl <| front_pair rfl <| front_word _ _
  rw [wifiClosed.recordCrc_eq, hfront, ← wifiClosed.recordCrc_eq]
  rfl

/-- A record that was saved gives back what is kept of the strings. -/
theorem credentials_stamped (pcSsid pcPass : Option CStr) :
    (WifiRecord.stamped pcSsid pcPass).credentials = kept pcSsid pcPass := by
  have hmagic : (WifiRecord.stamped pcSsid pcPass).magic = cfgWifiMagic := rfl
  have hssid : (WifiRecord.stamped pcSsid pcPass).ssid =
      intoBuf wifiSsidBuf wifiSsidMax (cText pcSsid) := rfl
  have hpass : (WifiRecord.stamped pcSsid pcPass).pass =
      intoBuf wifiPassBuf wifiPassMax (cText pcPass) := rfl
  have hname := nul_not_mem_cText pcSsid
  have hfirst := intoBuf_zero (n := wifiSsidMax) (by decide : 0 < wifiSsidBuf) hname
  unfold WifiRecord.credentials kept Credentials.adopt
  simp only [recordCrc_stamped, hmagic, ne_eq, not_true_eq_false, false_or, hssid, hpass, hfirst,
    outOfBuf_intoBuf (by decide : wifiSsidMax ≤ wifiSsidBuf) hname,
    outOfBuf_intoBuf (by decide : wifiPassMax ≤ wifiPassBuf) (nul_not_mem_cText pcPass)]

/-- What a load makes of the record at `addr`. -/
def credentialsAt (m : ByteStore.Bytes) (addr : Nat) : Option Credentials :=
  (wifiRecordLayout.get (ByteStore.read m addr wifiRecordLayout.size)).credentials

theorem credentialsAt_write (m : ByteStore.Bytes) (addr : Nat) (r : WifiRecord) :
    credentialsAt (ByteStore.write m addr (wifiRecordLayout.put r)) addr = r.credentials := by
  rw [credentialsAt, ← wifiRecordLayout.length_put r, ByteStore.read_write,
    wifiRecordLayout.get_put_self]

/-- Without its magic word a record does not check. -/
theorem credentialsAt_clear (m : ByteStore.Bytes) (addr : Nat) :
    credentialsAt (ByteStore.write m addr (wordBytes 0#32)) addr = none := by
  have hsize : wifiRecordLayout.size = 4 + 104 := by decide
  have hread : ByteStore.read (ByteStore.write m addr (wordBytes 0#32)) addr
      wifiRecordLayout.size = wordBytes 0#32 ++
        ByteStore.read (ByteStore.write m addr (wordBytes 0#32)) (addr + 4) 104 := by
    rw [hsize, ByteStore.read_add]
    exact congrArg (· ++ _) (ByteStore.read_write m addr (wordBytes 0#32))
  have hmagic : (wifiRecordLayout.get (ByteStore.read
      (ByteStore.write m addr (wordBytes 0#32)) addr wifiRecordLayout.size)).magic = 0#32 := by
    rw [hread]
    exact wordLayout.get_put 0#32 _
  rw [credentialsAt, WifiRecord.credentials, hmagic]
  exact if_pos (.inl (by decide))

theorem credentialsAt_outside {m : ByteStore.Bytes} {addr a : Nat} {bs : List UInt8}
    (h : addr + bs.length ≤ a ∨ a + 108 ≤ addr) :
    credentialsAt (ByteStore.write m addr bs) a = credentialsAt m a := by
  have hsize : wifiRecordLayout.size = 108 := by decide
  rw [credentialsAt, credentialsAt, ByteStore.read_write_of_disjoint (by rwa [hsize])]

theorem slotAddr_some {iSlot : Int} {addr : UInt32} (h : slotAddr iSlot = some addr) :
    iSlot = 0 ∧ addr = 4608 ∨ iSlot = 1 ∧ addr = 4720 := by
  unfold slotAddr at h
  split_ifs at h with h0 h1
  · exact .inl ⟨h0, (Option.some.inj h).symm⟩
  · exact .inr ⟨h1, (Option.some.inj h).symm⟩

theorem slotAddr_none {iSlot : Int} (h : slotAddr iSlot = none) : ¬(iSlot = 0 ∨ iSlot = 1) := by
  unfold slotAddr at h
  split_ifs at h with h0 h1
  exact not_or.mpr ⟨h0, h1⟩

theorem slotAddr_valid {iSlot : Int} {addr : UInt32} (h : slotAddr iSlot = some addr) :
    (iSlot = 0 ∨ iSlot = 1) ∧ addr.toNat ≤ 4720 := by
  rcases slotAddr_some h with ⟨rfl, rfl⟩ | ⟨rfl, rfl⟩
  · exact ⟨.inl rfl, by decide⟩
  · exact ⟨.inr rfl, by decide⟩

/-- The record of a slot is apart from that of another one. -/
theorem slotAddr_apart {iSlot jSlot : Int} {addr a : UInt32} (h : slotAddr iSlot = some addr)
    (h' : slotAddr jSlot = some a) (hne : jSlot ≠ iSlot) :
    addr.toNat + 108 ≤ a.toNat ∨ a.toNat + 108 ≤ addr.toNat := by
  rcases slotAddr_some h with ⟨rfl, rfl⟩ | ⟨rfl, rfl⟩ <;>
    rcases slotAddr_some h' with ⟨rfl, rfl⟩ | ⟨rfl, rfl⟩
  · exact absurd rfl hne
  · exact .inl (by decide)
  · exact .inr (by decide)
  · exact absurd rfl hne

/-! ## The relation -/

/-- The storage holds the networks, by way of the flat array that it stands for. -/
structure Holds {σ : Type*} (nv : NvFuncts σ) (st : PalStorage σ) (n : Networks) (f : FlatArray) :
    Prop where
  mirrors : Mirrors nv (st, f)
  up : f.up = n.up
  saved : ∀ iSlot addr, slotAddr iSlot = some addr →
    credentialsAt f.bytes addr.toNat = n.saved iSlot

section Steps

variable {σ : Type*} {nv : NvFuncts σ} {st : PalStorage σ} {n : Networks} {f : FlatArray}

/-- A write inside the store, which changes the networks to `saved` if the store is up. -/
theorem Holds.write (h : Holds nv st n f) (hw : nv.Works) {addr : UInt32} {buf : Buffer}
    (hfit : addr.toNat + buf.1.length ≤ palStorageSize) (saved : Int → Option Credentials)
    (hsaved : ∀ iSlot a, slotAddr iSlot = some a →
      credentialsAt (ByteStore.write f.bytes addr.toNat buf.1) a.toNat = saved iSlot)
    (hpos : 0 < buf.1.length) :
    Holds nv (palStorageWrite nv st addr.toNat buf.1).1
      { n with saved := if n.up = true then saved else n.saved } (f.step (.write addr buf)) := by
  have hinside : EndsInBounds (st, f) (.write addr buf) := by
    intro _ hwraps
    unfold Wraps at hwraps
    rw [toNat_len] at hwraps
    unfold palStorageSize at hfit
    omega
  refine ⟨h.mirrors.step hw hinside, ?_, fun iSlot a ha => ?_⟩
  · rw [FlatArray.step]
    split
    · exact h.up
    · exact h.up
  · rw [FlatArray.step]
    by_cases hup : n.up = true
    · rw [if_pos ⟨h.up.trans hup, hpos, hfit⟩, if_pos hup]
      exact hsaved iSlot a ha
    · rw [if_neg (fun htakes => hup (h.up.symm.trans htakes.1)), if_neg hup]
      exact h.saved iSlot a ha

/-- A write into the record of a slot, of which a load makes `c`. -/
theorem Holds.put (h : Holds nv st n f) (hw : nv.Works) {iSlot : Int} {addr : UInt32}
    (hslot : slotAddr iSlot = some addr) {buf : Buffer} (hpos : 0 < buf.1.length)
    (hlen : buf.1.length ≤ 108) {c : Option Credentials}
    (hc : credentialsAt (ByteStore.write f.bytes addr.toNat buf.1) addr.toNat = c) :
    Holds nv (palStorageWrite nv st addr.toNat buf.1).1 (n.put iSlot c)
      (f.step (.write addr buf)) := by
  obtain ⟨hvalid, haddr⟩ := slotAddr_valid hslot
  have hfit : addr.toNat + buf.1.length ≤ palStorageSize := by
    unfold palStorageSize
    omega
  have hput : n.put iSlot c =
      { n with saved := if n.up = true then Function.update n.saved iSlot c else n.saved } := by
    unfold Networks.put
    by_cases hup : n.up = true
    · rw [if_pos ⟨hup, hvalid⟩, if_pos hup]
    · rw [if_neg (fun h => hup h.1), if_neg hup]
  rw [hput]
  refine h.write hw hfit _ (fun jSlot a ha => ?_) hpos
  by_cases hne : jSlot = iSlot
  · subst hne
    obtain rfl : addr = a := Option.some.inj (hslot.symm.trans ha)
    rw [Function.update_self]
    exact hc
  · rw [Function.update_of_ne hne, ← h.saved jSlot a ha]
    refine credentialsAt_outside ?_
    rcases slotAddr_apart hslot ha hne with hbelow | habove
    · exact .inl (by omega)
    · exact .inr habove

theorem Networks.put_invalid {iSlot : Int} (h : slotAddr iSlot = none) (c : Option Credentials) :
    n.put iSlot c = n := if_neg fun hvalid => slotAddr_none h hvalid.2

theorem length_put_stamped (pcSsid pcPass : Option CStr) :
    (wifiRecordLayout.put (.stamped pcSsid pcPass)).length = 108 :=
  wifiRecordLayout.length_put _

/-- **One call** does to the storage what it does to the networks. -/
theorem Holds.step (h : Holds nv st n f) (hw : nv.Works) {e : StoreCall} (hoff : e.KeepsOff) :
    ∃ f', Holds nv (storeStep nv st e) (n.step e) f' := by
  cases e with
  | init => exact ⟨_, h.mirrors.step hw (c := .init) trivial, rfl, h.saved⟩
  | reset => exact ⟨_, h.mirrors.step hw (c := .reset) trivial, rfl, h.saved⟩
  | save iSlot pcSsid pcPass =>
      rw [storeStep, wifiStoreSave, Networks.step]
      cases hslot : slotAddr iSlot with
      | none => exact ⟨f, by rw [Networks.put_invalid hslot]; exact h⟩
      | some addr =>
          have hlen := length_put_stamped pcSsid pcPass
          have hpos : 0 < (wifiRecordLayout.put (.stamped pcSsid pcPass)).length := by
            rw [hlen]
            decide
          let record : Buffer :=
            ⟨wifiRecordLayout.put (.stamped pcSsid pcPass), by rw [hlen]; decide⟩
          have hread : credentialsAt (ByteStore.write f.bytes addr.toNat record.1) addr.toNat =
              kept pcSsid pcPass := by
            rw [credentialsAt_write, credentials_stamped]
          exact ⟨_, h.put hw hslot hpos hlen.le hread⟩
  | clear iSlot =>
      rw [storeStep, wifiStoreClear, Networks.step]
      cases hslot : slotAddr iSlot with
      | none => exact ⟨f, by rw [Networks.put_invalid hslot]; exact h⟩
      | some addr =>
          let zero : Buffer := ⟨wordBytes 0#32, by decide⟩
          have hread :
              credentialsAt (ByteStore.write f.bytes addr.toNat zero.1) addr.toNat = none :=
            credentialsAt_clear _ _
          exact ⟨_, h.put hw hslot (by decide) (by decide) hread⟩
  | other addr buf =>
      rw [storeStep, Networks.step]
      by_cases hpos : 0 < buf.1.length
      · have hfit : addr.toNat + buf.1.length ≤ palStorageSize := by
          rcases hoff with hbelow | habove
          · unfold palStorageSize
            omega
          · exact habove.2
        have hwritten := h.write hw hfit n.saved (fun iSlot a ha => ?_) hpos
        · rw [ite_self] at hwritten
          exact ⟨_, hwritten⟩
        · rw [← h.saved iSlot a ha]
          refine credentialsAt_outside ?_
          rcases slotAddr_some ha with ⟨-, rfl⟩ | ⟨-, rfl⟩
          · have hat : (4608 : UInt32).toNat = 4608 := rfl
            exact hoff.imp (fun h => h) fun h => by omega
          · have hat : (4720 : UInt32).toNat = 4720 := rfl
            exact hoff.imp (fun h => by omega) fun h => by omega
      · have hrefused : palStorageWrite nv st addr.toNat buf.1 = (st, 1) :=
          palStorageWrite_refused fun hgood => hpos hgood.2.1
        rw [hrefused]
        exact ⟨f, h⟩

/-- A load answers with the network in the slot. -/
theorem Holds.load (h : Holds nv st n f) (iSlot : Int) : wifiStoreLoad st iSlot = n.load iSlot := by
  unfold wifiStoreLoad Networks.load
  cases hslot : slotAddr iSlot with
  | none => exact (if_neg fun hvalid => slotAddr_none hslot hvalid.2).symm
  | some addr =>
      obtain ⟨hvalid, haddr⟩ := slotAddr_valid hslot
      have hlen : (108 : UInt32).toNat = wifiRecordLayout.size := by decide
      have hinside : EndsInBounds (st, f) (.read addr 108) := by
        intro _ hwraps
        have hsize : (108 : UInt32).toNat = 108 := rfl
        unfold Wraps palStorageSize at hwraps
        omega
      have hread : palStorageRead st addr.toNat (108 : UInt32).toNat =
          f.read addr.toNat (108 : UInt32).toNat :=
        (conforms_read_iff h.mirrors addr 108).mpr hinside
      rw [hlen, FlatArray.read, h.up] at hread
      rw [Option.bind_some, hread]
      have hsize : wifiRecordLayout.size = 108 := by decide
      by_cases hup : n.up = true
      · rw [if_pos ⟨hup, by unfold palStorageSize; omega⟩, if_pos ⟨hup, hvalid⟩]
        exact h.saved iSlot addr hslot
      · rw [if_neg (fun h => hup h.1), if_neg (fun h => hup h.1)]
        rfl

end Steps

/-! ## Runs -/

/-- The networks that the items of the store hold at power-up. -/
def networksAtReset {σ : Type*} (nv : NvFuncts σ) (s : σ) : Networks where
  up := false
  saved iSlot := (slotAddr iSlot).bind fun addr => credentialsAt (loaded nv s) addr.toNat

theorem holds_atReset {σ : Type*} (nv : NvFuncts σ) (s : σ) :
    Holds nv (atReset s) (networksAtReset nv s) ⟨false, loaded nv s⟩ where
  mirrors := mirrors_pairAtReset s
  up := rfl
  saved iSlot addr h := by
    have hsaved : (networksAtReset nv s).saved iSlot =
        (slotAddr iSlot).bind fun addr => credentialsAt (loaded nv s) addr.toNat := rfl
    rw [hsaved, h, Option.bind_some]

theorem Holds.run {σ : Type*} {nv : NvFuncts σ} (hw : nv.Works) {st : PalStorage σ} {n : Networks}
    {f : FlatArray} (h : Holds nv st n f) {es : List StoreCall} (hoff : ∀ e ∈ es, e.KeepsOff) :
    ∃ f', Holds nv (Runs.final (storeStep nv) st es) (Runs.final Networks.step n es) f' := by
  induction es generalizing st n f with
  | nil => exact ⟨f, h⟩
  | cons e es ih =>
      rw [List.forall_mem_cons] at hoff
      obtain ⟨f', h'⟩ := h.step hw hoff.1
      exact ih h' hoff.2

/-- **The records are two slots that survive a power cycle.**  Over a store that works, and
whatever it holds at power-up, a load after any saves, clears, power cycles and writes of the rest
of the firmware answers with the network that was put into the slot last. -/
theorem stored_networks {σ : Type*} {nv : NvFuncts σ} (hw : nv.Works) (s : σ)
    (es : List StoreCall) (hoff : ∀ e ∈ es, e.KeepsOff) (iSlot : Int) :
    wifiStoreLoad (Runs.final (storeStep nv) (atReset s) es) iSlot =
      (Runs.final Networks.step (networksAtReset nv s) es).load iSlot := by
  obtain ⟨f, h⟩ := (holds_atReset nv s).run hw hoff
  exact h.load iSlot

/-- The backup network is there after a power cycle, and the primary one was cleared. -/
theorem stored_networks_backup :
    wifiStoreLoad (Runs.final (storeStep ramNv) (atReset fun _ => none)
      [.init, .save 0 (some (ascii "home")) (some (ascii "secret")),
        .save 1 (some (ascii "guest")) none, .clear 0, .reset, .init]) 1 =
      some ⟨ascii "guest", []⟩ := by
  refine (stored_networks ramNv_works _ _ (fun e he => ?_) 1).trans (by decide)
  simp only [List.mem_cons, List.not_mem_nil, or_false] at he
  rcases he with rfl | rfl | rfl | rfl | rfl | rfl <;> exact trivial

end HomeAuto.Wifi
