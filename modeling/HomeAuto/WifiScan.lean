import HomeAuto.CStrings
import HomeAuto.Lib.Ranking
import Mathlib.Data.List.TakeWhile

/-!
# The Wi-Fi scan cache (`net_wifi.c`)

The scan event feeds the reported networks to `scan_cache_add` one by one.  The cache is an
array with a count; a new network is put in its place by shifting the tail of the array, and the
reading of a cached one is raised where it stands.

Read as a list of SSIDs with their readings, the cache is a bounded ranking
(`rows_scanCacheAdd`), so the rules for rankings say what it holds (`scanCache_ranking`).
-/

namespace HomeAuto.Wifi

/-- `WLAN_SSID_MAX_LENGTH`, and `SCAN_CACHE_MAX`. -/
def wlanSsidMaxLength : Nat := 32
def scanCacheMax : Nat := 12

/-- `tScanEntry`. -/
structure ScanEntry where
  pcSsid : CStr
  i8Rssi : Int8

/-- `g_sScanCache` and `g_iScanCount`. -/
structure ScanCache where
  entry : Nat → ScanEntry
  count : Nat
  count_le : count ≤ scanCacheMax

/-- A call of `scan_cache_add`: an SSID that fits an entry, and its reading. -/
structure Reading where
  pcSsid : CStr
  i8Rssi : Int8
  fits : pcSsid.length ≤ wlanSsidMaxLength

/-- A reading, as a report to a ranking. -/
def Reading.report (r : Reading) : CStr × Int := (r.pcSsid, r.i8Rssi.toInt)

namespace ScanCache

/-- The first loop of `scan_cache_add`: the entry of an SSID. -/
def findSsid (c : ScanCache) (pcSsid : CStr) : Option Nat :=
  (List.range c.count).find? fun i => (c.entry i).pcSsid = pcSsid

/-- The second loop: the first weaker entry. -/
def findSlot (c : ScanCache) (i8Rssi : Int8) : Nat :=
  ((List.range c.count).find? fun iPos => (c.entry iPos).i8Rssi < i8Rssi).getD c.count

/-- The third loop, from `i` down to the slot. -/
def shiftTail (entry : Nat → ScanEntry) (iPos : Nat) : Nat → Nat → ScanEntry
  | 0 => entry
  | i + 1 =>
      if iPos < i + 1 then shiftTail (Function.update entry (i + 1) (entry i)) iPos i else entry

/-- `iLast`. -/
def lastSlot (c : ScanCache) : Nat := if c.count < scanCacheMax then c.count else scanCacheMax - 1

theorem count_added_le (c : ScanCache) :
    (if c.count < scanCacheMax then c.count + 1 else c.count) ≤ scanCacheMax := by
  have hle := c.count_le
  split <;> omega

/-- `scan_cache_add`. -/
def scanCacheAdd (c : ScanCache) (pcSsid : CStr) (i8Rssi : Int8) : ScanCache :=
  match c.findSsid pcSsid with
  | some i =>
      if (c.entry i).i8Rssi < i8Rssi then
        { c with entry := Function.update c.entry i { c.entry i with i8Rssi := i8Rssi } }
      else c
  | none =>
      if scanCacheMax ≤ c.findSlot i8Rssi then c
      else
        { entry := Function.update (shiftTail c.entry (c.findSlot i8Rssi) c.lastSlot)
            (c.findSlot i8Rssi) ⟨pcSsid.take wlanSsidMaxLength, i8Rssi⟩
          count := if c.count < scanCacheMax then c.count + 1 else c.count
          count_le := c.count_added_le }

/-- The cache after some readings, the array having held `entry` before. -/
def scanCache (entry : Nat → ScanEntry) (readings : List Reading) : ScanCache :=
  readings.foldl (fun c r => c.scanCacheAdd r.pcSsid r.i8Rssi) ⟨entry, 0, Nat.zero_le _⟩

/-- The cache as a list. -/
def rows (c : ScanCache) : List (CStr × Int) :=
  (List.range c.count).map fun i => ((c.entry i).pcSsid, (c.entry i).i8Rssi.toInt)

/-- A reading that is stronger than the entry before its own. -/
def Overtakes (c : ScanCache) (r : Reading) : Prop :=
  ∃ i, i + 1 < c.count ∧ (c.entry (i + 1)).pcSsid = r.pcSsid ∧ (c.entry i).i8Rssi < r.i8Rssi

end ScanCache

/-- `WlanNetworkEntry_t`. -/
structure WlanNetworkEntry where
  ssid : Nat → UInt8
  ssidLen : Nat
  rssi : Int8

/-- A network of the result, unless it is hidden or malformed. -/
def WlanNetworkEntry.reading (e : WlanNetworkEntry) : Option Reading :=
  if h : 0 < e.ssidLen ∧ e.ssidLen ≤ wlanSsidMaxLength then
    some
      { pcSsid := ((List.range e.ssidLen).map e.ssid).takeWhile (· ≠ 0)
        i8Rssi := e.rssi
        fits := by
          have hle := (List.takeWhile_prefix (fun b : UInt8 => decide (b ≠ 0))
            (l := (List.range e.ssidLen).map e.ssid)).length_le
          rw [List.length_map, List.length_range] at hle
          exact hle.trans h.2 }
  else none

/-- `WLAN_EVENT_SCAN_RESULT` on the reported list; the SDK bounds its length. -/
def wlanEventScanResult (wlanMaxScanCount : Nat) (entry : Nat → ScanEntry)
    (networkListResult : List WlanNetworkEntry) : ScanCache :=
  (networkListResult.take wlanMaxScanCount).foldl
    (fun c e =>
      match e.reading with
      | some r => c.scanCacheAdd r.pcSsid r.i8Rssi
      | none => c)
    ⟨entry, 0, Nat.zero_le _⟩

/-- The event adds the readings of the networks that are neither hidden nor malformed. -/
theorem wlanEventScanResult_eq (wlanMaxScanCount : Nat) (entry : Nat → ScanEntry)
    (networkListResult : List WlanNetworkEntry) :
    wlanEventScanResult wlanMaxScanCount entry networkListResult =
      .scanCache entry
        ((networkListResult.take wlanMaxScanCount).filterMap WlanNetworkEntry.reading) := by
  rw [ScanCache.scanCache, List.foldl_filterMap]
  refine List.foldl_ext _ _ _ fun c e _ => ?_
  cases e.reading with
  | none => rfl
  | some r => rfl

namespace ScanCache

/-! ## The loops -/

theorem findSsid_eq_some {c : ScanCache} {pcSsid : CStr} {i : Nat}
    (h : c.findSsid pcSsid = some i) : i < c.count ∧ (c.entry i).pcSsid = pcSsid := by
  obtain ⟨hp, hmem, -⟩ := List.find?_range_eq_some.mp h
  exact ⟨List.mem_range.mp hmem, of_decide_eq_true hp⟩

theorem findSsid_eq_none {c : ScanCache} {pcSsid : CStr} (h : c.findSsid pcSsid = none) :
    ∀ i < c.count, (c.entry i).pcSsid ≠ pcSsid := by
  intro i hi heq
  have hnot := List.find?_eq_none.mp h i (List.mem_range.mpr hi)
  exact hnot (decide_eq_true heq)

/-- The entries before the slot are at least as strong, and the one in it is weaker. -/
theorem findSlot_spec (c : ScanCache) (i8Rssi : Int8) :
    c.findSlot i8Rssi ≤ c.count ∧
      (∀ i < c.findSlot i8Rssi, ¬(c.entry i).i8Rssi < i8Rssi) ∧
      (c.findSlot i8Rssi < c.count → (c.entry (c.findSlot i8Rssi)).i8Rssi < i8Rssi) := by
  unfold findSlot
  cases h : (List.range c.count).find? fun iPos => (c.entry iPos).i8Rssi < i8Rssi with
  | none =>
      refine ⟨le_rfl, fun i hi hlt => ?_, fun hlt => absurd hlt (lt_irrefl _)⟩
      exact List.find?_eq_none.mp h i (List.mem_range.mpr hi) (decide_eq_true hlt)
  | some k =>
      obtain ⟨hk, hmem, hbefore⟩ := List.find?_range_eq_some.mp h
      refine ⟨(List.mem_range.mp hmem).le, fun i hi hlt => ?_, fun _ => of_decide_eq_true hk⟩
      have hnot := hbefore i hi
      simp [hlt] at hnot

/-- The tail moves up by one. -/
theorem shiftTail_apply (entry : Nat → ScanEntry) (iPos n j : Nat) :
    shiftTail entry iPos n j = if iPos < j ∧ j ≤ n then entry (j - 1) else entry j := by
  induction n generalizing entry with
  | zero => rw [shiftTail, if_neg (by omega)]
  | succ n ih =>
      rw [shiftTail]
      by_cases hlt : iPos < n + 1
      · rw [if_pos hlt, ih]
        by_cases hj : j = n + 1
        · subst hj
          rw [if_neg (by omega), if_pos (by omega), Function.update_self]
          rfl
        · by_cases hshift : iPos < j ∧ j ≤ n
          · rw [if_pos hshift, if_pos (by omega), Function.update_of_ne (by omega)]
          · rw [if_neg hshift, if_neg (by omega), Function.update_of_ne hj]
      · rw [if_neg hlt, if_neg (by omega)]

/-! ## The cache is a ranking -/

@[simp] theorem length_rows (c : ScanCache) : c.rows.length = c.count := by simp [rows]

theorem getElem?_rows (c : ScanCache) {i : Nat} (h : i < c.count) :
    c.rows[i]? = some ((c.entry i).pcSsid, (c.entry i).i8Rssi.toInt) := by
  rw [rows, List.getElem?_map, List.getElem?_range h]
  rfl

/-- Raising a cached network. -/
theorem rows_raise {c : ScanCache} (hdistinct : (c.rows.map Prod.fst).Nodup) {pcSsid : CStr}
    {i8Rssi : Int8} {i : Nat} (h : c.findSsid pcSsid = some i) :
    (c.scanCacheAdd pcSsid i8Rssi).rows = Ranking.raise c.rows (pcSsid, i8Rssi.toInt) := by
  obtain ⟨hi, hssid⟩ := findSsid_eq_some h
  have honly {j : Nat} (hj : j < c.count) (heq : (c.entry j).pcSsid = pcSsid) : j = i := by
    have hkeys : c.rows.map Prod.fst = (List.range c.count).map fun j => (c.entry j).pcSsid := by
      simp [rows]
    rw [hkeys] at hdistinct
    exact (List.inj_on_of_nodup_map hdistinct) (List.mem_range.mpr hj) (List.mem_range.mpr hi)
      (heq.trans hssid.symm)
  unfold scanCacheAdd
  rw [h]
  dsimp only
  split
  · rename_i hlt
    rw [Int8.lt_iff_toInt_lt] at hlt
    rw [rows, rows, Ranking.raise, List.map_map]
    refine List.map_congr_left fun j hj => ?_
    rw [List.mem_range] at hj
    by_cases hji : j = i
    · subst hji
      simp [hssid, max_eq_right hlt.le]
    · have hne : (c.entry j).pcSsid ≠ pcSsid := fun heq => hji (honly hj heq)
      simp [hji, hne]
  · rename_i hlt
    rw [Int8.lt_iff_toInt_lt, not_lt] at hlt
    rw [rows, Ranking.raise, List.map_map]
    refine List.map_congr_left fun j hj => ?_
    rw [List.mem_range] at hj
    by_cases heq : (c.entry j).pcSsid = pcSsid
    · have hji := honly hj heq
      subst hji
      simp [hssid, max_eq_left hlt]
    · simp [heq]

/-- A new network goes to the slot that was found. -/
theorem place_rows (c : ScanCache) (r : Reading) :
    Ranking.place r.report c.rows = c.rows.insertIdx (c.findSlot r.i8Rssi) r.report := by
  obtain ⟨hle, hbefore, hslot⟩ := c.findSlot_spec r.i8Rssi
  refine Ranking.place_eq_insertIdx (by rwa [length_rows]) (fun i hi row hr => ?_) fun row hr => ?_
  · rw [c.getElem?_rows (by omega), Option.some.injEq] at hr
    rw [← hr]
    exact Int8.le_iff_toInt_le.mp (Int8.not_lt.mp (hbefore i hi))
  · obtain ⟨hlt, -⟩ := List.getElem?_eq_some_iff.mp hr
    rw [length_rows] at hlt
    rw [c.getElem?_rows hlt, Option.some.injEq] at hr
    rw [← hr]
    exact Int8.lt_iff_toInt_lt.mp (hslot hlt)

/-- Placing a new network. -/
theorem rows_place {c : ScanCache} {r : Reading} (h : c.findSsid r.pcSsid = none) :
    (c.scanCacheAdd r.pcSsid r.i8Rssi).rows =
      (Ranking.place r.report c.rows).take scanCacheMax := by
  obtain ⟨hle, -, -⟩ := c.findSlot_spec r.i8Rssi
  have hcount := c.count_le
  have hpos : 0 < scanCacheMax := by decide
  have hlen := c.length_rows
  rw [place_rows]
  refine List.ext_getElem? fun j => ?_
  rw [List.getElem?_take, List.getElem?_insertIdx]
  unfold scanCacheAdd
  rw [h]
  dsimp only
  by_cases hfull : scanCacheMax ≤ c.findSlot r.i8Rssi
  · rw [if_pos hfull]
    by_cases hj : j < scanCacheMax
    · rw [if_pos hj, if_pos (by omega)]
    · rw [if_neg hj, List.getElem?_eq_none (by omega)]
  · rw [if_neg hfull]
    have hnext : j < (if c.count < scanCacheMax then c.count + 1 else c.count) ↔
        j ≤ c.count ∧ j < scanCacheMax := by
      split <;> omega
    by_cases hj : j < (if c.count < scanCacheMax then c.count + 1 else c.count)
    · rw [getElem?_rows _ hj]
      dsimp only
      obtain ⟨hjle, hjmax⟩ := hnext.mp hj
      rw [if_pos hjmax]
      rcases lt_trichotomy j (c.findSlot r.i8Rssi) with hlt | heq | hgt
      · -- before the slot nothing moves
        rw [if_pos hlt, c.getElem?_rows (by omega), Function.update_of_ne hlt.ne, shiftTail_apply,
          if_neg (by omega)]
      · rw [if_neg (by omega), if_pos heq, if_pos (by omega), heq, Function.update_self,
          List.take_of_length_le r.fits]
        rfl
      · have hlast : j ≤ c.lastSlot := by
          unfold lastSlot
          split <;> omega
        rw [if_neg (by omega), if_neg (by omega), c.getElem?_rows (by omega),
          Function.update_of_ne hgt.ne', shiftTail_apply, if_pos ⟨hgt, hlast⟩]
    · rw [List.getElem?_eq_none (by rw [length_rows]; exact Nat.not_lt.mp hj)]
      rw [hnext] at hj
      by_cases hmax : j < scanCacheMax
      · rw [if_pos hmax, if_neg (by omega), if_neg (by omega), List.getElem?_eq_none (by omega)]
      · rw [if_neg hmax]

/-- **The cache refines the ranking.** -/
theorem rows_scanCacheAdd {c : ScanCache} (hdistinct : (c.rows.map Prod.fst).Nodup)
    (r : Reading) : (c.scanCacheAdd r.pcSsid r.i8Rssi).rows =
      Ranking.report scanCacheMax c.rows r.report := by
  unfold Ranking.report
  cases h : c.findSsid r.pcSsid with
  | some i =>
      obtain ⟨hi, hssid⟩ := findSsid_eq_some h
      have hlisted : r.report.1 ∈ c.rows.map Prod.fst := by
        refine List.mem_map.mpr ⟨_, List.mem_of_getElem? (c.getElem?_rows hi), hssid⟩
      rw [if_pos hlisted]
      exact rows_raise hdistinct h
  | none =>
      have hnew : r.report.1 ∉ c.rows.map Prod.fst := by
        intro hmem
        obtain ⟨row, hrow, hkey⟩ := List.mem_map.mp hmem
        obtain ⟨i, hi, rfl⟩ := List.mem_map.mp hrow
        exact findSsid_eq_none h i (List.mem_range.mp hi) hkey
      rw [if_neg hnew]
      exact rows_place h

/-! ## All readings -/

theorem scanCache_append (entry : Nat → ScanEntry) (readings : List Reading) (r : Reading) :
    scanCache entry (readings ++ [r]) =
      (scanCache entry readings).scanCacheAdd r.pcSsid r.i8Rssi := by
  rw [scanCache, List.foldl_append]
  rfl

/-- The cache is the ranking of the readings. -/
theorem rows_scanCache (entry : Nat → ScanEntry) (readings : List Reading) :
    (scanCache entry readings).rows =
      Ranking.ranking scanCacheMax (readings.map Reading.report) := by
  induction readings using List.reverseRecOn with
  | nil => rfl
  | append_singleton readings r ih =>
      have hdistinct := (Ranking.kept_ranking scanCacheMax (readings.map Reading.report)).distinct
      rw [← ih] at hdistinct
      rw [scanCache_append, rows_scanCacheAdd hdistinct, ih, List.map_append, List.map_singleton,
        Ranking.ranking_append]

theorem kept_scanCache (entry : Nat → ScanEntry) (readings : List Reading) :
    Ranking.Kept scanCacheMax (readings.map Reading.report) (scanCache entry readings).rows := by
  rw [rows_scanCache]
  exact Ranking.kept_ranking _ _

/-- As long as they fit, all networks are in the cache. -/
theorem complete_scanCache (entry : Nat → ScanEntry) {readings : List Reading}
    (hcard : (readings.map Reading.pcSsid).toFinset.card ≤ scanCacheMax) :
    Ranking.Complete (readings.map Reading.report) (scanCache entry readings).rows := by
  rw [rows_scanCache]
  refine Ranking.complete_ranking ?_
  rw [List.map_map]
  exact hcard

theorem overtakes_iff (c : ScanCache) (r : Reading) :
    c.Overtakes r ↔ Ranking.Overtakes c.rows r.report := by
  rw [Ranking.overtakes_iff]
  constructor
  · rintro ⟨i, hi, hssid, hlt⟩
    refine ⟨i, _, (c.entry (i + 1)).i8Rssi.toInt, c.getElem?_rows (by omega), ?_,
      Int8.lt_iff_toInt_lt.mp hlt⟩
    rw [c.getElem?_rows hi, hssid]
    rfl
  · rintro ⟨i, s, b, hs, hb, hlt⟩
    have hi : i + 1 < c.count := by
      rw [← c.length_rows]
      exact (List.getElem?_eq_some_iff.mp hb).1
    rw [c.getElem?_rows (by omega), Option.some.injEq] at hs
    rw [c.getElem?_rows hi, Option.some.injEq] at hb
    rw [← hs] at hlt
    exact ⟨i, hi, congrArg Prod.fst hb, Int8.lt_iff_toInt_lt.mpr hlt⟩

/-- **What the scan cache holds.**  The SSIDs are distinct, at most as many as the cache has
entries, each with a reading that was reported for it.  As long as the networks fit, all of them
are there with their strongest readings.  And the cache holds the strongest networks in order,
after every reading, exactly if none is stronger than the entry before its own. -/
theorem scanCache_ranking (entry : Nat → ScanEntry) (readings : List Reading) :
    Ranking.Kept scanCacheMax (readings.map Reading.report) (scanCache entry readings).rows ∧
      ((readings.map Reading.pcSsid).toFinset.card ≤ scanCacheMax →
        Ranking.Complete (readings.map Reading.report) (scanCache entry readings).rows) ∧
      ((∀ front, front <+: readings → Ranking.Strongest scanCacheMax
          (front.map Reading.report) (scanCache entry front).rows) ↔
        ∀ front r, front ++ [r] <+: readings → ¬(scanCache entry front).Overtakes r) := by
  refine ⟨kept_scanCache entry readings, fun hcard => complete_scanCache entry hcard, ?_⟩
  · simp only [rows_scanCache, overtakes_iff]
    have hiff := Ranking.strongest_ranking_iff scanCacheMax (readings.map Reading.report)
    constructor
    · intro h front r hbegin
      refine hiff.mp (fun front' hfront' => ?_) _ _ ?_
      · obtain ⟨l, hl, rfl⟩ := List.prefix_map_iff.mp hfront'
        exact h l hl
      · have hmap := hbegin.map Reading.report
        rwa [List.map_append, List.map_singleton] at hmap
    · intro h front hbegin
      refine hiff.mpr (fun front' r' hfront' => ?_) _ (hbegin.map Reading.report)
      obtain ⟨l, hl, heq⟩ := List.prefix_map_iff.mp hfront'
      obtain ⟨l', last, rfl, rfl, hlast⟩ := List.map_eq_append_iff.mp heq.symm
      obtain ⟨r, rfl, rfl⟩ := List.map_eq_singleton_iff.mp hlast
      exact h l' r hl

/-! ## A raised reading -/

/-- A reading of a network with a name of one byte. -/
def shortReading (name : UInt8) (i8Rssi : Int8) : Reading :=
  ⟨[name], i8Rssi, Nat.succ_le_succ (Nat.zero_le _)⟩

/-- A second network is found behind the first, and then comes nearer. -/
def nearerReadings : List Reading :=
  [shortReading 97 (-50), shortReading 98 (-60), shortReading 98 (-40)]

/-- It stays behind the first, though it is stronger now. -/
theorem raised_not_resorted :
    ¬Ranking.Strongest scanCacheMax (nearerReadings.map Reading.report)
      (scanCache (fun _ => ⟨[], 0⟩) nearerReadings).rows := by
  intro h
  have hrows : (scanCache (fun _ => ⟨[], 0⟩) nearerReadings).rows = [([97], -50), ([98], -40)] := by
    decide +kernel
  have hsorted := h.sorted
  rw [hrows] at hsorted
  revert hsorted
  decide

end ScanCache

end HomeAuto.Wifi
