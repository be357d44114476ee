import HomeAuto.HtmlEscape
import HomeAuto.WifiStore

/-!
# The order in which stored networks are tried (`wifi_rank_candidates`)

At boot the stored networks are ranked by the scan cache: the stronger one is tried first, and a
network that the scan did not find comes last.  Every stored network is tried, and as long as the
networks around fit the cache, the order is that of their strongest readings
(`candidates_ranked`).
-/

namespace HomeAuto.Wifi

open PalStorage

/-! ## The code -/

/-- The loop over the scan cache: the RSSI of a network, or the floor. -/
def slotRssi (c : ScanCache) (pcSsid : CStr) : Int8 :=
  (((List.range c.count).find? fun j => c.netWifiScanGet j (wifiSsidMax + 1) = some pcSsid).map
    fun j => (c.entry j).i8Rssi).getD (-128)

/-- `wifi_rank_candidates`, with `WifiStoreLoad` on its slots. -/
def wifiRankCandidates (load : Int → Option Credentials) (c : ScanCache) : List Credentials :=
  match load 0, load 1 with
  | none, none => []
  | some a, none => [a]
  | none, some b => [b]
  | some a, some b => if slotRssi c a.ssid < slotRssi c b.ssid then [b, a] else [a, b]

/-- The strongest reading of a network, and the floor where there is none. -/
def strongestReading (readings : List Reading) (pcSsid : CStr) : Int :=
  ((readings.filter (·.pcSsid = pcSsid)).map (·.i8Rssi.toInt)).foldl max (-128)

/-! ## Looking a network up -/

theorem foldl_max_eq {l : List Int} {b v : Int} (hb : b ≤ v) (hle : ∀ x ∈ l, x ≤ v)
    (hv : v ∈ l ∨ v = b) : l.foldl max b = v := by
  induction l generalizing b with
  | nil => exact (hv.resolve_left List.not_mem_nil).symm
  | cons x l ih =>
      rw [List.forall_mem_cons] at hle
      rw [List.foldl_cons]
      refine ih (max_le hb hle.1) hle.2 ?_
      rcases hv with hv | rfl
      · rcases List.mem_cons.mp hv with rfl | hv
        · exact .inr (max_eq_right hb).symm
        · exact .inl hv
      · exact .inr (max_eq_left hle.1).symm

section Lookup

variable {c : ScanCache} {pcSsid : CStr}

/-- An entry whose SSID has the length that is allowed answers with all of it. -/
theorem netWifiScanGet_whole (hfits : ∀ row ∈ c.rows, row.1.length ≤ wlanSsidMaxLength) {j : Nat}
    (hj : j < c.count) :
    c.netWifiScanGet j (wifiSsidMax + 1) = some (c.entry j).pcSsid := by
  have hrow := List.mem_of_getElem? (c.getElem?_rows hj)
  have hlen : (c.entry j).pcSsid.length ≤ wifiSsidMax := hfits _ hrow
  rw [ScanCache.netWifiScanGet, if_neg (by unfold wifiSsidMax; omega), Nat.add_sub_cancel,
    List.take_of_length_le hlen]

/-- The reading of a network in the cache. -/
theorem slotRssi_of_mem (hfits : ∀ row ∈ c.rows, row.1.length ≤ wlanSsidMaxLength)
    (hdistinct : (c.rows.map Prod.fst).Nodup) {v : Int} (hrow : (pcSsid, v) ∈ c.rows) :
    (slotRssi c pcSsid).toInt = v := by
  obtain ⟨i, hi, hentry⟩ := List.getElem_of_mem hrow
  have hcount : i < c.count := by rwa [c.length_rows] at hi
  have hget := c.getElem?_rows hcount
  rw [List.getElem?_eq_getElem hi, hentry, Option.some.injEq, Prod.mk.injEq] at hget
  unfold slotRssi
  cases hfind : (List.range c.count).find? fun j =>
      c.netWifiScanGet j (wifiSsidMax + 1) = some pcSsid with
  | none =>
      have hnone := List.find?_eq_none.mp hfind i (List.mem_range.mpr hcount)
      rw [netWifiScanGet_whole hfits hcount, ← hget.1] at hnone
      exact absurd (decide_eq_true rfl) hnone
  | some j =>
      have hj : j < c.count := List.mem_range.mp (List.mem_of_find?_eq_some hfind)
      have htrue := List.find?_some hfind
      have hname := of_decide_eq_true htrue
      rw [netWifiScanGet_whole hfits hj, Option.some.injEq] at hname
      have hjrow := c.getElem?_rows hj
      rw [hname] at hjrow
      -- the SSIDs are distinct, so it is the same entry
      have hji : j = i := by
        have hj' : j < (c.rows.map Prod.fst).length := by rwa [List.length_map, c.length_rows]
        have hi' : i < (c.rows.map Prod.fst).length := by rwa [List.length_map]
        have hsame : (c.rows.map Prod.fst)[j] = (c.rows.map Prod.fst)[i] := by
          rw [List.getElem_map, List.getElem_map, hentry, (List.getElem?_eq_some_iff.mp hjrow).2]
        exact (List.Nodup.getElem_inj_iff hdistinct).mp hsame
      rw [hji]
      exact hget.2.symm

/-- A network that is not in the cache is at the floor. -/
theorem slotRssi_of_not_mem (hfits : ∀ row ∈ c.rows, row.1.length ≤ wlanSsidMaxLength)
    (hnot : pcSsid ∉ c.rows.map Prod.fst) : (slotRssi c pcSsid).toInt = -128 := by
  have hnone : (List.range c.count).find? (fun j =>
      c.netWifiScanGet j (wifiSsidMax + 1) = some pcSsid) = none := by
    refine List.find?_eq_none.mpr fun j hj htrue => hnot ?_
    have hj : j < c.count := List.mem_range.mp hj
    have hname := of_decide_eq_true htrue
    rw [netWifiScanGet_whole hfits hj, Option.some.injEq] at hname
    have hrow := List.mem_of_getElem? (c.getElem?_rows hj)
    rw [hname] at hrow
    exact List.mem_map.mpr ⟨_, hrow, rfl⟩
  rw [slotRssi, hnone]
  rfl

end Lookup

/-- **The cache gives the strongest reading** of every network, as long as they fit. -/
theorem slotRssi_scanCache (entry : Nat → ScanEntry) {readings : List Reading}
    (hcard : (readings.map Reading.pcSsid).toFinset.card ≤ scanCacheMax) (pcSsid : CStr) :
    (slotRssi (ScanCache.scanCache entry readings) pcSsid).toInt =
      strongestReading readings pcSsid := by
  have hkept := ScanCache.kept_scanCache entry readings
  have hcomplete := ScanCache.complete_scanCache entry hcard
  have hfits : ∀ row ∈ (ScanCache.scanCache entry readings).rows,
      row.1.length ≤ wlanSsidMaxLength := by
    intro row hrow
    obtain ⟨r, -, rfl⟩ := List.mem_map.mp (hkept.reported row hrow)
    exact r.fits
  have hfloor (r : Reading) : -128 ≤ r.i8Rssi.toInt := r.i8Rssi.le_toInt
  symm
  unfold strongestReading
  by_cases hlisted : pcSsid ∈ (ScanCache.scanCache entry readings).rows.map Prod.fst
  · obtain ⟨⟨k, v⟩, hrow, rfl⟩ := List.mem_map.mp hlisted
    rw [slotRssi_of_mem hfits hkept.distinct hrow]
    obtain ⟨hmem, hupper⟩ := hcomplete.peaks _ hrow
    have hread : ∃ r ∈ readings, r.report = (k, v) := List.mem_map.mp hmem
    obtain ⟨r, hr, hreport⟩ := hread
    rw [Reading.report, Prod.mk.injEq] at hreport
    refine foldl_max_eq (hreport.2 ▸ hfloor r) (fun x hx => ?_) (.inl ?_)
    · obtain ⟨r', hr', rfl⟩ := List.mem_map.mp hx
      obtain ⟨hr', hname⟩ := List.mem_filter.mp hr'
      have hname := of_decide_eq_true hname
      have hlevel : (k, r'.i8Rssi.toInt) ∈ readings.map Reading.report :=
        List.mem_map.mpr ⟨r', hr', by rw [Reading.report, hname]⟩
      exact hupper hlevel
    · exact List.mem_map.mpr ⟨r, List.mem_filter.mpr ⟨hr, decide_eq_true hreport.1⟩, hreport.2⟩
  · rw [slotRssi_of_not_mem hfits hlisted]
    have hnone : readings.filter (·.pcSsid = pcSsid) = [] := by
      refine List.filter_eq_nil_iff.mpr fun r hr htrue => hlisted ?_
      have hname := of_decide_eq_true htrue
      have hall := hcomplete.all _ (List.mem_map_of_mem hr)
      rwa [Reading.report, hname] at hall
    rw [hnone]
    rfl

/-! ## The candidates -/

theorem candidates_perm (load : Int → Option Credentials) (c : ScanCache) :
    (wifiRankCandidates load c).Perm ([0, 1].filterMap load) := by
  unfold wifiRankCandidates
  cases h0 : load 0 with
  | none =>
      cases h1 : load 1 with
      | none => simp [h0, h1]
      | some b => simp [h0, h1]
  | some a =>
      cases h1 : load 1 with
      | none => simp [h0, h1]
      | some b =>
          simp only [List.filterMap_cons, h0, h1, List.filterMap_nil]
          split
          · exact .swap a b []
          · exact .refl _

theorem candidates_sorted (load : Int → Option Credentials) (c : ScanCache) :
    (wifiRankCandidates load c).Pairwise fun a b => slotRssi c b.ssid ≤ slotRssi c a.ssid := by
  unfold wifiRankCandidates
  cases load 0 with
  | none =>
      cases load 1 with
      | none => exact .nil
      | some b => exact List.pairwise_singleton _ _
  | some a =>
      cases load 1 with
      | none => exact List.pairwise_singleton _ _
      | some b =>
          simp only
          split
          · next hlt => exact List.pairwise_pair.mpr (Int8.le_of_lt hlt)
          · next hnot => exact List.pairwise_pair.mpr (Int8.not_lt.mp hnot)

/-- **Every stored network is tried, the strongest first.**  After any calls on the stored
networks and any scan, the candidates are the networks in the slots; and if the networks around
fit the cache, each has a reading that is at least as strong as any of the next. -/
theorem candidates_ranked {σ : Type*} {nv : NvFuncts σ} (hw : nv.Works) (s : σ)
    (es : List StoreCall) (hoff : ∀ e ∈ es, e.KeepsOff) (entry : Nat → ScanEntry)
    (readings : List Reading) :
    let cands := wifiRankCandidates
      (wifiStoreLoad (Runs.final (storeStep nv) (atReset s) es)) (.scanCache entry readings)
    cands.Perm ([0, 1].filterMap (Runs.final Networks.step (networksAtReset nv s) es).load) ∧
      ((readings.map Reading.pcSsid).toFinset.card ≤ scanCacheMax →
        cands.Pairwise fun a b =>
          strongestReading readings b.ssid ≤ strongestReading readings a.ssid) := by
  intro cands
  obtain ⟨f, h⟩ := (holds_atReset nv s).run hw hoff
  refine ⟨?_, fun hcard => ?_⟩
  · rw [← funext h.load]
    exact candidates_perm _ _
  · refine (candidates_sorted _ _).imp fun {a b} hle => ?_
    rw [← slotRssi_scanCache entry hcard, ← slotRssi_scanCache entry hcard]
    exact Int8.le_iff_toInt_le.mp hle

/-- The backup network is nearer than the primary one. -/
def homeReadings : List Reading :=
  [⟨ascii "home", -71, by decide⟩, ⟨ascii "guest", -60, by decide⟩, ⟨ascii "home", -66, by decide⟩]

/-- Both networks are stored, and the nearer one is tried first. -/
theorem candidates_ranked_home :
    let cands := wifiRankCandidates (wifiStoreLoad (Runs.final (storeStep ramNv)
      (atReset fun _ => none)
      [.init, .save 0 (some (ascii "home")) none, .save 1 (some (ascii "guest")) none]))
      (.scanCache (fun _ => ⟨[], 0⟩) homeReadings)
    cands.Perm [⟨ascii "home", []⟩, ⟨ascii "guest", []⟩] ∧
      cands.Pairwise fun a b =>
        strongestReading homeReadings b.ssid ≤ strongestReading homeReadings a.ssid := by
  have hranked := candidates_ranked ramNv_works (fun _ => none)
    [.init, .save 0 (some (ascii "home")) none, .save 1 (some (ascii "guest")) none]
    (fun e he => ?_) (fun _ => ⟨[], 0⟩) homeReadings
  · have hstored : [0, 1].filterMap (Runs.final Networks.step (networksAtReset ramNv fun _ => none)
        [.init, .save 0 (some (ascii "home")) none, .save 1 (some (ascii "guest")) none]).load =
          [⟨ascii "home", []⟩, ⟨ascii "guest", []⟩] := by
      decide
    rw [hstored] at hranked
    exact ⟨hranked.1, hranked.2 (by decide)⟩
  · simp only [List.mem_cons, List.not_mem_nil, or_false] at he
    rcases he with rfl | rfl | rfl <;> exact trivial

end HomeAuto.Wifi
