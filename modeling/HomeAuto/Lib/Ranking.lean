import Mathlib.Data.Finset.Card
import Mathlib.Data.List.Dedup
import Mathlib.Data.List.TakeWhile
import Mathlib.Order.Bounds.Basic

/-!
# Bounded rankings

A ranking is a list of keys, each with a level, and a stream of reports `(key, level)` feeds it:
a report of a listed key raises the level of its row where it stands, and a new key is placed
behind the rows that are at least as strong, and the row behind the last place is dropped.

`Strongest` says that a ranking is right: every listed key has its greatest reported level, the
rows stand in order, and no key that is left out was reported stronger than a listed one.  A
raised row is not moved, so a report keeps a right ranking right exactly if it lifts no row over
the one before it (`Strongest.report_iff`).  What holds of every stream is `Kept`, and `Complete`
if the keys do not exceed the bound.
-/

namespace Ranking

variable {κ α : Type*}

/-- The reported levels of a key. -/
def levels (reports : List (κ × α)) (k : κ) : Set α := {a | (k, a) ∈ reports}

theorem levels_append_self (reports : List (κ × α)) (r : κ × α) :
    levels (reports ++ [r]) r.1 = levels reports r.1 ∪ {r.2} := by
  ext a
  simp [levels, Prod.ext_iff, or_comm]

theorem levels_append_of_ne {reports : List (κ × α)} {r : κ × α} {k : κ} (h : k ≠ r.1) :
    levels (reports ++ [r]) k = levels reports k := by
  ext a
  simp [levels, Prod.ext_iff, h]

variable [LinearOrder α]

/-! ## Rankings -/

/-- Every row is at its greatest reported level. -/
def Peaks (reports rows : List (κ × α)) : Prop :=
  ∀ row ∈ rows, IsGreatest (levels reports row.1) row.2

/-- Distinct keys, no more than the bound, each at a level that was reported for it. -/
structure Kept (cap : Nat) (reports rows : List (κ × α)) : Prop where
  distinct : (rows.map Prod.fst).Nodup
  bounded : rows.length ≤ cap
  reported : ∀ row ∈ rows, row ∈ reports

/-- Every reported key is listed, at its greatest level. -/
structure Complete (reports rows : List (κ × α)) : Prop where
  all : ∀ r ∈ reports, r.1 ∈ rows.map Prod.fst
  peaks : Peaks reports rows

/-- **A right ranking** of the reports. -/
structure Strongest (cap : Nat) (reports rows : List (κ × α)) : Prop extends
    Kept cap reports rows where
  peaks : Peaks reports rows
  sorted : rows.Pairwise fun r s => s.2 ≤ r.2
  full : rows.length < cap → ∀ r ∈ reports, r.1 ∈ rows.map Prod.fst
  strongest : ∀ r ∈ reports, r.1 ∉ rows.map Prod.fst → ∀ row ∈ rows, r.2 ≤ row.2

theorem strongest_nil (cap : Nat) : Strongest cap ([] : List (κ × α)) [] where
  distinct := List.nodup_nil
  bounded := Nat.zero_le cap
  reported := List.forall_mem_nil _
  peaks := List.forall_mem_nil _
  sorted := .nil
  full _ := List.forall_mem_nil _
  strongest := List.forall_mem_nil _

/-- A report lifts a row over the one before it. -/
def Overtakes (rows : List (κ × α)) (r : κ × α) : Prop :=
  ∃ front s b back, rows = front ++ s :: (r.1, b) :: back ∧ s.2 < r.2

/-- Two neighbours in a list, by their numbers. -/
theorem overtakes_iff {rows : List (κ × α)} {r : κ × α} :
    Overtakes rows r ↔ ∃ i s b, rows[i]? = some s ∧ rows[i + 1]? = some (r.1, b) ∧ s.2 < r.2 := by
  constructor
  · rintro ⟨front, s, b, back, rfl, hlt⟩
    exact ⟨front.length, s, b, by simp, by simp, hlt⟩
  · rintro ⟨i, s, b, hs, hb, hlt⟩
    obtain ⟨hi, rfl⟩ := List.getElem?_eq_some_iff.mp hs
    obtain ⟨hi', hb⟩ := List.getElem?_eq_some_iff.mp hb
    refine ⟨rows.take i, rows[i], b, rows.drop (i + 2), ?_, hlt⟩
    rw [← hb, ← List.drop_eq_getElem_cons, ← List.drop_eq_getElem_cons, List.take_append_drop]

/-- Only a listed key overtakes. -/
theorem Overtakes.listed {rows : List (κ × α)} {r : κ × α} (h : Overtakes rows r) :
    r.1 ∈ rows.map Prod.fst := by
  obtain ⟨front, s, b, back, rfl, -⟩ := h
  simp

/-! ## Placing a new row -/

/-- Put a row behind those that are at least as strong. -/
def place (row : κ × α) (rows : List (κ × α)) : List (κ × α) :=
  rows.takeWhile (fun r => decide (row.2 ≤ r.2)) ++
    row :: rows.dropWhile fun r => decide (row.2 ≤ r.2)

theorem perm_place (row : κ × α) (rows : List (κ × α)) : (place row rows).Perm (row :: rows) := by
  have hmiddle := @List.perm_middle _ row (rows.takeWhile fun r => decide (row.2 ≤ r.2))
    (rows.dropWhile fun r => decide (row.2 ≤ r.2))
  rwa [List.takeWhile_append_dropWhile] at hmiddle

theorem mem_place {row r : κ × α} {rows : List (κ × α)} :
    r ∈ place row rows ↔ r = row ∨ r ∈ rows :=
  (perm_place row rows).mem_iff.trans List.mem_cons

theorem length_place (row : κ × α) (rows : List (κ × α)) :
    (place row rows).length = rows.length + 1 := (perm_place row rows).length_eq

/-- The place of a row, by its number. -/
theorem place_eq_insertIdx {row : κ × α} {rows : List (κ × α)} {n : Nat} (hn : n ≤ rows.length)
    (hfront : ∀ i < n, ∀ r, rows[i]? = some r → row.2 ≤ r.2)
    (hback : ∀ r, rows[n]? = some r → r.2 < row.2) : place row rows = rows.insertIdx n row := by
  induction rows generalizing n with
  | nil =>
      obtain rfl := Nat.le_zero.mp hn
      rfl
  | cons r rows ih =>
      cases n with
      | zero =>
          have hlt : ¬row.2 ≤ r.2 := not_le.mpr (hback r rfl)
          simp [place, hlt]
      | succ n =>
          have hle : row.2 ≤ r.2 := hfront 0 (Nat.succ_pos n) r rfl
          have hrest := ih (Nat.le_of_succ_le_succ hn)
            (fun i hi => hfront (i + 1) (Nat.succ_lt_succ hi)) hback
          rw [List.insertIdx_succ_cons, ← hrest]
          simp [place, hle]

theorem nodup_place {row : κ × α} {rows : List (κ × α)} (h : (rows.map Prod.fst).Nodup)
    (hnew : row.1 ∉ rows.map Prod.fst) : ((place row rows).map Prod.fst).Nodup :=
  ((perm_place row rows).map Prod.fst).nodup_iff.mpr (List.nodup_cons.mpr ⟨hnew, h⟩)

/-- The rows behind the place are weaker. -/
theorem lt_of_mem_dropWhile {a : α} {rows : List (κ × α)}
    (h : rows.Pairwise fun r s => s.2 ≤ r.2) {s : κ × α}
    (hs : s ∈ rows.dropWhile fun r => decide (a ≤ r.2)) : s.2 < a := by
  induction rows with
  | nil => cases hs
  | cons r rows ih =>
      obtain ⟨hr, hrows⟩ := List.pairwise_cons.mp h
      by_cases hle : a ≤ r.2
      · simp only [List.dropWhile_cons, hle, decide_true, if_true] at hs
        exact ih hrows hs
      · simp only [List.dropWhile_cons, hle, decide_false, Bool.false_eq_true, if_false] at hs
        have hlt := not_le.mp hle
        rcases List.mem_cons.mp hs with rfl | hs
        · exact hlt
        · exact (hr s hs).trans_lt hlt

theorem sorted_place {row : κ × α} {rows : List (κ × α)}
    (h : rows.Pairwise fun r s => s.2 ≤ r.2) :
    (place row rows).Pairwise fun r s => s.2 ≤ r.2 := by
  have hfront : ∀ r ∈ rows.takeWhile (fun r => decide (row.2 ≤ r.2)), row.2 ≤ r.2 := by
    intro r hr
    have hle := List.mem_takeWhile_imp hr
    simpa using hle
  have hback : ∀ s ∈ rows.dropWhile (fun r => decide (row.2 ≤ r.2)), s.2 ≤ row.2 :=
    fun s hs => (lt_of_mem_dropWhile h hs).le
  refine List.pairwise_append.mpr ⟨h.sublist (List.takeWhile_sublist _), ?_, ?_⟩
  · exact List.pairwise_cons.mpr ⟨hback, h.sublist (List.dropWhile_sublist _)⟩
  · intro r hr s hs
    rcases List.mem_cons.mp hs with rfl | hs
    · exact hfront r hr
    · exact (hback s hs).trans (hfront r hr)

/-- A new row that is listed in a full ranking is at least as strong as the row it drives out. -/
theorem exists_weaker {cap : Nat} {rows : List (κ × α)} {r : κ × α}
    (hsorted : rows.Pairwise fun r s => s.2 ≤ r.2) (hdistinct : (rows.map Prod.fst).Nodup)
    (hnew : r.1 ∉ rows.map Prod.fst) (hfull : rows.length = cap)
    (hlisted : r ∈ (place r rows).take cap) : ∃ d ∈ rows, d.2 ≤ r.2 := by
  have hall := nodup_place hdistinct hnew
  have horder : (place r rows).Pairwise fun r s => s.2 ≤ r.2 := sorted_place hsorted
  rw [← List.take_append_drop cap (place r rows)] at hall horder
  obtain ⟨d, hd⟩ : ∃ d, d ∈ (place r rows).drop cap := by
    refine List.exists_mem_of_length_pos ?_
    rw [List.length_drop, length_place]
    omega
  have hle := (List.pairwise_append.mp horder).2.2 r hlisted d hd
  refine ⟨d, ?_, hle⟩
  rcases mem_place.mp (List.mem_of_mem_drop hd) with rfl | hold
  · rw [List.map_append] at hall
    exact absurd rfl ((List.nodup_append.mp hall).2.2 _ (List.mem_map_of_mem hlisted) _
      (List.mem_map_of_mem hd))
  · exact hold

/-- A level of a new key is its greatest. -/
theorem isGreatest_levels_new {reports : List (κ × α)} {r : κ × α}
    (h : ∀ a ∈ levels reports r.1, a ≤ r.2) : IsGreatest (levels (reports ++ [r]) r.1) r.2 := by
  rw [levels_append_self]
  refine ⟨.inr rfl, ?_⟩
  rintro a (ha | rfl)
  · exact h a ha
  · exact le_rfl

/-- The rows behind a new one, and the new one, are at their greatest levels. -/
theorem peaks_place {reports rows : List (κ × α)} (h : Peaks reports rows) {r : κ × α}
    (hnew : r.1 ∉ rows.map Prod.fst) (hpeak : ∀ a ∈ levels reports r.1, a ≤ r.2) :
    Peaks (reports ++ [r]) (place r rows) := by
  intro row hrow
  rcases mem_place.mp hrow with rfl | hold
  · exact isGreatest_levels_new hpeak
  · have hne : row.1 ≠ r.1 := fun heq => hnew (heq ▸ List.mem_map_of_mem hold)
    rw [levels_append_of_ne hne]
    exact h row hold

variable [DecidableEq κ]

/-! ## Reports -/

/-- Raise the level of a key, where it stands. -/
def raise (rows : List (κ × α)) (r : κ × α) : List (κ × α) :=
  rows.map fun s => if s.1 = r.1 then (r.1, max s.2 r.2) else s

/-- One report. -/
def report (cap : Nat) (rows : List (κ × α)) (r : κ × α) : List (κ × α) :=
  if r.1 ∈ rows.map Prod.fst then raise rows r else (place r rows).take cap

@[simp] theorem length_raise (rows : List (κ × α)) (r : κ × α) :
    (raise rows r).length = rows.length := List.length_map _

@[simp] theorem keys_raise (rows : List (κ × α)) (r : κ × α) :
    (raise rows r).map Prod.fst = rows.map Prod.fst := by
  rw [raise, List.map_map]
  refine List.map_congr_left fun s _ => ?_
  by_cases hs : s.1 = r.1
  · simp [hs]
  · simp [hs]

/-- The rows after a key was raised. -/
theorem mem_raise {rows : List (κ × α)} {r row : κ × α} :
    row ∈ raise rows r ↔ ∃ s ∈ rows,
      (s.1 = r.1 ∧ row = (r.1, max s.2 r.2)) ∨ (s.1 ≠ r.1 ∧ row = s) := by
  rw [raise, List.mem_map]
  refine exists_congr fun s => and_congr_right fun _ => ?_
  by_cases hs : s.1 = r.1
  · simp [hs, eq_comm]
  · simp [hs, eq_comm]

theorem Peaks.raise {reports rows : List (κ × α)} (h : Peaks reports rows) (r : κ × α) :
    Peaks (reports ++ [r]) (raise rows r) := by
  intro row hrow
  obtain ⟨s, hs, ⟨hkey, rfl⟩ | ⟨hkey, rfl⟩⟩ := mem_raise.mp hrow
  · have hold := h s hs
    rw [hkey] at hold
    rw [levels_append_self]
    exact hold.union isGreatest_singleton
  · rw [levels_append_of_ne hkey]
    exact h row hs

/-! ## What every stream keeps -/

theorem Kept.report {cap : Nat} {reports rows : List (κ × α)} (h : Kept cap reports rows)
    (r : κ × α) : Kept cap (reports ++ [r]) (report cap rows r) := by
  unfold Ranking.report
  split
  · refine ⟨by rw [keys_raise]; exact h.distinct, by rw [length_raise]; exact h.bounded, ?_⟩
    intro row hrow
    obtain ⟨s, hs, ⟨hkey, rfl⟩ | ⟨hkey, rfl⟩⟩ := mem_raise.mp hrow
    · rcases max_choice s.2 r.2 with hmax | hmax
      · rw [hmax, ← hkey]
        exact List.mem_append_left _ (h.reported s hs)
      · rw [hmax]
        exact List.mem_append_right _ (List.mem_singleton_self r)
    · exact List.mem_append_left _ (h.reported row hs)
  · rename_i hnew
    refine ⟨?_, List.length_take_le _ _, ?_⟩
    · rw [List.map_take]
      exact (nodup_place h.distinct hnew).sublist (List.take_sublist _ _)
    · intro row hrow
      rcases mem_place.mp (List.mem_of_mem_take hrow) with rfl | hold
      · exact List.mem_append_right _ (List.mem_singleton_self row)
      · exact List.mem_append_left _ (h.reported row hold)

/-! ## Within the bound -/

/-- **Within the bound nothing is lost.**  As long as the reports name no more keys than the
bound allows, all of them stay listed at their greatest levels. -/
theorem Complete.report {cap : Nat} {reports rows : List (κ × α)} (hkept : Kept cap reports rows)
    (h : Complete reports rows) {r : κ × α}
    (hcap : ((reports ++ [r]).map Prod.fst).toFinset.card ≤ cap) :
    Complete (reports ++ [r]) (report cap rows r) := by
  unfold Ranking.report
  split
  · rename_i hlisted
    refine ⟨fun s hs => ?_, h.peaks.raise r⟩
    rw [keys_raise]
    rcases List.mem_append.mp hs with hs | hs
    · exact h.all s hs
    · rwa [List.mem_singleton.mp hs]
  · rename_i hnew
    have hkeys :
        (r.1 :: rows.map Prod.fst).toFinset ⊆ ((reports ++ [r]).map Prod.fst).toFinset := by
      intro k hk
      rw [List.mem_toFinset] at hk ⊢
      rw [List.map_append, List.mem_append]
      rcases List.mem_cons.mp hk with rfl | hk
      · exact .inr (List.mem_singleton_self _)
      · obtain ⟨row, hrow, rfl⟩ := List.mem_map.mp hk
        exact .inl (List.mem_map_of_mem (hkept.reported row hrow))
    have hroom : rows.length + 1 ≤ cap := by
      have hcard := (Finset.card_le_card hkeys).trans hcap
      rw [List.toFinset_card_of_nodup (List.nodup_cons.mpr ⟨hnew, hkept.distinct⟩),
        List.length_cons, List.length_map] at hcard
      exact hcard
    rw [List.take_of_length_le ((length_place r rows).le.trans hroom)]
    refine ⟨fun s hs => ?_, peaks_place h.peaks hnew fun a ha => ?_⟩
    · rw [((perm_place r rows).map Prod.fst).mem_iff, List.map_cons, List.mem_cons]
      rcases List.mem_append.mp hs with hs | hs
      · exact .inr (h.all s hs)
      · rw [List.mem_singleton.mp hs]
        exact .inl rfl
    · exact absurd (h.all _ ha) hnew

/-! ## What keeps a ranking right -/

theorem raise_eq {front back : List (κ × α)} {k : κ} {a b : α}
    (h : ((front ++ (k, b) :: back).map Prod.fst).Nodup) :
    raise (front ++ (k, b) :: back) (k, a) = front ++ (k, max b a) :: back := by
  rw [List.map_append, List.map_cons] at h
  have hk := (List.nodup_middle.mp h).notMem
  obtain ⟨hfront, hback⟩ := not_or.mp (mt List.mem_append.mpr hk)
  have hkeep (rows : List (κ × α)) (hk : k ∉ rows.map Prod.fst) :
      (rows.map fun s => if s.1 = k then (k, max s.2 a) else s) = rows := by
    refine (List.map_congr_left fun s hs => if_neg ?_).trans (List.map_id rows)
    exact fun heq => hk (heq ▸ List.mem_map_of_mem hs)
  rw [raise, List.map_append, List.map_cons, hkeep front hfront, hkeep back hback, if_pos rfl]

/-- A row that is raised stays in order exactly if it overtakes none. -/
theorem sorted_raise_iff {rows : List (κ × α)} (hsorted : rows.Pairwise fun r s => s.2 ≤ r.2)
    (hdistinct : (rows.map Prod.fst).Nodup) {r : κ × α} (hlisted : r.1 ∈ rows.map Prod.fst) :
    (raise rows r).Pairwise (fun r s => s.2 ≤ r.2) ↔ ¬Overtakes rows r := by
  obtain ⟨k, a⟩ := r
  constructor
  · rintro h ⟨front, s, b, back, rfl, hlt⟩
    have hcons : front ++ s :: (k, b) :: back = (front ++ [s]) ++ (k, b) :: back := by simp
    rw [hcons] at hdistinct h
    rw [raise_eq hdistinct] at h
    have hle := (List.pairwise_append.mp h).2.2 s (by simp) (k, max b a) List.mem_cons_self
    exact absurd ((le_max_right b a).trans hle) (not_le.mpr hlt)
  · intro h
    obtain ⟨⟨_, b⟩, hmem, rfl⟩ := List.mem_map.mp hlisted
    obtain ⟨front, back, rfl⟩ := List.append_of_mem hmem
    rw [raise_eq hdistinct]
    obtain ⟨hfront, hrest, hcross⟩ := List.pairwise_append.mp hsorted
    obtain ⟨hb, hback⟩ := List.pairwise_cons.mp hrest
    refine List.pairwise_append.mpr ⟨hfront, List.pairwise_cons.mpr ⟨?_, hback⟩, ?_⟩
    · exact fun s hs => (hb s hs).trans (le_max_left _ _)
    · intro s hs t ht
      rcases List.mem_cons.mp ht with rfl | ht
      · refine max_le (hcross s hs _ List.mem_cons_self) ?_
        -- the row before the raised one is the weakest in front of it
        cases front using List.reverseRecOn with
        | nil => cases hs
        | append_singleton front last =>
            have hlast : a ≤ last.2 := by
              by_contra hlt
              exact h ⟨front, last, b, back, by simp, not_le.mp hlt⟩
            rcases List.mem_append.mp hs with hs | hs
            · exact hlast.trans ((List.pairwise_append.mp hfront).2.2 s hs last (by simp))
            · rwa [List.mem_singleton.mp hs]
      · exact hcross s hs t (List.mem_cons_of_mem _ ht)

/-- A new key leaves the ranking right. -/
theorem Strongest.place {cap : Nat} {reports rows : List (κ × α)}
    (h : Strongest cap reports rows) {r : κ × α} (hnew : r.1 ∉ rows.map Prod.fst) :
    Strongest cap (reports ++ [r]) ((place r rows).take cap) := by
  have hkept := h.toKept.report r
  rw [report, if_neg hnew] at hkept
  have horder : (Ranking.place r rows).Pairwise fun r s => s.2 ≤ r.2 := sorted_place h.sorted
  rw [← List.take_append_drop cap (Ranking.place r rows)] at horder
  obtain ⟨hsorted, -, hcross⟩ := List.pairwise_append.mp horder
  -- what was left out before was reported no stronger than a new row that is listed
  have hbelow {s : κ × α} (hs : s ∈ reports) (hout : s.1 ∉ rows.map Prod.fst)
      (hlisted : r ∈ (Ranking.place r rows).take cap) : s.2 ≤ r.2 := by
    have hfull : rows.length = cap := by
      by_contra hne
      exact hout (h.full (lt_of_le_of_ne h.bounded hne) s hs)
    obtain ⟨d, hd, hle⟩ := exists_weaker h.sorted h.distinct hnew hfull hlisted
    exact (h.strongest s hs hout d hd).trans hle
  refine ⟨hkept, ?_, hsorted, ?_, ?_⟩
  · intro row hrow
    rcases mem_place.mp (List.mem_of_mem_take hrow) with rfl | hold
    · exact isGreatest_levels_new fun a ha => hbelow (s := (row.1, a)) ha hnew hrow
    · rw [levels_append_of_ne fun heq => hnew (heq ▸ List.mem_map_of_mem hold)]
      exact h.peaks row hold
  · intro hlt s hs
    rw [List.length_take, length_place] at hlt
    rw [List.take_of_length_le (by rw [length_place]; omega),
      ((perm_place r rows).map Prod.fst).mem_iff, List.map_cons, List.mem_cons]
    rcases List.mem_append.mp hs with hs | hs
    · exact .inr (h.full (by omega) s hs)
    · rw [List.mem_singleton.mp hs]
      exact .inl rfl
  · intro s hmem hout row hrow
    -- a row that was driven out is no stronger than the listed ones
    have hdropped {d : κ × α} (hd : d ∈ Ranking.place r rows) (heq : d.1 = s.1) :
        d.2 ≤ row.2 := by
      rw [← List.take_append_drop cap (Ranking.place r rows)] at hd
      rcases List.mem_append.mp hd with hd | hd
      · exact absurd (heq ▸ List.mem_map_of_mem hd) hout
      · exact hcross row hrow d hd
    rcases List.mem_append.mp hmem with hs | hs
    · by_cases hold : s.1 ∈ rows.map Prod.fst
      · obtain ⟨d, hd, heq⟩ := List.mem_map.mp hold
        have hpeak : s.2 ≤ d.2 := by
          refine (h.peaks d hd).2 ?_
          rw [heq]
          exact hs
        exact hpeak.trans (hdropped (mem_place.mpr (.inr hd)) heq)
      · rcases mem_place.mp (List.mem_of_mem_take hrow) with rfl | hrow'
        · exact hbelow hs hold hrow
        · exact h.strongest s hs hold row hrow'
    · obtain rfl := List.mem_singleton.mp hs
      exact hdropped (mem_place.mpr (.inl rfl)) rfl

/-- A raised key leaves the ranking right, if the order is kept. -/
theorem Strongest.raise {cap : Nat} {reports rows : List (κ × α)}
    (h : Strongest cap reports rows) {r : κ × α} (hlisted : r.1 ∈ rows.map Prod.fst)
    (horder : ¬Overtakes rows r) : Strongest cap (reports ++ [r]) (raise rows r) := by
  have hkept := h.toKept.report r
  rw [report, if_pos hlisted] at hkept
  refine ⟨hkept, h.peaks.raise r, (sorted_raise_iff h.sorted h.distinct hlisted).mpr horder,
    ?_, ?_⟩
  · intro hlt s hs
    rw [length_raise] at hlt
    rw [keys_raise]
    rcases List.mem_append.mp hs with hs | hs
    · exact h.full hlt s hs
    · rwa [List.mem_singleton.mp hs]
  · intro s hs hout row hrow
    rw [keys_raise] at hout
    have hold : s ∈ reports := by
      rcases List.mem_append.mp hs with hs | hs
      · exact hs
      · exact absurd (List.mem_singleton.mp hs ▸ hlisted) hout
    obtain ⟨t, ht, ⟨-, rfl⟩ | ⟨-, rfl⟩⟩ := mem_raise.mp hrow
    · exact (h.strongest s hold hout t ht).trans (le_max_left _ _)
    · exact h.strongest s hold hout row ht

/-- **One report** keeps a right ranking right exactly if it lifts no row over another. -/
theorem Strongest.report_iff {cap : Nat} {reports rows : List (κ × α)}
    (h : Strongest cap reports rows) (r : κ × α) :
    Strongest cap (reports ++ [r]) (report cap rows r) ↔ ¬Overtakes rows r := by
  unfold report
  split
  · rename_i hlisted
    constructor
    · exact fun hright => (sorted_raise_iff h.sorted h.distinct hlisted).mp hright.sorted
    · exact h.raise hlisted
  · rename_i hnew
    exact iff_of_true (h.place hnew) fun hover => hnew hover.listed

/-! ## Streams of reports -/

/-- The ranking after some reports. -/
def ranking (cap : Nat) (reports : List (κ × α)) : List (κ × α) := reports.foldl (report cap) []

theorem ranking_append (cap : Nat) (reports : List (κ × α)) (r : κ × α) :
    ranking cap (reports ++ [r]) = report cap (ranking cap reports) r := by
  rw [ranking, List.foldl_append]
  rfl

theorem kept_ranking (cap : Nat) (reports : List (κ × α)) :
    Kept cap reports (ranking cap reports) := by
  induction reports using List.reverseRecOn with
  | nil => exact (strongest_nil cap).toKept
  | append_singleton reports r ih =>
      rw [ranking_append]
      exact ih.report r

theorem complete_ranking {cap : Nat} {reports : List (κ × α)}
    (h : (reports.map Prod.fst).toFinset.card ≤ cap) :
    Complete reports (ranking cap reports) := by
  induction reports using List.reverseRecOn with
  | nil => exact ⟨List.forall_mem_nil _, List.forall_mem_nil _⟩
  | append_singleton reports r ih =>
      have hsub : (reports.map Prod.fst).toFinset ⊆ ((reports ++ [r]).map Prod.fst).toFinset := by
        rw [List.map_append, List.toFinset_append]
        exact Finset.subset_union_left
      rw [ranking_append]
      exact (ih ((Finset.card_le_card hsub).trans h)).report (kept_ranking cap reports) h

/-- **The ranking is right after every report exactly if none lifts a row over another.** -/
theorem strongest_ranking_iff (cap : Nat) (reports : List (κ × α)) :
    (∀ front, front <+: reports → Strongest cap front (ranking cap front)) ↔
      ∀ front r, front ++ [r] <+: reports → ¬Overtakes (ranking cap front) r := by
  constructor
  · intro h front r hprefix
    have hright := h _ hprefix
    rw [ranking_append] at hright
    exact ((h front ((List.prefix_append front [r]).trans hprefix)).report_iff r).mp hright
  · intro h front hprefix
    induction front using List.reverseRecOn with
    | nil => exact strongest_nil cap
    | append_singleton front r ih =>
        rw [ranking_append]
        exact ((ih ((List.prefix_append front [r]).trans hprefix)).report_iff r).mpr
          (h front r hprefix)

end Ranking
