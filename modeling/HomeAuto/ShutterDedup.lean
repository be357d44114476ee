import HomeAuto.Lib.Loops
import HomeAuto.OutputRecord

/-!
# What de-duplication leaves (`ConfigShutterDedup`)

`ConfigShutterDedup` walks the slots in order, keeps a slot whose relays are both outputs
and not used by a slot kept before it, empties a slot that collides, and passes over a
slot with a relay out of range.  `Kept` says which slots it keeps; the table is proper
afterwards exactly when the table before was `Mendable`.
-/

namespace HomeAuto

/-- The slots of a table that de-duplication keeps: both relays are outputs, and no slot
kept before has one of them. -/
def Kept (get : Nat → Option ShutterSlot) (i : Nat) : Prop :=
  ∃ s, get i = some s ∧ s.InRange ∧
    ∀ j, j < i → Kept get j → ∀ t, get j = some t → ¬s.Shares t
termination_by i

/-- A table that de-duplication makes proper: every defined slot has outputs for relays,
and a slot that does not collide with one kept before it is proper. -/
def Mendable (get : Nat → Option ShutterSlot) : Prop :=
  ∀ i s, get i = some s → s.InRange ∧ (Kept get i → s.Proper)

theorem kept_iff {get : Nat → Option ShutterSlot} {i : Nat} {s : ShutterSlot}
    (h : get i = some s) :
    Kept get i ↔ s.InRange ∧ ∀ j, j < i → Kept get j → ∀ t, get j = some t → ¬s.Shares t := by
  rw [Kept]
  constructor
  · rintro ⟨s', hs', hkept⟩
    rw [h, Option.some.injEq] at hs'
    subst hs'
    exact hkept
  · intro hkept
    exact ⟨s, h, hkept⟩

theorem not_kept_of_none {get : Nat → Option ShutterSlot} {i : Nat} (h : get i = none) :
    ¬Kept get i := by
  intro hkept
  rw [Kept] at hkept
  obtain ⟨s, hs, _⟩ := hkept
  rw [h] at hs
  cases hs

theorem ShutterSlot.Shares.symm {s t : ShutterSlot} (h : s.Shares t) : t.Shares s := by
  unfold Shares at h ⊢
  omega

/-- No relay belongs to two kept slots. -/
theorem Kept.not_shares {get : Nat → Option ShutterSlot} {i j : Nat} {s t : ShutterSlot}
    (hi : Kept get i) (hj : Kept get j) (hs : get i = some s) (ht : get j = some t)
    (hij : i ≠ j) : ¬s.Shares t := by
  rcases Nat.lt_or_gt_of_ne hij with hlt | hlt
  · intro hsh
    exact ((kept_iff ht).mp hj).2 i hlt hi s hs hsh.symm
  · exact ((kept_iff hs).mp hi).2 j hlt hj t ht

namespace OutputRecord

/-- A slot before `n` that is emptied. -/
def Dropped (get : Nat → Option ShutterSlot) (n i : Nat) : Prop :=
  i < n ∧ (∃ s, get i = some s ∧ s.InRange) ∧ ¬Kept get i

/-- What the loop has done before pass `n`, starting from the record `r`. -/
structure Deduped (r : OutputRecord) (n : Nat) (d : Dedup) : Prop where
  dropped : ∀ i : Fin cfgMaxShutters, Dropped r.outCfg.configShutterGet n i →
    d.table.shUp i = shutterNoneByte
  left : ∀ i : Fin cfgMaxShutters, ¬Dropped r.outCfg.configShutterGet n i →
    d.table.shUp i = r.shUp i ∧ d.table.shDown i = r.shDown i
  travel : d.table.shTravelMs = r.shTravelMs
  used : ∀ x, d.used x = true ↔ ∃ j t, j < n ∧ Kept r.outCfg.configShutterGet j ∧
    r.outCfg.configShutterGet j = some t ∧ (x = t.up ∨ x = t.down)

theorem dropped_succ {get : Nat → Option ShutterSlot} {n i : Nat} :
    Dropped get (n + 1) i ↔ Dropped get n i ∨ Dropped get (n + 1) i ∧ i = n := by
  unfold Dropped
  constructor
  · rintro ⟨hlt, h⟩
    by_cases hi : i = n
    · exact .inr ⟨⟨hlt, h⟩, hi⟩
    · exact .inl ⟨by omega, h⟩
  · rintro (⟨hlt, h⟩ | ⟨h, _⟩)
    · exact ⟨by omega, h⟩
    · exact h

theorem not_dropped_self {get : Nat → Option ShutterSlot} (i : Nat) : ¬Dropped get i i := by
  rintro ⟨hlt, _⟩
  omega

/-- A slot that the loop passes over is not dropped, and adds nothing to `bUsed`. -/
theorem Deduped.skip {r : OutputRecord} {i : Fin cfgMaxShutters} {d : Dedup}
    (h : Deduped r i d) (hrange : ∀ s, r.outCfg.configShutterGet i = some s → ¬s.InRange) :
    Deduped r (i + 1) d := by
  have hkept : ¬Kept r.outCfg.configShutterGet i := by
    intro hk
    rw [Kept] at hk
    obtain ⟨s, hs, hin, _⟩ := hk
    exact hrange s hs hin
  have hsame (j : Nat) : Dropped r.outCfg.configShutterGet (i + 1) j ↔
      Dropped r.outCfg.configShutterGet i j := by
    rw [dropped_succ]
    constructor
    · rintro (hj | ⟨⟨_, ⟨s, hs, hin⟩, _⟩, rfl⟩)
      · exact hj
      · exact absurd hin (hrange s hs)
    · exact Or.inl
  refine ⟨fun j hj => h.dropped j ((hsame j).mp hj), fun j hj => h.left j fun hd =>
    hj ((hsame j).mpr hd), h.travel, fun x => ?_⟩
  rw [h.used]
  constructor
  · rintro ⟨j, t, hlt, hj⟩
    exact ⟨j, t, by omega, hj⟩
  · rintro ⟨j, t, hlt, hj, ht⟩
    by_cases hij : j = i.val
    · exact absurd (hij ▸ hj) hkept
    · exact ⟨j, t, by omega, hj, ht⟩

/-- `bUsed` tells a collision. -/
theorem Deduped.used_iff {r : OutputRecord} {i : Fin cfgMaxShutters} {d : Dedup}
    (h : Deduped r i d) {s : ShutterSlot} (hs : r.outCfg.configShutterGet i = some s)
    (hin : s.InRange) :
    (d.used s.up || d.used s.down) = true ↔ ¬Kept r.outCfg.configShutterGet i := by
  rw [Bool.or_eq_true, h.used, h.used, kept_iff hs]
  constructor
  · rintro hcol ⟨_, hfree⟩
    rcases hcol with ⟨j, t, hlt, hj, ht, hx⟩ | ⟨j, t, hlt, hj, ht, hx⟩
    · exact hfree j hlt hj t ht (by unfold ShutterSlot.Shares; omega)
    · exact hfree j hlt hj t ht (by unfold ShutterSlot.Shares; omega)
  · intro hnot
    by_contra hfree
    rw [not_or] at hfree
    refine hnot ⟨hin, fun j hlt hj t ht hsh => ?_⟩
    unfold ShutterSlot.Shares at hsh
    by_cases hup : s.up = t.up ∨ s.up = t.down
    · exact hfree.1 ⟨j, t, hlt, hj, ht, hup⟩
    · exact hfree.2 ⟨j, t, hlt, hj, ht, by omega⟩

/-- A slot that collides is emptied. -/
theorem Deduped.drop {r : OutputRecord} {i : Fin cfgMaxShutters} {d : Dedup}
    (h : Deduped r i d) {s : ShutterSlot} (hs : r.outCfg.configShutterGet i = some s)
    (hin : s.InRange) (hkept : ¬Kept r.outCfg.configShutterGet i) (n : Nat) :
    Deduped r (i + 1) { d with table := d.table.emptySlot i, cleared := n } where
  dropped := by
    intro j hj
    by_cases hij : j = i
    · subst hij
      simp [emptySlot, putPair]
    · rcases dropped_succ.mp hj with hj | ⟨_, hji⟩
      · simpa [emptySlot, putPair, hij] using h.dropped j hj
      · exact absurd (Fin.ext hji) hij
  left := by
    intro j hj
    have hij : j ≠ i := by
      rintro rfl
      exact hj ⟨by omega, ⟨s, hs, hin⟩, hkept⟩
    simpa [emptySlot, putPair, hij] using h.left j fun hd => hj (dropped_succ.mpr (.inl hd))
  travel := h.travel
  used := by
    intro x
    rw [h.used]
    constructor
    · rintro ⟨j, t, hlt, hj⟩
      exact ⟨j, t, by omega, hj⟩
    · rintro ⟨j, t, hlt, hj, ht⟩
      have hij : j ≠ i.val := by
        rintro rfl
        exact hkept hj
      exact ⟨j, t, by omega, hj, ht⟩

/-- A slot that does not collide stays, and its relays are used from then on. -/
theorem Deduped.keep {r : OutputRecord} {i : Fin cfgMaxShutters} {d : Dedup}
    (h : Deduped r i d) {s : ShutterSlot} (hs : r.outCfg.configShutterGet i = some s)
    (hkept : Kept r.outCfg.configShutterGet i) :
    Deduped r (i + 1)
      { d with used := Function.update (Function.update d.used s.up true) s.down true } where
  dropped := by
    intro j hj
    rcases dropped_succ.mp hj with hj | ⟨⟨_, _, hnot⟩, hji⟩
    · exact h.dropped j hj
    · exact absurd (hji ▸ hkept) hnot
  left := fun j hj => h.left j fun hd => hj (dropped_succ.mpr (.inl hd))
  travel := h.travel
  used := by
    intro x
    have hself : Function.update (Function.update d.used s.up true) s.down true x = true ↔
        d.used x = true ∨ x = s.up ∨ x = s.down := by
      by_cases hdown : x = s.down
      · simp [hdown]
      · by_cases hup : x = s.up
        · simp [Function.update_apply, hup]
        · simp [hdown, hup]
    rw [hself, h.used]
    constructor
    · rintro (⟨j, t, hlt, hj⟩ | hx)
      · exact ⟨j, t, by omega, hj⟩
      · exact ⟨i, s, by omega, hkept, hs, hx⟩
    · rintro ⟨j, t, hlt, hj, ht, hx⟩
      by_cases hij : j = i.val
      · subst hij
        rw [hs, Option.some.injEq] at ht
        subst ht
        exact .inr hx
      · exact .inl ⟨j, t, by omega, hj, ht, hx⟩

/-- One pass of the loop. -/
theorem Deduped.step {r : OutputRecord} {i : Fin cfgMaxShutters} {d : Dedup}
    (h : Deduped r i d) : Deduped r (i + 1) (dedupSlot d i) := by
  obtain ⟨hup, hdown⟩ := h.left i (not_dropped_self i.val)
  unfold dedupSlot
  rw [hup, hdown]
  by_cases hrange : cfgMaxOutputs ≤ (r.shUp i).toNat ∨ cfgMaxOutputs ≤ (r.shDown i).toNat
  · rw [if_pos hrange]
    refine h.skip fun s hs hin => ?_
    rw [configShutterGet_outCfg] at hs
    split at hs
    · cases hs
    · cases hs
      obtain ⟨hinUp, hinDown⟩ := hin
      dsimp only at hinUp hinDown
      omega
  · rw [not_or, Nat.not_le, Nat.not_le] at hrange
    have hdef : r.shUp i ≠ shutterNoneByte := by
      intro hnone
      rw [hnone] at hrange
      exact absurd hrange.1 (by decide)
    have hs := r.configShutterGet_outCfg i
    rw [if_neg hdef] at hs
    have hused := h.used_iff hs hrange
    rw [if_neg (by omega)]
    split
    · rename_i hcol
      exact h.drop hs hrange (hused.mp hcol) _
    · rename_i hcol
      exact h.keep hs (not_not.mp fun hnot => hcol (hused.mpr hnot))

/-- **What de-duplication leaves.** -/
theorem deduped_configShutterDedup (r : OutputRecord) :
    Deduped r cfgMaxShutters r.configShutterDedup := by
  refine Loops.foldl_finRange (fun i d hd => hd.step) ⟨?_, ?_, rfl, ?_⟩
  · rintro i ⟨hlt, _⟩
    omega
  · exact fun i _ => ⟨rfl, rfl⟩
  · intro x
    constructor
    · nofun
    · rintro ⟨j, t, hlt, _⟩
      omega

/-- A slot after de-duplication. -/
theorem configShutterGet_dedup (r : OutputRecord) (i : Nat) :
    (∃ s, r.outCfg.configShutterGet i = some s ∧ s.InRange ∧
        ¬Kept r.outCfg.configShutterGet i ∧
        r.configShutterDedup.table.outCfg.configShutterGet i = none) ∨
      ((∀ s, r.outCfg.configShutterGet i = some s → s.InRange → Kept r.outCfg.configShutterGet i) ∧
        r.configShutterDedup.table.outCfg.configShutterGet i = r.outCfg.configShutterGet i) := by
  by_cases hi : i < cfgMaxShutters
  · have h := deduped_configShutterDedup r
    have hnew := r.configShutterDedup.table.configShutterGet_outCfg ⟨i, hi⟩
    by_cases hd : Dropped r.outCfg.configShutterGet cfgMaxShutters i
    · obtain ⟨_, ⟨s, hs, hin⟩, hkept⟩ := hd
      rw [h.dropped ⟨i, hi⟩ ⟨hi, ⟨s, hs, hin⟩, hkept⟩, if_pos rfl] at hnew
      exact .inl ⟨s, hs, hin, hkept, hnew⟩
    · obtain ⟨hup, hdown⟩ := h.left ⟨i, hi⟩ hd
      rw [hup, hdown, h.travel, ← configShutterGet_outCfg] at hnew
      refine .inr ⟨fun s hs hin => ?_, hnew⟩
      by_contra hkept
      exact hd ⟨hi, ⟨s, hs, hin⟩, hkept⟩
  · have hnone := r.configShutterGet_outCfg_of_le (Nat.not_lt.mp hi)
    rw [hnone]
    exact .inr ⟨nofun, configShutterGet_outCfg_of_le _ (Nat.not_lt.mp hi)⟩

/-- **De-duplication makes a table proper exactly when it was mendable.** -/
theorem properTable_dedup_iff (r : OutputRecord) :
    r.configShutterDedup.table.outCfg.ProperTable ↔ Mendable r.outCfg.configShutterGet := by
  rw [OutputConfig.properTable_iff]
  constructor
  · rintro ⟨hproper, _⟩ i s hs
    rcases r.configShutterGet_dedup i with ⟨s', hs', hin, hkept, _⟩ | ⟨_, hsame⟩
    · rw [hs, Option.some.injEq] at hs'
      subst hs'
      exact ⟨hin, fun hk => absurd hk hkept⟩
    · have hp := hproper i s (hsame.trans hs)
      exact ⟨⟨hp.up_lt, hp.down_lt⟩, fun _ => hp⟩
  · intro h
    have hget {i : Nat} {s : ShutterSlot}
        (hs : r.configShutterDedup.table.outCfg.configShutterGet i = some s) :
        r.outCfg.configShutterGet i = some s ∧ Kept r.outCfg.configShutterGet i := by
      rcases r.configShutterGet_dedup i with ⟨_, _, _, _, hnone⟩ | ⟨hkept, hsame⟩
      · rw [hnone] at hs
        cases hs
      · rw [hsame] at hs
        exact ⟨hs, hkept s hs (h i s hs).1⟩
    refine ⟨fun i s hs => ?_, fun i j s t hs ht hij => ?_⟩
    · obtain ⟨hold, hkept⟩ := hget hs
      exact (h i s hold).2 hkept
    · obtain ⟨hsold, hskept⟩ := hget hs
      obtain ⟨htold, htkept⟩ := hget ht
      exact hskept.not_shares htkept hsold htold hij

end OutputRecord

end HomeAuto
