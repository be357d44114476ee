import Mathlib.Data.Rat.Floor
import HomeAuto.ClickPhases
import HomeAuto.Lib.Sampling

/-!
# Counting clicks

A button is pressed and released at any times, each press and each gap longer than the
debounce time and one polling period.  With double-click detection on, a press that follows
an open click within the window makes a double click with it, and a press that nothing
follows in time makes a single click.

The window is open while the polls since the release add up to less than 350 ms.  The law
holds exactly when no press that completes a double click is held for as many polls as two
debounce times take (`clicksLawful_iff`).
-/

namespace HomeAuto

variable {K : Type*} [Field K] [LinearOrder K] [IsStrictOrderedRing K] [FloorSemiring K]

/-- How long a press and the gap after it last, in milliseconds. -/
structure Press (K : Type*) where
  hold : K
  gap : K

namespace Press

/-- The end of presses that begin at time `s`. -/
def endOf (s : K) : List (Press K) → K
  | [] => s
  | pr :: rest => endOf (s + pr.hold + pr.gap) rest

/-- The level of a button that is pressed from time `s` on. -/
def levelAt (s : K) : List (Press K) → K → Bool
  | [], _ => false
  | pr :: rest, t =>
      if t < s then false
      else if t < s + pr.hold then true
      else levelAt (s + pr.hold + pr.gap) rest t

/-- The presses, counted in polls. -/
def polled (ms : Nat) (s : K) : List (Press K) → List PolledPress
  | [] => []
  | pr :: rest =>
      ⟨Sampling.count ms s (s + pr.hold),
          Sampling.count ms (s + pr.hold) (s + pr.hold + pr.gap)⟩ ::
        polled ms (s + pr.hold + pr.gap) rest

/-- Each phase outlasts the debounce time and one polling period. -/
def Long (ms : Nat) (pr : Press K) : Prop :=
  (debounceMs + ms : K) < pr.hold ∧ (debounceMs + ms : K) < pr.gap

end Press

/-! ## The device -/

section Device

variable (ms : Nat) (feed : Nat → Poll)

/-- `g_asEvents` before poll `k`. -/
def eventsBefore : Nat → InputEvents
  | 0 => inputEventsAtReset
  | k + 1 => (pollClicks ms (eventsBefore k) (feed k)).1

/-- What an input fires in `n` polls from poll `k` on. -/
def firedFrom (i : Fin cfgMaxInputs) (k : Nat) : Nat → List Click
  | 0 => []
  | n + 1 =>
      firedFrom i k n ++
        CellSweep.emittedBy i (pollClicks ms (eventsBefore ms feed (k + n)) (feed (k + n))).2

/-- What an input fires between two times. -/
def clicksIn (i : Fin cfgMaxInputs) (lo hi : K) : List Click :=
  firedFrom ms feed i (Sampling.first ms lo) (Sampling.count ms lo hi)

/-- What each press fires, while it is held and in the gap after it. -/
def clicksOf (i : Fin cfgMaxInputs) (s : K) : List (Press K) → List (List Click × List Click)
  | [] => []
  | pr :: rest =>
      (clicksIn ms feed i s (s + pr.hold),
          clicksIn ms feed i (s + pr.hold) (s + pr.hold + pr.gap)) ::
        clicksOf i (s + pr.hold + pr.gap) rest

/-- The polls see the button, at an input with double-click detection. -/
def Shows (i : Fin cfgMaxInputs) (s : K) (presses : List (Press K)) : Prop :=
  ∀ k : Nat, (k * ms : K) < Press.endOf s presses →
    (feed k).level i = some (Press.levelAt s presses (k * ms)) ∧
      ieNeedsDouble (feed k).query i = true

/-- Nothing is fired before the first press, and every press fires what it should. -/
def ClicksLawful (i : Fin cfgMaxInputs) (s : K) (presses : List (Press K)) : Prop :=
  clicksIn ms feed i 0 s = [] ∧
    clicksOf ms feed i s presses = expectedClicks ms false (Press.polled ms s presses)

end Device

/-! ## Phases of the device -/

section Runs

variable {ms : Nat} {feed : Nat → Poll} {i : Fin cfgMaxInputs}

theorem eventsBefore_succ (ms : Nat) (feed : Nat → Poll) (k : Nat) :
    eventsBefore ms feed (k + 1) = (pollClicks ms (eventsBefore ms feed k) (feed k)).1 := rfl

/-- While its level stays, an input runs as it does by itself. -/
theorem phase_eq {k n : Nat} {active : Bool}
    (hlevel : ∀ j, k ≤ j → j < k + n →
      (feed j).level i = some active ∧ ieNeedsDouble (feed j).query i = true) :
    eventsBefore ms feed (k + n) i = (polls ms (eventsBefore ms feed k i) active n).1 ∧
      firedFrom ms feed i k n = (polls ms (eventsBefore ms feed k i) active n).2 := by
  induction n with
  | zero => exact ⟨rfl, rfl⟩
  | succ n ih =>
      obtain ⟨hevents, hfired⟩ := ih fun j hlo hhi => hlevel j hlo (by omega)
      obtain ⟨hlast, hneeds⟩ := hlevel (k + n) (by omega) (by omega)
      obtain ⟨hcell, hout⟩ := pollClicks_at ms (eventsBefore ms feed (k + n)) (feed (k + n))
        hlast hneeds
      rw [hevents] at hcell hout
      rw [← Nat.add_assoc, eventsBefore_succ]
      simp only [polls, firedFrom, hcell, hfired, hout, and_self]

variable (hms : 0 < ms)

include hms

/-- A stretch of time in which the level stays. -/
theorem stretch_eq {lo hi : K} (hle : lo ≤ hi) {active : Bool}
    (hlevel : ∀ k : Nat, lo ≤ k * ms → (k * ms : K) < hi →
      (feed k).level i = some active ∧ ieNeedsDouble (feed k).query i = true) :
    eventsBefore ms feed (Sampling.first ms hi) i =
        (polls ms (eventsBefore ms feed (Sampling.first ms lo) i) active
          (Sampling.count ms lo hi)).1 ∧
      clicksIn ms feed i lo hi =
        (polls ms (eventsBefore ms feed (Sampling.first ms lo) i) active
          (Sampling.count ms lo hi)).2 := by
  have hsum := Sampling.first_add_count hms hle
  have hpolls (j : Nat) (hlo : Sampling.first ms lo ≤ j)
      (hhi : j < Sampling.first ms lo + Sampling.count ms lo hi) :
      (feed j).level i = some active ∧ ieNeedsDouble (feed j).query i = true := by
    rw [hsum] at hhi
    exact hlevel j ((Sampling.first_le_iff hms lo j).mp hlo)
      ((Sampling.lt_first_iff hms hi j).mp hhi)
  have hphase : eventsBefore ms feed (Sampling.first ms lo + Sampling.count ms lo hi) i = _ ∧ _ :=
    phase_eq hpolls
  rw [hsum] at hphase
  exact hphase

/-- The polls see the rest of the presses, from time `s` on. -/
def ShowsFrom (ms : Nat) (feed : Nat → Poll) (i : Fin cfgMaxInputs) (s : K)
    (presses : List (Press K)) : Prop :=
  ∀ k : Nat, s ≤ k * ms → (k * ms : K) < Press.endOf s presses →
    (feed k).level i = some (Press.levelAt s presses (k * ms)) ∧
      ieNeedsDouble (feed k).query i = true

omit [FloorSemiring K] hms in
theorem le_endOf {s : K} {presses : List (Press K)}
    (hpos : ∀ pr ∈ presses, 0 ≤ pr.hold ∧ 0 ≤ pr.gap) : s ≤ Press.endOf s presses := by
  induction presses generalizing s with
  | nil => exact le_rfl
  | cons pr rest ih =>
      obtain ⟨hhold, hgap⟩ := hpos pr (by simp)
      have hrest := ih (s := s + pr.hold + pr.gap) fun q hq => hpos q (by simp [hq])
      unfold Press.endOf
      linarith

/-- **Presses in time** fire what the same presses fire, counted in polls. -/
theorem clicksOf_eq {s : K} {presses : List (Press K)}
    (hpos : ∀ pr ∈ presses, 0 ≤ pr.hold ∧ 0 ≤ pr.gap) (hshows : ShowsFrom ms feed i s presses) :
    clicksOf ms feed i s presses =
      polledClicks ms (eventsBefore ms feed (Sampling.first ms s) i)
        (Press.polled ms s presses) := by
  induction presses generalizing s with
  | nil => rfl
  | cons pr rest ih =>
      obtain ⟨hhold, hgap⟩ := hpos pr (by simp)
      have htail (q : Press K) (hq : q ∈ rest) := hpos q (List.mem_cons_of_mem pr hq)
      have hend : s + pr.hold + pr.gap ≤ Press.endOf (s + pr.hold + pr.gap) rest := le_endOf htail
      have hpressed (k : Nat) (hlo : s ≤ k * ms) (hhi : (k * ms : K) < s + pr.hold) :
          (feed k).level i = some true ∧ ieNeedsDouble (feed k).query i = true := by
        obtain ⟨hlevel, hneeds⟩ := hshows k hlo (by unfold Press.endOf; linarith)
        refine ⟨hlevel.trans ?_, hneeds⟩
        unfold Press.levelAt
        rw [if_neg (not_lt.mpr hlo), if_pos hhi]
      have hopen (k : Nat) (hlo : s + pr.hold ≤ k * ms)
          (hhi : (k * ms : K) < s + pr.hold + pr.gap) :
          (feed k).level i = some false ∧ ieNeedsDouble (feed k).query i = true := by
        obtain ⟨hlevel, hneeds⟩ := hshows k (by linarith) (by unfold Press.endOf; linarith)
        refine ⟨hlevel.trans ?_, hneeds⟩
        unfold Press.levelAt
        rw [if_neg (not_lt.mpr (by linarith)), if_neg (not_lt.mpr hlo)]
        congr 1
        cases rest with
        | nil => rfl
        | cons next rest => exact if_pos hhi
      obtain ⟨hdown, hheld⟩ := stretch_eq hms (by linarith) hpressed
      obtain ⟨hup, hreleased⟩ := stretch_eq hms (by linarith) hopen
      have hrest := ih htail fun k hlo hhi => by
        obtain ⟨hlevel, hneeds⟩ := hshows k (by linarith) hhi
        refine ⟨hlevel.trans ?_, hneeds⟩
        conv_lhs => unfold Press.levelAt
        rw [if_neg (not_lt.mpr (by linarith)), if_neg (not_lt.mpr (by linarith))]
      unfold clicksOf polledClicks Press.polled
      rw [hheld, hreleased, hrest, hup, hdown]

/-- The law, counted in polls. -/
theorem clicksLawful_iff_polled {s : K} (hs : 0 ≤ s) {presses : List (Press K)}
    (hlong : ∀ pr ∈ presses, pr.Long ms) (hshows : Shows ms feed i s presses) :
    ClicksLawful ms feed i s presses ↔
      polledClicks ms ⟨.idle, 0⟩ (Press.polled ms s presses) =
        expectedClicks ms false (Press.polled ms s presses) := by
  have hpos (pr : Press K) (hpr : pr ∈ presses) : 0 ≤ pr.hold ∧ 0 ≤ pr.gap := by
    obtain ⟨hhold, hgap⟩ := hlong pr hpr
    have hdebounce : (0 : K) ≤ debounceMs := Nat.cast_nonneg _
    have hperiod : (0 : K) ≤ ms := Nat.cast_nonneg _
    constructor <;> linarith
  have hzero : Sampling.first ms (0 : K) = 0 := by
    apply Nat.le_zero.mp
    apply (Sampling.first_le_iff hms _ _).mpr
    simp
  have hopen (k : Nat) (_ : 0 ≤ (k * ms : K)) (hhi : (k * ms : K) < s) :
      (feed k).level i = some false ∧ ieNeedsDouble (feed k).query i = true := by
    obtain ⟨hlevel, hneeds⟩ := hshows k (lt_of_lt_of_le hhi (le_endOf hpos))
    refine ⟨hlevel.trans ?_, hneeds⟩
    congr 1
    cases presses with
    | nil => rfl
    | cons pr rest => exact if_pos hhi
  obtain ⟨hbefore, hsilent⟩ := stretch_eq hms hs hopen
  rw [hzero] at hbefore hsilent
  have hidle : eventsBefore ms feed 0 i = ⟨.idle, 0⟩ := rfl
  rw [hidle, polls_idle_released] at hbefore hsilent
  unfold ClicksLawful
  rw [clicksOf_eq hms hpos fun k _ hhi => hshows k hhi, hbefore]
  simp [hsilent]

/-- Long phases are seen by the polls. -/
theorem polled_seen {s : K} (hs : 0 ≤ s) {presses : List (Press K)}
    (hlong : ∀ pr ∈ presses, pr.Long ms) : ∀ q ∈ Press.polled ms s presses, q.Seen ms := by
  induction presses generalizing s with
  | nil =>
      intro q hq
      cases hq
  | cons pr rest ih =>
      obtain ⟨hhold, hgap⟩ := hlong pr (by simp)
      have hdebounce : (0 : K) ≤ debounceMs := Nat.cast_nonneg _
      have hperiod : (0 : K) ≤ ms := Nat.cast_nonneg _
      intro q hq
      rcases List.mem_cons.mp hq with hhead | htail
      · have hheld : debounceMs < Sampling.count ms s (s + pr.hold) * ms :=
          Sampling.lt_count_mul hms hs (by linarith)
        have hreleased : debounceMs <
            Sampling.count ms (s + pr.hold) (s + pr.hold + pr.gap) * ms :=
          Sampling.lt_count_mul hms (by linarith) (by linarith)
        subst hhead
        refine ⟨hheld.le, ?_⟩
        by_contra hnone
        have hcount : Sampling.count ms (s + pr.hold) (s + pr.hold + pr.gap) = 0 :=
          Nat.le_zero.mp (Nat.le_of_not_lt hnone)
        rw [hcount, Nat.zero_mul] at hreleased
        omega
      · exact ih (s := s + pr.hold + pr.gap) (by linarith) (fun p hp => hlong p (by simp [hp]))
          q htail

/-- **Click counting, exactly.**  Whatever the other inputs do, each press fires what it
should precisely when no press that completes a double click is held, in polls, for two
debounce times (the last press of the run may be, while its window is open). -/
theorem clicksLawful_iff {s : K} (hs : 0 ≤ s) {presses : List (Press K)}
    (hlong : ∀ pr ∈ presses, pr.Long ms) (hshows : Shows ms feed i s presses) :
    ClicksLawful ms feed i s presses ↔
      ShortSecondPresses ms false (Press.polled ms s presses) := by
  rw [clicksLawful_iff_polled hms hs hlong hshows]
  exact (polledClicks_iff hms (polled_seen hms hs hlong) 0).1

end Runs

/-- A scan in which one button alone is a pushbutton. -/
def buttonFeed (ms : Nat) (i : Fin cfgMaxInputs) (presses : List (Press ℚ)) (k : Nat) : Poll :=
  ⟨fun j => if j = i then some (Press.levelAt 0 presses (k * ms)) else none, none⟩

theorem buttonFeed_shows (ms : Nat) (i : Fin cfgMaxInputs) (presses : List (Press ℚ)) :
    Shows ms (buttonFeed ms i presses) i 0 presses := by
  intro k _
  exact ⟨if_pos rfl, rfl⟩

/-- The first input. -/
def input0 : Fin cfgMaxInputs := ⟨0, by decide⟩

/-- Two quick presses, the second one short: one double click. -/
theorem quick_double_lawful :
    ClicksLawful 10 (buttonFeed 10 input0 [⟨100, 100⟩, ⟨50, 500⟩]) input0 (0 : ℚ)
      [⟨100, 100⟩, ⟨50, 500⟩] :=
  (clicksLawful_iff (by decide) le_rfl (by simp [Press.Long, debounceMs]; norm_num)
    (buttonFeed_shows 10 input0 _)).mpr (by
      simp [ShortSecondPresses, Press.polled, Sampling.count, Sampling.first, timerPolls,
        debounceMs, PolledPress.InWindow, dblclickMs]
      norm_num)

/-- Two quick presses, the second held for 100 ms: a double click, and a single one. -/
theorem held_double_counted_twice :
    ¬ClicksLawful 10 (buttonFeed 10 input0 [⟨100, 100⟩, ⟨100, 500⟩]) input0 (0 : ℚ)
      [⟨100, 100⟩, ⟨100, 500⟩] := by
  rw [clicksLawful_iff_polled (by decide) le_rfl (by simp [Press.Long, debounceMs]; norm_num)
    (buttonFeed_shows 10 input0 _)]
  simp [Press.polled, Sampling.count, Sampling.first]
  norm_num
  decide

end HomeAuto
