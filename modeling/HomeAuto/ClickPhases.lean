import HomeAuto.InputEvents

/-!
# Presses, counted in polls

The click state machine sees a button once per polling period, so a phase of constant level
is a number of polls.  This file runs the state machine through such phases, and finds which
clicks a sequence of presses fires.

After a double click the state machine is idle while the button is still down.  A second
press that is held on for another debounce time is therefore taken for one press more, and
counted again (`polledClicks_iff`).
-/

namespace HomeAuto

/-- A press, and the release after it, counted in polls. -/
structure PolledPress where
  hold : Nat
  gap : Nat

/-- The polls until a timer has run out. -/
def timerPolls (ms t : Nat) : Nat := (t + ms - 1) / ms

theorem timerPolls_le_iff {ms t : Nat} (hms : 0 < ms) (ht : 0 < t) (n : Nat) :
    timerPolls ms t ≤ n ↔ t ≤ n * ms := by
  have hpred : t + ms - 1 = t - 1 + ms := by omega
  unfold timerPolls
  rw [hpred, Nat.add_div_right _ hms, Nat.succ_le_iff, Nat.div_lt_iff_lt_mul hms]
  omega

/-! ## Phases of constant level -/

/-- One input over `n` polls of the same level. -/
def polls (ms : Nat) (p : InputEvent) (active : Bool) : Nat → InputEvent × List Click
  | 0 => (p, [])
  | n + 1 =>
      ((pollOne ms (polls ms p active n).1 active).1,
        (polls ms p active n).2 ++ (pollOne ms (polls ms p active n).1 active).2)

theorem polls_add (ms : Nat) (p : InputEvent) (active : Bool) (n k : Nat) :
    polls ms p active (n + k) =
      ((polls ms (polls ms p active n).1 active k).1,
        (polls ms p active n).2 ++ (polls ms (polls ms p active n).1 active k).2) := by
  induction k with
  | zero => simp [polls]
  | succ k ih =>
      rw [← Nat.add_assoc]
      simp only [polls, ih, List.append_assoc]

/-- A level that leaves an input alone. -/
theorem polls_fixed {ms : Nat} {p : InputEvent} {active : Bool}
    (h : pollOne ms p active = (p, [])) (n : Nat) : polls ms p active n = (p, []) := by
  induction n with
  | zero => rfl
  | succ n ih =>
      simp only [polls, ih]
      rw [h]
      rfl

/-- A timer runs down, and what it leads to comes with the poll in which it runs out. -/
theorem polls_countdown {ms : Nat} (hms : 0 < ms) {s : IEState} {t : Nat} (ht : 0 < t)
    {p q : InputEvent} {active : Bool} {out : List Click}
    (hstart : pollOne ms p active = pollOne ms ⟨s, t⟩ active)
    (hstep : ∀ u, 0 < u → pollOne ms ⟨s, u⟩ active =
      if u ≤ ms then (q, out) else (⟨s, u - ms⟩, [])) :
    (∀ n, 0 < n → n * ms < t → polls ms p active n = (⟨s, t - n * ms⟩, [])) ∧
      polls ms p active (timerPolls ms t) = (q, out) := by
  -- before poll `n + 1` the timer still has `t - n * ms` to go
  have hnext (n : Nat) (hlow : n * ms < t)
      (hbefore : 0 < n → polls ms p active n = (⟨s, t - n * ms⟩, [])) :
      polls ms p active (n + 1) = pollOne ms ⟨s, t - n * ms⟩ active := by
    rcases Nat.eq_zero_or_pos n with hzero | hpos
    · subst hzero
      simp only [polls, List.nil_append, Nat.zero_mul, Nat.sub_zero, hstart]
    · simp only [polls, hbefore hpos, List.nil_append]
  have hrunning (n : Nat) : 0 < n → n * ms < t →
      polls ms p active n = (⟨s, t - n * ms⟩, []) := by
    induction n with
    | zero =>
        intro hn
        omega
    | succ n ih =>
        intro _ hlow
        have hmul : (n + 1) * ms = n * ms + ms := Nat.succ_mul n ms
        rw [hnext n (by omega) fun hpos => ih hpos (by omega), hstep _ (by omega),
          if_neg (by omega)]
        congr 2
        omega
  refine ⟨hrunning, ?_⟩
  have hpos : 0 < timerPolls ms t := by
    by_contra hzero
    have hle := (timerPolls_le_iff hms ht 0).mp (by omega)
    omega
  obtain ⟨n, hn⟩ : ∃ n, timerPolls ms t = n + 1 := ⟨timerPolls ms t - 1, by omega⟩
  have hlow : n * ms < t := by
    by_contra hhigh
    have hle := (timerPolls_le_iff hms ht n).mpr (by omega)
    omega
  have hhigh : t ≤ (n + 1) * ms := (timerPolls_le_iff hms ht (n + 1)).mp (by omega)
  have hmul : (n + 1) * ms = n * ms + ms := Nat.succ_mul n ms
  rw [hn, hnext n hlow fun hpos => hrunning n hpos hlow, hstep _ (by omega), if_pos (by omega)]

/-- Once the timer has run out, the polls left are polls of the state it led to. -/
theorem polls_after {ms : Nat} (hms : 0 < ms) {t : Nat} (ht : 0 < t) {p q : InputEvent}
    {active : Bool} {out : List Click}
    (hexpired : polls ms p active (timerPolls ms t) = (q, out)) {n : Nat} (hn : t ≤ n * ms) :
    polls ms p active n =
      ((polls ms q active (n - timerPolls ms t)).1,
        out ++ (polls ms q active (n - timerPolls ms t)).2) := by
  have hle := (timerPolls_le_iff hms ht n).mpr hn
  have hsplit : n = timerPolls ms t + (n - timerPolls ms t) := by omega
  rw [hsplit, polls_add, hexpired, Nat.add_sub_cancel_left]

/-! ## The state machine, phase by phase -/

theorem pollOne_debounce (ms u : Nat) (hu : 0 < u) :
    pollOne ms ⟨.debounce, u⟩ true =
      if u ≤ ms then (⟨.down, 0⟩, []) else (⟨.debounce, u - ms⟩, []) := by
  have hne : u ≠ 0 := by omega
  unfold pollOne InputEvent.update InputEvent.tick InputEvent.expire
  by_cases hle : u ≤ ms <;> simp [hne, hle]

theorem pollOne_upWait (ms u : Nat) (hu : 0 < u) :
    pollOne ms ⟨.upWait, u⟩ false =
      if u ≤ ms then (⟨.idle, 0⟩, [.single]) else (⟨.upWait, u - ms⟩, []) := by
  have hne : u ≠ 0 := by omega
  unfold pollOne InputEvent.update InputEvent.tick InputEvent.expire
  by_cases hle : u ≤ ms <;> simp [hne, hle]

theorem pollOne_dblDebounce (ms u : Nat) (hu : 0 < u) :
    pollOne ms ⟨.dblDebounce, u⟩ true =
      if u ≤ ms then (⟨.idle, 0⟩, [.double]) else (⟨.dblDebounce, u - ms⟩, []) := by
  have hne : u ≠ 0 := by omega
  unfold pollOne InputEvent.update InputEvent.tick InputEvent.expire
  by_cases hle : u ≤ ms <;> simp [hne, hle]

/-- Idle, and released. -/
theorem polls_idle_released (ms n : Nat) :
    polls ms ⟨.idle, 0⟩ false n = (⟨.idle, 0⟩, []) :=
  polls_fixed rfl n

theorem polls_down_pressed (ms n : Nat) :
    polls ms ⟨.down, 0⟩ true n = (⟨.down, 0⟩, []) :=
  polls_fixed rfl n

section Phases

variable {ms : Nat} (hms : 0 < ms)

include hms

/-- The button goes down in the idle state, and is down long enough. -/
theorem polls_press {n : Nat} (hn : debounceMs ≤ n * ms) :
    polls ms ⟨.idle, 0⟩ true n = (⟨.down, 0⟩, []) := by
  have hcount := polls_countdown hms (t := debounceMs) (by decide) rfl (pollOne_debounce ms)
    (p := ⟨.idle, 0⟩)
  rw [polls_after hms (by decide) hcount.2 hn, polls_down_pressed]
  rfl

/-- A press that is too short is dropped with its release. -/
theorem polls_bounce {n m : Nat} (hn : n * ms < debounceMs) (hm : 0 < m) :
    polls ms (polls ms ⟨.idle, 0⟩ true n).1 false m = (⟨.idle, 0⟩, []) := by
  rcases Nat.eq_zero_or_pos n with hzero | hpos
  · subst hzero
    exact polls_idle_released ms m
  · have hcount := polls_countdown hms (t := debounceMs) (by decide) rfl (pollOne_debounce ms)
      (p := ⟨.idle, 0⟩)
    obtain ⟨k, rfl⟩ : ∃ k, m = 1 + k := ⟨m - 1, by omega⟩
    rw [hcount.1 n hpos hn, polls_add]
    have hdrop : polls ms ⟨.debounce, debounceMs - n * ms⟩ false 1 = (⟨.idle, 0⟩, []) := rfl
    rw [hdrop, polls_idle_released]
    rfl

/-- A release after a press opens the double-click window, and may outlast it. -/
theorem polls_release {n : Nat} (hn : 0 < n) :
    polls ms ⟨.down, 0⟩ false n =
      if n * ms < dblclickMs then (⟨.upWait, dblclickMs - n * ms⟩, [])
      else (⟨.idle, 0⟩, [.single]) := by
  have hcount := polls_countdown hms (t := dblclickMs) (by decide) rfl (pollOne_upWait ms)
    (p := ⟨.down, 0⟩)
  by_cases hwindow : n * ms < dblclickMs
  · rw [if_pos hwindow]
    exact hcount.1 n hn hwindow
  · rw [if_neg hwindow, polls_after hms (by decide) hcount.2 (by omega), polls_idle_released]
    rfl

/-- A second press makes the double click, and the rest of it is a press from idle. -/
theorem polls_second {t n : Nat} (hn : debounceMs ≤ n * ms) :
    polls ms ⟨.upWait, t⟩ true n =
      ((polls ms ⟨.idle, 0⟩ true (n - timerPolls ms debounceMs)).1,
        .double :: (polls ms ⟨.idle, 0⟩ true (n - timerPolls ms debounceMs)).2) := by
  have hcount := polls_countdown hms (t := debounceMs) (by decide) rfl (pollOne_dblDebounce ms)
    (p := ⟨.upWait, t⟩)
  rw [polls_after hms (by decide) hcount.2 hn]
  rfl

end Phases

/-! ## Presses, counted in polls -/

/-- The double-click window is still open when the gap after a press ends. -/
def PolledPress.InWindow (ms : Nat) (pr : PolledPress) : Prop := pr.gap * ms < dblclickMs

instance (ms : Nat) (pr : PolledPress) : Decidable (pr.InWindow ms) :=
  inferInstanceAs (Decidable (_ < _))

/-- What each press should fire, while it is held and in the gap after it.  `isOpen` says
that the press before waits for a second one. -/
def expectedClicks (ms : Nat) (isOpen : Bool) :
    List PolledPress → List (List Click × List Click)
  | [] => []
  | pr :: rest =>
      if isOpen = true then ([.double], []) :: expectedClicks ms false rest
      else if pr.InWindow ms then ([], []) :: expectedClicks ms true rest
      else ([], [.single]) :: expectedClicks ms false rest

/-- What each press fires. -/
def polledClicks (ms : Nat) (p : InputEvent) : List PolledPress → List (List Click × List Click)
  | [] => []
  | pr :: rest =>
      ((polls ms p true pr.hold).2, (polls ms (polls ms p true pr.hold).1 false pr.gap).2) ::
        polledClicks ms (polls ms (polls ms p true pr.hold).1 false pr.gap).1 rest

/-- No press that completes a double click is held for the debounce time twice over, but
for the last press of the run while its window is open. -/
def ShortSecondPresses (ms : Nat) (isOpen : Bool) : List PolledPress → Prop
  | [] => True
  | pr :: rest =>
      if isOpen = true then
        (pr.hold < 2 * timerPolls ms debounceMs ∨ rest = [] ∧ pr.InWindow ms) ∧
          ShortSecondPresses ms false rest
      else ShortSecondPresses ms (decide (pr.InWindow ms)) rest

/-- Presses and gaps that the polls can see. -/
def PolledPress.Seen (ms : Nat) (pr : PolledPress) : Prop :=
  debounceMs ≤ pr.hold * ms ∧ 0 < pr.gap

section Law

variable {ms : Nat} (hms : 0 < ms)

include hms

/-- A second press of less than two debounce times: the double click, and nothing else. -/
theorem polls_second_short {t : Nat} {pr : PolledPress} (hpr : pr.Seen ms)
    (hshort : pr.hold < 2 * timerPolls ms debounceMs) :
    (polls ms ⟨.upWait, t⟩ true pr.hold).2 = [.double] ∧
      polls ms (polls ms ⟨.upWait, t⟩ true pr.hold).1 false pr.gap = (⟨.idle, 0⟩, []) := by
  have hrest : (pr.hold - timerPolls ms debounceMs) * ms < debounceMs := by
    by_contra hlong
    have hle := (timerPolls_le_iff hms (by decide) _).mpr (Nat.le_of_not_lt hlong)
    omega
  have hquiet : (polls ms ⟨.idle, 0⟩ true (pr.hold - timerPolls ms debounceMs)).2 = [] := by
    rcases Nat.eq_zero_or_pos (pr.hold - timerPolls ms debounceMs) with hzero | hpos
    · rw [hzero]
      rfl
    · have hcount := polls_countdown hms (t := debounceMs) (by decide) rfl
        (pollOne_debounce ms) (p := ⟨.idle, 0⟩)
      rw [hcount.1 _ hpos hrest]
  rw [polls_second hms hpr.1]
  refine ⟨?_, polls_bounce hms hrest hpr.2⟩
  dsimp only
  rw [hquiet]

/-- A second press of two debounce times or more: the double click, and a press on top. -/
theorem polls_second_long {t : Nat} {pr : PolledPress} (hpr : pr.Seen ms)
    (hlong : 2 * timerPolls ms debounceMs ≤ pr.hold) :
    polls ms ⟨.upWait, t⟩ true pr.hold = (⟨.down, 0⟩, [.double]) := by
  have hrest := (timerPolls_le_iff hms (t := debounceMs) (by decide)
    (pr.hold - timerPolls ms debounceMs)).mp (by omega)
  rw [polls_second hms hpr.1, polls_press hms hrest]

/-- A window that is open where none should be shows in the next press. -/
theorem polledClicks_open_ne (t : Nat) {pr : PolledPress} (hpr : pr.Seen ms)
    (rest : List PolledPress) :
    polledClicks ms ⟨.upWait, t⟩ (pr :: rest) ≠ expectedClicks ms false (pr :: rest) := by
  intro heq
  have hheld := congrArg (fun l => (l.head?.map Prod.fst).getD []) heq
  have hdouble := polls_second hms (t := t) hpr.1
  unfold polledClicks expectedClicks at hheld
  rw [hdouble] at hheld
  dsimp only at hheld
  split at hheld
  · cases ‹false = true›
  · split at hheld <;> cases hheld

/-- The clicks from the idle state, and from an open window, are as they should be exactly
when the second presses are short. -/
theorem polledClicks_iff {presses : List PolledPress} (hseen : ∀ pr ∈ presses, pr.Seen ms)
    (t : Nat) :
    (polledClicks ms ⟨.idle, 0⟩ presses = expectedClicks ms false presses ↔
        ShortSecondPresses ms false presses) ∧
      (polledClicks ms ⟨.upWait, t⟩ presses = expectedClicks ms true presses ↔
        ShortSecondPresses ms true presses) := by
  induction presses generalizing t with
  | nil => exact ⟨iff_of_true rfl trivial, iff_of_true rfl trivial⟩
  | cons pr rest ih =>
      have hpr := hseen pr (by simp)
      have htail := ih fun q hq => hseen q (by simp [hq])
      constructor
      · have hpress := polls_press hms hpr.1
        have hgap := polls_release hms hpr.2
        unfold polledClicks expectedClicks ShortSecondPresses
        rw [hpress]
        dsimp only
        rw [hgap]
        by_cases hwindow : pr.gap * ms < dblclickMs
        · have hopen : pr.InWindow ms := hwindow
          rw [if_pos hwindow, decide_eq_true hopen]
          simpa [hopen] using (htail _).2
        · have hclosed : ¬pr.InWindow ms := hwindow
          rw [if_neg hwindow, decide_eq_false hclosed]
          simpa [hclosed] using (htail 0).1
      · by_cases hshort : pr.hold < 2 * timerPolls ms debounceMs
        · obtain ⟨hhold, hgap⟩ := polls_second_short hms (t := t) hpr hshort
          unfold polledClicks expectedClicks ShortSecondPresses
          rw [hhold, hgap]
          simpa [hshort] using (htail 0).1
        · have hhold := polls_second_long hms (t := t) hpr (Nat.le_of_not_lt hshort)
          by_cases hwindow : pr.InWindow ms
          · have hgap : polls ms ⟨.down, 0⟩ false pr.gap =
                (⟨.upWait, dblclickMs - pr.gap * ms⟩, []) := by
              rw [polls_release hms hpr.2]
              exact if_pos hwindow
            unfold polledClicks expectedClicks ShortSecondPresses
            rw [hhold]
            dsimp only
            rw [hgap]
            -- the window is open on a press that is spent: the next press shows it
            cases rest with
            | nil => simp [polledClicks, expectedClicks, ShortSecondPresses, hwindow]
            | cons next rest =>
                apply iff_of_false
                · intro heq
                  rw [if_pos rfl] at heq
                  exact polledClicks_open_ne hms _ (hseen next (by simp)) rest
                    (List.cons.inj heq).2
                · intro hcond
                  simp [hshort] at hcond
          · have hgap : polls ms ⟨.down, 0⟩ false pr.gap = (⟨.idle, 0⟩, [.single]) := by
              rw [polls_release hms hpr.2]
              exact if_neg hwindow
            unfold polledClicks expectedClicks ShortSecondPresses
            rw [hhold]
            dsimp only
            rw [hgap]
            apply iff_of_false
            · intro heq
              simp at heq
            · intro hcond
              simp [hshort, hwindow] at hcond

end Law

end HomeAuto
