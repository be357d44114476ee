import HomeAuto.InputEvents

/-!
# Glitches on a pushbutton (`input_events.c`)

A glitch is a run of samples at the other level that lasts less than the debounce time.  The
click detector waits out the debounce time for a press only: a release is acted on at once,
and so is the end of a second press.  A glitch may then do what a release or a second press
does.

`glitch_harmless_iff` says which glitches never make a click that would not have been made
without them, whatever follows: one on a released button that the detector is idle for; and,
as long as there is no double-click action, one on a press that is not confirmed yet.
-/

namespace HomeAuto

/-- One poll of an input: the sampled level, the time until the next sample, and whether the
input has a double-click action. -/
structure ClickPoll where
  level : Bool
  ms : Nat
  needsDouble : Bool

namespace InputEvent

/-- A poll of one input: `InputEventsUpdate`, then `InputEventsTick`. -/
def poll (p : InputEvent) (q : ClickPoll) : InputEvent × List Click :=
  (((p.update q.level).1.tick q.needsDouble q.ms).1,
    (p.update q.level).2 ++ ((p.update q.level).1.tick q.needsDouble q.ms).2)

/-- Polls one after the other. -/
def pollAll (p : InputEvent) : List ClickPoll → InputEvent × List Click
  | [] => (p, [])
  | q :: qs => (((p.poll q).1.pollAll qs).1, (p.poll q).2 ++ ((p.poll q).1.pollAll qs).2)

end InputEvent

/-- The level before the next sample, of a button that is released at the start. -/
def lastLevel (pre : List ClickPoll) : Bool := (pre.getLast?.map ClickPoll.level).getD false

/-- The detector after some polls from reset. -/
def detectorAfter (pre : List ClickPoll) : InputEvent := (InputEvent.pollAll ⟨.idle, 0⟩ pre).1

/-- Polls at one level, and polls at given levels. -/
def steadyPolls (needsDouble level : Bool) (window : List Nat) : List ClickPoll :=
  window.map fun ms => ⟨level, ms, needsDouble⟩
def levelPolls (needsDouble : Bool) (post : List (Bool × Nat)) : List ClickPoll :=
  post.map fun q => ⟨q.1, q.2, needsDouble⟩

/-- A glitch at level `v` on a detector makes no click that is not made without it: over every
window of less than the debounce time, and whatever follows the return to the level before. -/
def GlitchHarmless (p : InputEvent) (needsDouble v : Bool) : Prop :=
  ∀ window post, window ≠ [] → window.sum < debounceMs →
    (∀ q ∈ post.head?, q.1 = !v) → ∀ c : Click,
      (p.pollAll (steadyPolls needsDouble v window ++ levelPolls needsDouble post)).2.count c ≤
        (p.pollAll (steadyPolls needsDouble (!v) window ++ levelPolls needsDouble post)).2.count c

/-! ## Reachable detectors -/

/-- What holds of a detector whose input was last sampled at `level`. -/
def InputEvent.Consistent (level : Bool) (p : InputEvent) : Prop :=
  match p.state with
  | .idle => p.timer = 0
  | .debounce => level = true ∧ 0 < p.timer ∧ p.timer ≤ debounceMs
  | .down => level = true ∧ p.timer = 0
  | .held => level = true ∧ p.timer = 0
  | .upWait => level = false ∧ 0 < p.timer
  | .dblDebounce => level = true ∧ 0 < p.timer ∧ p.timer ≤ debounceMs

namespace InputEvent

variable {p : InputEvent}

theorem pollAll_append (p : InputEvent) (qs qs' : List ClickPoll) :
    p.pollAll (qs ++ qs') =
      (((p.pollAll qs).1.pollAll qs').1, (p.pollAll qs).2 ++ ((p.pollAll qs).1.pollAll qs').2) := by
  induction qs generalizing p with
  | nil => rfl
  | cons q qs ih =>
      rw [List.cons_append]
      simp only [pollAll, ih, List.append_assoc]

/-- A sample keeps a detector consistent. -/
theorem Consistent.update {level : Bool} (h : p.Consistent level) (active : Bool) :
    (p.update active).1.Consistent active := by
  obtain ⟨state, timer⟩ := p
  cases state <;> cases active <;>
    simp_all [Consistent, InputEvent.update, debounceMs, dblclickMs]

/-- So does a tick. -/
theorem Consistent.tick {level : Bool} (h : p.Consistent level) (needsDouble : Bool) (ms : Nat) :
    (p.tick needsDouble ms).1.Consistent level := by
  obtain ⟨state, timer⟩ := p
  unfold InputEvent.tick
  split
  · exact h
  · split
    · cases state <;> cases needsDouble <;> simp_all [Consistent, expire]
    · cases state <;> simp_all [Consistent] <;> omega

end InputEvent

theorem consistent_detectorAfter (pre : List ClickPoll) :
    (detectorAfter pre).Consistent (lastLevel pre) := by
  induction pre using List.reverseRecOn with
  | nil => rfl
  | append_singleton qs q ih =>
      have hlast : lastLevel (qs ++ [q]) = q.level := by
        simp [lastLevel]
      have hafter : detectorAfter (qs ++ [q]) =
          (((detectorAfter qs).update q.level).1.tick q.needsDouble q.ms).1 := by
        unfold detectorAfter
        rw [InputEvent.pollAll_append]
        rfl
      rw [hlast, hafter]
      exact (ih.update q.level).tick _ _

/-! ## A steady level -/

namespace InputEvent

/-- A pressed sample while a press waits for its confirmation. -/
theorem poll_waiting {t ms : Nat} (hlong : ms < t) (needs : Bool) :
    poll ⟨.debounce, t⟩ ⟨true, ms, needs⟩ = (⟨.debounce, t - ms⟩, []) := by
  have hne : t ≠ 0 := by omega
  have hle : ¬t ≤ ms := by omega
  simp [poll, update, InputEvent.tick, hne, hle]

/-- A press that is not confirmed within the window. -/
theorem pollAll_pressed (needs : Bool) (window : List Nat) {t : Nat} (h : window.sum < t) :
    pollAll ⟨.debounce, t⟩ (steadyPolls needs true window) =
      (⟨.debounce, t - window.sum⟩, []) := by
  induction window generalizing t with
  | nil => rfl
  | cons ms window ih =>
      rw [List.sum_cons] at h
      have hpoll := poll_waiting (show ms < t by omega) needs
      have hrest := ih (t := t - ms) (by omega)
      unfold steadyPolls at hrest ⊢
      rw [List.map_cons, pollAll, hpoll]
      simp only [hrest, List.sum_cons, Nat.sub_sub, List.nil_append]

/-- A short press from idle. -/
theorem pollAll_glitch (needs : Bool) {window : List Nat} (hne : window ≠ [])
    (h : window.sum < debounceMs) :
    pollAll ⟨.idle, 0⟩ (steadyPolls needs true window) =
      (⟨.debounce, debounceMs - window.sum⟩, []) := by
  rw [← pollAll_pressed needs window h]
  cases window with
  | nil => exact absurd rfl hne
  | cons ms window => rfl

/-- Idle, and released. -/
theorem pollAll_released (needs : Bool) (window : List Nat) :
    pollAll ⟨.idle, 0⟩ (steadyPolls needs false window) = (⟨.idle, 0⟩, []) := by
  induction window with
  | nil => rfl
  | cons ms window ih =>
      have hpoll : poll ⟨.idle, 0⟩ ⟨false, ms, needs⟩ = (⟨.idle, 0⟩, []) := rfl
      unfold steadyPolls at ih ⊢
      rw [List.map_cons, pollAll, hpoll, ih]
      rfl

end InputEvent

/-- A glitch on a released button that the detector is idle for. -/
theorem glitchHarmless_idle (needs : Bool) : GlitchHarmless ⟨.idle, 0⟩ needs true := by
  intro window post hne hshort hback c
  rw [InputEvent.pollAll_append, InputEvent.pollAll_append,
    InputEvent.pollAll_glitch needs hne hshort, Bool.not_true, InputEvent.pollAll_released]
  cases post with
  | nil => exact Nat.le_refl _
  | cons q post =>
      have hlevel : q.1 = false := hback q (by simp)
      have hdrop : InputEvent.poll ⟨.debounce, debounceMs - window.sum⟩ ⟨q.1, q.2, needs⟩ =
          InputEvent.poll ⟨.idle, 0⟩ ⟨q.1, q.2, needs⟩ := by
        rw [hlevel]
        rfl
      unfold levelPolls
      rw [List.map_cons, InputEvent.pollAll, InputEvent.pollAll, hdrop]

/-! ## A press that is not confirmed yet -/

/-- Two detectors without a double-click action, of which the first is behind: it waits for
the confirmation of a press that the second has confirmed already, or waits at least as long
as the second.  `credit` counts the click it is behind. -/
inductive Lags : InputEvent → InputEvent → Nat → Prop
  | idle : Lags ⟨.idle, 0⟩ ⟨.idle, 0⟩ 0
  | held : Lags ⟨.held, 0⟩ ⟨.held, 0⟩ 0
  | waiting (t t' : Nat) (hpos : 0 < t) (hle : t ≤ t') : Lags ⟨.debounce, t'⟩ ⟨.debounce, t⟩ 0
  | confirmed (t' : Nat) (hpos : 0 < t') : Lags ⟨.debounce, t'⟩ ⟨.held, 0⟩ 1

/-- The clicks that a detector may still make for being behind. -/
def behind (credit : Nat) (c : Click) : Nat := if c = .single then credit else 0

@[simp] theorem behind_zero (c : Click) : behind 0 c = 0 := by
  unfold behind
  split <;> rfl

namespace InputEvent

/-- The confirmation of a press without a double-click action. -/
theorem poll_confirms {t ms : Nat} (hpos : 0 < t) (hle : t ≤ ms) :
    poll ⟨.debounce, t⟩ ⟨true, ms, false⟩ = (⟨.held, 0⟩, [.single]) := by
  have hne : t ≠ 0 := by omega
  simp [poll, update, InputEvent.tick, expire, hne, hle]

end InputEvent

/-- A pressed sample while the first detector waits: whichever of the two confirms the press
makes its click, and the second is the first to do so. -/
theorem Lags.poll_pressed {t : Nat} {o : InputEvent} {credit : Nat}
    (h : Lags ⟨.debounce, t⟩ o credit) (ms : Nat) :
    ∃ credit', Lags (InputEvent.poll ⟨.debounce, t⟩ ⟨true, ms, false⟩).1
        (o.poll ⟨true, ms, false⟩).1 credit' ∧
      ∀ c, (InputEvent.poll ⟨.debounce, t⟩ ⟨true, ms, false⟩).2.count c + behind credit' c ≤
        (o.poll ⟨true, ms, false⟩).2.count c + behind credit c := by
  cases h with
  | waiting t' _ hpos hle =>
      rcases Nat.lt_or_ge ms t with hlong | hshort
      · rw [InputEvent.poll_waiting hlong]
        rcases Nat.lt_or_ge ms t' with hlong' | hshort'
        · rw [InputEvent.poll_waiting hlong']
          exact ⟨0, .waiting _ _ (by omega) (by omega), fun _ => Nat.le_refl _⟩
        · rw [InputEvent.poll_confirms hpos hshort']
          refine ⟨1, .confirmed _ (by omega), ?_⟩
          intro c
          cases c <;> simp [behind]
      · rw [InputEvent.poll_confirms (by omega) hshort, InputEvent.poll_confirms hpos (by omega)]
        exact ⟨0, .held, fun _ => Nat.le_refl _⟩
  | confirmed _ hpos =>
      have hheld : InputEvent.poll ⟨.held, 0⟩ ⟨true, ms, false⟩ = (⟨.held, 0⟩, []) := rfl
      rw [hheld]
      rcases Nat.lt_or_ge ms t with hlong | hshort
      · rw [InputEvent.poll_waiting hlong]
        exact ⟨1, .confirmed _ (by omega), fun _ => Nat.le_refl _⟩
      · rw [InputEvent.poll_confirms hpos hshort]
        refine ⟨0, .held, ?_⟩
        intro c
        cases c <;> simp [behind]

/-- **One poll**: the detector that is behind stays behind, and makes no click that it is not
behind by. -/
theorem Lags.poll {g o : InputEvent} {credit : Nat} (h : Lags g o credit) (level : Bool)
    (ms : Nat) :
    ∃ credit', Lags (g.poll ⟨level, ms, false⟩).1 (o.poll ⟨level, ms, false⟩).1 credit' ∧
      ∀ c, (g.poll ⟨level, ms, false⟩).2.count c + behind credit' c ≤
        (o.poll ⟨level, ms, false⟩).2.count c + behind credit c := by
  cases h with
  | idle =>
      have hwait : Lags ⟨.debounce, debounceMs⟩ ⟨.debounce, debounceMs⟩ 0 :=
        .waiting _ _ (by decide) (Nat.le_refl _)
      cases level with
      | false => exact ⟨0, .idle, fun _ => Nat.le_refl _⟩
      | true => exact hwait.poll_pressed ms
  | held =>
      cases level with
      | false => exact ⟨0, .idle, fun _ => Nat.le_refl _⟩
      | true => exact ⟨0, .held, fun _ => Nat.le_refl _⟩
  | waiting t t' hpos hle =>
      cases level with
      | false => exact ⟨0, .idle, fun _ => Nat.le_refl _⟩
      | true => exact (Lags.waiting t t' hpos hle).poll_pressed ms
  | confirmed t' hpos =>
      cases level with
      | false =>
          refine ⟨0, .idle, ?_⟩
          intro c
          cases c <;> simp [behind, InputEvent.poll, InputEvent.update, InputEvent.tick]
      | true => exact (Lags.confirmed t' hpos).poll_pressed ms

theorem Lags.count_le {g o : InputEvent} {credit : Nat} (h : Lags g o credit)
    (post : List (Bool × Nat)) (c : Click) :
    (g.pollAll (levelPolls false post)).2.count c ≤
      (o.pollAll (levelPolls false post)).2.count c + behind credit c := by
  induction post generalizing g o credit with
  | nil => exact Nat.zero_le _
  | cons q post ih =>
      obtain ⟨credit', hlags, hcount⟩ := h.poll q.1 q.2
      have hrest := ih hlags
      have hnow := hcount c
      unfold levelPolls at hrest ⊢
      rw [List.map_cons, InputEvent.pollAll, InputEvent.pollAll, List.count_append,
        List.count_append]
      omega

/-- A detector that waits the whole debounce time is behind one that polls a held button. -/
theorem Lags.wait {o : InputEvent} {credit : Nat} (h : Lags ⟨.debounce, debounceMs⟩ o credit)
    (window : List Nat) :
    ∃ credit', Lags ⟨.debounce, debounceMs⟩
        (o.pollAll (steadyPolls false true window)).1 credit' ∧
      ∀ c, behind credit' c ≤
        (o.pollAll (steadyPolls false true window)).2.count c + behind credit c := by
  induction window generalizing o credit with
  | nil => exact ⟨credit, h, fun _ => Nat.le_add_left _ _⟩
  | cons ms window ih =>
      have hstep : ∃ credit₁, Lags ⟨.debounce, debounceMs⟩ (o.poll ⟨true, ms, false⟩).1 credit₁ ∧
          ∀ c, behind credit₁ c ≤ (o.poll ⟨true, ms, false⟩).2.count c + behind credit c := by
        cases h with
        | waiting t _ hpos hle =>
            rcases Nat.lt_or_ge ms t with hlong | hshort
            · rw [InputEvent.poll_waiting hlong]
              exact ⟨0, .waiting _ _ (by omega) (by omega), fun _ => Nat.le_add_left _ _⟩
            · rw [InputEvent.poll_confirms hpos hshort]
              refine ⟨1, .confirmed _ (by decide), ?_⟩
              intro c
              cases c <;> simp [behind]
        | confirmed _ hpos => exact ⟨1, .confirmed _ hpos, fun _ => Nat.le_add_left _ _⟩
      obtain ⟨credit₁, hlags₁, hcount₁⟩ := hstep
      obtain ⟨credit', hlags, hcount⟩ := ih hlags₁
      refine ⟨credit', hlags, ?_⟩
      intro c
      have hfirst := hcount₁ c
      have hrest := hcount c
      unfold steadyPolls at hrest ⊢
      rw [List.map_cons, InputEvent.pollAll, List.count_append]
      omega

/-- A released sample in a press that is not confirmed, without a double-click action. -/
theorem glitchHarmless_pressed {p : InputEvent}
    (hpress : p = ⟨.idle, 0⟩ ∨ ∃ t, 0 < t ∧ t ≤ debounceMs ∧ p = ⟨.debounce, t⟩) :
    GlitchHarmless p false false := by
  intro window post hne _ hback c
  -- The glitch leaves the detector idle; the first sample after it begins the press again.
  have hglitch : p.pollAll (steadyPolls false false window) = (⟨.idle, 0⟩, []) := by
    cases window with
    | nil => exact absurd rfl hne
    | cons ms window =>
        have hdrop : p.poll ⟨false, ms, false⟩ = (⟨.idle, 0⟩, []) := by
          rcases hpress with rfl | ⟨t, _, _, rfl⟩
          · rfl
          · rfl
        have hrest := InputEvent.pollAll_released false window
        unfold steadyPolls at hrest ⊢
        rw [List.map_cons, InputEvent.pollAll, hdrop, hrest]
        rfl
  have hplain : ∃ credit, Lags ⟨.debounce, debounceMs⟩
      (p.pollAll (steadyPolls false true window)).1 credit ∧
      ∀ c, behind credit c ≤
        (p.pollAll (steadyPolls false true window)).2.count c + behind 0 c := by
    rcases hpress with rfl | ⟨t, hpos, hle, rfl⟩
    · have hstart : InputEvent.pollAll ⟨.idle, 0⟩ (steadyPolls false true window) =
          InputEvent.pollAll ⟨.debounce, debounceMs⟩ (steadyPolls false true window) := by
        cases window with
        | nil => exact absurd rfl hne
        | cons ms window => rfl
      rw [hstart]
      exact (Lags.waiting debounceMs debounceMs (by decide) (Nat.le_refl _)).wait window
    · exact (Lags.waiting t debounceMs hpos hle).wait window
  obtain ⟨credit, hlags, hbehind⟩ := hplain
  rw [InputEvent.pollAll_append, InputEvent.pollAll_append, hglitch, List.nil_append,
    List.count_append]
  cases post with
  | nil => exact Nat.zero_le _
  | cons q post =>
      have hlevel : q.1 = true := hback q (by simp)
      have hagain : InputEvent.pollAll ⟨.idle, 0⟩ (levelPolls false (q :: post)) =
          InputEvent.pollAll ⟨.debounce, debounceMs⟩ (levelPolls false (q :: post)) := by
        unfold levelPolls
        rw [List.map_cons, InputEvent.pollAll, InputEvent.pollAll, hlevel]
        rfl
      rw [hagain, Bool.not_false]
      dsimp only
      have hcount := hlags.count_le (q :: post) c
      have hcredit := hbehind c
      rw [behind_zero] at hcredit
      omega

/-! ## Glitches that do harm -/

/-- A glitch of one sample that makes one more click of a kind. -/
theorem not_harmless_of {p : InputEvent} {needs v : Bool} (ms : Nat) (post : List (Bool × Nat))
    (c : Click) (hshort : ms < debounceMs) (hback : ∀ q ∈ post.head?, q.1 = !v)
    (hmore : (p.pollAll (steadyPolls needs (!v) [ms] ++ levelPolls needs post)).2.count c <
      (p.pollAll (steadyPolls needs v [ms] ++ levelPolls needs post)).2.count c) :
    ¬GlitchHarmless p needs v := by
  intro h
  have hle := h [ms] post (by simp) (by simpa using hshort) hback c
  omega

section

variable (t : Nat) (needs : Bool)

attribute [local simp] steadyPolls levelPolls InputEvent.pollAll InputEvent.poll InputEvent.update
  InputEvent.tick InputEvent.expire debounceMs dblclickMs

/-- A contact that bounces in the double-click window makes a second press. -/
theorem not_harmless_upWait (hpos : 0 < t) : ¬GlitchHarmless ⟨.upWait, t⟩ needs true := by
  apply not_harmless_of 1 [(false, 0)] .double (by decide) (by simp)
  have hne : t ≠ 0 := by omega
  rcases Nat.lt_or_ge 1 t with hlong | hshort
  · have hlate : ¬t ≤ 1 := by omega
    have hleft : t - 1 ≠ 0 := by omega
    simp [hne, hlate, hleft]
  · simp [hne, hshort]

/-- A release that bounces while a press is held is a first press, and the next bounce a
second one. -/
theorem not_harmless_down : ¬GlitchHarmless ⟨.down, 0⟩ needs false := by
  apply not_harmless_of 1 [(true, 0), (false, 0)] .double (by decide) (by simp)
  simp

/-- A bounce of a button that is held after its click is a release, and the rest a new click. -/
theorem not_harmless_held : ¬GlitchHarmless ⟨.held, 0⟩ needs false := by
  apply not_harmless_of 1 [(true, 30), (false, 350)] .single (by decide) (by simp)
  cases needs <;> simp

/-- A bounce of the second press is its end. -/
theorem not_harmless_dblDebounce (hpos : 0 < t) (hle : t ≤ debounceMs) :
    ¬GlitchHarmless ⟨.dblDebounce, t⟩ needs false := by
  apply not_harmless_of 0 [(true, 30), (false, 350)] .single (by decide) (by simp)
  have hne : t ≠ 0 := by omega
  have hlast : t ≤ 30 := hle
  cases needs <;> simp [hne, hlast]

/-- A bounce of a press that is not confirmed delays it, past the release of the first of two
clicks. -/
theorem not_harmless_debounce (hpos : 0 < t) (hle : t ≤ debounceMs) :
    ¬GlitchHarmless ⟨.debounce, t⟩ true false := by
  apply not_harmless_of 1 [(true, t - 1), (false, 0), (true, 30), (false, 350)] .single
    (by decide) (by simp)
  have hne : t ≠ 0 := by omega
  have hlast : t ≤ 30 := hle
  have hwaits : ¬30 ≤ t - 1 := by omega
  rcases Nat.lt_or_ge 1 t with hlong | hshort
  · have hlate : ¬t ≤ 1 := by omega
    have hleft : t - 1 ≠ 0 := by omega
    simp [hne, hlate, hleft, hwaits]
  · have hone : t = 1 := by omega
    subst hone
    simp

/-- So does one in a press after a double click, which the detector is idle for. -/
theorem not_harmless_idle : ¬GlitchHarmless ⟨.idle, 0⟩ true false := by
  apply not_harmless_of 1 [(true, 29), (false, 0), (true, 30), (false, 350)] .single
    (by decide) (by simp)
  simp

end

/-- Which glitches are harmless to a consistent detector. -/
theorem InputEvent.Consistent.glitchHarmless_iff {level : Bool} {p : InputEvent}
    (hkept : p.Consistent level) (needs : Bool) :
    GlitchHarmless p needs (!level) ↔
      (p.state = .idle ∧ level = false) ∨
        (needs = false ∧ level = true ∧ (p.state = .idle ∨ p.state = .debounce)) := by
  obtain ⟨state, timer⟩ := p
  cases state with
  | idle =>
      have htimer : timer = 0 := hkept
      subst htimer
      cases level with
      | false =>
          have hharmless := glitchHarmless_idle needs
          simpa using hharmless
      | true =>
          cases needs with
          | false =>
              have hharmless := glitchHarmless_pressed (p := ⟨.idle, 0⟩) (.inl rfl)
              simpa using hharmless
          | true =>
              have hharm := not_harmless_idle
              simpa using hharm
  | debounce =>
      obtain ⟨hlevel, hpos, hle⟩ := hkept
      subst hlevel
      cases needs with
      | false =>
          have hharmless : GlitchHarmless ⟨.debounce, timer⟩ false false :=
            glitchHarmless_pressed (.inr ⟨timer, hpos, hle, rfl⟩)
          simpa using hharmless
      | true =>
          have hharm := not_harmless_debounce timer hpos hle
          simpa using hharm
  | down =>
      obtain ⟨hlevel, htimer⟩ := hkept
      have hharm := not_harmless_down needs
      dsimp only at htimer
      subst htimer
      subst hlevel
      simpa using hharm
  | held =>
      obtain ⟨hlevel, htimer⟩ := hkept
      have hharm := not_harmless_held needs
      dsimp only at htimer
      subst htimer
      subst hlevel
      simpa using hharm
  | upWait =>
      obtain ⟨hlevel, hpos⟩ := hkept
      have hharm := not_harmless_upWait timer needs hpos
      subst hlevel
      simpa using hharm
  | dblDebounce =>
      obtain ⟨hlevel, hpos, hle⟩ := hkept
      have hharm := not_harmless_dblDebounce timer needs hpos hle
      subst hlevel
      simpa using hharm

/-- **The glitches that do no harm.**  A glitch shorter than the debounce time never makes a
click that is not made without it, exactly when the button is released and the detector idle,
or there is no double-click action and the button is pressed without its press being
confirmed, or pressed on after a second press. -/
theorem glitch_harmless_iff (pre : List ClickPoll) (needs : Bool) :
    GlitchHarmless (detectorAfter pre) needs (!lastLevel pre) ↔
      ((detectorAfter pre).state = .idle ∧ lastLevel pre = false) ∨
        (needs = false ∧ lastLevel pre = true ∧
          ((detectorAfter pre).state = .idle ∨ (detectorAfter pre).state = .debounce)) :=
  (consistent_detectorAfter pre).glitchHarmless_iff needs

/-- Not every short glitch is harmless: after a click of 40 ms and a release of 60 ms, a
bounce of one sample makes a double click of it. -/
theorem bounce_makes_double :
    ∃ pre needs, ¬GlitchHarmless (detectorAfter pre) needs (!lastLevel pre) := by
  refine ⟨[⟨true, 10, true⟩, ⟨true, 30, true⟩, ⟨false, 60, true⟩], true, ?_⟩
  have hafter : detectorAfter [⟨true, 10, true⟩, ⟨true, 30, true⟩, ⟨false, 60, true⟩] =
      ⟨.upWait, 290⟩ := by decide
  rw [hafter]
  exact not_harmless_upWait 290 true (by decide)

end HomeAuto
