import Mathlib.Data.List.Basic

/-!
# Runs of an event-driven step function

A component that reacts to one event at a time is a function `step : σ → ε → σ`.
A run is a list of events; all nondeterminism of the surroundings (which event
comes next, what a called driver answers) sits in the events.

`EveryState` says that a predicate holds in every state a run reaches, and
`EveryStep` that a condition holds of every event in the state in which it is
taken.  The rules below package the induction over a run once: an invariant
which every admissible step keeps holds in every state, and a property which
each single step keeps exactly when it meets a condition holds along the whole
run exactly when every step meets that condition.
-/

namespace Runs

variable {σ ε : Type*} (step : σ → ε → σ)

/-- The state reached from `s` by the events `es`. -/
def final (s : σ) (es : List ε) : σ := es.foldl step s

/-- `P` holds in every state of the run, the first one included. -/
def EveryState (P : σ → Prop) : σ → List ε → Prop
  | s, [] => P s
  | s, e :: es => P s ∧ EveryState P (step s e) es

/-- Every event of the run meets `ok` in the state in which it is taken. -/
def EveryStep (ok : σ → ε → Prop) : σ → List ε → Prop
  | _, [] => True
  | s, e :: es => ok s e ∧ EveryStep ok (step s e) es

@[simp] theorem final_nil (s : σ) : final step s [] = s := rfl

@[simp] theorem final_cons (s : σ) (e : ε) (es : List ε) :
    final step s (e :: es) = final step (step s e) es := rfl

theorem final_append (s : σ) (es fs : List ε) :
    final step s (es ++ fs) = final step (final step s es) fs := by
  simp [final]

@[simp] theorem everyState_nil (P : σ → Prop) (s : σ) :
    EveryState step P s [] ↔ P s := Iff.rfl

@[simp] theorem everyState_cons (P : σ → Prop) (s : σ) (e : ε) (es : List ε) :
    EveryState step P s (e :: es) ↔ P s ∧ EveryState step P (step s e) es := Iff.rfl

@[simp] theorem everyStep_nil (ok : σ → ε → Prop) (s : σ) :
    EveryStep step ok s [] ↔ True := Iff.rfl

@[simp] theorem everyStep_cons (ok : σ → ε → Prop) (s : σ) (e : ε) (es : List ε) :
    EveryStep step ok s (e :: es) ↔ ok s e ∧ EveryStep step ok (step s e) es := Iff.rfl

/-- A step condition that can be decided can be decided along a run. -/
instance EveryStep.decidable (ok : σ → ε → Prop) [∀ s e, Decidable (ok s e)] :
    ∀ (s : σ) (es : List ε), Decidable (EveryStep step ok s es)
  | _, [] => .isTrue trivial
  | s, e :: es =>
      have := EveryStep.decidable ok (step s e) es
      inferInstanceAs (Decidable (ok s e ∧ EveryStep step ok (step s e) es))

variable {step}

/-- A property of every state holds in the first one. -/
theorem EveryState.head {P : σ → Prop} {s : σ} {es : List ε}
    (h : EveryState step P s es) : P s := by
  cases es with
  | nil => exact h
  | cons e es => exact h.1

/-- `EveryState` speaks about exactly the states after the prefixes of a run. -/
theorem everyState_iff_prefix {P : σ → Prop} {s : σ} {es : List ε} :
    EveryState step P s es ↔ ∀ pre post, es = pre ++ post → P (final step s pre) := by
  induction es generalizing s with
  | nil =>
      constructor
      · intro h pre post heq
        obtain ⟨rfl, rfl⟩ := List.append_eq_nil_iff.mp heq.symm
        exact h
      · intro h
        exact h [] [] rfl
  | cons e es ih =>
      rw [everyState_cons, ih]
      constructor
      · rintro ⟨hs, htail⟩ pre post heq
        cases pre with
        | nil => exact hs
        | cons p pre =>
            obtain ⟨rfl, htl⟩ := List.cons_eq_cons.mp heq
            exact htail pre post htl
      · intro h
        exact ⟨h [] (e :: es) rfl, fun pre post heq => h (e :: pre) post (by rw [heq]; rfl)⟩

/-- A property of every state holds in the last one. -/
theorem EveryState.last {P : σ → Prop} {s : σ} {es : List ε}
    (h : EveryState step P s es) : P (final step s es) :=
  everyState_iff_prefix.mp h es [] (by simp)

theorem EveryState.mono {P Q : σ → Prop} (hPQ : ∀ s, P s → Q s) {s : σ} {es : List ε}
    (h : EveryState step P s es) : EveryState step Q s es := by
  induction es generalizing s with
  | nil => exact hPQ s h
  | cons e es ih => exact ⟨hPQ s h.1, ih h.2⟩

theorem EveryStep.mono {ok ok' : σ → ε → Prop} (hok : ∀ s e, ok s e → ok' s e)
    {s : σ} {es : List ε} (h : EveryStep step ok s es) : EveryStep step ok' s es := by
  induction es generalizing s with
  | nil => trivial
  | cons e es ih => exact ⟨hok s e h.1, ih h.2⟩

theorem everyStep_and {ok ok' : σ → ε → Prop} {s : σ} {es : List ε} :
    EveryStep step (fun s e => ok s e ∧ ok' s e) s es ↔
      EveryStep step ok s es ∧ EveryStep step ok' s es := by
  induction es generalizing s with
  | nil => simp
  | cons e es ih =>
      rw [everyStep_cons, everyStep_cons, everyStep_cons, ih]
      exact and_and_and_comm

/-- **Invariant rule.**  What every admissible step keeps holds in every state of
a run whose steps are all admissible. -/
theorem EveryStep.invariant {ok : σ → ε → Prop} {I : σ → Prop}
    (hstep : ∀ s e, I s → ok s e → I (step s e))
    {s : σ} {es : List ε} (hok : EveryStep step ok s es) (hI : I s) :
    EveryState step I s es := by
  induction es generalizing s with
  | nil => exact hI
  | cons e es ih => exact ⟨hI, ih hok.2 (hstep s e hI hok.1)⟩

/-- Under an invariant that the admissible steps keep, one step condition gives
another along a whole run. -/
theorem EveryStep.imp {ok ok' : σ → ε → Prop} {I : σ → Prop}
    (hstep : ∀ s e, I s → ok s e → I (step s e)) (himp : ∀ s e, I s → ok s e → ok' s e)
    {s : σ} {es : List ε} (hok : EveryStep step ok s es) (hI : I s) :
    EveryStep step ok' s es := by
  induction es generalizing s with
  | nil => trivial
  | cons e es ih => exact ⟨himp s e hI hok.1, ih hok.2 (hstep s e hI hok.1)⟩

/-- Invariant rule for a step function whose steps are all admissible. -/
theorem invariant {I : σ → Prop} (hstep : ∀ s e, I s → I (step s e))
    {s : σ} (hI : I s) (es : List ε) : EveryState step I s es := by
  induction es generalizing s with
  | nil => exact hI
  | cons e es ih => exact ⟨hI, ih (hstep s e hI)⟩

/-- **Exact step rule.**  Under an invariant, a step condition that decides
whether a step keeps `P` decides whether a whole run keeps `P`, here for the runs
made of some kind of event. -/
theorem everyState_iff_everyStep_of {ok : σ → ε → Prop} {I P : σ → Prop} {E : ε → Prop}
    (hI : ∀ s e, E e → I s → P s → P (step s e) → I (step s e))
    (hP : ∀ s e, E e → I s → P s → (P (step s e) ↔ ok s e))
    {s : σ} (hs : I s) (hPs : P s) (es : List ε) (hes : ∀ e ∈ es, E e) :
    EveryState step P s es ↔ EveryStep step ok s es := by
  induction es generalizing s with
  | nil => simpa using hPs
  | cons e es ih =>
      have he := hes e (by simp)
      have htl (f : ε) (hf : f ∈ es) : E f := hes f (by simp [hf])
      rw [everyState_cons, everyStep_cons]
      constructor
      · rintro ⟨_, htail⟩
        have hnext := htail.head
        exact ⟨(hP s e he hs hPs).mp hnext,
          (ih (hI s e he hs hPs hnext) hnext htl).mp htail⟩
      · rintro ⟨hok, htail⟩
        have hnext := (hP s e he hs hPs).mpr hok
        exact ⟨hPs, (ih (hI s e he hs hPs hnext) hnext htl).mpr htail⟩

/-- The exact step rule for runs of any events. -/
theorem everyState_iff_everyStep {ok : σ → ε → Prop} {I P : σ → Prop}
    (hI : ∀ s e, I s → P s → I (step s e))
    (hP : ∀ s e, I s → P s → (P (step s e) ↔ ok s e))
    {s : σ} (hs : I s) (hPs : P s) (es : List ε) :
    EveryState step P s es ↔ EveryStep step ok s es :=
  everyState_iff_everyStep_of (E := fun _ => True) (fun s e _ hIs hPs _ => hI s e hIs hPs)
    (fun s e _ => hP s e) hs hPs es fun _ _ => trivial

/-- Under an invariant that the condition itself keeps, two step conditions that
agree on invariant states agree on whole runs. -/
theorem everyStep_congr {ok ok' : σ → ε → Prop} {I : σ → Prop}
    (hI : ∀ s e, I s → ok s e → I (step s e))
    (hok : ∀ s e, I s → (ok s e ↔ ok' s e))
    {s : σ} (hs : I s) (es : List ε) :
    EveryStep step ok s es ↔ EveryStep step ok' s es := by
  induction es generalizing s with
  | nil => simp
  | cons e es ih =>
      rw [everyStep_cons, everyStep_cons, hok s e hs]
      constructor
      · rintro ⟨h, htail⟩
        exact ⟨h, (ih (hI s e hs ((hok s e hs).mpr h))).mp htail⟩
      · rintro ⟨h, htail⟩
        exact ⟨h, (ih (hI s e hs ((hok s e hs).mpr h))).mpr htail⟩

/-! ## What a run puts out -/

section Outputs

variable {ω : Type*} (step) (out : σ → ε → List ω)

/-- What the events of a run put out, each in the state in which it is taken. -/
def outputs : σ → List ε → List ω
  | _, [] => []
  | s, e :: es => out s e ++ outputs (step s e) es

@[simp] theorem outputs_nil (s : σ) : outputs step out s [] = [] := rfl

@[simp] theorem outputs_cons (s : σ) (e : ε) (es : List ε) :
    outputs step out s (e :: es) = out s e ++ outputs step out (step s e) es := rfl

variable {step} {out}

/-- What no single step puts out, no run puts out. -/
theorem forall_mem_outputs {P : ω → Prop} (hout : ∀ s e, ∀ o ∈ out s e, P o) (s : σ)
    (es : List ε) : ∀ o ∈ outputs step out s es, P o := by
  induction es generalizing s with
  | nil => exact fun o ho => absurd ho List.not_mem_nil
  | cons e es ih =>
      intro o ho
      rcases List.mem_append.mp ho with ho | ho
      · exact hout s e o ho
      · exact ih (step s e) o ho

/-- What relates each step with its output, and adds up, relates a run with its outputs. -/
theorem rel_outputs {R : σ → σ → List ω → Prop} (hrefl : ∀ s, R s s [])
    (htrans : ∀ s t u a b, R s t a → R t u b → R s u (a ++ b))
    (hstep : ∀ s e, R s (step s e) (out s e)) (s : σ) (es : List ε) :
    R s (final step s es) (outputs step out s es) := by
  induction es generalizing s with
  | nil => exact hrefl s
  | cons e es ih => exact htrans _ _ _ _ _ (hstep s e) (ih (step s e))

theorem outputs_append (s : σ) (es fs : List ε) :
    outputs step out s (es ++ fs) =
      outputs step out s es ++ outputs step out (final step s es) fs := by
  induction es generalizing s with
  | nil => rfl
  | cons e es ih => rw [List.cons_append, outputs_cons, ih, outputs_cons, List.append_assoc,
      final_cons]

/-- Under an invariant that keeps every step silent, a run is silent. -/
theorem outputs_eq_nil {I : σ → Prop} (hstep : ∀ s e, I s → I (step s e))
    (hout : ∀ s e, I s → out s e = []) {s : σ} (hs : I s) (es : List ε) :
    outputs step out s es = [] := by
  induction es generalizing s with
  | nil => rfl
  | cons e es ih => rw [outputs_cons, hout s e hs, ih (hstep s e hs), List.nil_append]

end Outputs

end Runs
