import Mathlib.Data.List.FinRange

/-!
# Sweeps over an array of cells

A loop that visits the cells of an array one after the other, steps each by itself and
collects what the steps emit.  When no cell is visited twice, what becomes of a cell and
what it emits does not depend on the others.
-/

namespace CellSweep

variable {ι κ ω : Type*} [DecidableEq ι]

/-- One pass of the loop: the visited cell is stepped, and what it emits is labelled. -/
def visit (g : ι → κ → κ × List ω) (acc : (ι → κ) × List (ι × ω)) (i : ι) :
    (ι → κ) × List (ι × ω) :=
  (Function.update acc.1 i (g i (acc.1 i)).1, acc.2 ++ (g i (acc.1 i)).2.map fun o => (i, o))

/-- The loop over the cells `is`. -/
def sweep (g : ι → κ → κ × List ω) (is : List ι) (cells : ι → κ) : (ι → κ) × List (ι × ω) :=
  is.foldl (visit g) (cells, [])

/-- What one cell emitted. -/
def emittedBy (i : ι) (out : List (ι × ω)) : List ω :=
  out.filterMap fun e => if e.1 = i then some e.2 else none

@[simp] theorem emittedBy_nil (i : ι) : emittedBy i ([] : List (ι × ω)) = [] := rfl

@[simp] theorem emittedBy_append (i : ι) (out out' : List (ι × ω)) :
    emittedBy i (out ++ out') = emittedBy i out ++ emittedBy i out' := by
  simp [emittedBy]

@[simp] theorem emittedBy_map_self (i : ι) (os : List ω) :
    emittedBy i (os.map fun o => (i, o)) = os := by
  simp [emittedBy, List.filterMap_map]

theorem emittedBy_map_of_ne {i j : ι} (hne : j ≠ i) (os : List ω) :
    emittedBy i (os.map fun o => (j, o)) = [] := by
  simp [emittedBy, List.filterMap_map, hne]

/-- A sweep that has already emitted `out`. -/
theorem foldl_visit (g : ι → κ → κ × List ω) {is : List ι} (hnodup : is.Nodup)
    (cells : ι → κ) (out : List (ι × ω)) (i : ι) :
    (is.foldl (visit g) (cells, out)).1 i =
        (if i ∈ is then (g i (cells i)).1 else cells i) ∧
      emittedBy i (is.foldl (visit g) (cells, out)).2 =
        emittedBy i out ++ if i ∈ is then (g i (cells i)).2 else [] := by
  induction is generalizing cells out with
  | nil => simp
  | cons j js ih =>
      obtain ⟨hj, hjs⟩ := List.nodup_cons.mp hnodup
      obtain ⟨hcell, hout⟩ := ih hjs (visit g (cells, out) j).1 (visit g (cells, out) j).2
      have hsplit : visit g (cells, out) j =
          ((visit g (cells, out) j).1, (visit g (cells, out) j).2) := rfl
      rw [List.foldl_cons, hsplit, hcell, hout]
      by_cases hi : j = i
      · subst hi
        simp [hj, visit]
      · have hne : i ≠ j := fun h => hi h.symm
        simp [visit, emittedBy_map_of_ne hi, hne]

/-- **Sweep rule.**  A cell that is visited once is stepped by itself. -/
theorem sweep_cell (g : ι → κ → κ × List ω) {is : List ι} (hnodup : is.Nodup)
    (cells : ι → κ) {i : ι} (hi : i ∈ is) :
    (sweep g is cells).1 i = (g i (cells i)).1 ∧
      emittedBy i (sweep g is cells).2 = (g i (cells i)).2 := by
  obtain ⟨hcell, hout⟩ := foldl_visit g hnodup cells [] i
  rw [if_pos hi] at hcell hout
  exact ⟨hcell, hout⟩

end CellSweep
