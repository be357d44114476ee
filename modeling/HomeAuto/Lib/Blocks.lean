import Mathlib.Data.List.Basic

/-!
# Cutting a stream at block boundaries

A stream that starts at some offset is cut wherever its offset is a multiple of the block
size.  `cut` takes the complete pieces off the front and leaves the rest; cutting a longer
stream continues where cutting its front stopped.  `pieces` adds the rest as a last piece.
-/

namespace Blocks

variable {α : Type*} (B : Nat)

/-- The distance to the next boundary. -/
def room (off : Nat) : Nat := B - off % B

variable {B}

theorem room_pos (hB : 0 < B) (off : Nat) : 0 < room B off := by
  have := Nat.mod_lt off hB
  rw [room]
  omega

variable (B)

/-- The complete pieces of a stream with their offsets, the offset behind them, and the
rest. -/
def cut (off : Nat) (data : List α) : List (Nat × List α) × Nat × List α :=
  if _h : 0 < B ∧ room B off ≤ data.length then
    ((off, data.take (room B off)) :: (cut (off + room B off) (data.drop (room B off))).1,
      (cut (off + room B off) (data.drop (room B off))).2)
  else ([], off, data)
termination_by data.length
decreasing_by
  all_goals
    have hroom := room_pos _h.1 off
    rw [List.length_drop]
    omega

/-- All pieces of a stream, the incomplete one at its end included. -/
def pieces (off : Nat) (data : List α) : List (Nat × List α) :=
  (cut B off data).1 ++
    if (cut B off data).2.2 = [] then [] else [((cut B off data).2.1, (cut B off data).2.2)]

variable {B}

theorem cut_short {off : Nat} {data : List α} (h : data.length < room B off) :
    cut B off data = ([], off, data) := by
  rw [cut, dif_neg (by omega)]

theorem cut_step (hB : 0 < B) {off : Nat} {data : List α} (h : room B off ≤ data.length) :
    cut B off data =
      ((off, data.take (room B off)) :: (cut B (off + room B off) (data.drop (room B off))).1,
        (cut B (off + room B off) (data.drop (room B off))).2) := by
  rw [cut, dif_pos ⟨hB, h⟩]

theorem cut_nil (hB : 0 < B) (off : Nat) : cut B off ([] : List α) = ([], off, []) :=
  cut_short (room_pos hB off)

/-- The rest stops short of the next boundary. -/
theorem cut_rest_lt (hB : 0 < B) (off : Nat) (data : List α) :
    (cut B off data).2.2.length < room B (cut B off data).2.1 := by
  by_cases h : room B off ≤ data.length
  · rw [cut_step hB h]
    exact cut_rest_lt hB (off + room B off) (data.drop (room B off))
  · rw [cut_short (by omega)]
    exact Nat.lt_of_not_le h
termination_by data.length
decreasing_by
  have hroom := room_pos hB off
  rw [List.length_drop]
  omega

/-- Nothing is lost. -/
theorem cut_length (hB : 0 < B) (off : Nat) (data : List α) :
    (cut B off data).2.1 + (cut B off data).2.2.length = off + data.length := by
  by_cases h : room B off ≤ data.length
  · rw [cut_step hB h]
    have hrest := cut_length hB (off + room B off) (data.drop (room B off))
    rw [List.length_drop] at hrest
    dsimp only
    omega
  · rw [cut_short (by omega)]
termination_by data.length
decreasing_by
  have hroom := room_pos hB off
  rw [List.length_drop]
  omega

/-- **A longer stream is cut on from where its front was left.** -/
theorem cut_append (hB : 0 < B) (off : Nat) (data more : List α) :
    cut B off (data ++ more) =
      ((cut B off data).1 ++ (cut B (cut B off data).2.1 ((cut B off data).2.2 ++ more)).1,
        (cut B (cut B off data).2.1 ((cut B off data).2.2 ++ more)).2) := by
  by_cases h : room B off ≤ data.length
  · have hlong : room B off ≤ (data ++ more).length := by
      rw [List.length_append]
      omega
    rw [cut_step hB hlong,
      List.take_append_of_le_length h, List.drop_append_of_le_length h,
      cut_append hB (off + room B off) (data.drop (room B off)) more, cut_step hB h]
    rfl
  · have hshort : data.length < room B off := by omega
    rw [cut_short hshort]
    rfl
termination_by data.length
decreasing_by
  have hroom := room_pos hB off
  rw [List.length_drop]
  omega

/-! ## Tilings -/

/-- Pieces that follow each other from an offset on, none of them empty or across a
boundary, and together make up the data. -/
inductive Tiles (B : Nat) : Nat → List α → List (Nat × List α) → Prop
  | nil (off : Nat) : Tiles B off [] []
  | cons {off : Nat} {piece rest : List α} {ps : List (Nat × List α)} (hne : piece ≠ [])
      (hin : off % B + piece.length ≤ B) (hrest : Tiles B (off + piece.length) rest ps) :
      Tiles B off (piece ++ rest) ((off, piece) :: ps)

/-- The pieces of a stream tile it. -/
theorem tiles_pieces (hB : 0 < B) (off : Nat) (data : List α) :
    Tiles B off data (pieces B off data) := by
  by_cases h : room B off ≤ data.length
  · have hpos := room_pos hB off
    have hmod := Nat.mod_lt off hB
    have hlen : (data.take (room B off)).length = room B off := by
      rw [List.length_take]
      omega
    have hrest := tiles_pieces hB (off + room B off) (data.drop (room B off))
    have hne : data.take (room B off) ≠ [] := by
      intro hnil
      rw [hnil, List.length_nil] at hlen
      omega
    have hin : off % B + (data.take (room B off)).length ≤ B := by
      rw [hlen, room]
      omega
    have hcons := Tiles.cons hne hin (by rw [hlen]; exact hrest)
    rw [List.take_append_drop] at hcons
    rw [pieces, cut_step hB h, List.cons_append]
    exact hcons
  · rw [pieces, cut_short (by omega)]
    by_cases hnil : data = []
    · subst hnil
      exact .nil off
    · have hmod := Nat.mod_lt off hB
      have hin : off % B + data.length ≤ B := by
        rw [room] at h
        omega
      have hone := Tiles.cons hnil hin (.nil _)
      rw [List.append_nil] at hone
      simpa [hnil] using hone
termination_by data.length
decreasing_by
  rw [List.length_drop]
  omega

variable {off : Nat} {data : List α} {ps : List (Nat × List α)}

/-- The pieces make up the data. -/
theorem Tiles.flatten (h : Tiles B off data ps) : (ps.map Prod.snd).flatten = data := by
  induction h with
  | nil off => rfl
  | cons hne hin hrest ih => rw [List.map_cons, List.flatten_cons, ih]

/-- No piece crosses a boundary. -/
theorem Tiles.within (h : Tiles B off data ps) :
    ∀ p ∈ ps, p.1 % B + p.2.length ≤ B := by
  induction h with
  | nil off => exact fun p hp => nomatch hp
  | cons hne hin hrest ih =>
      intro p hp
      rcases List.mem_cons.mp hp with rfl | hp
      · exact hin
      · exact ih p hp

/-- Every piece stands at its own offset: behind all pieces before it. -/
theorem Tiles.offset (h : Tiles B off data ps) :
    ∀ pre p post, ps = pre ++ p :: post →
      p.1 = off + (pre.map Prod.snd).flatten.length := by
  induction h with
  | nil off =>
      intro pre p post heq
      simp at heq
  | @cons off piece rest ps hne hin hrest ih =>
      intro pre p post heq
      cases pre with
      | nil =>
          obtain ⟨rfl, rfl⟩ := List.cons_eq_cons.mp heq
          rfl
      | cons q pre =>
          rw [List.cons_append] at heq
          obtain ⟨rfl, htail⟩ := List.cons_eq_cons.mp heq
          rw [ih pre p post htail, List.map_cons, List.flatten_cons, List.length_append]
          dsimp only
          omega

end Blocks
