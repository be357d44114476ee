import HomeAuto.Lib.Blocks
import HomeAuto.OtaVendorPrepare

/-!
# Staging does not depend on the chunks

A recorded service passes every call on to any update service and keeps the calls that
carry image data.  While the calls succeed, `OtaFeed` keeps one invariant: the manifest,
the block buffer and the recorded calls are those of the bytes fed so far, however they
were cut.  The calls for a whole file are `psaCalls`, a function of the file.

The cursors are 32-bit, so all this holds for the first `2 ^ 32` bytes.  The byte after
them is taken for a byte of the manifest: `staging_wraps`.
-/

namespace HomeAuto

/-- A call that carries image data. -/
inductive PsaCall
  | start (component : Nat) (manifest : List UInt8)
  | write (component off : Nat) (data : List UInt8)
  deriving DecidableEq

namespace PsaFwu

variable {ψ : Type} (psa : PsaFwu ψ)

/-- Pass a call on, and record it. -/
def recordCall {α : Type} (call : StateM ψ α) (entry : PsaCall) :
    StateM (ψ × List PsaCall) α := fun p =>
  ((call.run p.1).1, (call.run p.1).2, p.2 ++ [entry])

/-- Pass a call on that carries no image data. -/
def passCall {α : Type} (call : StateM ψ α) : StateM (ψ × List PsaCall) α := fun p =>
  ((call.run p.1).1, (call.run p.1).2, p.2)

/-- Record the calls to a service. -/
def recorded : PsaFwu (ψ × List PsaCall) where
  manifestSize := psa.manifestSize
  manifestSize_pos := psa.manifestSize_pos
  maxComponentId := psa.maxComponentId
  query c := passCall (psa.query c)
  cancel c := passCall (psa.cancel c)
  clean c := passCall (psa.clean c)
  reject := passCall psa.reject
  start c m := recordCall (psa.start c m) (.start c m)
  write c off data := recordCall (psa.write c off data) (.write c off data)
  finish c := passCall (psa.finish c)
  install := passCall psa.install

/-- The calls that prepare an update carry none. -/
theorem quiet_recorded : psa.recorded.Quiet :=
  ⟨fun _ _ => rfl, fun _ _ => rfl, fun _ _ => rfl, fun _ => rfl⟩

/-- Every call that carries image data succeeds. -/
structure AllSucceed : Prop where
  start : ∀ c m p, ((psa.start c m).run p).1 = .success
  write : ∀ c off data p, ((psa.write c off data).run p).1 = .success

/-- The calls for a file, as far as its blocks are complete. -/
def psaCallsSoFar (component : Nat) (file : List UInt8) : List PsaCall :=
  if file.length < psa.manifestSize then []
  else .start component (file.take psa.manifestSize) ::
    (Blocks.cut otaWriteBlock psa.manifestSize (file.drop psa.manifestSize)).1.map
      fun w => .write component w.1 w.2

/-- The calls for a whole file. -/
def psaCalls (component : Nat) (file : List UInt8) : List PsaCall :=
  .start component (file.take psa.manifestSize) ::
    (Blocks.pieces otaWriteBlock psa.manifestSize (file.drop psa.manifestSize)).map
      fun w => .write component w.1 w.2

end PsaFwu

namespace VendorOta

variable {ψ : Type} (psa : PsaFwu ψ)

/-- Successive calls of `OtaFeed`, up to the first that fails. -/
def feedPieces (s : VendorOta ψ) : List (List UInt8) → VendorOta ψ × PsaStatus
  | [] => (s, .success)
  | piece :: pieces =>
      match s.otaFeed psa piece with
      | (s, .success) => s.feedPieces pieces
      | failure => failure

/-! ## One block -/

theorem otaWriteBlock_pos : 0 < otaWriteBlock := by decide

theorem otaWriteBlock_eq : otaWriteBlock = 4096 := rfl

/-- The offset behind the buffer, when the buffer starts at `off` and ends before the next
boundary. -/
theorem here_eq {s : VendorOta ψ} {off : Nat} (hbase : s.wrBase = off % 2 ^ 32)
    (hlt : off + s.wrBuf.length < 2 ^ 32) : s.here = off + s.wrBuf.length := by
  rw [here, hbase]
  omega

theorem room_eq {s : VendorOta ψ} {off : Nat} (hbase : s.wrBase = off % 2 ^ 32)
    (hlt : off + s.wrBuf.length < 2 ^ 32)
    (hbuf : s.wrBuf.length < Blocks.room otaWriteBlock off) :
    s.room = Blocks.room otaWriteBlock off - s.wrBuf.length := by
  rw [room, nextBlock, here_eq hbase hlt]
  rw [Blocks.room, otaWriteBlock_eq] at *
  omega

/-- Up to the boundary there is room in the block buffer. -/
theorem buffer_eq {s : VendorOta ψ} {off : Nat} (data : List UInt8)
    (hbase : s.wrBase = off % 2 ^ 32) (hlt : off + s.wrBuf.length < 2 ^ 32)
    (hbuf : s.wrBuf.length < Blocks.room otaWriteBlock off) :
    s.buffer data = { s with
      wrBuf := s.wrBuf ++ data.take (Blocks.room otaWriteBlock off - s.wrBuf.length) } := by
  have hin : ¬otaWriteBlock < s.wrBuf.length +
      (data.take (Blocks.room otaWriteBlock off - s.wrBuf.length)).length := by
    rw [List.length_take]
    rw [Blocks.room, otaWriteBlock_eq] at *
    omega
  rw [buffer, room_eq hbase hlt hbuf, decide_eq_false hin, Bool.or_false]

/-- The buffer reaches the boundary when the bytes do. -/
theorem reaches_iff {s : VendorOta ψ} {off : Nat} {data : List UInt8} (hne : data ≠ [])
    (hbase : s.wrBase = off % 2 ^ 32)
    (hbuf : s.wrBuf.length < Blocks.room otaWriteBlock off)
    (hlen : off + s.wrBuf.length + data.length ≤ 2 ^ 32) :
    (s.buffer data).here = s.nextBlock ↔
      Blocks.room otaWriteBlock off ≤ (s.wrBuf ++ data).length := by
  have hpos := List.length_pos_iff.mpr hne
  have hlt : off + s.wrBuf.length < 2 ^ 32 := by omega
  have hnext : s.nextBlock = (off + Blocks.room otaWriteBlock off) % 2 ^ 32 := by
    rw [nextBlock, here_eq hbase hlt]
    rw [Blocks.room, otaWriteBlock_eq] at *
    omega
  have hend : off + Blocks.room otaWriteBlock off ≤ 2 ^ 32 := by
    rw [Blocks.room, otaWriteBlock_eq]
    omega
  rw [hnext, buffer_eq data hbase hlt hbuf, here, hbase, List.length_append, List.length_append,
    List.length_take]
  omega

/-! ## Outcomes -/

/-- Where an operation on a recorded service ends: a success leaves what `P` says, and a service
that takes everything means success. -/
structure Leaves (r : VendorOta (ψ × List PsaCall) × PsaStatus)
    (P : VendorOta (ψ × List PsaCall) → Prop) : Prop where
  post : r.2 = .success → P r.1
  succeeds : psa.AllSucceed → r.2 = .success

section Leaves

variable {psa} {r : VendorOta (ψ × List PsaCall) × PsaStatus}
variable {P Q : VendorOta (ψ × List PsaCall) → Prop}

theorem Leaves.done {s : VendorOta (ψ × List PsaCall)} (h : P s) : Leaves psa (s, .success) P :=
  ⟨fun _ => h, fun _ => rfl⟩

theorem Leaves.imp (h : Leaves psa r P) (hPQ : ∀ s, P s → Q s) : Leaves psa r Q :=
  ⟨fun hok => hPQ _ (h.post hok), h.succeeds⟩

/-- A failure ends the operations behind it as well. -/
theorem Leaves.fails (h : Leaves psa r P) (hne : r.2 ≠ .success) : Leaves psa r Q :=
  ⟨fun hok => absurd hok hne, fun hall => absurd (h.succeeds hall) hne⟩

theorem Leaves.exists (h : Leaves psa r P) (hall : psa.AllSucceed) :
    ∃ s, r = (s, .success) ∧ P s :=
  ⟨r.1, Prod.ext rfl (h.succeeds hall), h.post (h.succeeds hall)⟩

end Leaves

/-- A block handed to a recorded service. -/
theorem writeBlock_leaves (s : VendorOta (ψ × List PsaCall)) :
    Leaves psa (s.writeBlock psa.recorded) fun s' => ∃ p, s' = { s with
      psa := (p, s.psa.2 ++ [.write s.target s.wrBase s.wrBuf])
      wrBase := (s.wrBase + s.wrBuf.length) % 2 ^ 32
      wrBuf := [] } := by
  have hrun : (psa.recorded.write s.target s.wrBase s.wrBuf).run s.psa =
      (((psa.write s.target s.wrBase s.wrBuf).run s.psa.1).1,
        ((psa.write s.target s.wrBase s.wrBuf).run s.psa.1).2,
        s.psa.2 ++ [.write s.target s.wrBase s.wrBuf]) := rfl
  rw [writeBlock, hrun]
  cases hst : (psa.write s.target s.wrBase s.wrBuf).run s.psa.1 with
  | mk st p =>
      have htaken (hall : psa.AllSucceed) : st = .success := by
        have hwrite := hall.write s.target s.wrBase s.wrBuf s.psa.1
        rwa [hst] at hwrite
      cases st with
      | success => exact .done ⟨p, rfl⟩
      | successReboot => exact ⟨nofun, htaken⟩
      | error code => exact ⟨nofun, htaken⟩

/-- **Staging cuts at the boundaries.**  The buffer holds the rest of what was cut from
`off` on; staging more bytes writes the complete blocks of rest and bytes together. -/
theorem otaStageImage_leaves (s : VendorOta (ψ × List PsaCall))
    (off : Nat) (data : List UInt8) (hbase : s.wrBase = off % 2 ^ 32)
    (hbuf : s.wrBuf.length < Blocks.room otaWriteBlock off)
    (hlen : off + s.wrBuf.length + data.length ≤ 2 ^ 32) :
    Leaves psa (s.otaStageImage psa.recorded data) fun s' => ∃ p, s' = { s with
      psa := (p, s.psa.2 ++ (Blocks.cut otaWriteBlock off (s.wrBuf ++ data)).1.map
        fun w => .write s.target w.1 w.2)
      wrBase := (Blocks.cut otaWriteBlock off (s.wrBuf ++ data)).2.1 % 2 ^ 32
      wrBuf := (Blocks.cut otaWriteBlock off (s.wrBuf ++ data)).2.2 } := by
  by_cases hnil : data = []
  · subst hnil
    rw [otaStageImage, dif_pos rfl, List.append_nil, Blocks.cut_short hbuf, List.map_nil,
      List.append_nil, ← hbase]
    exact .done ⟨s.psa.1, rfl⟩
  · have hpos := List.length_pos_iff.mpr hnil
    have hlt : off + s.wrBuf.length < 2 ^ 32 := by omega
    have hbuffer := buffer_eq data hbase hlt hbuf
    have hroom := room_eq hbase hlt hbuf
    rw [otaStageImage, dif_neg hnil]
    by_cases hfull : Blocks.room otaWriteBlock off ≤ (s.wrBuf ++ data).length
    · -- the block is complete: it is written, and the rest of the bytes starts a new one
      rw [if_pos ((reaches_iff hnil hbase hbuf hlen).mpr hfull), hroom, hbuffer]
      have hwrite := writeBlock_leaves psa { s with
        wrBuf := s.wrBuf ++ data.take (Blocks.room otaWriteBlock off - s.wrBuf.length) }
      split
      · rename_i s₁ hr
        rw [hr] at hwrite
        obtain ⟨p, rfl⟩ := hwrite.post rfl
        have htake : (s.wrBuf ++ data).take (Blocks.room otaWriteBlock off) = s.wrBuf ++
            data.take (Blocks.room otaWriteBlock off - s.wrBuf.length) := by
          rw [List.take_append, List.take_of_length_le (Nat.le_of_lt hbuf)]
        have hdrop : (s.wrBuf ++ data).drop (Blocks.room otaWriteBlock off) =
            data.drop (Blocks.room otaWriteBlock off - s.wrBuf.length) := by
          rw [List.drop_append, List.drop_of_length_le (Nat.le_of_lt hbuf), List.nil_append]
        have hblock : (s.wrBuf ++
            data.take (Blocks.room otaWriteBlock off - s.wrBuf.length)).length =
              Blocks.room otaWriteBlock off := by
          rw [← htake, List.length_take]
          omega
        have hoff : off % 2 ^ 32 = off := by omega
        rw [Blocks.cut_step otaWriteBlock_pos hfull, htake, hdrop]
        refine (otaStageImage_leaves { s with
            psa := (p, s.psa.2 ++ [.write s.target s.wrBase (s.wrBuf ++
              data.take (Blocks.room otaWriteBlock off - s.wrBuf.length))])
            wrBase := (s.wrBase + (s.wrBuf ++
              data.take (Blocks.room otaWriteBlock off - s.wrBuf.length)).length) % 2 ^ 32
            wrBuf := [] } (off + Blocks.room otaWriteBlock off)
          (data.drop (Blocks.room otaWriteBlock off - s.wrBuf.length))
          (by
            dsimp only
            rw [hblock, hbase]
            omega) (Blocks.room_pos otaWriteBlock_pos _) (by
            rw [List.length_append] at hfull
            rw [List.length_drop, List.length_nil]
            omega)).imp ?_
        rintro s₂ ⟨p', rfl⟩
        refine ⟨p', ?_⟩
        simp only [List.nil_append, List.map_cons, List.append_assoc, List.singleton_append, hbase,
          hoff]
      · rename_i hne
        exact hwrite.fails fun hok => hne _ (Prod.ext rfl hok)
    · -- the bytes stay in the buffer
      rw [if_neg fun hreach => hfull ((reaches_iff hnil hbase hbuf hlen).mp hreach)]
      have hshort : (s.wrBuf ++ data).length < Blocks.room otaWriteBlock off := by omega
      rw [List.length_append] at hshort
      have htake : data.take (Blocks.room otaWriteBlock off - s.wrBuf.length) = data :=
        List.take_of_length_le (by omega)
      have hdrop : data.drop s.room = [] := List.drop_of_length_le (by omega)
      rw [hdrop, otaStageImage, dif_pos rfl, hbuffer, htake, Blocks.cut_short (by omega),
        List.map_nil, List.append_nil, ← hbase]
      exact .done ⟨s.psa.1, rfl⟩
termination_by data.length
decreasing_by
  rw [List.length_drop]
  omega

/-! ## One piece -/

/-- The state after the bytes `fed`, when the record was `log` before them: the manifest as far
as it has come, and behind it the blocks as they are cut. -/
structure HasFed (s : VendorOta (ψ × List PsaCall)) (component : Nat) (overrun : Bool)
    (log : List PsaCall) (fed : List UInt8) : Prop where
  target : s.target = component
  bounds : s.overrun = overrun
  calls : s.psa.2 = log ++ psa.psaCallsSoFar component fed
  offset : s.fileOffset = fed.length % 2 ^ 32
  manifest : fed.length < psa.manifestSize → s.started = false ∧ s.wrBuf = [] ∧
    s.manifest.length = psa.manifestSize ∧ s.manifest.take fed.length = fed
  image : psa.manifestSize ≤ fed.length → s.started = true ∧
    s.wrBase = (Blocks.cut otaWriteBlock psa.manifestSize
      (fed.drop psa.manifestSize)).2.1 % 2 ^ 32 ∧
    s.wrBuf = (Blocks.cut otaWriteBlock psa.manifestSize (fed.drop psa.manifestSize)).2.2

variable {psa}

section HasFed

variable {s : VendorOta (ψ × List PsaCall)} {component : Nat} {overrun : Bool}
variable {log : List PsaCall} {fed : List UInt8}

/-- The image part of a piece. -/
theorem HasFed.feedImage (hs : HasFed psa s component overrun log fed)
    (hfed : psa.manifestSize ≤ fed.length) (data : List UInt8)
    (hlen : fed.length + data.length ≤ 2 ^ 32) :
    Leaves psa (s.feedImage psa.recorded data)
      (HasFed psa · component overrun log (fed ++ data)) := by
  obtain ⟨hstarted, hbase, hbuf⟩ := hs.image hfed
  by_cases hnil : data = []
  · subst hnil
    rw [List.append_nil, VendorOta.feedImage, if_pos rfl]
    exact .done hs
  · have hcut := Blocks.cut_length otaWriteBlock_pos psa.manifestSize
      (fed.drop psa.manifestSize)
    rw [List.length_drop] at hcut
    have hrest := Blocks.cut_rest_lt otaWriteBlock_pos psa.manifestSize
      (fed.drop psa.manifestSize)
    have happ := Blocks.cut_append otaWriteBlock_pos psa.manifestSize
      (fed.drop psa.manifestSize) data
    rw [← List.drop_append_of_le_length hfed] at happ
    rw [VendorOta.feedImage, if_neg hnil, if_neg (by simp [hstarted])]
    have hstage := otaStageImage_leaves psa s _ data hbase
      (by rw [hbuf]; exact hrest) (by rw [hbuf]; omega)
    split
    · rename_i s₁ hr
      rw [hr] at hstage
      obtain ⟨p, rfl⟩ := hstage.post rfl
      refine .done ⟨hs.target, hs.bounds, ?_, ?_, ?_, ?_⟩
      · have hcalls := hs.calls
        rw [PsaFwu.psaCallsSoFar, if_neg (by omega)] at hcalls
        rw [PsaFwu.psaCallsSoFar, if_neg (by rw [List.length_append]; omega), happ,
          List.take_append_of_le_length hfed, hcalls, hbuf, hs.target, List.map_append,
          List.append_assoc, List.cons_append]
      · rw [List.length_append, hs.offset]
        dsimp only
        omega
      · intro hlt
        rw [List.length_append] at hlt
        omega
      · intro _
        rw [happ, hbuf]
        exact ⟨hstarted, rfl, rfl⟩
    · rename_i hne
      exact hstage.fails fun hok => hne _ (Prod.ext rfl hok)

end HasFed

/-- The copy into the manifest. -/
theorem take_overwrite {buf : List UInt8} (bytes : List UInt8) {off : Nat}
    (hoff : off ≤ buf.length) :
    (overwrite buf off bytes).take (off + bytes.length) = buf.take off ++ bytes := by
  rw [overwrite, List.take_append_of_le_length
    (by rw [List.length_append, List.length_take]; omega), List.take_of_length_le
    (by rw [List.length_append, List.length_take]; omega)]

theorem length_overwrite {buf bytes : List UInt8} {off : Nat}
    (h : off + bytes.length ≤ buf.length) : (overwrite buf off bytes).length = buf.length := by
  simp only [overwrite, List.length_append, List.length_take, List.length_drop]
  omega

section HasFed

variable {s : VendorOta (ψ × List PsaCall)} {component : Nat} {overrun : Bool}
variable {log : List PsaCall} {fed : List UInt8}

/-- The manifest bytes of a piece are copied inside the manifest. -/
theorem HasFed.takeManifest (hs : HasFed psa s component overrun log fed)
    (hfed : fed.length < psa.manifestSize) (h32 : fed.length < 2 ^ 32) (data : List UInt8) :
    s.takeManifest psa.recorded data = { s with
      manifest := overwrite s.manifest fed.length (data.take (psa.manifestSize - fed.length))
      fileOffset := fed.length + (data.take (psa.manifestSize - fed.length)).length } := by
  have hoff : s.fileOffset = fed.length := by
    rw [hs.offset]
    omega
  have hin : ¬psa.manifestSize < fed.length +
      (data.take (psa.manifestSize - fed.length)).length := by
    rw [List.length_take]
    omega
  have hsize : psa.recorded.manifestSize = psa.manifestSize := rfl
  rw [VendorOta.takeManifest, hoff, hsize, decide_eq_false hin, Bool.or_false]

variable (psa) in
/-- A complete manifest is handed to a recorded service. -/
theorem startUpdate_leaves (hoff : s.fileOffset = psa.manifestSize) (hstarted : s.started = false) :
    Leaves psa (s.startUpdate psa.recorded) fun s' => ∃ p, s' = { s with
      psa := (p, s.psa.2 ++ [.start s.target s.manifest])
      started := true
      wrBase := psa.manifestSize
      wrBuf := [] } := by
  have hrun : (psa.recorded.start s.target s.manifest).run s.psa =
      (((psa.start s.target s.manifest).run s.psa.1).1,
        ((psa.start s.target s.manifest).run s.psa.1).2,
        s.psa.2 ++ [.start s.target s.manifest]) := rfl
  rw [startUpdate, if_pos ⟨hoff, hstarted⟩, hrun]
  cases hst : (psa.start s.target s.manifest).run s.psa.1 with
  | mk st p =>
      have htaken (hall : psa.AllSucceed) : st = .success := by
        have hstart := hall.start s.target s.manifest s.psa.1
        rwa [hst] at hstart
      cases st with
      | success => exact .done ⟨p, rfl⟩
      | successReboot => exact ⟨nofun, htaken⟩
      | error code => exact ⟨nofun, htaken⟩

/-- The manifest as far as it is there, and the bytes that a piece has for it. -/
theorem HasFed.take_overwrite_manifest (hs : HasFed psa s component overrun log fed)
    (hfed : fed.length < psa.manifestSize) (data : List UInt8) :
    (overwrite s.manifest fed.length (data.take (psa.manifestSize - fed.length))).length =
        psa.manifestSize ∧
      (overwrite s.manifest fed.length (data.take (psa.manifestSize - fed.length))).take
          (fed.length + (data.take (psa.manifestSize - fed.length)).length) =
        fed ++ data.take (psa.manifestSize - fed.length) := by
  obtain ⟨_, _, hmlen, hmtake⟩ := hs.manifest hfed
  constructor
  · rw [length_overwrite, hmlen]
    rw [List.length_take]
    omega
  · rw [take_overwrite _ (by omega), hmtake]

/-- A piece that ends inside the manifest is kept there. -/
theorem HasFed.takeManifest_short (hs : HasFed psa s component overrun log fed)
    (h32 : fed.length < 2 ^ 32) (data : List UInt8)
    (hshort : fed.length + data.length < psa.manifestSize)
    (hlen : fed.length + data.length < 2 ^ 32) :
    HasFed psa (s.takeManifest psa.recorded data) component overrun log (fed ++ data) := by
  have hfed : fed.length < psa.manifestSize := by omega
  obtain ⟨hstarted, hempty, _⟩ := hs.manifest hfed
  obtain ⟨hkeep, hcopy⟩ := hs.take_overwrite_manifest hfed data
  have htake : data.take (psa.manifestSize - fed.length) = data :=
    List.take_of_length_le (by omega)
  have hcalls := hs.calls
  rw [PsaFwu.psaCallsSoFar, if_pos hfed] at hcalls
  rw [htake] at hkeep hcopy
  rw [hs.takeManifest hfed h32, htake]
  refine ⟨hs.target, hs.bounds, ?_, ?_, ?_, ?_⟩
  · rw [PsaFwu.psaCallsSoFar, if_pos (by rw [List.length_append]; omega)]
    exact hcalls
  · rw [List.length_append]
    dsimp only
    omega
  · intro _
    refine ⟨hstarted, hempty, hkeep, ?_⟩
    rw [List.length_append]
    exact hcopy
  · intro hlt
    rw [List.length_append] at hlt
    omega

/-- A piece that completes the manifest starts the update. -/
theorem HasFed.startUpdate (hs : HasFed psa s component overrun log fed)
    (hfed : fed.length < psa.manifestSize) (h32 : psa.manifestSize < 2 ^ 32) (data : List UInt8)
    (hfull : psa.manifestSize - fed.length ≤ data.length) :
    Leaves psa ((s.takeManifest psa.recorded data).startUpdate psa.recorded)
      (HasFed psa · component overrun log
        (fed ++ data.take (psa.manifestSize - fed.length))) := by
  obtain ⟨hstarted, _⟩ := hs.manifest hfed
  obtain ⟨hkeep, hcopy⟩ := hs.take_overwrite_manifest hfed data
  have hcalls := hs.calls
  rw [PsaFwu.psaCallsSoFar, if_pos hfed] at hcalls
  have hend : fed.length + (data.take (psa.manifestSize - fed.length)).length =
      psa.manifestSize := by
    rw [List.length_take]
    omega
  have hwhole : overwrite s.manifest fed.length (data.take (psa.manifestSize - fed.length)) =
      fed ++ data.take (psa.manifestSize - fed.length) := by
    rw [hend, List.take_of_length_le (Nat.le_of_eq hkeep)] at hcopy
    exact hcopy
  have hfront : (fed ++ data.take (psa.manifestSize - fed.length)).length =
      psa.manifestSize := by
    rw [List.length_append]
    exact hend
  have hnone : (fed ++ data.take (psa.manifestSize - fed.length)).drop psa.manifestSize = [] :=
    List.drop_of_length_le (Nat.le_of_eq hfront)
  have hself : (fed ++ data.take (psa.manifestSize - fed.length)).take psa.manifestSize = _ :=
    List.take_of_length_le (Nat.le_of_eq hfront)
  have hcut : Blocks.cut otaWriteBlock psa.manifestSize ([] : List UInt8) = _ :=
    Blocks.cut_nil otaWriteBlock_pos psa.manifestSize
  rw [hs.takeManifest hfed (hfed.trans h32), hwhole, hend]
  refine (startUpdate_leaves psa (s := { s with
    manifest := fed ++ data.take (psa.manifestSize - fed.length)
    fileOffset := psa.manifestSize }) rfl hstarted).imp ?_
  rintro _ ⟨p, rfl⟩
  refine ⟨hs.target, hs.bounds, ?_, ?_, ?_, ?_⟩
  · rw [PsaFwu.psaCallsSoFar, if_neg (by omega), hnone, hcut, hself]
    simp [hcalls, hs.target]
  · dsimp only
    omega
  · intro hlt
    omega
  · intro _
    rw [hnone, hcut]
    exact ⟨rfl, by dsimp only; omega, rfl⟩

/-- **One piece** of the first `2 ^ 32` bytes. -/
theorem HasFed.otaFeed (hs : HasFed psa s component overrun log fed) (h32 : fed.length < 2 ^ 32)
    (data : List UInt8) (hlen : fed.length + data.length ≤ 2 ^ 32)
    (hM : psa.manifestSize < 2 ^ 32 ∨ fed.length + data.length < 2 ^ 32) :
    Leaves psa (s.otaFeed psa.recorded data)
      (HasFed psa · component overrun log (fed ++ data)) := by
  have hoff : s.fileOffset = fed.length := by
    rw [hs.offset]
    omega
  have hsize : psa.recorded.manifestSize = psa.manifestSize := rfl
  by_cases hfed : psa.manifestSize ≤ fed.length
  · rw [VendorOta.otaFeed, hoff, hsize, if_neg (by omega)]
    exact hs.feedImage hfed data hlen
  rw [VendorOta.otaFeed, hoff, hsize, if_pos (by omega)]
  by_cases hfull : psa.manifestSize - fed.length ≤ data.length
  · -- the manifest is complete: the update is started, and the rest is image
    have hstart := hs.startUpdate (by omega) (by omega) data hfull
    split
    · rename_i s₁ hr
      rw [hr] at hstart
      have hnext := (hstart.post rfl).feedImage
        (by
          rw [List.length_append, List.length_take]
          omega)
        (data.drop (psa.manifestSize - fed.length))
        (by
          rw [List.length_append, List.length_take, List.length_drop]
          omega)
      rw [List.append_assoc, List.take_append_drop] at hnext
      exact hnext
    · rename_i hne
      exact hstart.fails fun hok => hne _ (Prod.ext rfl hok)
  · -- the manifest is still incomplete
    have hdrop : data.drop (psa.manifestSize - fed.length) = [] :=
      List.drop_of_length_le (by omega)
    have hkept := hs.takeManifest_short h32 data (by omega) (by omega)
    have hinside : (s.takeManifest psa.recorded data).fileOffset ≠ psa.manifestSize := by
      rw [hkept.offset, List.length_append]
      omega
    rw [VendorOta.startUpdate, if_neg fun hend => hinside hend.1]
    dsimp only
    rw [hdrop, VendorOta.feedImage, if_pos rfl]
    exact .done hkept

/-- All pieces of a file of less than `2 ^ 32` bytes. -/
theorem HasFed.feedPieces (hs : HasFed psa s component overrun log fed)
    (pieces : List (List UInt8)) (hlen : fed.length + pieces.flatten.length < 2 ^ 32) :
    Leaves psa (s.feedPieces psa.recorded pieces)
      (HasFed psa · component overrun log (fed ++ pieces.flatten)) := by
  induction pieces generalizing s fed with
  | nil =>
      rw [List.flatten_nil, List.append_nil]
      exact .done hs
  | cons piece pieces ih =>
      rw [List.flatten_cons, List.length_append] at hlen
      rw [VendorOta.feedPieces, List.flatten_cons, ← List.append_assoc]
      have hfeed := hs.otaFeed (by omega) piece (by omega) (.inr (by omega))
      split
      · rename_i s₁ hr
        rw [hr] at hfeed
        exact ih (hfeed.post rfl) (by rw [List.length_append]; omega)
      · rename_i hne
        exact hfeed.fails fun hok => hne _ (Prod.ext rfl hok)

/-- The flush writes what is left of the last block.  Then the calls are those of the file. -/
theorem otaFlushImage_leaves (hlo : psa.manifestSize ≤ fed.length)
    (h32 : fed.length ≤ 2 ^ 32) (htarget : s.target = component)
    (hcalls : s.psa.2 = log ++ psa.psaCallsSoFar component fed)
    (hbase : s.wrBase = (Blocks.cut otaWriteBlock psa.manifestSize
      (fed.drop psa.manifestSize)).2.1 % 2 ^ 32)
    (hbuf : s.wrBuf = (Blocks.cut otaWriteBlock psa.manifestSize
      (fed.drop psa.manifestSize)).2.2) :
    Leaves psa (s.otaFlushImage psa.recorded) fun s' => s'.target = component ∧
      s'.overrun = s.overrun ∧ s'.psa.2 = log ++ psa.psaCalls component fed := by
  have hcut := Blocks.cut_length otaWriteBlock_pos psa.manifestSize
    (fed.drop psa.manifestSize)
  rw [List.length_drop] at hcut
  rw [PsaFwu.psaCallsSoFar, if_neg (by omega)] at hcalls
  unfold otaFlushImage PsaFwu.psaCalls Blocks.pieces
  rw [← hbuf]
  by_cases hnil : s.wrBuf = []
  · rw [if_pos hnil, if_pos hnil, List.append_nil]
    exact .done ⟨htarget, rfl, hcalls⟩
  · have hpos := List.length_pos_iff.mpr hnil
    rw [if_neg hnil, if_neg hnil]
    refine (writeBlock_leaves psa s).imp ?_
    rintro s₁ ⟨p, rfl⟩
    refine ⟨htarget, rfl, ?_⟩
    rw [hbuf] at hpos
    have hoff : s.wrBase = (Blocks.cut otaWriteBlock psa.manifestSize
        (fed.drop psa.manifestSize)).2.1 := by
      rw [hbase]
      omega
    rw [List.map_append, List.map_cons, List.map_nil, ← hoff, ← htarget]
    rw [← htarget] at hcalls
    simp only [hcalls, List.append_assoc, List.cons_append]

end HasFed

/-! ## The file -/

variable (psa)

/-- The state with which sequence number 0 begins, on a service in any state. -/
def freshUpload (s : VendorOta (ψ × List PsaCall)) (p : ψ) : VendorOta (ψ × List PsaCall) :=
  { s.restarted psa.recorded with psa := (p, []) }

/-- Feed the pieces of a file and flush. -/
def stageFile (s : VendorOta (ψ × List PsaCall)) (pieces : List (List UInt8)) :
    VendorOta (ψ × List PsaCall) × PsaStatus :=
  match s.feedPieces psa.recorded pieces with
  | (s, .success) => s.otaFlushImage psa.recorded
  | failure => failure

/-- The calls stage the file: one start with the manifest, then writes that make up the
rest, each at its own file offset and inside one block. -/
def StagesFile (component : Nat) (file : List UInt8) (calls : List PsaCall) : Prop :=
  ∃ writes : List (Nat × List UInt8),
    calls = .start component (file.take psa.manifestSize) ::
      writes.map (fun w => .write component w.1 w.2) ∧
    (writes.map Prod.snd).flatten = file.drop psa.manifestSize ∧
    (∀ pre w post, writes = pre ++ w :: post →
      w.1 = psa.manifestSize + (pre.map Prod.snd).flatten.length) ∧
    ∀ w ∈ writes, w.1 % otaWriteBlock + w.2.length ≤ otaWriteBlock

variable {psa}

/-- Sequence number 0 begins with nothing fed, whatever was recorded before. -/
theorem hasFed_restarted (s : VendorOta (ψ × List PsaCall)) (target : Nat)
    (p : ψ × List PsaCall) :
    HasFed psa { s.restarted psa.recorded with target := target, psa := p } target s.overrun p.2
      [] where
  target := rfl
  bounds := rfl
  calls := by
    have hnone : psa.psaCallsSoFar target [] = [] := if_pos psa.manifestSize_pos
    rw [hnone, List.append_nil]
  offset := rfl
  manifest _ := ⟨rfl, rfl, List.length_replicate, rfl⟩
  image hle := absurd psa.manifestSize_pos (by rw [List.length_nil] at hle; omega)

/-- The calls of a file stage it. -/
theorem stagesFile_psaCalls (component : Nat) (file : List UInt8) :
    StagesFile psa component file (psa.psaCalls component file) := by
  have htiles := Blocks.tiles_pieces otaWriteBlock_pos psa.manifestSize
    (file.drop psa.manifestSize)
  exact ⟨_, rfl, htiles.flatten, htiles.offset, htiles.within⟩

/-- Whatever the pieces, the calls are those of the file. -/
theorem stageFile_eq (h : psa.AllSucceed) (s : VendorOta (ψ × List PsaCall)) (p : ψ)
    {pieces : List (List UInt8)} (hlo : psa.manifestSize < pieces.flatten.length)
    (h32 : pieces.flatten.length < 2 ^ 32) :
    ∃ s', (s.freshUpload psa p).stageFile psa pieces = (s', .success) ∧
      s'.overrun = s.overrun ∧ s'.psa.2 = psa.psaCalls s.target pieces.flatten := by
  have hempty : ([] : List UInt8).length + pieces.flatten.length < 2 ^ 32 := by
    rw [List.length_nil]
    omega
  have hstage : Leaves psa ((s.freshUpload psa p).stageFile psa pieces) fun s' =>
      s'.overrun = s.overrun ∧ s'.psa.2 = psa.psaCalls s.target pieces.flatten := by
    have hfresh : HasFed psa (s.freshUpload psa p) s.target s.overrun [] [] :=
      hasFed_restarted s s.target (p, [])
    have hfeed := hfresh.feedPieces pieces hempty
    unfold stageFile
    split
    · rename_i s₁ hr
      rw [hr] at hfeed
      have hs₁ := hfeed.post rfl
      obtain ⟨_, hbase, hbuf⟩ := hs₁.image hlo.le
      refine (otaFlushImage_leaves hlo.le h32.le hs₁.target hs₁.calls hbase hbuf).imp ?_
      intro s₂ hs₂
      exact ⟨hs₂.2.1.trans hs₁.bounds, hs₂.2.2⟩
    · rename_i hne
      exact hfeed.fails fun hok => hne _ (Prod.ext rfl hok)
  exact hstage.exists h

/-- **Staging does not depend on the chunks.**  A file longer than the manifest and shorter
than `2 ^ 32` bytes, cut in any way, is staged with the same calls, and no copy leaves its
buffer. -/
theorem staging_independent_of_pieces (h : psa.AllSucceed) (s : VendorOta (ψ × List PsaCall))
    (p : ψ) (pieces : List (List UInt8)) (hlo : psa.manifestSize < pieces.flatten.length)
    (h32 : pieces.flatten.length < 2 ^ 32) :
    ∃ s', (s.freshUpload psa p).stageFile psa pieces = (s', .success) ∧
      s'.overrun = s.overrun ∧ StagesFile psa s.target pieces.flatten s'.psa.2 ∧
      ∀ pieces', pieces'.flatten = pieces.flatten →
        ∃ s'', (s.freshUpload psa p).stageFile psa pieces' = (s'', .success) ∧
          s''.psa.2 = s'.psa.2 := by
  obtain ⟨s', hstage, hbounds, hcalls⟩ := stageFile_eq h s p hlo h32
  refine ⟨s', hstage, hbounds, ?_, fun pieces' hsame => ?_⟩
  · rw [hcalls]
    exact stagesFile_psaCalls _ _
  · rw [← hsame] at hlo h32
    obtain ⟨s'', hstage', _, hcalls'⟩ := stageFile_eq h s p hlo h32
    exact ⟨s'', hstage', by rw [hcalls', hcalls, hsame]⟩

/-! ## Past `2 ^ 32` bytes -/

/-- Behind `2 ^ 32` bytes a piece of one byte goes to the manifest. -/
theorem HasFed.otaFeed_wrapped {s : VendorOta (ψ × List PsaCall)} {component : Nat}
    {overrun : Bool} {log : List PsaCall} {fed : List UInt8}
    (hs : HasFed psa s component overrun log fed)
    (hlo : psa.manifestSize < fed.length) (h32 : fed.length = 2 ^ 32) (b : UInt8) :
    s.otaFeed psa.recorded [b] = (s.takeManifest psa.recorded [b], .success) := by
  have hM := psa.manifestSize_pos
  have hoff : s.fileOffset = 0 := by
    rw [hs.offset, h32, Nat.mod_self]
  have hsize : psa.recorded.manifestSize = psa.manifestSize := rfl
  obtain ⟨hstarted, _⟩ := hs.image (by omega)
  have hstart : (s.takeManifest psa.recorded [b]).started = true := hstarted
  have hdrop : [b].drop (psa.manifestSize - 0) = [] := List.drop_of_length_le (by
    rw [List.length_singleton]
    omega)
  rw [VendorOta.otaFeed, hoff, hsize, if_pos hM, VendorOta.startUpdate,
    if_neg (by simp [hstart])]
  dsimp only
  rw [hdrop, VendorOta.feedImage, if_pos rfl]

/-- The calls tell the pieces. -/
theorem write_injective (component : Nat) :
    Function.Injective fun w : Nat × List UInt8 => PsaCall.write component w.1 w.2 := by
  rintro ⟨a, d⟩ ⟨a', d'⟩ heq
  simp only [PsaCall.write.injEq, true_and] at heq
  exact Prod.ext heq.1 heq.2

/-- A file of `2 ^ 32 + 1` bytes is not staged. -/
theorem not_stagesFile_of_wrapped (h : psa.AllSucceed) (s : VendorOta (ψ × List PsaCall)) (p : ψ)
    {front back : List UInt8} (b : UInt8) (hlo : psa.manifestSize < front.length)
    (hfront : front.length < 2 ^ 32) (hback : (front ++ back).length = 2 ^ 32) :
    ¬∃ s', (s.freshUpload psa p).stageFile psa [front, back, [b]] = (s', .success) ∧
      StagesFile psa s.target (front ++ back ++ [b]) s'.psa.2 := by
  rintro ⟨s', hstage, writes, hcalls, hflat, _⟩
  have hzero : HasFed psa (s.freshUpload psa p) s.target s.overrun [] [] :=
    hasFed_restarted s s.target (p, [])
  obtain ⟨s₁, hfeed₁, hs₁⟩ := (hzero.otaFeed (by decide) front (by
    rw [List.length_nil]
    omega) (.inl (by omega))).exists h
  rw [List.nil_append] at hs₁
  rw [List.length_append] at hback
  obtain ⟨s₂, hfeed₂, hs₂⟩ := (hs₁.otaFeed hfront back (by omega) (.inl (by omega))).exists h
  rw [← List.length_append] at hback
  have hlong : psa.manifestSize < (front ++ back).length := by
    rw [List.length_append]
    omega
  have hfeed₃ := hs₂.otaFeed_wrapped hlong hback b
  obtain ⟨_, hbase, hbuf⟩ := hs₂.image (by omega)
  obtain ⟨s₄, hflush, _, _, hall⟩ := (otaFlushImage_leaves (s := s₂.takeManifest psa.recorded [b])
    (by omega) (by omega) hs₂.target hs₂.calls hbase hbuf).exists h
  have hsame : (s.freshUpload psa p).stageFile psa [front, back, [b]] = (s₄, .success) := by
    rw [stageFile, VendorOta.feedPieces, hfeed₁]
    dsimp only
    rw [VendorOta.feedPieces, hfeed₂]
    dsimp only
    rw [VendorOta.feedPieces, hfeed₃]
    exact hflush
  rw [hsame, Prod.mk.injEq] at hstage
  rw [← hstage.1, hall, List.nil_append, PsaFwu.psaCalls, List.cons.injEq] at hcalls
  have hwrites := List.map_injective_iff.mpr (write_injective s.target) hcalls.2
  have htiles := Blocks.tiles_pieces otaWriteBlock_pos psa.manifestSize
    ((front ++ back).drop psa.manifestSize)
  rw [hwrites] at htiles
  have hlen := congrArg List.length (htiles.flatten.symm.trans hflat)
  simp only [List.length_drop, List.length_append, List.length_singleton] at hlen hback hlong
  omega

end VendorOta

theorem acceptingPsa_allSucceed : acceptingPsa.AllSucceed :=
  ⟨fun _ _ _ => rfl, fun _ _ _ _ => rfl⟩

namespace VendorOta

/-- A file of 20 bytes in two pieces, the manifest ending inside the first. -/
theorem twenty_bytes_staged :
    ∃ s', ((boot acceptingPsa.recorded 2752512 ((), [])).freshUpload acceptingPsa ()).stageFile
        acceptingPsa [List.replicate 17 1, [2, 3, 4]] = (s', .success) ∧
      s'.overrun = false ∧
      StagesFile acceptingPsa 0 [List.replicate 17 1, [2, 3, 4]].flatten s'.psa.2 ∧
      ∀ pieces', pieces'.flatten = [List.replicate 17 1, [2, 3, 4]].flatten →
        ∃ s'', ((boot acceptingPsa.recorded 2752512 ((), [])).freshUpload acceptingPsa
            ()).stageFile acceptingPsa pieces' = (s'', .success) ∧ s''.psa.2 = s'.psa.2 :=
  staging_independent_of_pieces acceptingPsa_allSucceed
    (boot acceptingPsa.recorded 2752512 ((), [])) () [List.replicate 17 1, [2, 3, 4]]
    (by decide) (by decide)

/-- **The byte behind the first `2 ^ 32` is lost**: the 32-bit offset has come back to the
manifest. -/
theorem staging_wraps :
    ¬∃ s', ((boot acceptingPsa.recorded 4294967295 ((), [])).freshUpload acceptingPsa
        ()).stageFile acceptingPsa
          [List.replicate 17 0, List.replicate 4294967279 0, [0]] = (s', .success) ∧
      StagesFile acceptingPsa 0
        (List.replicate 17 0 ++ List.replicate 4294967279 0 ++ [0]) s'.psa.2 :=
  not_stagesFile_of_wrapped acceptingPsa_allSucceed
    (boot acceptingPsa.recorded 4294967295 ((), [])) () 0
    (by rw [List.length_replicate]; decide) (by rw [List.length_replicate]; decide)
    (by
      rw [List.length_append, List.length_replicate, List.length_replicate]
      decide)

end VendorOta

end HomeAuto
