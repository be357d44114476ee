import HomeAuto.OtaChunk

/-!
# The calls an upload makes

A logged device passes every call on to any flash driver and keeps the calls, each with the
device that received it.  From its calls, and from what the device reads back afterwards, one
can tell whether a request has committed an image: `commits` looks at the staged bytes at the
moment in which the header is programmed, and at nothing the handler says of itself.

Staging a chunk writes nothing to the EEPROM, so a last chunk commits exactly when its totals
are those of the staged image and the device takes the header and the flag: `commits_iff`.
-/

namespace HomeAuto

/-- A call that changes the flash or the EEPROM. -/
inductive OtaCall
  | erase (addr : Nat)
  | program (addr : Nat) (bytes : List UInt8)
  | store (addr : Nat) (words : List (BitVec 32))
  deriving DecidableEq

/-- A device, and the calls made to it so far. -/
abbrev Logged (φ : Type) := φ × List (φ × OtaCall)

/-- Log the calls to a device. -/
def OtaDev.logged {φ : Type} (dev : OtaDev φ) : OtaDev (Logged φ) where
  flashErase w addr := (dev.flashErase w.1 addr, w.2 ++ [(w.1, .erase addr)])
  flashProgram w addr bytes :=
    (dev.flashProgram w.1 addr bytes, w.2 ++ [(w.1, .program addr bytes)])
  flashRead w := dev.flashRead w.1
  storageWrite w addr words :=
    (dev.storageWrite w.1 addr words, w.2 ++ [(w.1, .store addr words)])
  storageRead w := dev.storageRead w.1

/-- The calls since an earlier state of the device. -/
def callsSince {φ : Type} (w w' : Logged φ) : List (φ × OtaCall) := w'.2.drop w.2.length

/-- The record for an image of `len` bytes. -/
def OtaHeader.ofImage (len : Nat) (crc : BitVec 32) : OtaHeader :=
  ⟨otaHdrMagic, BitVec.ofNat 32 len, crc, 0#32⟩

/-- **The calls of a request commit an image** with the totals that the request names: the header
for these totals is programmed while the staged bytes have them, the pending flag is stored
behind it, and the device reads both back afterwards. -/
def commits {φ : Type} (dev : OtaDev φ) (totals : Option (Nat × BitVec 32))
    (calls : List (φ × OtaCall)) (after : φ) : Bool :=
  match totals, calls.reverse with
  | some (len, crc), (_, .store flag words) :: (staged, .program addr bytes) :: _ =>
      decide (addr = otaHeaderAddr ∧ bytes = (OtaHeader.ofImage len crc).toBytes) &&
        decide (flag = cfgOtaEepromAddr ∧ words = [otaEepromMagic, BitVec.ofNat 32 len]) &&
        decide (configCRC32 (dev.bytes staged otaImageAddr len) = crc) &&
        decide (dev.header after = .ofImage len crc) && dev.isPending after
  | _, _ => false

/-! ## Calls that only stage -/

section Stages

variable {φ : Type}

/-- Only the flash has been written. -/
def Stages (w w' : Logged φ) : Prop :=
  ∃ calls, w'.2 = w.2 ++ calls ∧ ∀ e ∈ calls, ∀ addr words, e.2 ≠ .store addr words

theorem Stages.refl (w : Logged φ) : Stages w w := ⟨[], (List.append_nil _).symm, nofun⟩

theorem Stages.trans {w w' w'' : Logged φ} (h : Stages w w') (h' : Stages w' w'') :
    Stages w w'' := by
  obtain ⟨calls, heq, hno⟩ := h
  obtain ⟨calls', heq', hno'⟩ := h'
  refine ⟨calls ++ calls', by rw [heq', heq, List.append_assoc], fun e he => ?_⟩
  rcases List.mem_append.mp he with he | he
  · exact hno e he
  · exact hno' e he

variable (dev : OtaDev φ)

theorem stages_flashErase (w : Logged φ) (addr : Nat) :
    Stages w (dev.logged.flashErase w addr) :=
  ⟨[(w.1, .erase addr)], rfl, by simp⟩

theorem stages_flashProgram (w : Logged φ) (addr : Nat) (bytes : List UInt8) :
    Stages w (dev.logged.flashProgram w addr bytes) :=
  ⟨[(w.1, .program addr bytes)], rfl, by simp⟩

/-- Without a store behind the last program call nothing is committed. -/
theorem commits_of_stages {w w' : Logged φ} (h : Stages w w')
    (totals : Option (Nat × BitVec 32)) (after : φ) :
    commits dev totals (callsSince w w') after = false := by
  obtain ⟨calls, heq, hno⟩ := h
  have hsince : callsSince w w' = calls := by rw [callsSince, heq, List.drop_left]
  rw [hsince]
  unfold commits
  split
  · rename_i d flag words _ _ _ _ hcalls
    have hmem : (d, OtaCall.store flag words) ∈ calls := by
      rw [← List.mem_reverse, hcalls]
      exact List.mem_cons_self
    exact absurd rfl (hno _ hmem flag words)
  · rfl

end Stages

namespace Ota

variable {φ : Type} (dev : OtaDev φ)

theorem stages_begin (s : Ota (Logged φ)) : Stages s.dev (s.begin dev.logged).dev :=
  (stages_flashErase dev s.dev otaHeaderAddr).trans (stages_flashErase dev _ otaImageAddr)

theorem stages_started (s : Ota (Logged φ)) (c : OtaChunk) :
    Stages s.dev (s.started dev.logged c).dev := by
  unfold started
  split
  · exact stages_begin dev s
  · exact .refl _

theorem stages_decodeByte (s : Ota (Logged φ)) (b : UInt8) :
    Stages s.dev (s.decodeByte dev.logged b).dev := by
  unfold decodeByte storeWord
  split
  · exact .refl _
  · split
    · split
      · exact .refl _
      · unfold erasePage
        split
        · exact (stages_flashErase dev _ _).trans (stages_flashProgram dev _ _ _)
        · exact stages_flashProgram dev _ _ _
    · exact .refl _

theorem stages_decode (s : Ota (Logged φ)) (payload : List UInt8) :
    Stages s.dev (s.decode dev.logged payload).dev :=
  decode_induction dev.logged (I := fun t => Stages s.dev t.dev)
    (fun t b ht => ht.trans (stages_decodeByte dev t b)) payload (.refl _)

theorem stages_flushTail (s : Ota (Logged φ)) : Stages s.dev (s.flushTail dev.logged).dev := by
  unfold flushTail
  split
  · exact stages_flashProgram dev _ _ _
  · exact .refl _

/-! ## The last chunk -/

/-- The upload with all bytes of its last chunk in flash. -/
def filled {ψ : Type} (dev : OtaDev ψ) (s : Ota ψ) (c : OtaChunk) : Ota ψ :=
  (s.decode dev c.payload).advance.flushTail dev

/-- The totals of a chunk are the size and the CRC of the staged image. -/
def TotalsMatch {ψ : Type} (dev : OtaDev ψ) (s : Ota ψ) (c : OtaChunk) : Prop :=
  c.totals = some ((s.filled dev c).st.size, configCRC32 ((s.filled dev c).staged dev))

instance {ψ : Type} (dev : OtaDev ψ) (s : Ota ψ) (c : OtaChunk) :
    Decidable (s.TotalsMatch dev c) :=
  inferInstanceAs (Decidable (_ = _))

/-- The device takes the header and the flag that name the staged image. -/
def CommitTakes {ψ : Type} (dev : OtaDev ψ) (s : Ota ψ) (c : OtaChunk) : Prop :=
  dev.header ((s.filled dev c).commit dev (configCRC32 ((s.filled dev c).staged dev))).dev =
      (s.filled dev c).newHeader (configCRC32 ((s.filled dev c).staged dev)) ∧
    dev.isPending ((s.filled dev c).commit dev
      (configCRC32 ((s.filled dev c).staged dev))).dev = true

instance {ψ : Type} (dev : OtaDev ψ) (s : Ota ψ) (c : OtaChunk) :
    Decidable (s.CommitTakes dev c) :=
  inferInstanceAs (Decidable (_ ∧ _))

theorem stages_filled (s : Ota (Logged φ)) (c : OtaChunk) :
    Stages s.dev (s.filled dev.logged c).dev := by
  refine (stages_decode dev s c.payload).trans ?_
  have hflush := stages_flushTail dev (s.decode dev.logged c.payload).advance
  rwa [advance_dev] at hflush

/-- The check of the staged image. -/
theorem verify_filled {ψ : Type} (fl : OtaDev ψ) (s : Ota ψ) (c : OtaChunk) :
    (s.filled fl c).verify fl c.totals = if s.TotalsMatch fl c then
      .verified (configCRC32 ((s.filled fl c).staged fl)) else .rejected := by
  unfold verify
  split
  · rename_i hnone
    rw [if_neg (by simp [TotalsMatch, hnone])]
  · rename_i totLen totCrc hsome
    have hiff : s.TotalsMatch fl c ↔ (s.filled fl c).st.size = totLen ∧
        configCRC32 ((s.filled fl c).staged fl) = totCrc := by
      rw [TotalsMatch, hsome, Option.some.injEq, Prod.mk.injEq, eq_comm, eq_comm (a := totCrc)]
    by_cases hmatch : s.TotalsMatch fl c
    · rw [if_pos hmatch, if_pos (hiff.mp hmatch)]
    · rw [if_neg hmatch, if_neg fun h => hmatch (hiff.mpr h)]

/-- The calls that commit a staged image. -/
theorem commits_commit {w : Logged φ} {t : Ota (Logged φ)} (hw : Stages w t.dev)
    {crc : BitVec 32} (hcrc : configCRC32 (t.staged dev.logged) = crc) :
    commits dev (some (t.st.size, crc)) (callsSince w (t.commit dev.logged crc).dev)
        (t.commit dev.logged crc).dev.1 = true ↔
      dev.logged.header (t.commit dev.logged crc).dev = t.newHeader crc ∧
        dev.logged.isPending (t.commit dev.logged crc).dev = true := by
  obtain ⟨calls, heq, _⟩ := hw
  have hsince : callsSince w (t.commit dev.logged crc).dev = calls ++
      [(t.dev.1, .program otaHeaderAddr (t.newHeader crc).toBytes),
        (dev.flashProgram t.dev.1 otaHeaderAddr (t.newHeader crc).toBytes,
          .store cfgOtaEepromAddr [otaEepromMagic, BitVec.ofNat 32 t.st.size])] := by
    simp only [callsSince, commit, OtaDev.setPending, OtaDev.logged]
    rw [heq, List.append_assoc, List.append_assoc, List.drop_left]
    rfl
  rw [hsince]
  simp only [commits, List.reverse_append, List.reverse_cons, List.reverse_nil, List.nil_append,
    List.cons_append, Bool.and_eq_true, decide_eq_true_eq]
  constructor
  · rintro ⟨⟨_, hheader⟩, hpending⟩
    exact ⟨hheader, hpending⟩
  · rintro ⟨hheader, hpending⟩
    exact ⟨⟨⟨⟨⟨trivial, rfl⟩, trivial, trivial⟩, hcrc⟩, hheader⟩, hpending⟩

/-- **A last chunk in its turn commits exactly when its totals match and the commit takes.** -/
theorem commits_iff {w : Logged φ} {s s' : Ota (Logged φ)} (hw : Stages w s.dev) {c : OtaChunk}
    (hs' : s' = conclude dev.logged (s.filled dev.logged c,
      (s.filled dev.logged c).verify dev.logged c.totals)) :
    commits dev c.totals (callsSince w s'.dev) s'.dev.1 = true ↔
      s.TotalsMatch dev.logged c ∧ s.CommitTakes dev.logged c := by
  have hfilled := hw.trans (stages_filled dev s c)
  subst hs'
  rw [verify_filled]
  by_cases hmatch : s.TotalsMatch dev.logged c
  · rw [if_pos hmatch, show c.totals = some _ from hmatch]
    exact (commits_commit dev hfilled rfl).trans (and_iff_right hmatch).symm
  · rw [if_neg hmatch]
    dsimp only [conclude]
    rw [commits_of_stages dev hfilled]
    exact iff_of_false Bool.false_ne_true fun h => hmatch h.1

end Ota

end HomeAuto
