import HomeAuto.BackupText
import HomeAuto.RoomRoundTrip

/-!
# The channel names in a backup

The tags pad each name to a block of 12 bytes and put the blocks into one text.  The device cuts
what it reads of that text into blocks again: so a block comes back in its place when every
block before it is read as it is, and there is room for 21 blocks in its buffer of 256 bytes.
-/

namespace HomeAuto

/-! ## Blocks -/

/-- The blocks of some channels. -/
def blocksOf (names : Nat → FieldStr (cfgNameLen - 1)) (is : List Nat) : CStr :=
  is.flatMap fun i => nameBlock (nameField (names i).text)

/-- What the device makes of block number `i`. -/
def nameAt (packed : CStr) (i : Nat) : CStr :=
  trimEnd ((packed.drop (i * cfgNameLen)).take (cfgNameLen - 1))

/-- The names on the device after a restore, `old` being those before: an empty one is left as it
was. -/
def NamesRestored (names old new : Nat → FieldStr (cfgNameLen - 1)) (count : Nat) : Prop :=
  ∀ i < count, (new i).text = if (names i).text = [] then (old i).text else (names i).text

section Blocks

variable (names : Nat → FieldStr (cfgNameLen - 1))

/-- A block ends in a blank at least. -/
theorem nameBlock_eq_blank (t : FieldStr (cfgNameLen - 1)) :
    nameBlock (nameField t.text) =
      t.text ++ 32 :: List.replicate (cfgNameLen - 1 - t.text.length) 32 := by
  have hle := t.fits
  have hlen : cfgNameLen - t.text.length = (cfgNameLen - 1 - t.text.length) + 1 := by
    unfold cfgNameLen at hle ⊢
    omega
  rw [nameBlock_nameField t.noNul t.fits, hlen, List.replicate_succ]

theorem length_blocksOf (is : List Nat) :
    (blocksOf names is).length = is.length * cfgNameLen := by
  induction is with
  | nil => exact (Nat.zero_mul _).symm
  | cons i is ih =>
      have hcons : blocksOf names (i :: is) =
          nameBlock (nameField (names i).text) ++ blocksOf names is := rfl
      rw [hcons, List.length_append, length_nameBlock, ih, List.length_cons, Nat.succ_mul,
        Nat.add_comm]

/-- The tag holds the blocks of all the channels it lists. -/
theorem ssiNames_eq {count : Nat} (h : count ≤ 64) :
    ssiNames names count = blocksOf names (List.range count) := by
  have hblocks : ∀ b ∈ (List.range count).map fun i => nameBlock (nameField (names i).text),
      b.length = cfgNameLen := by
    intro b hb
    obtain ⟨i, -, hi⟩ := List.mem_map.mp hb
    rw [← hi]
    exact length_nameBlock _
  have hcount : ((List.range count).map fun i =>
      nameBlock (nameField (names i).text)).length ≤ 66 := by
    rw [List.length_map, List.length_range]
    omega
  unfold ssiNames blocksOf
  rw [emitBlocks_eq hblocks hcount, List.flatMap_def]

/-- A block, those before it and those after it. -/
theorem blocksOf_split {i count : Nat} (h : i < count) :
    ∃ rest, blocksOf names (List.range count) = blocksOf names (List.range i) ++
      ((names i).text ++ 32 ::
        (List.replicate (cfgNameLen - 1 - (names i).text.length) 32 ++ rest)) := by
  obtain ⟨m, hm⟩ : ∃ m, count = i + (m + 1) := ⟨count - i - 1, by omega⟩
  refine ⟨blocksOf names ((List.range m).map fun k => i + (k + 1)), ?_⟩
  have hrange : List.range count =
      List.range i ++ i :: (List.range m).map fun k => i + (k + 1) := by
    rw [hm, List.range_add, List.range_succ_eq_map, List.map_cons, List.map_map]
    rfl
  unfold blocksOf
  rw [hrange, List.flatMap_append, List.flatMap_cons, nameBlock_eq_blank]
  simp

end Blocks

/-! ## What the device makes of the blocks -/

theorem mem_trimEnd {b : UInt8} {s : CStr} (h : b ∈ s) (hblank : b ≠ 32) : b ∈ trimEnd s := by
  have hsplit : trimEnd s ++ s.rtakeWhile (fun c => decide (c = 32)) = s :=
    List.rdropWhile_append_rtakeWhile
  rw [← hsplit] at h
  rcases List.mem_append.mp h with htrim | hblanks
  · exact htrim
  · have heq := List.mem_rtakeWhile_imp (p := fun c : UInt8 => decide (c = 32)) hblanks
    exact absurd (of_decide_eq_true heq) hblank

/-- Names in a buffer with neither NULs nor quotation marks are stored as they are. -/
theorem strncpy_nameAt {packed : CStr} (hgood : ∀ c ∈ packed, GoodByte c = true) (i : Nat) :
    (FieldStr.strncpy (cfgNameLen - 1) (nameAt packed i)).text = nameAt packed i := by
  have hmem {c : UInt8} (hc : c ∈ nameAt packed i) : c ∈ packed :=
    List.mem_of_mem_drop (List.mem_of_mem_take (mem_of_mem_trimEnd hc))
  have hwhile : (nameAt packed i).takeWhile (· ≠ 0) = nameAt packed i := by
    apply List.takeWhile_eq_self_iff.mpr
    intro c hc
    have hbyte := hgood c (hmem hc)
    unfold GoodByte at hbyte
    exact (Bool.and_eq_true_iff.mp hbyte).1
  have hlen : (nameAt packed i).length ≤ cfgNameLen - 1 :=
    (length_trimEnd_le _).trans (List.length_take_le _ _)
  change ((nameAt packed i).takeWhile (· ≠ 0)).take (cfgNameLen - 1) = nameAt packed i
  rw [hwhile, List.take_of_length_le hlen]

/-- A step of the loop over the blocks. -/
theorem restoreName_eq (packed : CStr) (names : Nat → FieldStr (cfgNameLen - 1)) (k i : Nat) :
    restoreName packed names k i =
      if i = k ∧ (k + 1) * cfgNameLen ≤ packed.length ∧ nameAt packed k ≠ [] then
        .strncpy _ (nameAt packed k)
      else names i := by
  have hstep : restoreName packed names k =
      if (k + 1) * cfgNameLen ≤ packed.length ∧ nameAt packed k ≠ [] then
        Function.update names k (.strncpy _ (nameAt packed k))
      else names := rfl
  rw [hstep]
  by_cases hset : (k + 1) * cfgNameLen ≤ packed.length ∧ nameAt packed k ≠ []
  · rw [if_pos hset]
    by_cases hi : i = k
    · rw [hi, Function.update_self, if_pos ⟨rfl, hset⟩]
    · rw [Function.update_of_ne hi, if_neg fun hand => hi hand.1]
  · rw [if_neg hset, if_neg fun hand => hset hand.2]

/-- The loop leaves the channels behind it. -/
theorem foldl_restoreName_of_le (packed : CStr) (old : Nat → FieldStr (cfgNameLen - 1))
    {i count : Nat} (hi : count ≤ i) :
    (List.range count).foldl (restoreName packed) old i = old i := by
  induction count with
  | zero => rfl
  | succ n ih =>
      have hne : i ≠ n := by omega
      rw [List.range_succ, List.foldl_append, List.foldl_cons, List.foldl_nil, restoreName_eq,
        if_neg fun hand => hne hand.1]
      exact ih (by omega)

/-- **The loop over the blocks**, at one channel. -/
theorem foldl_restoreName (packed : CStr) (old : Nat → FieldStr (cfgNameLen - 1))
    {i count : Nat} (hi : i < count) :
    (List.range count).foldl (restoreName packed) old i =
      if (i + 1) * cfgNameLen ≤ packed.length ∧ nameAt packed i ≠ [] then
        .strncpy _ (nameAt packed i)
      else old i := by
  induction count with
  | zero => exact absurd hi (Nat.not_lt_zero i)
  | succ n ih =>
      rw [List.range_succ, List.foldl_append, List.foldl_cons, List.foldl_nil, restoreName_eq]
      rcases Nat.lt_succ_iff_lt_or_eq.mp hi with hlt | heq
      · have hne : i ≠ n := by omega
        rw [if_neg fun hand => hne hand.1]
        exact ih hlt
      · subst heq
        rw [foldl_restoreName_of_le _ _ (Nat.le_refl i)]
        simp only [true_and]

/-! ## The blocks as they are sent -/

namespace Browser

variable {browser : Browser} {names : Nat → FieldStr (cfgNameLen - 1)}

theorem body_blanks (k : Nat) (w : CStr) :
    browser.body (List.replicate k 32 ++ w) = List.replicate k 32 ++ browser.body w := by
  induction k with
  | zero => rfl
  | succ k ih =>
      have hblank := browser.body_blank [] (List.replicate k 32 ++ w)
      rw [List.nil_append, body_nil, ih] at hblank
      exact hblank

theorem Verbatim.good {t : CStr} (h : browser.Verbatim t) (hnul : 0 ∉ t) :
    ∀ c ∈ t, GoodByte c = true :=
  List.takeWhile_eq_self_iff.mp (takeWhile_good hnul h.noQuote)

/-- Blocks of names that are read as they are. -/
theorem body_blocksOf {is : List Nat} (h : ∀ i ∈ is, browser.Verbatim (names i).text)
    (w : CStr) : browser.body (blocksOf names is ++ w) = blocksOf names is ++ browser.body w := by
  induction is with
  | nil => rfl
  | cons i is ih =>
      have hcons (u : CStr) : blocksOf names (i :: is) ++ u = (names i).text ++ 32 ::
          (List.replicate (cfgNameLen - 1 - (names i).text.length) 32 ++
            (blocksOf names is ++ u)) := by
        unfold blocksOf
        rw [List.flatMap_cons, nameBlock_eq_blank]
        simp
      rw [hcons, hcons, body_blank, (h i List.mem_cons_self).body_eq, body_blanks,
        ih fun j hj => h j (List.mem_cons_of_mem i hj)]

theorem good_blocksOf {is : List Nat} (h : ∀ i ∈ is, browser.Verbatim (names i).text) :
    ∀ c ∈ blocksOf names is, GoodByte c = true := by
  intro c hc
  obtain ⟨i, hi, hblock⟩ := List.mem_flatMap.mp hc
  rw [nameBlock_nameField (names i).noNul (names i).fits] at hblock
  rcases List.mem_append.mp hblock with htext | hblank
  · exact (h i hi).good (names i).noNul c htext
  · rw [List.eq_of_mem_replicate hblank]
    decide

/-- What the device reads of the blocks. -/
def readNames (browser : Browser) (names : Nat → FieldStr (cfgNameLen - 1)) (count : Nat) : CStr :=
  ((browser.body (blocksOf names (List.range count))).takeWhile GoodByte).take 255

theorem good_readNames {count : Nat} :
    ∀ c ∈ browser.readNames names count, GoodByte c = true := by
  intro c hc
  exact List.mem_takeWhile_imp (List.mem_of_mem_take hc)

/-- Block number `i` begins where the blocks before it end, when they are read as they are. -/
theorem nameAt_readNames {i count : Nat} (hi : i < count)
    (hbefore : ∀ j < i, browser.Verbatim (names j).text) :
    ∃ rest, browser.body (blocksOf names (List.range count)) =
        blocksOf names (List.range i) ++ (browser.body (names i).text ++ 32 ::
          (List.replicate (cfgNameLen - 1 - (names i).text.length) 32 ++ rest)) ∧
      ((i + 1) * cfgNameLen ≤ (browser.readNames names count).length →
        nameAt (browser.readNames names count) i = trimEnd ((browser.body (names i).text ++ 32 ::
          (List.replicate (cfgNameLen - 1 - (names i).text.length) 32 ++ rest)).take 11)) := by
  obtain ⟨more, hmore⟩ := blocksOf_split names hi
  have hfirst : ∀ j ∈ List.range i, browser.Verbatim (names j).text := fun j hj =>
    hbefore j (List.mem_range.mp hj)
  have hbody : browser.body (blocksOf names (List.range count)) =
      blocksOf names (List.range i) ++ (browser.body (names i).text ++ 32 ::
        (List.replicate (cfgNameLen - 1 - (names i).text.length) 32 ++ browser.body more)) := by
    rw [hmore, body_blocksOf hfirst, body_blank, body_blanks]
  refine ⟨browser.body more, hbody, ?_⟩
  intro hwhole
  have hlen := length_blocksOf names (List.range i)
  rw [List.length_range] at hlen
  unfold readNames at hwhole ⊢
  rw [hbody] at hwhole ⊢
  generalize browser.body (names i).text ++ 32 ::
    (List.replicate (cfgNameLen - 1 - (names i).text.length) 32 ++ browser.body more) = block at *
  rw [List.takeWhile_append_of_pos (good_blocksOf hfirst)] at hwhole ⊢
  rw [List.length_take, List.length_append, hlen] at hwhole
  have hblock : (block.takeWhile GoodByte).take 11 = block.take 11 := by
    have htake := (List.takeWhile_prefix GoodByte (l := block)).take 11
    apply htake.eq_of_length
    have hle := (List.takeWhile_prefix GoodByte (l := block)).length_le
    unfold cfgNameLen at hwhole
    rw [List.length_take, List.length_take]
    omega
  unfold nameAt
  unfold cfgNameLen at hwhole hlen ⊢
  have hroom : 255 - i * 12 = 11 + (244 - i * 12) := by omega
  rw [List.drop_take, ← hlen, List.drop_left, hlen, hroom, List.take_take]
  change trimEnd ((block.takeWhile GoodByte).take (min 11 (11 + (244 - i * 12)))) = _
  rw [Nat.min_eq_left (by omega), hblock]

/-! ## The names that come back -/

/-- **The names that come back**: read as they are, without a blank at the end, and each but an
empty one among the 21 that the device has room for. -/
def NamesKept (browser : Browser) (names : Nat → FieldStr (cfgNameLen - 1)) (count : Nat) : Prop :=
  ∀ i < count, browser.Verbatim (names i).text ∧ trimEnd (names i).text = (names i).text ∧
    ((names i).text = [] ∨ i < 21)

/-- The blocks of names that are kept are sent as they are. -/
theorem NamesKept.body_eq {count : Nat} (h : browser.NamesKept names count) :
    browser.body (blocksOf names (List.range count)) = blocksOf names (List.range count) := by
  have hverbatim : ∀ i ∈ List.range count, browser.Verbatim (names i).text := fun i hi =>
    (h i (List.mem_range.mp hi)).1
  have hbody := body_blocksOf hverbatim []
  rw [List.append_nil, body_nil, List.append_nil] at hbody
  exact hbody

theorem NamesKept.clean {count : Nat} (h : browser.NamesKept names count) :
    0 ∉ browser.body (blocksOf names (List.range count)) ∧
      34 ∉ browser.body (blocksOf names (List.range count)) := by
  have hgood := good_blocksOf fun i hi => (h i (List.mem_range.mp hi)).1
  rw [h.body_eq]
  constructor
  · intro hmem
    exact absurd (hgood 0 hmem) (by decide)
  · intro hmem
    exact absurd (hgood 34 hmem) (by decide)

/-- The names that are kept are restored. -/
theorem NamesKept.restored {count : Nat} (h : browser.NamesKept names count)
    (old : Nat → FieldStr (cfgNameLen - 1)) :
    NamesRestored names old
      ((List.range count).foldl (restoreName (browser.readNames names count)) old) count := by
  have hverbatim : ∀ i ∈ List.range count, browser.Verbatim (names i).text := fun i hi =>
    (h i (List.mem_range.mp hi)).1
  have hread : browser.readNames names count = (blocksOf names (List.range count)).take 255 := by
    unfold readNames
    rw [h.body_eq, List.takeWhile_eq_self_iff.mpr (good_blocksOf hverbatim)]
  have hlength : (browser.readNames names count).length = min 255 (count * cfgNameLen) := by
    rw [hread, List.length_take, length_blocksOf, List.length_range]
  intro i hi
  obtain ⟨hplain, htrim, hroom⟩ := h i hi
  rw [foldl_restoreName _ _ hi]
  obtain ⟨rest, -, hname⟩ := nameAt_readNames hi fun j hj => (h j (by omega)).1
  rw [hplain.body_eq] at hname
  have hshown : (i + 1) * cfgNameLen ≤ (browser.readNames names count).length →
      nameAt (browser.readNames names count) i = (names i).text := by
    intro hwhole
    have hfits := (names i).fits
    have htake : ((names i).text ++ 32 :: (List.replicate
        (cfgNameLen - 1 - (names i).text.length) 32 ++ rest)).take 11 =
          (names i).text ++ List.replicate (11 - (names i).text.length) 32 := by
      have hblanks : 32 :: (List.replicate (cfgNameLen - 1 - (names i).text.length) 32 ++ rest) =
          List.replicate (11 - (names i).text.length) (32 : UInt8) ++ 32 :: rest := by
        rw [← List.cons_append, ← List.replicate_succ, List.replicate_succ', List.append_assoc]
        rfl
      rw [hblanks, ← List.append_assoc, List.take_append_of_le_length]
      · apply List.take_of_length_le
        unfold cfgNameLen at hfits
        rw [List.length_append, List.length_replicate]
        omega
      · unfold cfgNameLen at hfits
        rw [List.length_append, List.length_replicate]
        omega
    rw [hname hwhole, htake, trimEnd_blanks, htrim]
  by_cases hempty : (names i).text = []
  · rw [if_pos hempty]
    split
    · rename_i hset
      exact absurd ((hshown hset.1).trans hempty) hset.2
    · rfl
  · have hwhole : (i + 1) * cfgNameLen ≤ (browser.readNames names count).length := by
      have hlt := hroom.resolve_left hempty
      rw [hlength]
      unfold cfgNameLen
      omega
    have hset : nameAt (browser.readNames names count) i ≠ [] := by
      rw [hshown hwhole]
      exact hempty
    rw [if_neg hempty, if_pos ⟨hwhole, hset⟩, strncpy_nameAt good_readNames, hshown hwhole]

/-! ## No others come back -/

/-- A text does not begin with what it is read as and a blank after it: that would begin the
same way, and be shorter. -/
theorem ne_read_blank (browser : Browser) (t rest : CStr) :
    t ≠ sentBytes (browser.attr t) ++ 32 :: rest := by
  induction hn : t.length using Nat.strong_induction_on generalizing t rest with
  | _ n ih =>
      intro heq
      have hread : sentBytes (browser.attr t) =
          sentBytes (browser.attr (sentBytes (browser.attr t))) ++
            32 :: sentBytes (browser.attr rest) := by
        have hsplit := browser.attr_split (sentBytes (browser.attr t)) rest 32 (.inl rfl)
        rw [← heq] at hsplit
        have hsent := congrArg sentBytes hsplit
        rw [sentBytes_append, sentBytes_cons_byteChar] at hsent
        exact hsent
      have hlen := congrArg List.length heq
      rw [List.length_append, List.length_cons] at hlen
      exact ih _ (by omega) _ _ rfl hread

/-- A text without backslashes that the trimmed first 11 bytes of its block are. -/
theorem verbatim_of_slot {t rest : CStr} (hlen : t.length ≤ 11) (hslash : 92 ∉ t)
    (hquote : 34 ∉ t)
    (h : trimEnd ((browser.body t ++ 32 :: (List.replicate (11 - t.length) 32 ++ rest)).take 11) =
      t) : browser.Verbatim t := by
  have hplain : ∀ c ∈ browser.attr t, escaped c = false := by
    intro c hc
    rw [← Bool.not_eq_true]
    intro hescaped
    obtain ⟨x, y, hbody, hx, -⟩ := body_of_escaped hc hescaped
    rw [hbody, List.append_assoc] at h
    have hmem : (92 : UInt8) ∈ (x ++ 92 :: (y ++ 32 ::
        (List.replicate (11 - t.length) 32 ++ rest))).take 11 := by
      obtain ⟨n, hn⟩ : ∃ n, 11 - x.length = n + 1 := ⟨11 - x.length - 1, by omega⟩
      rw [List.take_append, List.take_of_length_le (by omega), hn, List.take_succ_cons]
      exact List.mem_append_right _ List.mem_cons_self
    have hin := mem_trimEnd hmem (by decide)
    rw [List.cons_append] at h
    rw [h] at hin
    exact hslash hin
  refine ⟨hquote, ?_, hplain⟩
  have hbody : browser.body t = sentBytes (browser.attr t) := by
    rw [body, flatMap_jsonEscape hplain]
  have hunits := browser.units_le t
  rw [← length_sentBytes] at hunits
  rw [hbody] at h
  rcases Nat.lt_or_ge (sentBytes (browser.attr t)).length t.length with hshort | hfull
  · -- the blank after what the text is read as would be in the text
    obtain ⟨n, hn⟩ : ∃ n, 11 - (sentBytes (browser.attr t)).length = n + 1 :=
      ⟨11 - (sentBytes (browser.attr t)).length - 1, by omega⟩
    rw [List.take_append, List.take_of_length_le (by omega), hn, List.take_succ_cons] at h
    have hbegins : t <+: sentBytes (browser.attr t) ++ 32 ::
        (List.replicate (11 - t.length) 32 ++ rest).take n := by
      have hpre := List.rdropWhile_prefix (fun c : UInt8 => decide (c = 32))
        (sentBytes (browser.attr t) ++ 32 :: (List.replicate (11 - t.length) 32 ++ rest).take n)
      change trimEnd _ <+: _ at hpre
      rw [h] at hpre
      exact hpre
    obtain ⟨more, hmore⟩ := hbegins
    have hfirst : sentBytes (browser.attr t) <+: t := by
      have hwhole := List.prefix_append (sentBytes (browser.attr t))
        (32 :: (List.replicate (11 - t.length) 32 ++ rest).take n)
      rw [← hmore] at hwhole
      exact List.prefix_of_prefix_length_le hwhole (List.prefix_append t more) (by omega)
    obtain ⟨tail, htail⟩ := hfirst
    cases tail with
    | nil =>
        rw [List.append_nil] at htail
        have heq := congrArg List.length htail
        omega
    | cons c tail =>
        rw [← htail, List.append_assoc, htail, List.append_cancel_left_eq, List.cons_append,
          List.cons.injEq] at hmore
        rw [hmore.1] at htail
        exact absurd htail.symm (ne_read_blank browser t tail)
  · have hlength : (sentBytes (browser.attr t)).length = t.length := Nat.le_antisymm hunits hfull
    have hblanks : 32 :: (List.replicate (11 - t.length) 32 ++ rest) =
        List.replicate (11 - t.length) (32 : UInt8) ++ 32 :: rest := by
      rw [← List.cons_append, ← List.replicate_succ, List.replicate_succ', List.append_assoc]
      rfl
    have htake : (sentBytes (browser.attr t) ++
        (List.replicate (11 - t.length) (32 : UInt8) ++ 32 :: rest)).take 11 =
          sentBytes (browser.attr t) ++ List.replicate (11 - t.length) 32 := by
      have hcut : (sentBytes (browser.attr t) ++
          List.replicate (11 - t.length) (32 : UInt8)).length = 11 := by
        rw [List.length_append, List.length_replicate, hlength]
        omega
      rw [← List.append_assoc, List.take_append_of_le_length (by omega)]
      exact List.take_of_length_le (by omega)
    rw [hblanks, htake, trimEnd_blanks] at h
    have hwhole : trimEnd (sentBytes (browser.attr t)) = sentBytes (browser.attr t) := by
      apply (List.rdropWhile_prefix (fun c : UInt8 => decide (c = 32)) _).eq_of_length
      change (trimEnd _).length = _
      rw [h, hlength]
    exact hwhole.symm.trans h

/-- **A name that comes back on every device is one that is kept**, when the names before it are
read as they are and it has no backslash. -/
theorem name_kept {i count : Nat} (hi : i < count)
    (hbefore : ∀ j < i, browser.Verbatim (names j).text)
    (hrestored : ∀ old, NamesRestored names old
      ((List.range count).foldl (restoreName (browser.readNames names count)) old) count)
    (hslash : 92 ∉ (names i).text) (hquote : 34 ∉ (names i).text) :
    browser.Verbatim (names i).text ∧ trimEnd (names i).text = (names i).text ∧
      ((names i).text = [] ∨ i < 21) := by
  by_cases hempty : (names i).text = []
  · rw [hempty]
    exact ⟨verbatim_nil, rfl, .inl rfl⟩
  have hone := hrestored (fun _ => ⟨[], List.not_mem_nil, Nat.zero_le _⟩) i hi
  rw [foldl_restoreName _ _ hi, if_neg hempty] at hone
  split at hone
  · rename_i hset
    rw [strncpy_nameAt good_readNames] at hone
    obtain ⟨rest, -, hname⟩ := nameAt_readNames hi hbefore
    have hslot := (hname hset.1).symm.trans hone
    refine ⟨verbatim_of_slot (names i).fits hslash hquote hslot, ?_, .inr ?_⟩
    · rw [← hone]
      exact List.rdropWhile_idempotent _ _
    · have hwhole := hset.1
      unfold readNames at hwhole
      rw [List.length_take] at hwhole
      unfold cfgNameLen at hwhole
      omega
  · exact absurd hone.symm hempty

/-- Names without backslashes that come back on every device are kept. -/
theorem namesKept_of_restored {count : Nat}
    (hrestored : ∀ old, NamesRestored names old
      ((List.range count).foldl (restoreName (browser.readNames names count)) old) count)
    (hslash : ∀ i < count, 92 ∉ (names i).text) (hquote : ∀ i < count, 34 ∉ (names i).text) :
    browser.NamesKept names count := by
  intro i hi
  induction i using Nat.strong_induction_on with
  | _ i ih =>
      have hbefore : ∀ j < i, browser.Verbatim (names j).text := by
        intro j hj
        exact (ih j hj (by omega)).1
      exact name_kept hi hbefore hrestored (hslash i hi) (hquote i hi)

end Browser

end HomeAuto
