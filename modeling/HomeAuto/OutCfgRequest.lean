import HomeAuto.ShutterReload
import HomeAuto.WebText

/-!
# The output-configuration request (`OutCfgCGIHandler`)

`/outcfg.cgi?modes=..&tmo=..&sh=..` rewrites the modes and durations it names and rebuilds
the whole shutter table.  An entry of `sh` is `up:down:travel` or `up:down:travel:name`;
entries whose relays are equal or not on the chain are skipped, the others go to slots 0,
1, 2, .. in order, until the table is full or the text breaks the form.
-/

namespace HomeAuto

/-- A comma list of numbers: `set i v` for each, up to a bound on how many. -/
def csvLoop {σ : Type*} (set : Nat → BitVec 32 → σ → σ) : (left i : Nat) → CStr → σ → σ
  | 0, _, _, s => s
  | left + 1, i, p, s =>
      if p = [] then s
      else
        match skipByte 44 (scanU32 0#32 p).2 with
        | some q => csvLoop set left (i + 1) q (set i (scanU32 0#32 p).1 s)
        | none => set i (scanU32 0#32 p).1 s

/-- One entry of the `sh` parameter as it is read. -/
structure ShutterEntry where
  up : BitVec 32
  down : BitVec 32
  travel : BitVec 32
  name : List UInt8
  deriving DecidableEq

/-- The optional fourth field `:name`, and what is left after it. -/
def parseShName (p : CStr) : List UInt8 × CStr :=
  match skipByte 58 p with
  | some q => (urlDecodeParam (cfgNameLen - 1) (encodedName q), q.dropWhile (· ≠ 59))
  | none => ([], p)

/-- One entry, and what is left after it; `none` is a `break`. -/
def parseShEntry (p : CStr) : Option (ShutterEntry × CStr) := do
  let q ← skipByte 58 (scanU32 0#32 p).2
  let r ← skipByte 58 (scanU32 0#32 q).2
  let t := scanU32 0#32 r
  return (⟨(scanU32 0#32 p).1, (scanU32 0#32 q).1, t.1, (parseShName t.2).1⟩,
    (parseShName t.2).2)

/-- `(up != down) && (up < RelayChainCount()) && (down < RelayChainCount())`. -/
def ShutterEntry.Accepted (relays : Nat) (e : ShutterEntry) : Prop :=
  e.up ≠ e.down ∧ e.up.toNat < relays ∧ e.down.toNat < relays

instance (relays : Nat) (e : ShutterEntry) : Decidable (e.Accepted relays) :=
  inferInstanceAs (Decidable (_ ∧ _ ∧ _))

/-- What is left after an entry is shorter. -/
theorem length_of_parseShEntry {p q : CStr} {e : ShutterEntry}
    (h : parseShEntry p = some (e, q)) : q.length < p.length := by
  unfold parseShEntry at h
  simp only [Option.bind_eq_bind, Option.bind_eq_some_iff, Option.pure_def, Option.some.injEq,
    Prod.mk.injEq] at h
  obtain ⟨a, ha, b, hb, _, rfl⟩ := h
  have h₁ := length_of_skipByte ha
  have h₂ := length_of_skipByte hb
  have h₃ := length_scanU32_le 0#32 p
  have h₄ := length_scanU32_le 0#32 a
  have h₅ := length_scanU32_le 0#32 b
  have h₆ : (parseShName (scanU32 0#32 b).2).2.length ≤ (scanU32 0#32 b).2.length := by
    unfold parseShName
    cases hskip : skipByte 58 (scanU32 0#32 b).2 with
    | none => exact Nat.le_refl _
    | some c =>
        have h₇ := length_of_skipByte hskip
        have h₈ := List.length_dropWhile_le (· ≠ 59) c
        dsimp only
        omega
  omega

/-- The entries of the `sh` parameter that are stored, in order: the accepted ones, while
slots are free. -/
def acceptedEntries (relays free : Nat) (p : CStr) : List ShutterEntry :=
  if p = [] ∨ free = 0 then []
  else
    match _h : parseShEntry p with
    | none => []
    | some (e, q) =>
        match _hq : skipByte 59 q with
        | none => if e.Accepted relays then [e] else []
        | some p' =>
            if e.Accepted relays then e :: acceptedEntries relays (free - 1) p'
            else acceptedEntries relays free p'
termination_by p.length
decreasing_by
  all_goals
    have h₁ := length_of_parseShEntry _h
    have h₂ := length_of_skipByte _hq
    omega

namespace OutputRecord

/-- `ConfigSetOutMode`. -/
def configSetOutMode (r : OutputRecord) (iOut : Nat) (mode : UInt8) : OutputRecord :=
  if h : iOut < cfgMaxOutputs then
    { r with
      mode := Function.update r.mode ⟨iOut, h⟩
        (if outModeTimed < mode.toNat then UInt8.ofNat outModeStandard else mode) }
  else r

/-- `ConfigSetOutTimedMs`. -/
def configSetOutTimedMs (r : OutputRecord) (iOut : Nat) (ms : BitVec 32) : OutputRecord :=
  if h : iOut < cfgMaxOutputs then
    { r with timedMs := Function.update r.timedMs ⟨iOut, h⟩ (clampTravel ms) }
  else r

/-- `ConfigShutterNameSet`. -/
def configShutterNameSet (r : OutputRecord) (iSlot : Nat) (name : List UInt8) : OutputRecord :=
  if h : iSlot < cfgMaxShutters then
    { r with shName := Function.update r.shName ⟨iSlot, h⟩ (nameField name) }
  else r

/-- The loop over the `modes` parameter. -/
def modesLoop : (i : Nat) → CStr → OutputRecord → OutputRecord
  | _, [], r => r
  | i, c :: p, r =>
      if i < cfgMaxOutputs then
        modesLoop (i + 1) p
          (r.configSetOutMode i (UInt8.ofNat (if c = 49 then outModeTimed else outModeStandard)))
      else r

/-- `v ? v : dflt`. -/
def orDefault (v dflt : BitVec 32) : BitVec 32 := if v = 0#32 then dflt else v

/-- The loop over the `tmo` parameter. -/
def tmoLoop (p : CStr) (r : OutputRecord) : OutputRecord :=
  csvLoop (fun i v r => r.configSetOutTimedMs i (orDefault v 1000#32)) cfgMaxOutputs 0 p r

/-- Every slot is emptied. -/
def clearShutters (r : OutputRecord) : OutputRecord :=
  (List.range cfgMaxShutters).foldl (fun r (i : Nat) => r.configShutterClear i) r

/-- The accepted entries go to the slots from `iSlot` on. -/
def storeShutters : (iSlot : Nat) → List ShutterEntry → OutputRecord → OutputRecord
  | _, [], r => r
  | iSlot, e :: es, r =>
      storeShutters (iSlot + 1) es
        ((r.configShutterSet iSlot (UInt8.ofNat e.up.toNat) (UInt8.ofNat e.down.toNat)
          (orDefault e.travel 20000#32)).configShutterNameSet iSlot e.name)

/-- The loop over the `sh` parameter. -/
def shLoop (relays : Nat) (p : CStr) (r : OutputRecord) : OutputRecord :=
  storeShutters 0 (acceptedEntries relays cfgMaxShutters p) r

/-- A loop over a parameter, if the request has it. -/
def onParam (name : String) (params : CgiParams) (loop : CStr → OutputRecord → OutputRecord)
    (r : OutputRecord) : OutputRecord :=
  match findCGIParameter (ascii name) params with
  | some p => loop p r
  | none => r

/-- What `OutCfgCGIHandler` makes of the record, before it is saved. -/
def outCfgEdit (r : OutputRecord) (relays : Nat) (params : CgiParams) : OutputRecord :=
  onParam "sh" params (shLoop relays)
    (onParam "tmo" params tmoLoop (onParam "modes" params (modesLoop 0) r)).clearShutters

end OutputRecord

/-- The output controller and the output record in RAM. -/
structure OutPanel where
  hub : Hub
  out : OutputRecord

/-- `OutputCtrlReload` after the record has changed. -/
def Hub.reloadWith (h : Hub) (cfg : OutputConfig) : Hub :=
  Hub.outputCtrlReload { h with outCfg := cfg }

/-- `OutCfgCGIHandler`: edit, save (with de-duplication), reload. -/
def OutPanel.outCfgCGIHandler (s : OutPanel) (params : CgiParams) : OutPanel where
  hub := s.hub.reloadWith
    (s.out.outCfgEdit s.hub.chain.relayChainCount params).stamped.outCfg
  out := (s.out.outCfgEdit s.hub.chain.relayChainCount params).stamped

/-! ## Comma lists -/

/-- The calls that a comma list makes, for the numbers it holds. -/
def csvCalls {σ : Type*} (set : Nat → BitVec 32 → σ → σ) : (i : Nat) → List Nat → σ → σ
  | _, [], s => s
  | i, v :: vs, s => csvCalls set (i + 1) vs (set i (BitVec.ofNat 32 v) s)

/-- **A comma list of printed numbers is read as these numbers**, up to the bound. -/
theorem csvLoop_text {σ : Type*} (set : Nat → BitVec 32 → σ → σ) (left i : Nat) (vs : List Nat)
    (s : σ) : csvLoop set left i ([44].intercalate (vs.map fmtDecimal)) s =
      csvCalls set i (vs.take left) s := by
  induction vs generalizing left i s with
  | nil =>
      cases left with
      | zero => rfl
      | succ left => rfl
  | cons v vs ih =>
      cases left with
      | zero => rfl
      | succ left =>
          have hv := isNumeral_fmtDecimal v
          cases vs with
          | nil =>
              have hcat : [44].intercalate ([v].map fmtDecimal) = fmtDecimal v := by simp
              have hscan : scanU32 0#32 (fmtDecimal v ++ []) = (BitVec.ofNat 32 v, []) :=
                scanU32_fmtDecimal rfl
              rw [List.append_nil] at hscan
              rw [hcat, csvLoop, if_neg hv.1, hscan]
              cases left <;> rfl
          | cons w ws =>
              have hcat : [44].intercalate ((v :: w :: ws).map fmtDecimal) =
                  fmtDecimal v ++ 44 :: [44].intercalate ((w :: ws).map fmtDecimal) := by
                simp [List.intercalate_cons_cons]
              have hcomma (p : CStr) : (44 :: p : CStr).takeWhile isDecDigit = [] :=
                List.takeWhile_cons_of_neg (by decide)
              have hne :
                  fmtDecimal v ++ 44 :: [44].intercalate ((w :: ws).map fmtDecimal) ≠ [] := by
                simp
              have hskip (p : CStr) : skipByte 44 (44 :: p) = some p := by
                rw [skipByte, if_pos rfl]
              rw [hcat, csvLoop, if_neg hne, scanU32_fmtDecimal (hcomma _)]
              dsimp only
              rw [hskip]
              exact ih left (i + 1) _

/-- The calls of a list set the entries of an array one by one. -/
theorem csvCalls_array {σ α : Type*} {N : Nat} (set : Nat → BitVec 32 → σ → σ)
    (field : σ → Fin N → α) {val : BitVec 32 → α}
    (hset : ∀ (i : Fin N) v s, field (set i v s) = Function.update (field s) i (val v))
    {vs : List Nat} {k : Nat} (hk : k + vs.length ≤ N) (s : σ) (i : Fin N) :
    field (csvCalls set k vs s) i =
      if i.val < k then field s i
      else (vs[i.val - k]?).elim (field s i) fun v => val (BitVec.ofNat 32 v) := by
  induction vs generalizing k s with
  | nil =>
      rw [csvCalls]
      split <;> rfl
  | cons v vs ih =>
      rw [List.length_cons] at hk
      rw [csvCalls, ih (by omega), hset ⟨k, by omega⟩ (BitVec.ofNat 32 v) s]
      exact Loops.update_then_rest (field s) _
        (fun j old => (vs[j]?).elim old fun v => val (BitVec.ofNat 32 v))
        (fun j old => ((v :: vs)[j]?).elim old fun v => val (BitVec.ofNat 32 v))
        (fun _ => rfl) (fun _ _ => rfl) i

/-! ## What the request leaves in the slots -/

/-- What a stored entry becomes. -/
def ShutterEntry.slot (e : ShutterEntry) : ShutterSlot where
  up := e.up.toNat
  down := e.down.toNat
  travelMs := (OutputRecord.clampTravel (OutputRecord.orDefault e.travel 20000#32)).toNat

/-- The slots that a request asks for: its accepted entries. -/
def submitted (relays : Nat) (params : CgiParams) : List ShutterEntry :=
  match findCGIParameter (ascii "sh") params with
  | some p => acceptedEntries relays cfgMaxShutters p
  | none => []

theorem length_acceptedEntries_le (relays free : Nat) (p : CStr) :
    (acceptedEntries relays free p).length ≤ free := by
  fun_induction acceptedEntries relays free p with
  | case1 => exact Nat.zero_le _
  | case2 => exact Nat.zero_le _
  | case3 free p hp e q h hq hacc =>
      rw [List.length_singleton]
      omega
  | case4 => exact Nat.zero_le _
  | case5 free p hp e q h p' hq hacc ih =>
      rw [List.length_cons]
      omega
  | case6 free p hp e q h p' hq hacc ih => exact ih

theorem accepted_of_mem {relays free : Nat} {p : CStr} {e : ShutterEntry}
    (he : e ∈ acceptedEntries relays free p) : e.Accepted relays := by
  fun_induction acceptedEntries relays free p with
  | case1 => cases he
  | case2 => cases he
  | case3 free p hp e' q h hq hacc =>
      rw [List.mem_singleton.mp he]
      exact hacc
  | case4 => cases he
  | case5 free p hp e' q h p' hq hacc ih =>
      rcases List.mem_cons.mp he with rfl | he
      · exact hacc
      · exact ih he
  | case6 free p hp e' q h p' hq hacc ih => exact ih he

theorem length_submitted_le (relays : Nat) (params : CgiParams) :
    (submitted relays params).length ≤ cfgMaxShutters := by
  unfold submitted
  split
  · exact length_acceptedEntries_le _ _ _
  · exact Nat.zero_le _

theorem accepted_of_mem_submitted {relays : Nat} {params : CgiParams} {e : ShutterEntry}
    (he : e ∈ submitted relays params) : e.Accepted relays := by
  unfold submitted at he
  split at he
  · exact accepted_of_mem he
  · cases he

/-! ## What a well-formed list is read as -/

/-- A shutter as a page sends it. -/
structure SentShutter where
  up : Nat
  down : Nat
  travel : Nat
  enc : CStr

/-- `up:down:travel:name`, the name encoded. -/
def SentShutter.text (x : SentShutter) : CStr :=
  fmtDecimal x.up ++ 58 :: (fmtDecimal x.down ++ 58 :: (fmtDecimal x.travel ++ 58 :: x.enc))

/-- The entry that is read from it. -/
def SentShutter.entry (x : SentShutter) : ShutterEntry where
  up := BitVec.ofNat 32 x.up
  down := BitVec.ofNat 32 x.down
  travel := BitVec.ofNat 32 x.travel
  name := urlDecodeParam (cfgNameLen - 1) (x.enc.take (3 * cfgNameLen - 1))

/-- One shutter is read back, up to the `;` that ends it. -/
theorem parseShEntry_text (x : SentShutter) (henc : 59 ∉ x.enc) {rest : CStr}
    (hrest : rest = [] ∨ ∃ p, rest = 59 :: p) :
    parseShEntry (x.text ++ rest) = some (x.entry, rest) := by
  have hcolon (p : CStr) : (58 :: p : CStr).takeWhile isDecDigit = [] :=
    List.takeWhile_cons_of_neg (by decide)
  have hskip (p : CStr) : skipByte 58 (58 :: p) = some p := by rw [skipByte, if_pos rfl]
  have hwhile : ∀ c ∈ x.enc, decide (c ≠ 59) = true := fun c hc =>
    decide_eq_true fun h => henc (h ▸ hc)
  have hsplit : (x.enc ++ rest).takeWhile (· ≠ 59) = x.enc ∧
      (x.enc ++ rest).dropWhile (· ≠ 59) = rest := by
    rw [List.takeWhile_append_of_pos hwhile, List.dropWhile_append_of_pos hwhile]
    rcases hrest with rfl | ⟨p, rfl⟩ <;> simp
  have htext : x.text ++ rest = fmtDecimal x.up ++ 58 :: (fmtDecimal x.down ++ 58 ::
      (fmtDecimal x.travel ++ 58 :: (x.enc ++ rest))) := by
    simp [SentShutter.text]
  rw [htext, parseShEntry]
  simp only [scanU32_fmtDecimal (hcolon _), hskip, Option.bind_eq_bind, Option.bind_some,
    parseShName, encodedName, hsplit.1, hsplit.2, Option.pure_def]
  rfl

/-- Nothing is read once the table is full. -/
theorem acceptedEntries_zero (relays : Nat) (p : CStr) : acceptedEntries relays 0 p = [] := by
  rw [acceptedEntries, if_pos (.inr rfl)]

/-- The last entry of a list. -/
theorem acceptedEntries_last {relays free : Nat} {p : CStr} {e : ShutterEntry}
    (h : parseShEntry p = some (e, [])) :
    acceptedEntries relays (free + 1) p = if e.Accepted relays then [e] else [] := by
  have hne : ¬(p = [] ∨ free + 1 = 0) := by
    rintro (rfl | hf)
    · cases h
    · omega
  rw [acceptedEntries, if_neg hne]
  split
  · rename_i hnone
    rw [h] at hnone
    cases hnone
  · rename_i e' q hsome
    rw [h, Option.some.injEq, Prod.mk.injEq] at hsome
    obtain ⟨rfl, rfl⟩ := hsome
    rfl

/-- An entry with more to come. -/
theorem acceptedEntries_next {relays free : Nat} {p q : CStr} {e : ShutterEntry}
    (h : parseShEntry p = some (e, 59 :: q)) :
    acceptedEntries relays (free + 1) p =
      if e.Accepted relays then e :: acceptedEntries relays free q
      else acceptedEntries relays (free + 1) q := by
  have hne : ¬(p = [] ∨ free + 1 = 0) := by
    rintro (rfl | hf)
    · cases h
    · omega
  rw [acceptedEntries, if_neg hne]
  split
  · rename_i hnone
    rw [h] at hnone
    cases hnone
  · rename_i e' q' hsome
    rw [h, Option.some.injEq, Prod.mk.injEq] at hsome
    obtain ⟨rfl, rfl⟩ := hsome
    split
    · rename_i hskip
      rw [skipByte, if_pos rfl] at hskip
      cases hskip
    · rename_i p' hskip
      rw [skipByte, if_pos rfl, Option.some.injEq] at hskip
      rw [hskip, Nat.add_sub_cancel]

/-- **A well-formed list is read as its accepted entries**, as far as there are slots. -/
theorem acceptedEntries_text (relays free : Nat) {xs : List SentShutter}
    (henc : ∀ x ∈ xs, 59 ∉ x.enc) :
    acceptedEntries relays free ([59].intercalate (xs.map SentShutter.text)) =
      ((xs.map SentShutter.entry).filter (·.Accepted relays)).take free := by
  induction xs generalizing free with
  | nil =>
      rw [acceptedEntries, if_pos (.inl rfl)]
      simp
  | cons x xs ih =>
      have hrest (k : Nat) := ih k fun y hy => henc y (List.mem_cons_of_mem _ hy)
      have hx := henc x List.mem_cons_self
      cases free with
      | zero => rw [acceptedEntries_zero, List.take_zero]
      | succ free =>
          cases xs with
          | nil =>
              have hparse := parseShEntry_text x hx (.inl rfl)
              rw [List.append_nil] at hparse
              have hcat : [59].intercalate ([x].map SentShutter.text) = x.text := by simp
              rw [hcat, acceptedEntries_last hparse]
              by_cases hacc : x.entry.Accepted relays
              · simp [hacc]
              · simp [hacc]
          | cons y ys =>
              have hcat : [59].intercalate ((x :: y :: ys).map SentShutter.text) =
                  x.text ++ 59 :: [59].intercalate ((y :: ys).map SentShutter.text) := by
                simp [List.intercalate_cons_cons]
              have hparse := parseShEntry_text x hx
                (.inr ⟨[59].intercalate ((y :: ys).map SentShutter.text), rfl⟩)
              rw [hcat, acceptedEntries_next hparse, hrest, hrest, List.map_cons (l := y :: ys)]
              generalize (y :: ys).map SentShutter.entry = es
              by_cases hacc : x.entry.Accepted relays
              · simp [hacc]
              · simp [hacc]

namespace OutputRecord

/-- What the record holds in a slot. -/
def slotFields (r : OutputRecord) (i : Fin cfgMaxShutters) :
    UInt8 × UInt8 × BitVec 32 × (Fin cfgNameLen → UInt8) :=
  (r.shUp i, r.shDown i, r.shTravelMs i, r.shName i)

/-- What an entry puts into its slot. -/
def entryFields (e : ShutterEntry) : UInt8 × UInt8 × BitVec 32 × (Fin cfgNameLen → UInt8) :=
  (UInt8.ofNat e.up.toNat, UInt8.ofNat e.down.toNat,
    clampTravel (orDefault e.travel 20000#32), nameField e.name)

/-- Both relays of an accepted entry are stored as they are. -/
theorem toNat_relays {relays : Nat} (hrelays : relays ≤ cfgMaxOutputs) {e : ShutterEntry}
    (he : e.Accepted relays) :
    (UInt8.ofNat e.up.toNat).toNat = e.up.toNat ∧
      (UInt8.ofNat e.down.toNat).toNat = e.down.toNat := by
  obtain ⟨_, hup, hdown⟩ := he
  unfold cfgMaxOutputs at hrelays
  rw [UInt8.toNat_ofNat', UInt8.toNat_ofNat']
  omega

/-- Storing one entry writes its slot and no other. -/
theorem slotFields_store {relays : Nat} (hrelays : relays ≤ cfgMaxOutputs) {e : ShutterEntry}
    (he : e.Accepted relays) (r : OutputRecord) (k i : Fin cfgMaxShutters) :
    ((r.configShutterSet k.val (UInt8.ofNat e.up.toNat) (UInt8.ofNat e.down.toNat)
      (orDefault e.travel 20000#32)).configShutterNameSet k e.name).slotFields i =
      if i = k then entryFields e else r.slotFields i := by
  obtain ⟨hup, hdown⟩ := toNat_relays hrelays he
  have hslot : (0 : Int) ≤ (k.val : Int) ∧ ((k.val : Int)).toNat < cfgMaxShutters :=
    ⟨Int.natCast_nonneg _, k.isLt⟩
  have hpair : ¬(UInt8.ofNat e.up.toNat = UInt8.ofNat e.down.toNat ∨
      cfgMaxOutputs ≤ (UInt8.ofNat e.up.toNat).toNat ∨
      cfgMaxOutputs ≤ (UInt8.ofNat e.down.toNat).toNat) := by
    obtain ⟨hne, hltUp, hltDown⟩ := he
    rw [← UInt8.toNat_inj, hup, hdown, BitVec.toNat_inj]
    rw [not_or, not_or]
    exact ⟨hne, by omega, by omega⟩
  rw [configShutterSet, dif_pos hslot, if_neg hpair, configShutterNameSet, dif_pos k.isLt]
  by_cases hik : i = k
  · subst hik
    simp [slotFields, entryFields, putPair]
  · simp [slotFields, putPair, hik]

/-- **What the loop stores**: entry `n` in slot `k + n`. -/
theorem slotFields_storeShutters {relays : Nat} (hrelays : relays ≤ cfgMaxOutputs)
    {es : List ShutterEntry} (hes : ∀ e ∈ es, e.Accepted relays) {k : Nat}
    (hk : k + es.length ≤ cfgMaxShutters) (r : OutputRecord) (i : Fin cfgMaxShutters) :
    (storeShutters k es r).slotFields i =
      if i.val < k then r.slotFields i
      else (es[i.val - k]?).elim (r.slotFields i) entryFields := by
  induction es generalizing k r with
  | nil =>
      rw [storeShutters]
      split <;> rfl
  | cons e es ih =>
      rw [List.length_cons] at hk
      have hstore := slotFields_store hrelays (hes e List.mem_cons_self) r ⟨k, by omega⟩ i
      rw [storeShutters, ih (fun x hx => hes x (List.mem_cons_of_mem _ hx)) (by omega), hstore,
        ← Function.update_apply]
      exact Loops.update_then_rest r.slotFields _ (fun j old => (es[j]?).elim old entryFields)
        (fun j old => ((e :: es)[j]?).elim old entryFields) (fun _ => rfl) (fun _ _ => rfl) i

/-- What an emptied slot holds, apart from the travel time. -/
def Emptied (r : OutputRecord) (i : Fin cfgMaxShutters) : Prop :=
  r.shUp i = shutterNoneByte ∧ r.shDown i = shutterNoneByte ∧ r.shName i = fun _ => 0

theorem Emptied.congr {r r' : OutputRecord} {i : Fin cfgMaxShutters} (h : r.Emptied i)
    (heq : r'.slotFields i = r.slotFields i) : r'.Emptied i := by
  simp only [slotFields, Prod.mk.injEq] at heq
  obtain ⟨hup, hdown, _, hname⟩ := heq
  exact ⟨hup.trans h.1, hdown.trans h.2.1, hname.trans h.2.2⟩

/-- Clearing a slot empties it and leaves the others. -/
theorem emptied_configShutterClear (r : OutputRecord) (n : Nat) (j : Fin cfgMaxShutters)
    (h : j.val = n ∨ r.Emptied j) : (r.configShutterClear n).Emptied j := by
  unfold configShutterClear
  split
  · rename_i hslot
    by_cases hjn : j.val = n
    · have hself : j = ⟨((n : Int)).toNat, hslot.2⟩ := Fin.ext hjn
      simp [Emptied, emptySlot, putPair, hself]
    · have hother : j ≠ ⟨n, hslot.2⟩ := fun h => hjn (congrArg Fin.val h)
      have hbefore := h.resolve_left hjn
      simpa [Emptied, emptySlot, putPair, hother] using hbefore
  · rename_i hslot
    have hj := j.isLt
    exact h.resolve_left fun hjn => hslot ⟨Int.natCast_nonneg n, by omega⟩

theorem emptied_clearShutters (r : OutputRecord) (i : Fin cfgMaxShutters) :
    r.clearShutters.Emptied i := by
  have hstep (n : Nat) (r : OutputRecord) (_ : n < cfgMaxShutters)
      (ih : ∀ j : Fin cfgMaxShutters, j.val < n → r.Emptied j) (j : Fin cfgMaxShutters)
      (hj : j.val < n + 1) : (r.configShutterClear n).Emptied j := by
    refine emptied_configShutterClear r n j ?_
    by_cases hjn : j.val = n
    · exact .inl hjn
    · exact .inr (ih j (by omega))
  have hall := Loops.foldl_range hstep (s := r) fun j hj => absurd hj (Nat.not_lt_zero _)
  exact hall i i.isLt

/-- **What the request leaves in the slots**, before the record is saved. -/
theorem outCfgEdit_slot (r : OutputRecord) {relays : Nat} (hrelays : relays ≤ cfgMaxOutputs)
    (params : CgiParams) (i : Fin cfgMaxShutters) :
    match (submitted relays params)[i.val]? with
    | some e => (r.outCfgEdit relays params).slotFields i = entryFields e
    | none => (r.outCfgEdit relays params).Emptied i := by
  unfold outCfgEdit onParam submitted
  cases findCGIParameter (ascii "sh") params with
  | none => exact emptied_clearShutters _ i
  | some p =>
      dsimp only
      have hlen := length_acceptedEntries_le relays cfgMaxShutters p
      have hacc : ∀ e ∈ acceptedEntries relays cfgMaxShutters p, e.Accepted relays :=
        fun e he => accepted_of_mem he
      have hstore := slotFields_storeShutters hrelays hacc (k := 0) (by omega)
        (onParam "tmo" params tmoLoop (onParam "modes" params (modesLoop 0) r)).clearShutters i
      rw [if_neg (Nat.not_lt_zero _), Nat.sub_zero] at hstore
      cases hn : (acceptedEntries relays cfgMaxShutters p)[i.val]? with
      | none =>
          rw [hn] at hstore
          exact (emptied_clearShutters _ i).congr hstore
      | some e =>
          rw [hn] at hstore
          exact hstore

/-! ## Modes and durations -/

/-- What `mode` and `timedMs` hold is no part of the shutter table. -/
theorem frame_clearShutters (r : OutputRecord) :
    r.clearShutters.mode = r.mode ∧ r.clearShutters.timedMs = r.timedMs := by
  have hstep (is : List Nat) (r : OutputRecord) :
      (is.foldl (fun r i => r.configShutterClear i) r).mode = r.mode ∧
        (is.foldl (fun r i => r.configShutterClear i) r).timedMs = r.timedMs := by
    induction is generalizing r with
    | nil => exact ⟨rfl, rfl⟩
    | cons i is ih =>
        have hclear : (r.configShutterClear i).mode = r.mode ∧
            (r.configShutterClear i).timedMs = r.timedMs := by
          unfold configShutterClear
          split <;> exact ⟨rfl, rfl⟩
        rw [List.foldl_cons]
        exact ⟨(ih _).1.trans hclear.1, (ih _).2.trans hclear.2⟩
  unfold clearShutters
  exact hstep _ r

theorem frame_storeShutters (k : Nat) (es : List ShutterEntry) (r : OutputRecord) :
    (storeShutters k es r).mode = r.mode ∧ (storeShutters k es r).timedMs = r.timedMs := by
  induction es generalizing k r with
  | nil => exact ⟨rfl, rfl⟩
  | cons e es ih =>
      have hset (r : OutputRecord) (i : Int) (up down : UInt8) (ms : BitVec 32) :
          (r.configShutterSet i up down ms).mode = r.mode ∧
            (r.configShutterSet i up down ms).timedMs = r.timedMs := by
        unfold configShutterSet
        split
        · split <;> exact ⟨rfl, rfl⟩
        · exact ⟨rfl, rfl⟩
      have hname (r : OutputRecord) (i : Nat) (name : List UInt8) :
          (r.configShutterNameSet i name).mode = r.mode ∧
            (r.configShutterNameSet i name).timedMs = r.timedMs := by
        unfold configShutterNameSet
        split <;> exact ⟨rfl, rfl⟩
      rw [storeShutters]
      constructor
      · rw [(ih _ _).1, (hname _ _ _).1, (hset _ _ _ _ _).1]
      · rw [(ih _ _).2, (hname _ _ _).2, (hset _ _ _ _ _).2]

/-- The shutters of a request leave the modes and durations. -/
theorem frame_shutters (r : OutputRecord) (relays : Nat) (params : CgiParams) :
    (onParam "sh" params (shLoop relays) r.clearShutters).mode = r.mode ∧
      (onParam "sh" params (shLoop relays) r.clearShutters).timedMs = r.timedMs := by
  have hclear := r.frame_clearShutters
  unfold onParam
  split
  · have hstore := frame_storeShutters 0 (acceptedEntries relays cfgMaxShutters ‹CStr›)
      r.clearShutters
    exact ⟨hstore.1.trans hclear.1, hstore.2.trans hclear.2⟩
  · exact hclear

theorem mode_modesLoop (p : CStr) (k : Nat) (r : OutputRecord) (i : Fin cfgMaxOutputs) :
    (modesLoop k p r).mode i =
      if i.val < k then r.mode i
      else (p[i.val - k]?).elim (r.mode i) fun c => if c = 49 then 1 else 0 := by
  have hi := i.isLt
  induction p generalizing k r with
  | nil =>
      rw [modesLoop]
      split <;> rfl
  | cons c p ih =>
      rw [modesLoop]
      by_cases hk : k < cfgMaxOutputs
      · have hset : (r.configSetOutMode k (UInt8.ofNat
            (if c = 49 then outModeTimed else outModeStandard))).mode =
            Function.update r.mode ⟨k, hk⟩ (if c = 49 then 1 else 0) := by
          rw [configSetOutMode, dif_pos hk]
          split <;> rfl
        rw [if_pos hk, ih, hset]
        exact Loops.update_then_rest r.mode hk
          (fun j old => (p[j]?).elim old fun c => if c = 49 then 1 else 0)
          (fun j old => ((c :: p)[j]?).elim old fun c => if c = 49 then 1 else 0)
          (fun _ => rfl) (fun _ _ => rfl) i
      · rw [if_neg hk, if_pos (by omega)]

theorem timedMs_modesLoop (p : CStr) (k : Nat) (r : OutputRecord) :
    (modesLoop k p r).timedMs = r.timedMs := by
  induction p generalizing k r with
  | nil => rfl
  | cons c p ih =>
      have hset (mode : UInt8) : (r.configSetOutMode k mode).timedMs = r.timedMs := by
        unfold configSetOutMode
        split <;> rfl
      rw [modesLoop]
      split
      · rw [ih, hset]
      · rfl

theorem mode_tmoLoop (p : CStr) (r : OutputRecord) : (tmoLoop p r).mode = r.mode := by
  have hset (r : OutputRecord) (i : Nat) (ms : BitVec 32) :
      (r.configSetOutTimedMs i ms).mode = r.mode := by
    unfold configSetOutTimedMs
    split <;> rfl
  have hloop (left i : Nat) (p : CStr) (r : OutputRecord) :
      (csvLoop (fun i v r => r.configSetOutTimedMs i (orDefault v 1000#32)) left i p r).mode =
        r.mode := by
    induction left generalizing i p r with
    | zero => rfl
    | succ left ih =>
        rw [csvLoop]
        split
        · rfl
        · split
          · rw [ih, hset]
          · exact hset _ _ _
  exact hloop _ _ p r

/-- **The modes after the request.** -/
theorem mode_outCfgEdit (r : OutputRecord) (relays : Nat) {params : CgiParams} {modes : CStr}
    (hmodes : findCGIParameter (ascii "modes") params = some modes) (i : Fin cfgMaxOutputs) :
    (r.outCfgEdit relays params).mode i =
      (modes[i.val]?).elim (r.mode i) fun c => if c = 49 then 1 else 0 := by
  have htmo (s : OutputRecord) : (onParam "tmo" params tmoLoop s).mode = s.mode := by
    unfold onParam
    split
    · exact mode_tmoLoop _ _
    · rfl
  have hloop := mode_modesLoop modes 0 r i
  rw [if_neg (Nat.not_lt_zero _), Nat.sub_zero] at hloop
  have hframe := (frame_shutters (onParam "tmo" params tmoLoop
    (onParam "modes" params (modesLoop 0) r)) relays params).1
  rw [outCfgEdit, hframe, htmo, onParam, hmodes]
  exact hloop

/-- **The durations after the request.** -/
theorem timedMs_outCfgEdit (r : OutputRecord) (relays : Nat) {params : CgiParams} {vs : List Nat}
    (htmo : findCGIParameter (ascii "tmo") params = some ([44].intercalate (vs.map fmtDecimal)))
    (hlen : vs.length ≤ cfgMaxOutputs) (i : Fin cfgMaxOutputs) :
    (r.outCfgEdit relays params).timedMs i = (vs[i.val]?).elim (r.timedMs i) fun v =>
      clampTravel (orDefault (BitVec.ofNat 32 v) 1000#32) := by
  have hmodes : (onParam "modes" params (modesLoop 0) r).timedMs = r.timedMs := by
    unfold onParam
    split
    · exact timedMs_modesLoop _ _ _
    · rfl
  have hset (i : Fin cfgMaxOutputs) (v : BitVec 32) (r : OutputRecord) :
      (r.configSetOutTimedMs i (orDefault v 1000#32)).timedMs =
        Function.update r.timedMs i (clampTravel (orDefault v 1000#32)) := by
    rw [configSetOutTimedMs, dif_pos i.isLt]
  have hbound : 0 + vs.length ≤ cfgMaxOutputs := by omega
  have hcalls := csvCalls_array (fun i v r => configSetOutTimedMs r i (orDefault v 1000#32))
    timedMs hset hbound (onParam "modes" params (modesLoop 0) r) i
  rw [if_neg (Nat.not_lt_zero _), Nat.sub_zero, hmodes] at hcalls
  have hframe := (frame_shutters (onParam "tmo" params tmoLoop
    (onParam "modes" params (modesLoop 0) r)) relays params).2
  rw [outCfgEdit, hframe, onParam, htmo]
  dsimp only
  rw [tmoLoop, csvLoop_text, List.take_of_length_le hlen]
  exact hcalls

end OutputRecord

end HomeAuto
