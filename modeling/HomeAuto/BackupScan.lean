import HomeAuto.BackupText

/-!
# The backup as the device reads it

The JSON text is a list of properties, each on its line.  The search for a key passes over the
properties before it as long as no text in them has a quotation mark, and what is read at the
key does not depend on the properties after it, nor on where the buffer cuts the text off.
-/

namespace HomeAuto

open QuotedText

/-! ## The lines -/

/-- A property on its line. -/
def lineOf (p : CStr × CStr) : CStr := 32 :: 32 :: (quoted 34 p.1 ++ 58 :: 32 :: p.2)

/-- The bytes of the JSON text. -/
def docOf (ps : List (CStr × CStr)) : CStr :=
  [123, 10] ++ [44, 10].intercalate (ps.map lineOf) ++ [10, 125]

/-- The bytes before a value. -/
def beforeOf (pre : List (CStr × CStr)) (key : CStr) : CStr :=
  [123, 10] ++ pre.flatMap (fun p => lineOf p ++ [44, 10]) ++ 32 :: 32 :: keyed 34 58 key ++ [32]

theorem sentBytes_intercalate (sep : CStr) (ls : List (List Char)) :
    sentBytes ((sep.map byteChar).intercalate ls) = sep.intercalate (ls.map sentBytes) := by
  induction ls with
  | nil => rfl
  | cons l ls ih =>
      cases ls with
      | nil => simp
      | cons l' ls =>
          rw [List.intercalate_cons_cons, sentBytes_append, sentBytes_append, ih,
            sentBytes_map_byteChar]
          simp only [List.map_cons, List.intercalate_cons_cons]

/-- The text of `JSON.stringify` is sent line by line. -/
theorem sentBytes_jsonStringify (ps : List (CStr × JsonValue)) :
    sentBytes (jsonStringify ps) = docOf (ps.map fun p => (p.1, sentBytes p.2.text)) := by
  have hline (p : CStr × JsonValue) :
      sentBytes (propertyText p) = lineOf (p.1, sentBytes p.2.text) := by
    unfold propertyText lineOf
    rw [sentBytes_append, sentBytes_map_byteChar]
    simp
  have hfirst : sentBytes ['{', '\n'] = [123, 10] := by decide
  have hlast : sentBytes ['\n', '}'] = [10, 125] := by decide
  have hsep : [',', '\n'] = ([44, 10] : CStr).map byteChar := by decide
  unfold jsonStringify docOf
  rw [sentBytes_append, sentBytes_append, hfirst, hlast, hsep, sentBytes_intercalate,
    List.map_map, List.map_map]
  congr 3
  exact List.map_congr_left fun p _ => hline p

/-- A value and what is around it. -/
theorem docOf_split (pre post : List (CStr × CStr)) (p : CStr × CStr) :
    ∃ c rest, (c = 44 ∨ c = 10) ∧
      docOf (pre ++ p :: post) = beforeOf pre p.1 ++ (p.2 ++ c :: rest) := by
  have hpre (ls : List (CStr × CStr)) (l : CStr) (more : List CStr) :
      [44, 10].intercalate (ls.map lineOf ++ l :: more) =
        ls.flatMap (fun p => lineOf p ++ [44, 10]) ++ [44, 10].intercalate (l :: more) := by
    induction ls with
    | nil => rfl
    | cons q ls ih =>
        obtain ⟨r, rs, hr⟩ : ∃ r rs, ls.map lineOf ++ l :: more = r :: rs := by
          cases ls with
          | nil => exact ⟨_, _, rfl⟩
          | cons q' ls => exact ⟨_, _, rfl⟩
        rw [List.map_cons, List.cons_append, hr, List.intercalate_cons_cons, ← hr, ih]
        simp
  have hline : lineOf p = 32 :: 32 :: keyed 34 58 p.1 ++ [32] ++ p.2 := by
    simp [lineOf, keyed, quoted]
  unfold docOf beforeOf
  rw [List.map_append, List.map_cons, hpre]
  cases post with
  | nil =>
      refine ⟨10, [125], .inr rfl, ?_⟩
      rw [List.map_nil, List.intercalate_singleton, hline]
      simp
  | cons q post =>
      refine ⟨44, 10 :: ([44, 10].intercalate (lineOf q :: post.map lineOf) ++ [10, 125]),
        .inl rfl, ?_⟩
      rw [List.map_cons, List.intercalate_cons_cons, hline]
      simp

/-! ## The search for a key -/

/-- A property that the search can pass over: a key without quotation marks that begins with
none of the marks which follow a piece, and a number or a string whose text has no quotation
mark; and no NUL. -/
structure CleanProp (p : CStr × CStr) : Prop where
  key : IsKey 34 [58, 44] p.1
  value : 34 ∉ p.2 ∨ ∃ b, p.2 = quoted 34 b ∧ 34 ∉ b
  keyNul : 0 ∉ p.1
  valueNul : 0 ∉ p.2

variable {key : CStr}

/-- A line is passed over. -/
theorem find_line (hkey : IsKey 34 [58, 44] key) {p : CStr × CStr} (hp : CleanProp p)
    (hne : p.1 ≠ key) (rest : CStr) :
    find (keyed 34 58 key) (lineOf p ++ [44, 10] ++ rest) = find (keyed 34 58 key) rest := by
  have hplain {plain : CStr} (h : 34 ∉ plain) (more : CStr) :
      find (keyed 34 58 key) (plain ++ more) = find (keyed 34 58 key) more :=
    find_plain h
  have hline : lineOf p ++ [44, 10] ++ rest =
      [32, 32] ++ (quoted 34 p.1 ++ 58 :: ([32] ++ (p.2 ++ 44 :: ([10] ++ rest)))) := by
    simp [lineOf]
  have hvalue : find (keyed 34 58 key) (p.2 ++ 44 :: ([10] ++ rest)) =
      find (keyed 34 58 key) (44 :: ([10] ++ rest)) := by
    rcases hp.value with hnumber | ⟨b, hb, hquote⟩
    · exact hplain hnumber _
    · rw [hb]
      exact find_quoted hkey hquote (by decide) fun _ => by decide
  have hcolon : find (keyed 34 58 key) (58 :: ([32] ++ (p.2 ++ 44 :: ([10] ++ rest)))) =
      find (keyed 34 58 key) (p.2 ++ 44 :: ([10] ++ rest)) :=
    hplain (by decide : 34 ∉ ([58, 32] : CStr)) _
  have hend : find (keyed 34 58 key) (44 :: ([10] ++ rest)) = find (keyed 34 58 key) rest :=
    hplain (by decide : 34 ∉ ([44, 10] : CStr)) _
  rw [hline, hplain (by decide), find_quoted hkey hp.key.noQuote (by decide) fun h => absurd h hne,
    hcolon, hvalue, hend]

/-- **The key is found at its own property**, whatever comes after it. -/
theorem find_beforeOf (hkey : IsKey 34 [58, 44] key) {pre : List (CStr × CStr)}
    (hpre : ∀ p ∈ pre, CleanProp p ∧ p.1 ≠ key) (rest : CStr) :
    find (keyed 34 58 key) (beforeOf pre key ++ rest) =
      some (keyed 34 58 key ++ 32 :: rest) := by
  have hlines (more : CStr) :
      find (keyed 34 58 key) (pre.flatMap (fun p => lineOf p ++ [44, 10]) ++ more) =
        find (keyed 34 58 key) more := by
    induction pre with
    | nil => rfl
    | cons p pre ih =>
        obtain ⟨hclean, hne⟩ := hpre p List.mem_cons_self
        rw [List.flatMap_cons, List.append_assoc, find_line hkey hclean hne]
        exact ih fun q hq => hpre q (List.mem_cons_of_mem p hq)
  have hsplit : beforeOf pre key ++ rest =
      [123, 10] ++ (pre.flatMap (fun p => lineOf p ++ [44, 10]) ++
        ([32, 32] ++ (keyed 34 58 key ++ 32 :: rest))) := by
    simp [beforeOf]
  rw [hsplit, find_plain (by decide), hlines, find_plain (by decide)]
  exact find_append _ _ (List.cons_ne_nil _ _)

theorem zero_notMem_beforeOf (hkey : 0 ∉ key) {pre : List (CStr × CStr)}
    (hpre : ∀ p ∈ pre, CleanProp p) : 0 ∉ beforeOf pre key := by
  have hlines : 0 ∉ pre.flatMap (fun p => lineOf p ++ [44, 10]) := by
    intro hmem
    obtain ⟨p, hp, hin⟩ := List.mem_flatMap.mp hmem
    have hclean := hpre p hp
    simp [lineOf, quoted, hclean.keyNul, hclean.valueNul] at hin
  simp [beforeOf, keyed, hkey, hlines]

/-! ## The buffer -/

/-- The C string in the buffer, of the bytes that were sent. -/
def bufferText (bytes : CStr) : CStr := (bytes.take (cfgRestoreBufSize - 1)).takeWhile (· ≠ 0)

theorem bufferText_append {u : CStr} (hnul : 0 ∉ u) (hlen : u.length ≤ 2047) (v : CStr) :
    bufferText (u ++ v) = u ++ (v.take (2047 - u.length)).takeWhile (· ≠ 0) := by
  have hall : ∀ c ∈ u, decide (c ≠ 0) = true := by
    intro c hc
    rw [decide_eq_true_eq]
    intro hzero
    exact hnul (hzero ▸ hc)
  change ((u ++ v).take 2047).takeWhile (· ≠ 0) = _
  rw [List.take_append, List.take_of_length_le hlen, List.takeWhile_append_of_pos hall]

/-- What is found at the key. -/
theorem findKey_bufferText (hkey : IsKey 34 [58, 44] key) (hnul : 0 ∉ key)
    {pre : List (CStr × CStr)} (hpre : ∀ p ∈ pre, CleanProp p ∧ p.1 ≠ key)
    (hlen : (beforeOf pre key).length ≤ 2047) (rest : CStr) :
    findKey (bufferText (beforeOf pre key ++ rest)) key =
      some (skipWs ((rest.take (2047 - (beforeOf pre key).length)).takeWhile (· ≠ 0))) := by
  have hzero := zero_notMem_beforeOf hnul fun p hp => (hpre p hp).1
  unfold findKey
  rw [bufferText_append hzero hlen, find_beforeOf hkey hpre, Option.map_some, List.drop_left]
  rfl

/-! ## Values -/

/-- A value as far as the buffer has it, up to its closing quotation mark. -/
theorem read_value (b rest : CStr) {n room : Nat} (hroom : room ≤ n) :
    ((((b ++ 34 :: rest).take n).takeWhile (· ≠ 0)).takeWhile (· ≠ 34)).take room =
      (b.takeWhile GoodByte).take room := by
  have hgood (l : CStr) : (l.takeWhile (· ≠ 0)).takeWhile (· ≠ 34) = l.takeWhile GoodByte := by
    rw [List.takeWhile_takeWhile]
    congr 1
    funext c
    simp [GoodByte, and_comm]
  have hstop : (b ++ 34 :: rest).takeWhile GoodByte = b.takeWhile GoodByte := by
    induction b with
    | nil => exact List.takeWhile_cons_of_neg (by decide)
    | cons c b ih =>
        rw [List.cons_append, List.takeWhile_cons, List.takeWhile_cons, ih]
  rw [hgood, ← List.take_takeWhile, hstop, List.take_take, Nat.min_eq_left hroom]

/-- **A string is read up to its closing quotation mark**, and never past the room there is. -/
theorem cfgJsonGetStr_docOf (hkey : IsKey 34 [58, 44] key) (hnul : 0 ∉ key)
    {pre : List (CStr × CStr)} (hpre : ∀ p ∈ pre, CleanProp p ∧ p.1 ≠ key) (b : CStr)
    (post : List (CStr × CStr)) {room : Nat}
    (hlen : (beforeOf pre key).length + 1 + room ≤ 2047) :
    cfgJsonGetStr (bufferText (docOf (pre ++ (key, quoted 34 b) :: post))) key room =
      some ((b.takeWhile GoodByte).take room) := by
  obtain ⟨c, rest, -, hdoc⟩ := docOf_split pre post (key, quoted 34 b)
  obtain ⟨n, hn⟩ : ∃ n, 2047 - (beforeOf pre key).length = n + 1 :=
    ⟨2047 - (beforeOf pre key).length - 1, by omega⟩
  have hvalue : quoted 34 b ++ c :: rest = 34 :: (b ++ 34 :: (c :: rest)) := by simp [quoted]
  have hquote (p : CStr) : (34 :: p).takeWhile (· ≠ 0) = 34 :: p.takeWhile (· ≠ 0) :=
    List.takeWhile_cons_of_pos (by decide)
  have hskip (p : CStr) : skipWs (34 :: p) = 34 :: p := List.dropWhile_cons_of_neg (by decide)
  unfold cfgJsonGetStr
  rw [hdoc, findKey_bufferText hkey hnul hpre (by omega), hvalue, hn, List.take_succ_cons,
    hquote, hskip]
  exact congrArg some (read_value b (c :: rest) (by omega))

/-- The mark after a number. -/
theorem mark_stops {c : UInt8} (h : c = 44 ∨ c = 10) : isDecDigit c = false ∧ c ≠ 0 := by
  rcases h with hcomma | hline
  · subst hcomma
    decide
  · subst hline
    decide

/-- A number and the mark after it, as far as the buffer has them. -/
theorem buffered_number {ds : CStr} (hds : ∀ d ∈ ds, d ≠ 0) {c : UInt8} (hc : c ≠ 0)
    (rest : CStr) {n : Nat} (hn : ds.length + 1 ≤ n) :
    ∃ rest', ((ds ++ c :: rest).take n).takeWhile (· ≠ 0) = ds ++ c :: rest' := by
  obtain ⟨k, hk⟩ : ∃ k, n - ds.length = k + 1 := ⟨n - ds.length - 1, by omega⟩
  have hmark (p : CStr) : (c :: p).takeWhile (· ≠ 0) = c :: p.takeWhile (· ≠ 0) :=
    List.takeWhile_cons_of_pos (decide_eq_true hc)
  refine ⟨(rest.take k).takeWhile (· ≠ 0), ?_⟩
  rw [List.take_append, List.take_of_length_le (by omega), hk, List.take_succ_cons,
    List.takeWhile_append_of_pos fun d hd => decide_eq_true (hds d hd), hmark]

theorem ne_zero_of_mem_fmtInt {z : Int} {d : UInt8} (hd : d ∈ fmtInt z) : d ≠ 0 := by
  have hdigit (n : Nat) (h : d ∈ fmtDecimal n) : d ≠ 0 := by
    intro hzero
    exact not_mem_fmtDecimal (by decide) n (hzero ▸ h)
  unfold fmtInt at hd
  split at hd
  · rcases List.mem_cons.mp hd with hminus | hin
    · rw [hminus]
      decide
    · exact hdigit _ hin
  · exact hdigit _ hd

/-- **A number is read back.** -/
theorem cfgJsonGetInt_docOf (ul : DecimalReader) (hkey : IsKey 34 [58, 44] key) (hnul : 0 ∉ key)
    {pre : List (CStr × CStr)} (hpre : ∀ p ∈ pre, CleanProp p ∧ p.1 ≠ key) {z : Int}
    (hz : z.natAbs < 2 ^ 31) (post : List (CStr × CStr))
    (hlen : (beforeOf pre key).length + (fmtInt z).length + 1 ≤ 2047) :
    cfgJsonGetInt ul (bufferText (docOf (pre ++ (key, fmtInt z) :: post))) key = z := by
  obtain ⟨c, rest, hc, hdoc⟩ := docOf_split pre post (key, fmtInt z)
  obtain ⟨hstop, hne⟩ := mark_stops hc
  obtain ⟨rest', hrest'⟩ := buffered_number (fun d hd => ne_zero_of_mem_fmtInt (z := z) hd) hne rest
    (n := 2047 - (beforeOf pre key).length) (by omega)
  have hnumber := isNumeral_fmtDecimal z.natAbs
  have hread : ul.palStrToUl (fmtDecimal z.natAbs ++ c :: rest') 10 =
      BitVec.ofNat 32 z.natAbs :=
    ul.reads _ (by omega) _ (List.takeWhile_cons_of_neg (Bool.not_eq_true _ ▸ hstop))
  have htoInt : (BitVec.ofNat 32 z.natAbs).toInt = z.natAbs := by
    rw [BitVec.toInt_eq_toNat_of_lt] <;> rw [BitVec.toNat_ofNat]
    · rw [Nat.mod_eq_of_lt (by omega)]
    · omega
  obtain ⟨d, ds, hd⟩ := List.exists_cons_of_ne_nil hnumber.1
  have hdigit := hnumber.2 d (by rw [hd]; exact List.mem_cons_self)
  have hskip (p : CStr) : skipWs (d :: p) = d :: p := by
    apply List.dropWhile_cons_of_neg
    intro hws
    simp only [Bool.or_eq_true, decide_eq_true_eq] at hws
    rcases hws with ((rfl | rfl) | rfl) | rfl <;> exact absurd hdigit (by decide)
  have hminus : d ≠ 45 := by
    intro heq
    subst heq
    exact absurd hdigit (by decide)
  unfold cfgJsonGetInt
  rw [hdoc, findKey_bufferText hkey hnul hpre (by omega), hrest']
  unfold fmtInt
  by_cases hneg : z < 0
  · have hskip' (p : CStr) : skipWs (45 :: p) = 45 :: p := List.dropWhile_cons_of_neg (by decide)
    rw [if_pos hneg, List.cons_append, hskip']
    change (-(ul.palStrToUl (fmtDecimal z.natAbs ++ c :: rest') 10)).toInt = z
    rw [hread, BitVec.toInt_neg, htoInt, Int.bmod_eq_of_le] <;> omega
  · rw [if_neg hneg, hd, List.cons_append, hskip, ← List.cons_append, ← hd]
    split
    · rename_i heq
      cases heq
    · rename_i p heq
      rw [hd, List.cons_append] at heq
      have h45 := Option.some.inj heq
      rw [List.cons.injEq] at h45
      exact absurd h45.1 hminus
    · rename_i p _ heq
      rw [← Option.some.inj heq, hread, htoInt]
      omega

end HomeAuto
