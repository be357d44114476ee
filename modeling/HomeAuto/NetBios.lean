import HomeAuto.CStrings
import HomeAuto.Lib.NibbleLetters
import Mathlib.Data.List.GetD

/-!
# The NetBIOS name responder (`netbiosns.c`)

`NetbiosnsInit` keeps the client id in upper case, cut to 15 characters, as the name of the
node.  `NbReceive` answers a query whose label, decoded by arithmetic and without its trailing
spaces, is that name.

The decoder takes any character for one of the letters `A` to `P`, and the name that was kept
is not trimmed.  So labels that are no encoding are answered, and a node whose name ends with a
space answers nobody; everything else is answered as it should be (`nbReceive_exact_iff`).
-/

namespace HomeAuto.Nbns

/-- `NBNS_NAME_LEN`, `NBNS_ENC_LEN`, `NBNS_HDR_LEN`, `NBNS_QTYPE_NB`, `NBNS_MIN_QUERY_LEN`. -/
def nbnsNameLen : Nat := 16
def nbnsEncLen : Nat := 32
def nbnsHdrLen : Nat := 12
def nbnsQtypeNb : UInt16 := 0x0020
def nbnsMinQueryLen : Nat := nbnsHdrLen + 1 + nbnsEncLen + 1 + 4

/-- `OFF_FLAGS`, `OFF_QDCOUNT`, `OFF_NAMELEN`, `OFF_ENCNAME`, `OFF_QTYPE`. -/
def offFlags : Nat := 2
def offQdcount : Nat := 4
def offNamelen : Nat := 12
def offEncname : Nat := 13
def offQtype : Nat := 46

/-- A pbuf, with the length of its chain. -/
structure Pbuf where
  payload : List UInt8
  totLen : Nat

namespace Pbuf

/-- A datagram in one pbuf. -/
def single (d : List UInt8) : Pbuf := ⟨d, d.length⟩

/-- `p->len`. -/
def len (p : Pbuf) : Nat := p.payload.length

/-- A read of some bytes; outside the pbuf there is nothing to be read. -/
def bytes (p : Pbuf) (off n : Nat) : Option (List UInt8) :=
  if off + n ≤ p.len then some ((p.payload.drop off).take n) else none
def byte (p : Pbuf) (off : Nat) : Option UInt8 := p.payload[off]?

/-- `(d[off] << 8) | d[off + 1]`. -/
def word (p : Pbuf) (off : Nat) : Option UInt16 := do
  let hi ← p.byte off
  let lo ← p.byte (off + 1)
  return (hi.toUInt16 <<< 8) ||| lo.toUInt16

end Pbuf

/-- `NbUpper`. -/
def nbUpper (c : UInt8) : UInt8 := if 97 ≤ c ∧ c ≤ 122 then c - 32 else c

/-- `NbDecodeName`. -/
def nbDecodeName : List UInt8 → List UInt8
  | hi :: lo :: enc => (((hi - 65) <<< 4) ||| ((lo - 65) &&& 0x0f)) :: nbDecodeName enc
  | [_] => []
  | [] => []

/-- The length without the trailing spaces, from `ui32Len` down. -/
def trimmedLen (pui8Raw : List UInt8) : Nat → Nat
  | 0 => 0
  | n + 1 => if pui8Raw.getD n 0 ≠ 32 then n + 1 else trimmedLen pui8Raw n

/-- The loop that compares the first `ui32Len` characters. -/
def namesAgree (pcNbName pui8Raw : List UInt8) : Nat → Bool
  | 0 => true
  | n + 1 =>
      if nbUpper (pui8Raw.getD n 0) ≠ pcNbName.getD n 0 then false
      else namesAgree pcNbName pui8Raw n

/-- `NbNameMatches`. -/
def nbNameMatches (pcNbName pui8Raw : List UInt8) : Bool :=
  if trimmedLen pui8Raw 15 ≠ pcNbName.length then false
  else namesAgree pcNbName pui8Raw (trimmedLen pui8Raw 15)

/-- The response. -/
def nbResponse (transaction enc : List UInt8) (ip4 : Fin 4 → UInt8) : List UInt8 :=
  transaction ++ [0x85, 0, 0, 0, 0, 1, 0, 0, 0, 0, 32] ++ enc ++
    [0, 0, 0x20, 0, 1, 0, 4, 0x93, 0xe0, 0, 6, 0, 0] ++ List.ofFn ip4

/-- `NbReceive`: no result at all is a read outside the datagram, and `some none` is silence.
`netifDefault` is the address of the default interface, and `allocated` the answer of
`pbuf_alloc`. -/
def nbReceive (pcNbName : List UInt8) (netifDefault : Option (Fin 4 → UInt8))
    (allocated : Bool) (p : Pbuf) : Option (Option (List UInt8)) :=
  if p.len < nbnsMinQueryLen ∨ p.totLen ≠ p.len then some none
  else do
    let ui16Flags ← p.word offFlags
    let ui16QdCount ← p.word offQdcount
    if ui16Flags &&& 0x8000 ≠ 0 ∨ ui16Flags &&& 0x7800 ≠ 0 ∨ ui16QdCount < 1 then some none
    else do
      let ui16QType ← p.word offQtype
      let nameLen ← p.byte offNamelen
      if nameLen ≠ 32 ∨ ui16QType ≠ nbnsQtypeNb then some none
      else do
        let enc ← p.bytes offEncname nbnsEncLen
        if nbNameMatches pcNbName (nbDecodeName enc) = false then some none
        else
          match netifDefault with
          | none => some none
          | some ip4 =>
              if (∀ i, ip4 i = 0) ∨ allocated = false then some none
              else do
                let transaction ← p.bytes 0 2
                return some (nbResponse transaction enc ip4)

/-- `g_pcNbName` after `NetbiosnsInit`. -/
def netbiosnsName (pcId : CStr) : List UInt8 := (pcId.take 15).map nbUpper

/-- A datagram on the port that `NetbiosnsInit` has opened, if it has a name to serve. -/
def nbnsDatagram (pcId : CStr) (netifDefault : Option (Fin 4 → UInt8)) (allocated : Bool)
    (p : Pbuf) : Option (Option (List UInt8)) :=
  if netbiosnsName pcId = [] then some none
  else nbReceive (netbiosnsName pcId) netifDefault allocated p

/-! ## What a query asks for -/

/-- The 32 characters of the label. -/
def label (d : List UInt8) : List UInt8 := (d.drop offEncname).take nbnsEncLen

/-- A big-endian field of a datagram. -/
def field (d : List UInt8) (off : Nat) : UInt16 :=
  ((d.getD off 0).toUInt16 <<< 8) ||| (d.getD (off + 1) 0).toUInt16

/-- A query of type NB with a label of 32 characters: response bit clear, opcode 0, and at least
one question. -/
structure NbQuery (d : List UInt8) : Prop where
  long : nbnsMinQueryLen ≤ d.length
  response : field d offFlags &&& 0x8000 = 0
  opcode : field d offFlags &&& 0x7800 = 0
  questions : 1 ≤ field d offQdcount
  labelLen : d.getD offNamelen 0 = 32
  type : field d offQtype = nbnsQtypeNb

/-- The client id cut to 15 characters, and padded with spaces. -/
def paddedId (pcId : CStr) : List UInt8 :=
  pcId.take 15 ++ List.replicate (15 - (pcId.take 15).length) 32

/-- The label is the first-level encoding of the padded client id, in any case, and of some
service byte. -/
def AsksFor (pcId : CStr) (enc : List UInt8) : Prop :=
  ∃ name service, enc = NibbleLetters.encode 65 (name ++ [service]) ∧
    name.map nbUpper = (paddedId pcId).map nbUpper

/-- Only the letters `A` to `P`. -/
def Letters (enc : List UInt8) : Prop := ∀ c ∈ enc, 65 ≤ c ∧ c ≤ 80

instance (enc : List UInt8) : Decidable (Letters enc) := List.decidableBAll _ enc

/-- The client id ends with a space, after the cut. -/
def EndsInSpace (pcId : CStr) : Prop := (pcId.take 15).getLast? = some 32

/-! ## Reads -/

namespace Pbuf

theorem byte_single {d : List UInt8} {off : Nat} (h : off < d.length) :
    (single d).byte off = some (d.getD off 0) := by
  rw [byte, single, List.getElem?_eq_getElem h, List.getD_eq_getElem d 0 h]

theorem word_single {d : List UInt8} {off : Nat} (h : off + 1 < d.length) :
    (single d).word off = some (field d off) := by
  rw [word, byte_single (by omega), byte_single h]
  rfl

theorem bytes_single {d : List UInt8} {off n : Nat} (h : off + n ≤ d.length) :
    (single d).bytes off n = some ((d.drop off).take n) := if_pos h

end Pbuf

/-- The reads of a datagram that is long enough. -/
theorem reads_single {d : List UInt8} (h : nbnsMinQueryLen ≤ d.length) :
    (Pbuf.single d).word offFlags = some (field d offFlags) ∧
      (Pbuf.single d).word offQdcount = some (field d offQdcount) ∧
      (Pbuf.single d).word offQtype = some (field d offQtype) ∧
      (Pbuf.single d).byte offNamelen = some (d.getD offNamelen 0) ∧
      (Pbuf.single d).bytes offEncname nbnsEncLen = some (label d) ∧
      (Pbuf.single d).bytes 0 2 = some (d.take 2) := by
  have hlong : 50 ≤ d.length := h
  refine ⟨Pbuf.word_single ?_, Pbuf.word_single ?_, Pbuf.word_single ?_, Pbuf.byte_single ?_,
    Pbuf.bytes_single ?_, Pbuf.bytes_single ?_⟩
  · unfold offFlags
    omega
  · unfold offQdcount
    omega
  · unfold offQtype
    omega
  · unfold offNamelen
    omega
  · unfold offEncname nbnsEncLen
    omega
  · omega

variable {pcNbName : List UInt8} {netifDefault : Option (Fin 4 → UInt8)} {allocated : Bool}

/-- Other datagrams than queries are dropped. -/
theorem nbReceive_of_not_query {d : List UInt8} (h : ¬NbQuery d) :
    nbReceive pcNbName netifDefault allocated (.single d) = some none := by
  unfold nbReceive
  split
  · rfl
  · rename_i hwhole
    have hlen : nbnsMinQueryLen ≤ d.length := Nat.not_lt.mp (not_or.mp hwhole).1
    obtain ⟨hflags, hcount, htype, hname, -⟩ := reads_single hlen
    rw [hflags, hcount]
    simp only [Option.bind_eq_bind, Option.bind_some]
    split
    · rfl
    · rename_i hhead
      obtain ⟨hresponse, hrest⟩ := not_or.mp hhead
      obtain ⟨hopcode, hquestions⟩ := not_or.mp hrest
      rw [htype, hname]
      simp only [Option.bind_some]
      refine if_pos (by_contra fun hkind => h ?_)
      obtain ⟨hlabel, hnb⟩ := not_or.mp hkind
      exact ⟨hlen, not_not.mp hresponse, not_not.mp hopcode, UInt16.not_lt.mp hquestions,
        not_not.mp hlabel, not_not.mp hnb⟩

/-- A query is answered if the name is the node's, the interface has an address and there is a
pbuf. -/
theorem nbReceive_of_query {d : List UInt8} (h : NbQuery d) :
    nbReceive pcNbName netifDefault allocated (.single d) =
      if nbNameMatches pcNbName (nbDecodeName (label d)) = false then some none
      else
        match netifDefault with
        | none => some none
        | some ip4 =>
            if (∀ i, ip4 i = 0) ∨ allocated = false then some none
            else some (some (nbResponse (d.take 2) (label d) ip4)) := by
  obtain ⟨hflags, hcount, htype, hname, henc, hid⟩ := reads_single h.long
  have hwhole : ¬((Pbuf.single d).len < nbnsMinQueryLen ∨
      (Pbuf.single d).totLen ≠ (Pbuf.single d).len) :=
    not_or.mpr ⟨Nat.not_lt.mpr h.long, not_not.mpr rfl⟩
  have hhead : ¬(field d offFlags &&& 0x8000 ≠ 0 ∨ field d offFlags &&& 0x7800 ≠ 0 ∨
      field d offQdcount < 1) :=
    not_or.mpr ⟨not_not.mpr h.response, not_or.mpr ⟨not_not.mpr h.opcode,
      UInt16.not_lt.mpr h.questions⟩⟩
  have hkind : ¬(d.getD offNamelen 0 ≠ 32 ∨ field d offQtype ≠ nbnsQtypeNb) :=
    not_or.mpr ⟨not_not.mpr h.labelLen, not_not.mpr h.type⟩
  rw [nbReceive, if_neg hwhole, hflags, hcount]
  simp only [Option.bind_eq_bind, Option.bind_some]
  rw [if_neg hhead, htype, hname]
  simp only [Option.bind_some]
  rw [if_neg hkind, henc, hid]
  rfl

/-! ## The name -/

/-- A space is no lower-case letter, and no other character becomes one. -/
theorem nbUpper_eq_space {c : UInt8} : nbUpper c = 32 ↔ c = 32 := by
  unfold nbUpper
  split
  · rename_i hlower
    have hlow : 97 ≤ c.toNat := UInt8.le_iff_toNat_le.mp hlower.1
    have hhigh : c.toNat ≤ 122 := UInt8.le_iff_toNat_le.mp hlower.2
    have hle : (32 : UInt8) ≤ c := UInt8.le_iff_toNat_le.mpr (by change 32 ≤ c.toNat; omega)
    have hsub : (c - 32).toNat = c.toNat - 32 := UInt8.toNat_sub_of_le c 32 hle
    rw [← UInt8.toNat_inj, ← UInt8.toNat_inj, hsub]
    change c.toNat - 32 = 32 ↔ c.toNat = 32
    omega
  · rfl

theorem nbDecodeName_eq (enc : List UInt8) : nbDecodeName enc = NibbleLetters.decode 65 enc := by
  induction enc using nbDecodeName.induct with
  | case1 hi lo enc ih =>
      rw [nbDecodeName, NibbleLetters.decode, ih]
      rfl
  | case2 c => rfl
  | case3 => rfl

/-- The spaces behind the trimmed name, and the character that ends it. -/
theorem trimmedLen_spec (raw : List UInt8) (n : Nat) :
    trimmedLen raw n ≤ n ∧ (∀ i, trimmedLen raw n ≤ i → i < n → raw.getD i 0 = 32) ∧
      (0 < trimmedLen raw n → raw.getD (trimmedLen raw n - 1) 0 ≠ 32) := by
  induction n with
  | zero =>
      exact ⟨le_rfl, fun i _ hi => absurd hi (Nat.not_lt_zero i),
        fun h => absurd h (Nat.lt_irrefl 0)⟩
  | succ n ih =>
      rw [trimmedLen]
      split
      · rename_i hchar
        exact ⟨le_rfl, fun i hle hi => absurd hi (Nat.not_lt.mpr hle), fun _ => hchar⟩
      · rename_i hspace
        obtain ⟨hle, hblank, hend⟩ := ih
        refine ⟨hle.trans (Nat.le_succ n), fun i hi hin => ?_, hend⟩
        rcases Nat.lt_succ_iff_lt_or_eq.mp hin with hlt | rfl
        · exact hblank i hi hlt
        · exact not_not.mp hspace

theorem namesAgree_iff (pcNbName raw : List UInt8) (n : Nat) :
    namesAgree pcNbName raw n = true ↔ ∀ i < n, nbUpper (raw.getD i 0) = pcNbName.getD i 0 := by
  induction n with
  | zero => simp [namesAgree]
  | succ n ih =>
      rw [namesAgree]
      split
      · rename_i hne
        exact iff_of_false Bool.false_ne_true fun h => hne (h n (Nat.lt_succ_self n))
      · rename_i heq
        rw [ih]
        constructor
        · intro h i hi
          rcases Nat.lt_succ_iff_lt_or_eq.mp hi with hlt | rfl
          · exact h i hlt
          · exact not_not.mp heq
        · exact fun h i hi => h i (Nat.lt_succ_of_lt hi)

/-- Lists of one length are compared character by character. -/
theorem eq_iff_getD {l l' : List UInt8} {n : Nat} (h : l.length = n) (h' : l'.length = n) :
    l = l' ↔ ∀ i < n, l.getD i 0 = l'.getD i 0 := by
  constructor
  · rintro rfl i _
    rfl
  · intro heq
    refine List.ext_getElem (h.trans h'.symm) fun i hi hi' => ?_
    have hchar := heq i (h ▸ hi)
    rwa [List.getD_eq_getElem l 0 hi, List.getD_eq_getElem l' 0 hi'] at hchar

theorem getD_map_nbUpper {l : List UInt8} {i : Nat} (h : i < l.length) :
    (l.map nbUpper).getD i 0 = nbUpper (l.getD i 0) := by
  rw [List.getD_eq_getElem _ 0 (by rwa [List.length_map]), List.getElem_map,
    List.getD_eq_getElem l 0 h]

theorem length_paddedId (pcId : CStr) : (paddedId pcId).length = 15 := by
  have hshort : (pcId.take 15).length ≤ 15 := List.length_take_le _ _
  rw [paddedId, List.length_append, List.length_replicate]
  omega

/-- The padded name, character by character. -/
theorem map_take_eq_padded_iff {raw : List UInt8} (hraw : raw.length = nbnsNameLen)
    (pcId : CStr) :
    (raw.take 15).map nbUpper = (paddedId pcId).map nbUpper ↔
      (∀ i < (pcId.take 15).length, nbUpper (raw.getD i 0) = (netbiosnsName pcId).getD i 0) ∧
        ∀ i, (pcId.take 15).length ≤ i → i < 15 → raw.getD i 0 = 32 := by
  have hshort : (pcId.take 15).length ≤ 15 := List.length_take_le _ _
  have hlen : raw.length = 16 := hraw
  have htake : (raw.take 15).length = 15 := by
    rw [List.length_take]
    omega
  have hleft {i : Nat} (hi : i < 15) :
      ((raw.take 15).map nbUpper).getD i 0 = nbUpper (raw.getD i 0) := by
    rw [getD_map_nbUpper (by omega), List.getD_eq_getElem _ 0 (by omega), List.getElem_take,
      List.getD_eq_getElem raw 0 (by omega)]
  have hfront {i : Nat} (hi : i < (pcId.take 15).length) :
      ((paddedId pcId).map nbUpper).getD i 0 = (netbiosnsName pcId).getD i 0 := by
    rw [paddedId, List.map_append, List.getD_append _ _ _ _ (by rwa [List.length_map])]
    rfl
  have hback {i : Nat} (hi : (pcId.take 15).length ≤ i) (hi' : i < 15) :
      ((paddedId pcId).map nbUpper).getD i 0 = 32 := by
    rw [getD_map_nbUpper (by rwa [length_paddedId]), paddedId,
      List.getD_append_right _ _ _ _ hi, List.getD_replicate _ (by omega)]
    rfl
  rw [eq_iff_getD (by rw [List.length_map, htake]) (by rw [List.length_map, length_paddedId])]
  constructor
  · intro h
    refine ⟨fun i hi => ?_, fun i hle hi => ?_⟩
    · rw [← hleft (by omega), h i (by omega), hfront hi]
    · rw [← nbUpper_eq_space, ← hleft hi, h i hi, hback hle hi]
  · rintro ⟨hsame, hspaces⟩ i hi
    by_cases hin : i < (pcId.take 15).length
    · rw [hleft hi, hfront hin, hsame i hin]
    · rw [hleft hi, hback (Nat.not_lt.mp hin) hi, nbUpper_eq_space]
      exact hspaces i (Nat.not_lt.mp hin) hi

theorem endsInSpace_iff (pcId : CStr) :
    EndsInSpace pcId ↔ 0 < (pcId.take 15).length ∧
      (pcId.take 15).getD ((pcId.take 15).length - 1) 0 = 32 := by
  rw [EndsInSpace, List.getLast?_eq_getElem?]
  constructor
  · intro h
    obtain ⟨hlt, heq⟩ := List.getElem?_eq_some_iff.mp h
    exact ⟨by omega, by rw [List.getD_eq_getElem _ 0 hlt, heq]⟩
  · rintro ⟨hpos, heq⟩
    have hlt : (pcId.take 15).length - 1 < (pcId.take 15).length := by omega
    rw [List.getD_eq_getElem _ 0 hlt] at heq
    rw [List.getElem?_eq_getElem hlt, heq]

/-- **The comparison** finds the padded name, unless it ends with a space. -/
theorem nbNameMatches_iff {raw : List UInt8} (hraw : raw.length = nbnsNameLen) (pcId : CStr) :
    nbNameMatches (netbiosnsName pcId) raw = true ↔
      (raw.take 15).map nbUpper = (paddedId pcId).map nbUpper ∧ ¬EndsInSpace pcId := by
  obtain ⟨hle, hblank, hend⟩ := trimmedLen_spec raw 15
  have hlen : (netbiosnsName pcId).length = (pcId.take 15).length := List.length_map _
  have hshort : (pcId.take 15).length ≤ 15 := List.length_take_le _ _
  have hname {i : Nat} (hi : i < (pcId.take 15).length) :
      (netbiosnsName pcId).getD i 0 = nbUpper ((pcId.take 15).getD i 0) := getD_map_nbUpper hi
  rw [map_take_eq_padded_iff hraw, endsInSpace_iff]
  unfold nbNameMatches
  rw [hlen]
  constructor
  · intro h
    split at h
    · cases h
    · rename_i htrim
      rw [not_not] at htrim
      rw [htrim] at h hblank hend
      have hagree := (namesAgree_iff _ _ _).mp h
      refine ⟨⟨hagree, hblank⟩, ?_⟩
      -- a last character that is a space would have been trimmed
      rintro ⟨hpos, hspace⟩
      have hlast := hagree _ (Nat.sub_lt hpos Nat.one_pos)
      rw [hname (Nat.sub_lt hpos Nat.one_pos), hspace, nbUpper_eq_space.mpr rfl,
        nbUpper_eq_space] at hlast
      exact hend hpos hlast
  · rintro ⟨⟨hagree, hspaces⟩, hnot⟩
    have htrim : trimmedLen raw 15 = (pcId.take 15).length := by
      rcases lt_trichotomy (trimmedLen raw 15) (pcId.take 15).length with hlt | heq | hgt
      · exfalso
        have hpos : 0 < (pcId.take 15).length := by omega
        have hlast := hagree _ (Nat.sub_lt hpos Nat.one_pos)
        rw [hblank _ (by omega) (by omega), hname (Nat.sub_lt hpos Nat.one_pos),
          nbUpper_eq_space.mpr rfl, eq_comm, nbUpper_eq_space] at hlast
        exact hnot ⟨hpos, hlast⟩
      · exact heq
      · exact absurd (hspaces _ (by omega) (by omega)) (hend (by omega))
    rw [if_neg (not_not.mpr htrim), htrim]
    exact (namesAgree_iff _ _ _).mpr hagree

/-! ## Labels -/

theorem length_label {d : List UInt8} (h : NbQuery d) : (label d).length = 2 * nbnsNameLen := by
  have hlong : 50 ≤ d.length := h.long
  rw [label, List.length_take, List.length_drop]
  unfold offEncname nbnsEncLen nbnsNameLen
  omega

/-- The letter that the decoder takes a character for. -/
def toLetter (c : UInt8) : UInt8 := NibbleLetters.toLetter 65 c

theorem toLetter_eq_self_iff {c : UInt8} : toLetter c = c ↔ 65 ≤ c ∧ c ≤ 80 := by
  rw [toLetter, NibbleLetters.toLetter_eq_self_iff, UInt8.lt_iff_toNat_lt, UInt8.le_iff_toNat_le,
    UInt8.le_iff_toNat_le, UInt8.toNat_sub]
  have hc := c.toNat_lt
  change (2 ^ 8 - 65 + c.toNat) % 2 ^ 8 < 16 ↔ 65 ≤ c.toNat ∧ c.toNat ≤ 80
  omega

theorem letters_iff {enc : List UInt8} : Letters enc ↔ enc.map toLetter = enc := by
  rw [Letters]
  constructor
  · intro h
    exact (List.map_congr_left fun c hc => toLetter_eq_self_iff.mpr (h c hc)).trans
      (List.map_id enc)
  · intro h c hc
    refine toLetter_eq_self_iff.mp ?_
    exact List.map_inj_left.mp (h.trans (List.map_id enc).symm) c hc

/-- What is asked for is asked for in letters. -/
theorem AsksFor.letters {pcId : CStr} {enc : List UInt8} (h : AsksFor pcId enc) : Letters enc := by
  obtain ⟨name, service, rfl, -⟩ := h
  exact fun c hc => toLetter_eq_self_iff.mp (NibbleLetters.toLetter_of_mem_encode hc)

/-- What the label spells, read by its letters, is what the decoder reads. -/
theorem asksFor_toLetter_iff {pcId : CStr} {enc : List UInt8}
    (henc : enc.length = 2 * nbnsNameLen) :
    AsksFor pcId (enc.map toLetter) ↔
      ((nbDecodeName enc).take 15).map nbUpper = (paddedId pcId).map nbUpper := by
  have hraw : (nbDecodeName enc).length = 16 := by
    rw [nbDecodeName_eq]
    exact NibbleLetters.length_decode henc
  have hencode : enc.map toLetter = NibbleLetters.encode 65 (nbDecodeName enc) := by
    rw [nbDecodeName_eq, NibbleLetters.encode_decode ⟨nbnsNameLen, henc⟩]
    rfl
  rw [AsksFor, hencode]
  constructor
  · rintro ⟨name, service, heq, hname⟩
    have hsame := NibbleLetters.encode_injective heq
    have hlen : name.length = 15 := by
      have hlen := congrArg List.length hsame
      rw [hraw, List.length_append, List.length_singleton] at hlen
      omega
    rw [hsame, ← hlen, List.take_left]
    exact hname
  · intro h
    refine ⟨_, (nbDecodeName enc).getD 15 0, ?_, h⟩
    rw [List.getD_eq_getElem _ 0 (by omega), List.take_append_getElem,
      List.take_of_length_le (by omega)]

/-! ## Exactness -/

/-- **Which queries are answered**: those whose letters spell the name, unless the name ends with
a space.  Every read is inside the datagram. -/
theorem nbnsDatagram_spec {pcId : CStr} (hid : pcId ≠ []) {ip4 : Fin 4 → UInt8}
    (hip : ∃ i, ip4 i ≠ 0) (d : List UInt8) :
    ∃ out, nbnsDatagram pcId (some ip4) true (.single d) = some out ∧
      (∀ r, out = some r → r = nbResponse (d.take 2) (label d) ip4) ∧
      (out.isSome = true ↔ NbQuery d ∧ AsksFor pcId ((label d).map toLetter) ∧
        ¬EndsInSpace pcId) := by
  have hname : netbiosnsName pcId ≠ [] := by
    simp [netbiosnsName, hid]
  have haddress : ¬((∀ i, ip4 i = 0) ∨ true = false) := by
    simpa using hip
  rw [nbnsDatagram, if_neg hname]
  by_cases hquery : NbQuery d
  · have hraw : (nbDecodeName (label d)).length = nbnsNameLen := by
      rw [nbDecodeName_eq]
      exact NibbleLetters.length_decode (length_label hquery)
    have hmatch : nbNameMatches (netbiosnsName pcId) (nbDecodeName (label d)) = true ↔
        AsksFor pcId ((label d).map toLetter) ∧ ¬EndsInSpace pcId := by
      rw [nbNameMatches_iff hraw, asksFor_toLetter_iff (length_label hquery)]
    rw [nbReceive_of_query hquery]
    split
    · rename_i hno
      rw [hno] at hmatch
      exact ⟨none, rfl, fun r hr => absurd hr (Option.some_ne_none r).symm,
        iff_of_false Bool.false_ne_true fun h => Bool.false_ne_true (hmatch.mpr h.2)⟩
    · rename_i hyes
      have hasked := hmatch.mp (Bool.eq_true_of_not_eq_false hyes)
      dsimp only
      rw [if_neg haddress]
      exact ⟨_, rfl, fun r hr => (Option.some.inj hr).symm, iff_of_true rfl ⟨hquery, hasked⟩⟩
  · rw [nbReceive_of_not_query hquery]
    exact ⟨none, rfl, fun r hr => absurd hr (Option.some_ne_none r).symm,
      iff_of_false Bool.false_ne_true fun h => hquery h.1⟩

/-- The response repeats the transaction id and the label of the query. -/
theorem echo_nbResponse {d : List UInt8} (h : NbQuery d) (ip4 : Fin 4 → UInt8) :
    (nbResponse (d.take 2) (label d) ip4).take 2 = d.take 2 ∧
      label (nbResponse (d.take 2) (label d) ip4) = label d := by
  have hlong : 50 ≤ d.length := h.long
  have hid : (d.take 2).length = 2 := by
    rw [List.length_take]
    omega
  have henc : (label d).length = 32 := length_label h
  unfold nbResponse
  constructor
  · simp only [List.append_assoc]
    rw [List.take_append_of_le_length hid.ge, List.take_of_length_le hid.le]
  · have hhead : (d.take 2 ++ [0x85, 0, 0, 0, 0, 1, 0, 0, 0, 0, 32]).length = offEncname := by
      rw [List.length_append, hid]
      rfl
    generalize d.take 2 ++ [0x85, 0, 0, 0, 0, 1, 0, 0, 0, 0, 32] = head at hhead
    simp only [List.append_assoc]
    rw [label, List.drop_left' hhead]
    exact List.take_left' henc

/-- **When the responder is exact.**  Every read is inside the datagram, and a response repeats
the transaction id and the name.  A datagram is answered exactly if it is a query for the name,
but for the queries whose label spells the name by the letters its characters are taken for:
for these the label must be made of letters if the name does not end with a space, and must not
if it does. -/
theorem nbReceive_exact_iff {pcId : CStr} (hid : pcId ≠ []) {ip4 : Fin 4 → UInt8}
    (hip : ∃ i, ip4 i ≠ 0) (d : List UInt8) :
    ∃ out, nbnsDatagram pcId (some ip4) true (.single d) = some out ∧
      (∀ r, out = some r → r.take 2 = d.take 2 ∧ label r = label d) ∧
      ((out.isSome = true ↔ NbQuery d ∧ AsksFor pcId (label d)) ↔
        (NbQuery d → AsksFor pcId ((label d).map toLetter) →
          (Letters (label d) ↔ ¬EndsInSpace pcId))) := by
  obtain ⟨out, hout, hresponse, hasked⟩ := nbnsDatagram_spec hid hip d
  have hletters : AsksFor pcId (label d) ↔
      Letters (label d) ∧ AsksFor pcId ((label d).map toLetter) := by
    constructor
    · intro h
      have hmap := letters_iff.mp h.letters
      exact ⟨h.letters, hmap.symm ▸ h⟩
    · rintro ⟨hmade, h⟩
      rwa [letters_iff.mp hmade] at h
  refine ⟨out, hout, fun r hr => ?_, ?_⟩
  · rw [hresponse r hr]
    refine echo_nbResponse (hasked.mp ?_).1 ip4
    rw [hr]
    rfl
  · rw [hasked, hletters]
    constructor
    · intro h hquery hspelled
      exact ⟨fun hmade => (h.mpr ⟨hquery, hmade, hspelled⟩).2.2,
        fun hend => (h.mp ⟨hquery, hspelled, hend⟩).2.1⟩
    · intro h
      constructor
      · rintro ⟨hquery, hspelled, hend⟩
        exact ⟨hquery, (h hquery hspelled).mpr hend, hspelled⟩
      · rintro ⟨hquery, hmade, hspelled⟩
        exact ⟨hquery, hspelled, (h hquery hspelled).mp hmade⟩

/-! ## Two wrong answers -/

/-- A query of type NB with a label. -/
def nbQueryFor (enc : List UInt8) : List UInt8 :=
  [0x12, 0x34, 0x01, 0x10, 0, 1, 0, 0, 0, 0, 0, 0, 32] ++ enc ++ [0, 0, 0x20, 0, 1]

/-- The label that asks for `HUB`, and the same with its first character off by sixteen. -/
def hubLabel : List UInt8 :=
  NibbleLetters.encode 65 (ascii "HUB" ++ List.replicate 12 32 ++ [0])
def shiftedLabel : List UInt8 := 0x55 :: hubLabel.tail

/-- The address of the interface. -/
def hubAddress (i : Fin 4) : UInt8 := [10, 0, 0, 7].getD i 0

theorem nbQuery_hubLabel : NbQuery (nbQueryFor hubLabel) :=
  ⟨by decide, by decide, by decide, by decide, by decide, by decide⟩

/-- The query is answered. -/
theorem nbReceive_exact_hub :
    ∃ out, nbnsDatagram (ascii "hub") (some hubAddress) true (.single (nbQueryFor hubLabel)) =
      some out ∧ out.isSome = true := by
  obtain ⟨out, hout, -, hiff⟩ := nbReceive_exact_iff (List.cons_ne_nil 104 [117, 98])
    (⟨0, by decide⟩ : ∃ i, hubAddress i ≠ 0) (nbQueryFor hubLabel)
  have hletters : Letters (label (nbQueryFor hubLabel)) := by
    decide
  have hend : ¬EndsInSpace [104, 117, 98] := by
    unfold EndsInSpace
    decide
  have hasks : AsksFor [104, 117, 98] (label (nbQueryFor hubLabel)) :=
    ⟨ascii "HUB" ++ List.replicate 12 32, 0, by decide, by decide⟩
  have hexact := hiff.mpr fun _ _ => iff_of_true hletters hend
  exact ⟨out, hout, hexact.mpr ⟨nbQuery_hubLabel, hasks⟩⟩

/-- A label that is no encoding is answered, and the name with a trailing space is not. -/
theorem wrong_answers :
    ((nbnsDatagram (ascii "hub") (some hubAddress) true
          (.single (nbQueryFor shiftedLabel))).join.isSome = true ∧
        ¬AsksFor (ascii "hub") (label (nbQueryFor shiftedLabel))) ∧
      nbnsDatagram (ascii "hub ") (some hubAddress) true (.single (nbQueryFor hubLabel)) =
          some none ∧
        NbQuery (nbQueryFor hubLabel) ∧ AsksFor (ascii "hub ") (label (nbQueryFor hubLabel)) := by
  refine ⟨⟨by decide +kernel, fun h => ?_⟩, by decide +kernel, nbQuery_hubLabel, ?_⟩
  · have hfirst : (0x55 : UInt8) ∈ label (nbQueryFor shiftedLabel) := by decide
    exact absurd (h.letters _ hfirst).2 (by decide)
  · exact ⟨ascii "HUB" ++ List.replicate 12 32, 0, by decide, by decide⟩

end HomeAuto.Nbns
