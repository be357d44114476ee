import HomeAuto.Lib.Framing
import Mathlib.Data.List.GetD

/-!
# MQTT framing (`MQTTRecvCB` in `mqtt_client.c`)

The receive callback copies a delivery into the assembly buffer and then splits off
complete packets: `rxHeader` is the header decoding of one pass of its parse loop.
It is a stable decoder, and it recognises every packet that is well formed in the sense
of MQTT 3.1.1 and fits the buffer, so the library's results on bounded framing apply.
-/

namespace HomeAuto

/-- `MQTT_RXBUF_SIZE`. -/
def mqttRxbufSize : Nat := 512

/-- What the parse loop learns of a complete packet: `ui16HdrLen` and `ui32RemLen`. -/
structure RxHeader where
  hdrLen : Nat
  remLen : Nat
  deriving DecidableEq

/-- The length of the packet. -/
def RxHeader.size (k : RxHeader) : Nat := k.hdrLen + k.remLen

/-- The loop that decodes the remaining length: at most `n` more bytes, multiplier
`ui16Mult` (16 bits, so it is 0 for the fourth byte). -/
def remLenLoop : Nat → Nat → RxHeader → List UInt8 → RxHeader
  | 0, _, k, _ => k
  | _ + 1, _, k, [] => k
  | n + 1, mult, k, b :: bs =>
      if b &&& 0x80 = 0 then ⟨k.hdrLen + 1, k.remLen + (b &&& 0x7F).toNat * mult⟩
      else
        remLenLoop n ((mult <<< 7) % 65536)
          ⟨k.hdrLen + 1, k.remLen + (b &&& 0x7F).toNat * mult⟩ bs

/-- One pass of the parse loop: the header of a complete packet at the front of the
buffer, or `none` to wait for more. -/
def rxHeader (rx : List UInt8) : Option RxHeader :=
  if rx.length < 2 then none
  else
    let k := remLenLoop 4 1 ⟨1, 0⟩ (rx.drop 1)
    if rx.getD (k.hdrLen - 1) 0 &&& 0x80 ≠ 0 ∧ rx.length ≤ k.hdrLen then none
    else if rx.length < k.size then none
    else some k

/-! ## The decoder is stable -/

theorem remLenLoop_hdrLen (n mult : Nat) (k : RxHeader) (bs : List UInt8) :
    k.hdrLen ≤ (remLenLoop n mult k bs).hdrLen ∧
      (remLenLoop n mult k bs).hdrLen ≤ k.hdrLen + bs.length := by
  induction n generalizing mult k bs with
  | zero => simp [remLenLoop]
  | succ n ih =>
      cases bs with
      | nil => simp [remLenLoop]
      | cons b bs =>
          unfold remLenLoop
          split
          · simp
          · have := ih ((mult <<< 7) % 65536)
              ⟨k.hdrLen + 1, k.remLen + (b &&& 0x7F).toNat * mult⟩ bs
            simp only [List.length_cons] at this ⊢
            omega

theorem two_le_hdrLen (b : UInt8) (bs : List UInt8) :
    2 ≤ (remLenLoop 4 1 ⟨1, 0⟩ (b :: bs)).hdrLen := by
  unfold remLenLoop
  split
  · simp
  · exact (remLenLoop_hdrLen 3 (1 <<< 7 % 65536) ⟨1 + 1, _⟩ bs).1

/-- More data leaves the decoded header alone, unless the loop ran out of data in the
middle of the length field. -/
theorem remLenLoop_append (n mult : Nat) (k : RxHeader) (bs more : List UInt8) :
    remLenLoop n mult k (bs ++ more) = remLenLoop n mult k bs ∨
      (remLenLoop n mult k bs).hdrLen = k.hdrLen + bs.length ∧
        ∀ b ∈ bs, b &&& 0x80 ≠ 0 := by
  induction n generalizing mult k bs with
  | zero => exact .inl rfl
  | succ n ih =>
      cases bs with
      | nil => exact .inr ⟨rfl, by simp⟩
      | cons b bs =>
          by_cases hb : b &&& 0x80 = 0
          · exact .inl (by simp [remLenLoop, hb])
          · simp only [List.cons_append, remLenLoop, if_neg hb]
            rcases ih ((mult <<< 7) % 65536)
                ⟨k.hdrLen + 1, k.remLen + (b &&& 0x7F).toNat * mult⟩ bs with h | ⟨h, hall⟩
            · exact .inl h
            · refine .inr ⟨?_, ?_⟩
              · simp only [h, List.length_cons]
                omega
              · intro c hc
                rcases List.mem_cons.mp hc with rfl | hc
                · exact hb
                · exact hall c hc

/-- The packet at the front of a buffer, when it is complete. -/
theorem rxHeader_eq_some_iff {rx : List UInt8} {k : RxHeader} :
    rxHeader rx = some k ↔ 2 ≤ rx.length ∧ k = remLenLoop 4 1 ⟨1, 0⟩ (rx.drop 1) ∧
      (rx.getD (k.hdrLen - 1) 0 &&& 0x80 = 0 ∨ k.hdrLen < rx.length) ∧ k.size ≤ rx.length := by
  unfold rxHeader
  by_cases h2 : rx.length < 2
  · simp only [h2, if_true]
    constructor
    · intro h
      cases h
    · rintro ⟨h, _⟩
      omega
  · simp only [h2, if_false]
    constructor
    · intro h
      split at h
      · cases h
      · rename_i hfield
        split at h
        · cases h
        · rename_i hsize
          cases h
          refine ⟨by omega, rfl, ?_, by omega⟩
          by_contra hno
          rw [not_or, Nat.not_lt] at hno
          exact hfield hno
    · rintro ⟨_, rfl, hfield, hsize⟩
      rw [if_neg, if_neg (by omega)]
      rintro ⟨hcont, hlen⟩
      rcases hfield with h | h
      · exact hcont h
      · omega

theorem stable_rxHeader : Framing.Stable rxHeader RxHeader.size where
  pos := by
    intro rx k hk
    obtain ⟨h2, rfl, _, _⟩ := rxHeader_eq_some_iff.mp hk
    obtain ⟨t, b, bs, rfl⟩ : ∃ t b bs, rx = t :: b :: bs := by
      match rx, h2 with
      | t :: b :: bs, _ => exact ⟨t, b, bs, rfl⟩
    have := two_le_hdrLen b bs
    unfold RxHeader.size
    simp only [List.drop_one, List.tail_cons]
    omega
  le := fun rx k hk => (rxHeader_eq_some_iff.mp hk).2.2.2
  append := by
    intro rx k more hk
    obtain ⟨h2, hkeq, hfield, hsize⟩ := rxHeader_eq_some_iff.mp hk
    have hdrop : (rx ++ more).drop 1 = rx.drop 1 ++ more :=
      List.drop_append_of_le_length (by omega)
    have hle := (remLenLoop_hdrLen 4 1 ⟨1, 0⟩ (rx.drop 1)).2
    rw [← hkeq, List.length_drop] at hle
    simp only at hle
    have hget : (rx ++ more).getD (k.hdrLen - 1) 0 = rx.getD (k.hdrLen - 1) 0 := by
      rw [List.getD_append _ _ _ _ (by omega)]
    refine rxHeader_eq_some_iff.mpr ⟨by rw [List.length_append]; omega, ?_, ?_,
      by rw [List.length_append]; omega⟩
    · rw [hdrop]
      rcases remLenLoop_append 4 1 ⟨1, 0⟩ (rx.drop 1) more with h | ⟨hend, hall⟩
      · rw [h]
        exact hkeq
      · -- the length field would still be open, and the decoder would have waited
        exfalso
        rw [← hkeq, List.length_drop] at hend
        simp only at hend
        have hlast : rx.getD (k.hdrLen - 1) 0 ∈ rx.drop 1 := by
          rw [List.getD_eq_getElem _ _ (by omega)]
          refine List.mem_iff_getElem.mpr ⟨k.hdrLen - 2, by rw [List.length_drop]; omega, ?_⟩
          rw [List.getElem_drop]
          congr 1
          omega
        rcases hfield with h | h
        · exact hall _ hlast h
        · omega
    · rw [hget, List.length_append]
      rcases hfield with h | h
      · exact .inl h
      · exact .inr (by omega)

/-! ## Well-formed packets -/

/-- The value of a remaining-length field of MQTT 3.1.1, least significant group first;
`none` when the bytes are not exactly one such field. -/
def mqttLenValue : List UInt8 → Option Nat
  | [] => none
  | b :: bs =>
      if b &&& 0x80 = 0 then (if bs = [] then some (b &&& 0x7F).toNat else none)
      else (mqttLenValue bs).map fun v => (b &&& 0x7F).toNat + 128 * v

/-- A well-formed packet that fits the assembly buffer: a type byte, a length field of at
most four bytes, and a body of that length. -/
def WellFormedPacket (p : List UInt8) : Prop :=
  ∃ t field body, p = t :: (field ++ body) ∧ field.length ≤ 4 ∧
    mqttLenValue field = some body.length ∧ p.length ≤ mqttRxbufSize

/-- Over a whole length field the 16-bit multiplier does no harm while the value stays
below `2 ^ 16`: a group it has lost is zero. -/
theorem remLenLoop_field {field : List UInt8} {v : Nat} (hv : mqttLenValue field = some v)
    (n M : Nat) (hn : field.length ≤ n) (hM : M * v < 65536) (k : RxHeader)
    (body : List UInt8) :
    remLenLoop n (M % 65536) k (field ++ body) = ⟨k.hdrLen + field.length, k.remLen + M * v⟩ := by
  induction field generalizing n M v k with
  | nil => cases hv
  | cons b bs ih =>
      obtain ⟨n, rfl⟩ : ∃ m, n = m + 1 := by
        simp only [List.length_cons] at hn
        exact ⟨n - 1, by omega⟩
      have hgroup (w : Nat) (hw : M * w < 65536) : w * (M % 65536) = M * w := by
        rcases Nat.eq_zero_or_pos w with rfl | hpos
        · simp
        · have hlt : M < 65536 := Nat.lt_of_le_of_lt (Nat.le_mul_of_pos_right M hpos) hw
          rw [Nat.mod_eq_of_lt hlt, Nat.mul_comm]
      unfold mqttLenValue at hv
      simp only [List.cons_append, remLenLoop]
      by_cases hb : b &&& 0x80 = 0
      · rw [if_pos hb] at hv ⊢
        split at hv
        · rename_i hbs
          cases hv
          subst hbs
          rw [hgroup _ hM]
          rfl
        · cases hv
      · rw [if_neg hb] at hv ⊢
        obtain ⟨w, hw, rfl⟩ := Option.map_eq_some_iff.mp hv
        have hsplit : M * ((b &&& 0x7F).toNat + 128 * w) =
            M * (b &&& 0x7F).toNat + M * 128 * w := by
          rw [Nat.mul_add, Nat.mul_assoc]
        rw [hsplit] at hM ⊢
        have hmult : (M % 65536) <<< 7 % 65536 = M * 128 % 65536 := by
          rw [Nat.shiftLeft_eq]
          omega
        rw [hmult, ih hw n (M * 128) (by simpa using hn) (by omega), hgroup _ (by omega)]
        simp only [List.length_cons, RxHeader.mk.injEq]
        omega

/-- Every byte of a length field but the last says that it goes on. -/
theorem getD_field {field : List UInt8} {v : Nat} (hv : mqttLenValue field = some v)
    (body : List UInt8) :
    field ≠ [] ∧ (field ++ body).getD (field.length - 1) 0 &&& 0x80 = 0 ∧
      ∀ q, q <+: field → q ≠ field → ∀ b ∈ q, b &&& 0x80 ≠ 0 := by
  induction field generalizing v with
  | nil => cases hv
  | cons b bs ih =>
      unfold mqttLenValue at hv
      refine ⟨by simp, ?_⟩
      by_cases hb : b &&& 0x80 = 0
      · rw [if_pos hb] at hv
        split at hv
        · rename_i hbs
          subst hbs
          refine ⟨hb, ?_⟩
          intro q hq hne c hc
          rcases List.prefix_cons_iff.mp hq with rfl | ⟨q', rfl, hq'⟩
          · cases hc
          · rw [List.prefix_nil.mp hq'] at hne
            exact absurd rfl hne
        · cases hv
      · rw [if_neg hb] at hv
        obtain ⟨w, hw, rfl⟩ := Option.map_eq_some_iff.mp hv
        obtain ⟨hne, hlast, hall⟩ := ih hw
        obtain ⟨c, cs, rfl⟩ := List.exists_cons_of_ne_nil hne
        refine ⟨by simpa using hlast, ?_⟩
        intro q hq hqne d hd
        rcases List.prefix_cons_iff.mp hq with rfl | ⟨q', rfl, hq'⟩
        · cases hd
        · rcases List.mem_cons.mp hd with rfl | hd
          · exact hb
          · refine hall q' hq' ?_ d hd
            rintro rfl
            exact hqne rfl

/-- While the length field is open the loop counts the bytes there are. -/
theorem remLenLoop_open {bs : List UInt8} (hall : ∀ b ∈ bs, b &&& 0x80 ≠ 0) (n mult : Nat)
    (hn : bs.length ≤ n) (k : RxHeader) :
    (remLenLoop n mult k bs).hdrLen = k.hdrLen + bs.length := by
  induction bs generalizing n mult k with
  | nil => cases n <;> rfl
  | cons b bs ih =>
      obtain ⟨n, rfl⟩ : ∃ m, n = m + 1 := by
        simp only [List.length_cons] at hn
        exact ⟨n - 1, by omega⟩
      rw [remLenLoop, if_neg (hall b (by simp)),
        ih (fun c hc => hall c (by simp [hc])) n _ (by simpa using hn)]
      simp only [List.length_cons]
      omega

/-- **A well-formed packet is recognised**: found when it is complete, waited for
before. -/
theorem recognised_of_wellFormed {p : List UInt8} (hp : WellFormedPacket p) :
    Framing.Recognised rxHeader RxHeader.size p := by
  obtain ⟨t, field, body, rfl, hfour, hv, hlen⟩ := hp
  have hbody : 1 * body.length < 65536 := by
    simp only [List.length_cons, List.length_append, mqttRxbufSize] at hlen
    omega
  obtain ⟨hne, hlast, hopen⟩ := getD_field hv body
  obtain ⟨f, fs, rfl⟩ := List.exists_cons_of_ne_nil hne
  have hloop (rest : List UInt8) : remLenLoop 4 1 ⟨1, 0⟩ (f :: fs ++ rest) =
      ⟨1 + (f :: fs).length, body.length⟩ := by
    have := remLenLoop_field hv 4 1 hfour hbody ⟨1, 0⟩ rest
    simpa using this
  constructor
  · refine ⟨⟨1 + (f :: fs).length, body.length⟩, ?_, ?_⟩
    · refine rxHeader_eq_some_iff.mpr ⟨by simp, ?_, .inl ?_, ?_⟩
      · rw [List.drop_one, List.tail_cons, hloop]
      · simpa [Nat.add_comm] using hlast
      · simp only [RxHeader.size, List.length_cons, List.length_append]
        omega
    · simp only [RxHeader.size, List.length_cons, List.length_append]
      omega
  · intro q hq hqne
    by_contra hsome
    obtain ⟨k, hk⟩ := Option.ne_none_iff_exists'.mp hsome
    obtain ⟨h2, hkeq, hfield, hsize⟩ := rxHeader_eq_some_iff.mp hk
    rcases List.prefix_cons_iff.mp hq with rfl | ⟨q', rfl, hq'⟩
    · simp at h2
    · rw [List.drop_one, List.tail_cons] at hkeq
      by_cases hwhole : f :: fs <+: q'
      · -- the length field is there, but the body is not
        obtain ⟨r, rfl⟩ := hwhole
        rw [hloop] at hkeq
        subst hkeq
        have hr : r <+: body := (List.prefix_append_right_inj _).mp hq'
        have hrne : r ≠ body := by
          rintro rfl
          exact hqne rfl
        have hlt : r.length < body.length :=
          Nat.lt_of_le_of_ne hr.length_le fun h => hrne (hr.eq_of_length h)
        simp only [RxHeader.size, List.length_cons, List.length_append] at hsize
        omega
      · -- the length field itself is still open
        have hq'' : q' <+: f :: fs := by
          rcases List.prefix_or_prefix_of_prefix hq' (List.prefix_append (f :: fs) body) with h | h
          · exact h
          · exact absurd h hwhole
        have hne' : q' ≠ f :: fs := by
          rintro rfl
          exact hwhole (List.prefix_refl _)
        have hall := hopen q' hq'' hne'
        have hhdr := remLenLoop_open hall 4 1 (Nat.le_trans hq''.length_le hfour) ⟨1, 0⟩
        rw [← hkeq] at hhdr
        simp only [List.length_cons] at hhdr hfield h2
        rcases hfield with h | h
        · obtain ⟨n, hn⟩ : ∃ n, k.hdrLen - 1 = n + 1 := ⟨q'.length - 1, by omega⟩
          rw [hn, List.getD_cons_succ, List.getD_eq_getElem _ _ (by omega)] at h
          exact hall _ (List.getElem_mem _) h
        · omega

end HomeAuto
