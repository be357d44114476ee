import HomeAuto.BackupRestore

/-!
# Texts that survive a backup

The device reads a string value up to the next quotation mark, and does not undo the escapes of
the JSON writer.  So a text comes back when the browser reads it as it is and nothing in it is
escaped; and then there is the text of full length that ends in backslashes, of which the
device reads no more than half of the doubled ones.
-/

namespace HomeAuto

open Unicode (utf16)

/-- The bytes that `toHexStr` sends of a text. -/
def sentBytes (v : List Char) : CStr := (v.flatMap utf16).map UInt8.ofNat

section SentBytes

@[simp] theorem sentBytes_nil : sentBytes [] = [] := rfl

@[simp] theorem sentBytes_append (v w : List Char) :
    sentBytes (v ++ w) = sentBytes v ++ sentBytes w := by
  simp [sentBytes]

theorem utf16_byteChar (b : UInt8) : utf16 (byteChar b) = [b.toNat] := by
  have hb := b.toNat_lt
  unfold utf16 byteChar
  rw [toNat_ofNat_byte, if_pos (by omega)]

theorem utf16_ne_nil (c : Char) : utf16 c ≠ [] := by
  unfold utf16
  split <;> exact List.cons_ne_nil _ _

/-- ASCII text is sent as it is. -/
@[simp] theorem sentBytes_map_byteChar (s : CStr) : sentBytes (s.map byteChar) = s := by
  induction s with
  | nil => rfl
  | cons b s ih =>
      have hcons : sentBytes ((b :: s).map byteChar) =
          sentBytes [byteChar b] ++ sentBytes (s.map byteChar) := sentBytes_append [_] _
      rw [hcons, ih]
      simp [sentBytes, utf16_byteChar]

theorem sentBytes_cons_byteChar (b : UInt8) (v : List Char) :
    sentBytes (byteChar b :: v) = b :: sentBytes v := by
  have hcons := sentBytes_append [byteChar b] v
  have hone := sentBytes_map_byteChar [b]
  rw [List.map_singleton] at hone
  rw [hone] at hcons
  exact hcons

theorem length_sentBytes (v : List Char) :
    (sentBytes v).length = (v.flatMap utf16).length :=
  List.length_map _

end SentBytes

/-- A byte that ends neither the string value nor the text in the buffer. -/
def GoodByte (c : UInt8) : Bool := c ≠ 0 && c ≠ 34

namespace Browser

variable (browser : Browser)

/-- What stands between the quotation marks of a string value. -/
def body (t : CStr) : CStr := sentBytes ((browser.attr t).flatMap jsonEscape)

/-- The text is read as it is, and nothing in it is escaped. -/
structure Verbatim (t : CStr) : Prop where
  noQuote : 34 ∉ t
  read : sentBytes (browser.attr t) = t
  unescaped : ∀ c ∈ browser.attr t, escaped c = false

/-- **The texts that come back**, from a field of `room + 1` bytes. -/
def Keeps (room : Nat) (t : CStr) : Prop :=
  ∃ a k, t = a ++ List.replicate k 92 ∧ browser.Verbatim a ∧ (k = 0 ∨ t.length = room)

/-! ## Pieces of a body -/

theorem flatMap_jsonEscape {v : List Char} (h : ∀ c ∈ v, escaped c = false) :
    v.flatMap jsonEscape = v := by
  induction v with
  | nil => rfl
  | cons c v ih =>
      have hc : jsonEscape c = [c] := by
        unfold jsonEscape
        rw [h c List.mem_cons_self]
        rfl
      rw [List.flatMap_cons, hc, ih fun d hd => h d (List.mem_cons_of_mem _ hd)]
      rfl

theorem attr_nil : browser.attr [] = [] := by
  have hlen := browser.units_le []
  cases hv : browser.attr [] with
  | nil => rfl
  | cons c v =>
      rw [hv, List.flatMap_cons, List.length_append] at hlen
      have hpos := List.length_pos_iff.mpr (utf16_ne_nil c)
      rw [List.length_nil] at hlen
      omega

theorem body_nil : browser.body [] = [] := by
  rw [body, attr_nil]
  rfl

/-- A blank. -/
theorem body_blank (v w : CStr) : browser.body (v ++ 32 :: w) =
    browser.body v ++ 32 :: browser.body w := by
  have hblank : jsonEscape (byteChar 32) = [byteChar 32] := by decide
  unfold body
  rw [browser.attr_split v w 32 (.inl rfl), List.flatMap_append, List.flatMap_cons, hblank,
    sentBytes_append, List.singleton_append, sentBytes_cons_byteChar]

/-- A backslash. -/
theorem body_backslash (v w : CStr) : browser.body (v ++ 92 :: w) =
    browser.body v ++ 92 :: 92 :: browser.body w := by
  have hescape : jsonEscape (byteChar 92) = [byteChar 92, byteChar 92] := by decide
  unfold body
  rw [browser.attr_split v w 92 (.inr rfl), List.flatMap_append, List.flatMap_cons, hescape,
    sentBytes_append]
  simp [sentBytes_cons_byteChar]

variable {browser}

theorem Verbatim.body_eq {t : CStr} (h : browser.Verbatim t) : browser.body t = t := by
  unfold body
  rw [flatMap_jsonEscape h.unescaped, h.read]

theorem verbatim_nil : browser.Verbatim [] where
  noQuote := List.not_mem_nil
  read := by rw [attr_nil, sentBytes_nil]
  unescaped := by
    rw [attr_nil]
    exact fun _ hc => absurd hc List.not_mem_nil

theorem escaped_byteChar {b : UInt8} (h : PlainAttr b) (hslash : b ≠ 92) :
    escaped (byteChar b) = false := by
  obtain ⟨hlow, -, hquote, -⟩ := h
  have htoNat : (byteChar b).toNat = b.toNat := toNat_ofNat_byte b
  have hne {c : UInt8} (hc : b ≠ c) : byteChar b ≠ byteChar c := by
    intro heq
    have hchars := congrArg Char.toNat heq
    rw [htoNat, byteChar, toNat_ofNat_byte] at hchars
    exact hc (UInt8.toNat_inj.mp hchars)
  have hq : byteChar b ≠ '"' := hne hquote
  have hs : byteChar b ≠ '\\' := hne hslash
  have hlow' : ¬(byteChar b).toNat < 32 := by
    rw [htoNat]
    exact Nat.not_lt.mpr (UInt8.le_iff_toNat_le.mp hlow)
  simp [escaped, hq, hs, hlow']

/-- Plain ASCII. -/
theorem verbatim_of_plain {t : CStr} (h : ∀ b ∈ t, PlainAttr b) (hslash : 92 ∉ t) :
    browser.Verbatim t where
  noQuote := fun hmem => (h 34 hmem).2.2.1 rfl
  read := by rw [browser.attr_plain t h, sentBytes_map_byteChar]
  unescaped := by
    rw [browser.attr_plain t h]
    intro c hc
    obtain ⟨b, hb, hbc⟩ := List.mem_map.mp hc
    rw [← hbc]
    exact escaped_byteChar (h b hb) fun heq => hslash (heq ▸ hb)

/-! ## What the device reads of a body -/

/-- A text with something escaped in it: the body up to the first backslash. -/
theorem body_of_escaped {t : CStr} {c : Char} (hc : c ∈ browser.attr t)
    (hescaped : escaped c = true) :
    ∃ x y, browser.body t = x ++ 92 :: y ∧ x.length < t.length ∧
      ∃ v, (∀ d ∈ v, escaped d = false) ∧ v <+: browser.attr t ∧ sentBytes v = x := by
  have hsplit : ∃ v d w, browser.attr t = v ++ d :: w ∧ (∀ e ∈ v, escaped e = false) ∧
      escaped d = true := by
    generalize browser.attr t = u at hc
    induction u with
    | nil => cases hc
    | cons e u ih =>
        cases he : escaped e with
        | true => exact ⟨[], e, u, rfl, fun _ hd => absurd hd List.not_mem_nil, he⟩
        | false =>
            rcases List.mem_cons.mp hc with heq | hmem
            · subst heq
              exact absurd (hescaped.symm.trans he) (by decide)
            · obtain ⟨v, d, w, hu, hv, hd⟩ := ih hmem
              refine ⟨e :: v, d, w, by rw [hu]; rfl, ?_, hd⟩
              intro f hf
              rcases List.mem_cons.mp hf with hfe | hfv
              · rw [hfe]
                exact he
              · exact hv f hfv
  obtain ⟨v, d, w, hattr, hv, hd⟩ := hsplit
  obtain ⟨more, hmore⟩ : ∃ more, jsonEscape d = '\\' :: more := by
    unfold jsonEscape
    rw [hd, if_pos rfl]
    split
    · exact ⟨_, rfl⟩
    · exact ⟨_, rfl⟩
  have hbackslash : sentBytes ('\\' :: (more ++ w.flatMap jsonEscape)) =
      92 :: sentBytes (more ++ w.flatMap jsonEscape) := sentBytes_cons_byteChar 92 _
  refine ⟨sentBytes v, sentBytes (more ++ w.flatMap jsonEscape), ?_, ?_, v, hv, ?_, rfl⟩
  · rw [body, hattr, List.flatMap_append, flatMap_jsonEscape hv, List.flatMap_cons, hmore,
      sentBytes_append, List.cons_append, hbackslash]
  · have hlen := browser.units_le t
    have hpos := List.length_pos_iff.mpr (utf16_ne_nil d)
    rw [hattr, List.flatMap_append, List.flatMap_cons, List.length_append,
      List.length_append] at hlen
    rw [length_sentBytes]
    omega
  · rw [hattr]
    exact List.prefix_append v _

/-- What begins a text and goes past a backslash of it has the backslash. -/
theorem mem_of_begins {t x y : CStr} (h : t <+: x ++ 92 :: y) (hlen : x.length < t.length) :
    92 ∈ t := by
  obtain ⟨more, hmore⟩ := h
  have hcell : (t ++ more)[x.length]? = (x ++ 92 :: y)[x.length]? := by rw [hmore]
  rw [List.getElem?_append_left hlen, List.getElem?_append_right (Nat.le_refl _), Nat.sub_self,
    List.getElem?_cons_zero] at hcell
  exact List.mem_of_getElem? hcell

theorem body_replicate (k : Nat) :
    browser.body (List.replicate k 92) = List.replicate (2 * k) 92 := by
  induction k with
  | zero => exact browser.body_nil
  | succ k ih =>
      have hfirst := browser.body_backslash [] (List.replicate k 92)
      rw [List.nil_append, browser.body_nil, ih] at hfirst
      rw [List.replicate_succ, hfirst]
      rfl

/-- Backslashes that are still to come push out everything but backslashes. -/
theorem eq_backslashes {n j : Nat} {b : CStr} (hb : b.length ≤ n)
    (h : ((List.replicate (j + 1) 92 ++ browser.body b).takeWhile GoodByte).take n = b) :
    b = List.replicate n 92 := by
  have hgood : GoodByte 92 = true := by decide
  induction n generalizing b j with
  | zero => exact List.eq_nil_of_length_eq_zero (Nat.le_zero.mp hb)
  | succ n ih =>
      rw [List.replicate_succ, List.cons_append, List.takeWhile_cons_of_pos hgood,
        List.take_succ_cons] at h
      cases b with
      | nil => cases h
      | cons c b =>
          rw [List.cons.injEq] at h
          obtain ⟨hc, hrest⟩ := h
          subst hc
          have hbody := browser.body_backslash [] b
          rw [List.nil_append, browser.body_nil, List.nil_append] at hbody
          have hshift : List.replicate j 92 ++ browser.body (92 :: b) =
              List.replicate (j + 1 + 1) 92 ++ browser.body b := by
            rw [hbody, List.replicate_succ', List.replicate_succ', List.append_assoc,
              List.append_assoc]
            rfl
          rw [hshift] at hrest
          rw [List.replicate_succ, ← ih (Nat.le_of_succ_le_succ hb) hrest]

theorem takeWhile_good {s : CStr} (hzero : 0 ∉ s) (hquote : 34 ∉ s) :
    s.takeWhile GoodByte = s := by
  apply List.takeWhile_eq_self_iff.mpr
  intro c hc
  have hne0 : c ≠ 0 := fun heq => hzero (heq ▸ hc)
  have hne34 : c ≠ 34 := fun heq => hquote (heq ▸ hc)
  simp [GoodByte, hne0, hne34]

/-- A text that is read as it is. -/
theorem verbatim_of_read {room : Nat} {t : CStr} (ht : t.length ≤ room)
    (hplain : ∀ c ∈ browser.attr t, escaped c = false)
    (h : ((browser.body t).takeWhile GoodByte).take room = t) : browser.Verbatim t := by
  have hbody : browser.body t = sentBytes (browser.attr t) := by
    rw [body, flatMap_jsonEscape hplain]
  have hunits := browser.units_le t
  have hlen := congrArg List.length h
  rw [hbody] at h hlen
  have hwhile := (List.takeWhile_prefix GoodByte (l := sentBytes (browser.attr t))).length_le
  rw [length_sentBytes] at hwhile
  rw [List.length_take] at hlen
  have hall : (sentBytes (browser.attr t)).takeWhile GoodByte = sentBytes (browser.attr t) := by
    apply (List.takeWhile_prefix GoodByte).eq_of_length
    rw [length_sentBytes]
    omega
  have hread : sentBytes (browser.attr t) = t := by
    rw [hall, List.take_of_length_le (by rw [length_sentBytes]; omega)] at h
    exact h
  refine ⟨?_, hread, hplain⟩
  intro hquote
  rw [hread] at hall
  have hgood := List.takeWhile_eq_self_iff.mp hall 34 hquote
  exact absurd hgood (by decide)

/-- The text before the first backslash of a text that comes back. -/
theorem verbatim_of_begins {a b : CStr} (ha : 92 ∉ a) (hquote : 34 ∉ a)
    (h : a ++ 92 :: b <+: browser.body (a ++ 92 :: b)) : browser.Verbatim a := by
  rw [browser.body_backslash] at h
  have hbegins : a <+: browser.body a ++ 92 :: 92 :: browser.body b :=
    (List.prefix_append a _).trans h
  have hplain : ∀ c ∈ browser.attr a, escaped c = false := by
    intro c hc
    rw [← Bool.not_eq_true]
    intro hescaped
    obtain ⟨x, y, hbody, hx, -⟩ := body_of_escaped hc hescaped
    rw [hbody, List.append_assoc, List.cons_append] at hbegins
    exact ha (mem_of_begins hbegins hx)
  have hbody : browser.body a = sentBytes (browser.attr a) := by
    rw [body, flatMap_jsonEscape hplain]
  have hunits := browser.units_le a
  rw [hbody] at hbegins
  have hlen : (sentBytes (browser.attr a)).length = a.length := by
    apply Nat.le_antisymm
    · rw [length_sentBytes]
      exact hunits
    · exact Nat.not_lt.mp fun hlt => ha (mem_of_begins hbegins hlt)
  refine ⟨hquote, ?_, hplain⟩
  obtain ⟨more, hmore⟩ := hbegins
  exact (List.append_inj hmore hlen.symm).1.symm

/-- The body of a text that ends in backslashes. -/
theorem Verbatim.body_append {a : CStr} (h : browser.Verbatim a) (k : Nat) :
    browser.body (a ++ List.replicate k 92) = a ++ List.replicate (2 * k) 92 := by
  cases k with
  | zero => simp [h.body_eq]
  | succ k =>
      rw [List.replicate_succ, browser.body_backslash, h.body_eq, body_replicate]
      rfl

theorem backslashes_clean {a : CStr} (k : Nat) (hzero : 0 ∉ a) (hquote : 34 ∉ a) :
    0 ∉ a ++ List.replicate k 92 ∧ 34 ∉ a ++ List.replicate k 92 := by
  constructor
  · intro hmem
    rcases List.mem_append.mp hmem with hleft | hright
    · exact hzero hleft
    · exact absurd (List.eq_of_mem_replicate hright) (by decide)
  · intro hmem
    rcases List.mem_append.mp hmem with hleft | hright
    · exact hquote hleft
    · exact absurd (List.eq_of_mem_replicate hright) (by decide)

/-- **What is read is the text, exactly when it is one that comes back.** -/
theorem read_iff_keeps {room : Nat} {t : CStr} (hnul : 0 ∉ t) (ht : t.length ≤ room) :
    ((browser.body t).takeWhile GoodByte).take room = t ↔ browser.Keeps room t := by
  have hslash : GoodByte 92 = true := by decide
  constructor
  · intro h
    by_cases hplain : ∀ c ∈ browser.attr t, escaped c = false
    · exact ⟨t, 0, by simp, verbatim_of_read ht hplain h, .inl rfl⟩
    · push Not at hplain
      obtain ⟨c, hc, hescaped⟩ := hplain
      rw [Bool.ne_false_iff] at hescaped
      have hbegins : ((browser.body t).takeWhile GoodByte).take room <+: browser.body t :=
        (List.take_prefix _ _).trans (List.takeWhile_prefix _)
      rw [h] at hbegins
      obtain ⟨x, y, hbody, hx, -⟩ := body_of_escaped hc hescaped
      obtain ⟨a, b, hab, ha⟩ := List.eq_append_cons_of_mem (mem_of_begins (hbody ▸ hbegins) hx)
      subst hab
      have hquote : 34 ∉ a := by
        intro hmem
        have hin : 34 ∈ (browser.body (a ++ 92 :: b)).takeWhile GoodByte := by
          apply List.mem_of_mem_take (i := room)
          rw [h]
          exact List.mem_append_left _ hmem
        exact absurd (List.mem_takeWhile_imp hin) (by decide)
      have hzero : 0 ∉ a := fun hmem => hnul (List.mem_append_left _ hmem)
      have hverbatim := verbatim_of_begins ha hquote hbegins
      rw [List.length_append, List.length_cons] at ht
      obtain ⟨n, hn⟩ : ∃ n, room = a.length + (n + 1) := ⟨room - a.length - 1, by omega⟩
      rw [browser.body_backslash, hverbatim.body_eq,
        List.takeWhile_append_of_pos (List.takeWhile_eq_self_iff.mp (takeWhile_good hzero hquote)),
        hn, List.take_length_add_append, List.append_cancel_left_eq,
        List.takeWhile_cons_of_pos hslash, List.take_succ_cons, List.cons.injEq] at h
      have hlen : b.length ≤ n := by omega
      have hb : b = List.replicate n 92 := eq_backslashes (j := 0) hlen h.2
      subst hb
      refine ⟨a, n + 1, rfl, hverbatim, .inr ?_⟩
      rw [List.length_append, List.length_cons, List.length_replicate, hn]
  · intro hkeeps
    obtain ⟨a, k, hak, hverbatim, hfull⟩ := hkeeps
    have hclean := backslashes_clean (2 * k) (fun hmem => hnul (hak ▸ List.mem_append_left _ hmem))
      hverbatim.noQuote
    rw [hak, List.length_append, List.length_replicate] at ht hfull
    rw [hak, hverbatim.body_append, takeWhile_good hclean.1 hclean.2, List.take_append,
      List.take_of_length_le (by omega), List.take_replicate]
    congr 2
    rcases hfull with hk | hroom
    · omega
    · omega

/-- The body of a text that comes back ends neither the value nor the text in the buffer. -/
theorem Keeps.clean {room : Nat} {t : CStr} (h : browser.Keeps room t) (hnul : 0 ∉ t) :
    0 ∉ browser.body t ∧ 34 ∉ browser.body t := by
  obtain ⟨a, k, hak, hverbatim, -⟩ := h
  subst hak
  rw [hverbatim.body_append]
  exact backslashes_clean (2 * k) (fun hmem => hnul (List.mem_append_left _ hmem))
    hverbatim.noQuote

/-- Its body is at most twice as long. -/
theorem Keeps.length_body_le {room : Nat} {t : CStr} (h : browser.Keeps room t) :
    (browser.body t).length ≤ 2 * t.length := by
  obtain ⟨a, k, hak, hverbatim, -⟩ := h
  subst hak
  rw [hverbatim.body_append, List.length_append, List.length_append, List.length_replicate,
    List.length_replicate]
  omega

/-- An escaped character is sent in six bytes at most. -/
theorem length_body_le (t : CStr) : (browser.body t).length ≤ 6 * t.length := by
  have hescape (c : Char) : (sentBytes (jsonEscape c)).length ≤ 6 * (utf16 c).length := by
    have hpos := List.length_pos_iff.mpr (utf16_ne_nil c)
    unfold jsonEscape
    split
    · split
      · rename_i l _
        have hl : (utf16 l).length ≤ 2 := by
          unfold utf16
          split <;> simp
        have hslash : (utf16 '\\').length = 1 := by decide
        rw [length_sentBytes]
        simp only [List.flatMap_cons, List.flatMap_nil, List.length_append, List.length_nil]
        omega
      · have hsplit : '\\' :: 'u' :: '0' :: '0' :: (hex2 c.toNat).map byteChar =
            ['\\', 'u', '0', '0'] ++ (hex2 c.toNat).map byteChar := rfl
        have hfour : (sentBytes ['\\', 'u', '0', '0']).length = 4 := by decide
        have htwo : (hex2 c.toNat).length = 2 := rfl
        rw [hsplit, sentBytes_append, sentBytes_map_byteChar, List.length_append, hfour, htwo]
        omega
    · rw [length_sentBytes]
      simp
      omega
  have hunits := browser.units_le t
  unfold body
  rw [← length_sentBytes] at hunits
  refine Nat.le_trans ?_ (Nat.mul_le_mul_left 6 hunits)
  clear hunits
  induction browser.attr t with
  | nil => exact Nat.le_refl _
  | cons c v ih =>
      have hcons : sentBytes (c :: v) = sentBytes [c] ++ sentBytes v := sentBytes_append [c] v
      have hone : (sentBytes [c]).length = (utf16 c).length := by
        rw [length_sentBytes]
        simp
      rw [List.flatMap_cons, sentBytes_append, hcons, List.length_append, List.length_append, hone]
      have hc := hescape c
      omega

end Browser

end HomeAuto
