import HomeAuto.Lib.JsonText
import HomeAuto.Lib.QuotedText

/-!
# Where a quoted key can stand in a JSON text

Who searches the text of an object for a key in quotation marks with a colon behind it may meet
the key of a member.  What else there is to meet lies in the string of a key, from its opening
quotation mark on, or in a value: nowhere else does a JSON text have a quotation mark which
opens anything.  The text is searched as it is sent, character by character.
-/

namespace JsonText

open QuotedText

variable {α : Type*} (sent : Char → List α)

/-- A text as it is sent. -/
def sentText (t : List Char) : List α := t.flatMap sent

/-- The number of symbols that a text is sent in. -/
def width (t : List Char) : Nat := (sentText sent t).length

@[simp] theorem sentText_nil : sentText sent [] = [] := rfl

@[simp] theorem sentText_append (t u : List Char) :
    sentText sent (t ++ u) = sentText sent t ++ sentText sent u :=
  List.flatMap_append

@[simp] theorem sentText_cons (c : Char) (t : List Char) :
    sentText sent (c :: t) = sent c ++ sentText sent t :=
  List.flatMap_cons

@[simp] theorem width_append (t u : List Char) :
    width sent (t ++ u) = width sent t + width sent u := by
  simp [width]

/-- The marks of the grammar are sent as single symbols: the quotation mark as `quote`, the
colon as `mark`, and all but the quotation mark as one of `stops`. -/
structure SendsMarks (quote mark : α) (stops : List α) : Prop where
  quote_sent : sent '"' = [quote]
  colon_sent : sent ':' = [mark]
  marks : ∀ c ∈ [' ', '\t', '\n', '\r', ',', ':', '{', '}'], ∃ x ∈ stops, sent c = [x]
  quote_notMem : quote ∉ stops

/-! ## The places of a member -/

namespace Member

/-- Place `n` of a member is in the string of its key: at the opening quotation mark, or behind
it. -/
def InKey (m : Member) (n : Nat) : Prop :=
  width sent m.lead ≤ n ∧ n < width sent m.lead + width sent ('"' :: m.key)

/-- Place `n` of a member is in its value. -/
def InValue (m : Member) (n : Nat) : Prop :=
  width sent (m.lead ++ '"' :: m.key ++ m.middle) ≤ n ∧
    n < width sent (m.lead ++ '"' :: m.key ++ m.middle) + width sent m.value

end Member

section Places

variable {sent} {quote mark : α} {stops key : List α} {unitsOf : Char → List Nat}

theorem sentText_blank (hs : SendsMarks sent quote mark stops) {t : List Char} (ht : Blank t) :
    ∀ x ∈ sentText sent t, x ∈ stops := by
  intro x hx
  obtain ⟨c, hc, hxc⟩ := List.mem_flatMap.mp hx
  have hmark : c ∈ [' ', '\t', '\n', '\r', ',', ':', '{', '}'] := by
    rcases ht c hc with rfl | rfl | rfl | rfl <;> simp
  obtain ⟨y, hy, hsent⟩ := hs.marks c hmark
  rw [hsent, List.mem_singleton] at hxc
  exact hxc ▸ hy

/-- The closing quotation mark of a key, and what is behind it, are no opening of a keyed
piece. -/
theorem not_occurs_middle (hs : SendsMarks sent quote mark stops) (hkey : IsKey quote stops key)
    {m : Member} (hm : m.Framed unitsOf) {n : Nat} (hn : n < width sent m.middle) (t : List α) :
    ¬Occurs (keyed quote mark key) (sentText sent m.middle ++ t) n := by
  obtain ⟨x, hx, hcolon⟩ := hs.marks ':' (by simp)
  have hin : ∀ y ∈ sentText sent (m.afterKey ++ ':' :: m.beforeValue), y ∈ stops := by
    intro y hy
    rw [sentText_append, sentText_cons, hcolon, List.mem_append, List.mem_append,
      List.mem_singleton] at hy
    rcases hy with hy | rfl | hy
    · exact sentText_blank hs hm.afterKey y hy
    · exact hx
    · exact sentText_blank hs hm.beforeValue y hy
  have hmiddle : sentText sent m.middle =
      quote :: sentText sent (m.afterKey ++ ':' :: m.beforeValue) := by
    rw [Member.middle, List.cons_append, sentText_cons, hs.quote_sent]
    rfl
  intro hoccurs
  cases n with
  | succ n =>
      rw [width, hmiddle, List.length_cons] at hn
      rw [hmiddle] at hoccurs
      exact not_occurs_of_notMem (fun hq => hs.quote_notMem (hin _ hq))
        (Nat.lt_of_succ_lt_succ hn) hoccurs
  | zero =>
      -- the symbol after the closing quotation mark would be the first one of the key
      obtain ⟨c, more, hc, hstop⟩ := hkey.head
      obtain ⟨y, ys, hys⟩ : ∃ y ys, sentText sent (m.afterKey ++ ':' :: m.beforeValue) =
          y :: ys := by
        apply List.exists_cons_of_ne_nil
        simp [hcolon]
      rw [hmiddle, hys] at hoccurs
      have hfirst := (List.cons_prefix_cons.mp hoccurs).2
      rw [hc, List.cons_append] at hfirst
      have hcy := (List.cons_prefix_cons.mp hfirst).1
      exact hstop (hcy ▸ hin y (by rw [hys]; exact List.mem_cons_self))

/-- In a member, a keyed piece begins in the string of the key or in the value. -/
theorem occurs_member (hs : SendsMarks sent quote mark stops) (hkey : IsKey quote stops key)
    {m : Member} (hm : m.Framed unitsOf) {t : List Char} {n : Nat}
    (h : Occurs (keyed quote mark key) (sentText sent (m.text ++ t)) n) :
    m.InKey sent n ∨ m.InValue sent n ∨
      ∃ k, n = width sent m.text + k ∧ Occurs (keyed quote mark key) (sentText sent t) k := by
  have hblank {b : List Char} (hb : Blank b) : quote ∉ sentText sent b := fun hq =>
    hs.quote_notMem (sentText_blank hs hb _ hq)
  have hsplit : sentText sent (m.text ++ t) = sentText sent m.lead ++
      (sentText sent ('"' :: m.key) ++ (sentText sent m.middle ++ (sentText sent m.value ++
        (sentText sent m.trail ++ sentText sent t)))) := by
    simp only [Member.text, sentText_append, List.append_assoc]
  rw [hsplit] at h
  rcases h.append with hlead | ⟨k₁, rfl, h₁⟩
  · exact absurd h (not_occurs_of_notMem (hblank hm.lead) hlead)
  rcases h₁.append with hkeyed | ⟨k₂, rfl, h₂⟩
  · exact .inl ⟨Nat.le_add_right _ _, Nat.add_lt_add_left hkeyed _⟩
  rcases h₂.append with hmiddle | ⟨k₃, rfl, h₃⟩
  · exact absurd h₂ (not_occurs_middle hs hkey hm hmiddle _)
  rcases h₃.append with hvalue | ⟨k₄, rfl, h₄⟩
  · refine .inr (.inl ?_)
    simp only [Member.InValue, width_append]
    simp only [width] at hvalue ⊢
    omega
  rcases h₄.append with htrail | ⟨k₅, rfl, h₅⟩
  · exact absurd h₄ (not_occurs_of_notMem (hblank hm.trail) htrail)
  refine .inr (.inr ⟨k₅, ?_, h₅⟩)
  simp only [Member.text, width_append]
  simp only [width]
  omega

/-- The members before a member of a row, each with its comma. -/
def rowBefore (ms : List Member) : List Char := ms.flatMap fun m => m.text ++ [',']

/-- In a row of members, it begins in one of them. -/
theorem occurs_row (hs : SendsMarks sent quote mark stops) (hkey : IsKey quote stops key)
    {ms : List Member} (hms : ∀ m ∈ ms, m.Framed unitsOf) {t : List Char}
    (ht : ∀ x ∈ sentText sent t, x ≠ quote) {n : Nat}
    (h : Occurs (keyed quote mark key) (sentText sent (commaRow (ms.map Member.text) ++ t)) n) :
    ∃ ms₁ m ms₂ k, ms = ms₁ ++ m :: ms₂ ∧ n = width sent (rowBefore ms₁) + k ∧
      (m.InKey sent k ∨ m.InValue sent k) := by
  have htail {n : Nat} (h : Occurs (keyed quote mark key) (sentText sent t) n) : False :=
    ht quote (List.mem_of_getElem? h.getElem?) rfl
  induction ms generalizing n with
  | nil => exact (htail h).elim
  | cons m ms ih =>
      have hm := hms m List.mem_cons_self
      by_cases hmore : ms = []
      · subst hmore
        rcases occurs_member hs hkey hm h with hin | hin | ⟨k, -, hrest⟩
        · exact ⟨[], m, [], n, rfl, (Nat.zero_add n).symm, .inl hin⟩
        · exact ⟨[], m, [], n, rfl, (Nat.zero_add n).symm, .inr hin⟩
        · exact (htail hrest).elim
      · have hcommas : commaRow ((m :: ms).map Member.text) ++ t =
            m.text ++ (',' :: (commaRow (ms.map Member.text) ++ t)) := by
          rw [List.map_cons, commaRow_cons (by simpa using hmore), List.append_assoc,
            List.cons_append]
        rw [hcommas] at h
        rcases occurs_member hs hkey hm h with hin | hin | ⟨k, rfl, hrest⟩
        · exact ⟨[], m, ms, n, rfl, (Nat.zero_add n).symm, .inl hin⟩
        · exact ⟨[], m, ms, n, rfl, (Nat.zero_add n).symm, .inr hin⟩
        · obtain ⟨x, hx, hcomma⟩ := hs.marks ',' (by simp)
          rw [sentText_cons] at hrest
          rcases hrest.append with hhere | ⟨k', rfl, hlater⟩
          · refine absurd hrest (not_occurs_of_notMem ?_ hhere)
            rw [hcomma, List.mem_singleton]
            exact fun hq => hs.quote_notMem (hq ▸ hx)
          · obtain ⟨ms₁, m', ms₂, j, hsplit, rfl, hin⟩ :=
              ih (fun m' hm' => hms m' (List.mem_cons_of_mem m hm')) hlater
            refine ⟨m :: ms₁, m', ms₂, j, by rw [hsplit]; rfl, ?_, hin⟩
            have hwidth : width sent (rowBefore (m :: ms₁)) =
                width sent m.text + (sent ',').length + width sent (rowBefore ms₁) := by
              simp [rowBefore, width, Nat.add_assoc]
            omega

end Places

/-! ## The places of an object -/

namespace Object

variable {unitsOf : Char → List Nat} (o : Object unitsOf)

/-- Place `n` of the text is not one of the key itself, but may look so: it is in the string of
another key, or in a value. -/
inductive LookalikePlace (key : List Nat) (n : Nat) : Prop
  | inKey {ms₁ ms₂ : List Member} {m : Member} {k : Nat} (hm : o.members = ms₁ ++ m :: ms₂)
      (hother : m.units ≠ key) (hn : n = width sent (o.lead ++ '{' :: rowBefore ms₁) + k)
      (hin : m.InKey sent k)
  | inValue {ms₁ ms₂ : List Member} {m : Member} {k : Nat} (hm : o.members = ms₁ ++ m :: ms₂)
      (hn : n = width sent (o.lead ++ '{' :: rowBefore ms₁) + k) (hin : m.InValue sent k)

variable {sent} {quote mark : α} {stops key : List α}

/-- **Where a key that the object does not have is met**: in the string of another key, or in a
value. -/
theorem lookalikePlace_of_occurs (hs : SendsMarks sent quote mark stops)
    (hkey : IsKey quote stops key) {units : List Nat} (hnot : units ∉ o.keys) {n : Nat}
    (h : Occurs (keyed quote mark key) (sentText sent o.text) n) :
    o.LookalikePlace sent units n := by
  have hblank {b : List Char} (hb : Blank b) : quote ∉ sentText sent b := fun hq =>
    hs.quote_notMem (sentText_blank hs hb _ hq)
  have hmark {c : Char} (hc : c ∈ [' ', '\t', '\n', '\r', ',', ':', '{', '}']) :
      quote ∉ sent c := by
    obtain ⟨x, hx, hsent⟩ := hs.marks c hc
    rw [hsent, List.mem_singleton]
    exact fun hq => hs.quote_notMem (hq ▸ hx)
  have hopen : quote ∉ sentText sent (o.lead ++ ['{']) := by
    rw [sentText_append, List.mem_append, not_or]
    exact ⟨hblank o.leadBlank, by simp [hmark]⟩
  have hclose : ∀ x ∈ sentText sent ('}' :: o.trail), x ≠ quote := by
    rintro x hx rfl
    rw [sentText_cons, List.mem_append] at hx
    exact hx.elim (hmark (by simp)) (hblank o.trailBlank)
  have htext : sentText sent o.text =
      sentText sent (o.lead ++ ['{']) ++ sentText sent (o.inner ++ '}' :: o.trail) := by
    rw [← sentText_append]
    simp [text]
  rw [htext] at h
  rcases h.append with hhere | ⟨k, rfl, hrest⟩
  · exact absurd h (not_occurs_of_notMem hopen hhere)
  by_cases hmembers : o.members = []
  · rw [inner, if_pos hmembers, sentText_append] at hrest
    rcases hrest.append with hin | ⟨j, -, hlater⟩
    · exact absurd hrest (not_occurs_of_notMem (hblank o.blankBlank) hin)
    · exact absurd rfl (hclose quote (List.mem_of_getElem? hlater.getElem?))
  · rw [inner, if_neg hmembers] at hrest
    obtain ⟨ms₁, m, ms₂, j, hsplit, rfl, hin⟩ := occurs_row hs hkey o.framed hclose hrest
    have hplace : (sentText sent (o.lead ++ ['{'])).length + (width sent (rowBefore ms₁) + j) =
        width sent (o.lead ++ '{' :: rowBefore ms₁) + j := by
      simp [width]
      omega
    have hother : m.units ≠ units := by
      intro heq
      apply hnot
      rw [keys, hsplit, List.map_append, List.map_cons, heq]
      exact List.mem_append_right _ List.mem_cons_self
    rcases hin with hin | hin
    · exact .inKey hsplit hother hplace hin
    · exact .inValue hsplit hplace hin

end Object

end JsonText
