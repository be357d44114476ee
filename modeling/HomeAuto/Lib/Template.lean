import Mathlib.Data.List.GetD

/-!
# Templates with marked tags

A template is read one symbol at a time by a scanner that never goes back.  A tag is the
lead-in, the name and the lead-out, with blanks allowed around the name; what turns out not to
be a tag is text.  `expand` copies the text and puts an insert in the place of every tag; the
insert may depend on how many tags came before.

A template made of pieces, of which the texts leave the scanner idle and the tags are well
formed, expands piece by piece (`expand_source`).
-/

namespace Template

/-- What marks a tag: lead-in, lead-out, the blanks, and the longest name. -/
structure Marks (α : Type*) where
  leadIn : List α
  leadOut : List α
  blank : α → Bool
  maxName : Nat
  leadIn_ne : leadIn ≠ []
  leadOut_ne : leadOut ≠ []
  leadOut_visible : ∀ c ∈ leadOut.head?, blank c = false

/-- Where the scanner is: in text, behind so many symbols of the lead-in, behind some symbols of
the name, behind the name and so many symbols of the lead-out, or behind a whole tag. -/
inductive Seen (α : Type*) where
  | text
  | leadIn (read : Nat)
  | name (read : List α)
  | leadOut (read : Nat) (name : List α)
  | tag (name : List α)

variable {α : Type*} [DecidableEq α] (m : Marks α)

namespace Marks

/-- Behind `read` symbols of the lead-in. -/
def inLeadIn (read : Nat) : Seen α := if read = m.leadIn.length then .name [] else .leadIn read

/-- Behind the name and `read` symbols of the lead-out. -/
def inLeadOut (read : Nat) (name : List α) : Seen α :=
  if read = m.leadOut.length then .tag name else .leadOut read name

/-- A symbol read in text. -/
def stepText (c : α) : Seen α := if m.leadIn[0]? = some c then m.inLeadIn 1 else .text

/-- A symbol read where the name stands. -/
def stepName (read : List α) (c : α) : Seen α :=
  if read = [] ∧ m.blank c then .name []
  else if m.leadOut[0]? = some c ∨ m.blank c then
    if read = [] then .text
    else if m.leadOut[0]? = some c then m.inLeadOut 1 read else .leadOut 0 read
  else if read.length < m.maxName then .name (read ++ [c]) else .text

/-- One symbol. -/
def step (s : Seen α) (c : α) : Seen α :=
  match s with
  | .text => m.stepText c
  | .tag _ => m.stepText c
  | .leadIn read => if m.leadIn[read]? = some c then m.inLeadIn (read + 1) else .text
  | .name read => m.stepName read c
  | .leadOut read name =>
      if read = 0 ∧ m.blank c then .leadOut 0 name
      else if m.leadOut[read]? = some c then m.inLeadOut (read + 1) name else .text

/-- Where a text leaves the scanner. -/
def scan (s : Seen α) (cs : List α) : Seen α := cs.foldl m.step s

/-- The names of the tags which the scanner meets. -/
def tags (s : Seen α) : List α → List (List α)
  | [] => []
  | c :: cs =>
      match m.step s c with
      | .tag name => name :: tags (.tag name) cs
      | s' => tags s' cs

/-- The text with every tag replaced.  `count` tags came before, and `held` was read since the
lead-in began. -/
def expand (insert : Nat → List α → List α) (count : Nat) (s : Seen α) (held : List α) :
    List α → List α
  | [] => held
  | c :: cs =>
      match m.step s c with
      | .text => held ++ c :: expand insert count .text [] cs
      | .tag name => insert count name ++ expand insert (count + 1) (.tag name) [] cs
      | s' => expand insert count s' (held ++ [c]) cs

/-- Text which the scanner passes over, and is idle behind. -/
structure Passes (t : List α) : Prop where
  idle : m.scan .text t = .text
  noTags : m.tags .text t = []

/-- A name that can stand in a tag. -/
structure IsName (name : List α) : Prop where
  ne : name ≠ []
  short : name.length ≤ m.maxName
  visible : ∀ c ∈ name, m.blank c = false
  open_ : ∀ c ∈ name, m.leadOut[0]? ≠ some c

end Marks

/-- A piece of a template. -/
inductive Piece (α : Type*) where
  | text (t : List α)
  | tag (before name after : List α)

namespace Piece

/-- A piece which the scanner reads as it is meant. -/
def Proper : Piece α → Prop
  | .text t => m.Passes t
  | .tag before name after =>
      m.IsName name ∧ (∀ c ∈ before, m.blank c = true) ∧ ∀ c ∈ after, m.blank c = true

/-- The piece as it stands in the template. -/
def source : Piece α → List α
  | .text t => t
  | .tag before name after => m.leadIn ++ (before ++ (name ++ (after ++ m.leadOut)))

/-- What the pieces become, `count` tags having come before. -/
def output (insert : Nat → List α → List α) : Nat → List (Piece α) → List α
  | _, [] => []
  | count, .text t :: ps => t ++ output insert count ps
  | count, .tag _ name _ :: ps => insert count name ++ output insert (count + 1) ps

end Piece

namespace Marks

variable {m} {insert : Nat → List α → List α} {count : Nat} {s : Seen α} {held : List α}

@[simp] theorem scan_nil : m.scan s [] = s := rfl

@[simp] theorem scan_cons {c : α} {cs : List α} : m.scan s (c :: cs) = m.scan (m.step s c) cs := rfl

@[simp] theorem expand_nil : m.expand insert count s held [] = held := rfl

/-- The scanner is idle behind a tag as it is in text. -/
theorem step_tag (name : List α) (c : α) : m.step (.tag name) c = m.step .text c := rfl

/-- The state of a scanner that has forgotten which tag it has just read. -/
def idle (s : Seen α) : Seen α :=
  match s with
  | .tag _ => .text
  | s => s

omit [DecidableEq α] in
theorem idle_eq_self (h : ∀ name, s ≠ .tag name) : idle s = s := by
  cases s with
  | tag name => exact absurd rfl (h name)
  | text | leadIn | name | leadOut => rfl

theorem step_idle (s : Seen α) (c : α) : m.step (idle s) c = m.step s c := by
  cases s <;> rfl

theorem scan_append (s : Seen α) (cs ds : List α) :
    m.scan s (cs ++ ds) = m.scan (m.scan s cs) ds :=
  List.foldl_append

/-- Behind a tag the template goes on as if it began there. -/
theorem expand_tag (name : List α) (cs : List α) :
    m.expand insert count (.tag name) held cs = m.expand insert count .text held cs := by
  cases cs with
  | nil => rfl
  | cons c cs => rw [expand, expand, step_tag]

/-- A symbol inside what may be a tag is held back. -/
theorem expand_inside {c : α} {s' : Seen α} {cs : List α} (hstep : m.step s c = s')
    (htext : s' ≠ .text) (htag : ∀ name, s' ≠ .tag name) :
    m.expand insert count s held (c :: cs) = m.expand insert count s' (held ++ [c]) cs := by
  subst hstep
  rw [expand]
  split
  · next h => exact absurd h htext
  · next name h => exact absurd h (htag name)
  · rfl

/-- Text that leaves the scanner idle, and has no tag in it, is copied. -/
theorem expand_text {t : List α} (u : List α) (hidle : m.scan s t = .text)
    (hnone : m.tags s t = []) (hheld : s = .text → held = []) :
    m.expand insert count s held (t ++ u) =
      held ++ (t ++ m.expand insert count .text [] u) := by
  induction t generalizing s held with
  | nil =>
      obtain rfl : s = .text := hidle
      rw [hheld rfl, List.nil_append, List.nil_append, List.nil_append]
  | cons c t ih =>
      rw [scan_cons] at hidle
      cases hstep : m.step s c with
      | text =>
          rw [hstep] at hidle
          rw [tags, hstep] at hnone
          rw [List.cons_append, expand, hstep, ih hidle hnone fun _ => rfl]
          rfl
      | tag name =>
          rw [tags, hstep] at hnone
          exact absurd hnone (List.cons_ne_nil _ _)
      | leadIn read | name read | leadOut read name =>
          rw [hstep] at hidle
          rw [tags, hstep] at hnone
          rw [List.cons_append, expand_inside hstep (by simp) (by simp),
            ih hidle hnone (by simp), List.append_assoc]
          rfl

theorem Passes.expand {t : List α} (h : m.Passes t) (u : List α) :
    m.expand insert count .text [] (t ++ u) = t ++ m.expand insert count .text [] u :=
  expand_text u h.idle h.noTags fun _ => rfl

/-! ## A well-formed tag -/

/-- Scanning `cs` from `s` stays inside what may be a tag, and ends in `s'`. -/
inductive Inside (m : Marks α) : Seen α → List α → Seen α → Prop where
  | nil (s : Seen α) : Inside m s [] s
  | cons {s s' s'' : Seen α} {c : α} {cs : List α} (hstep : m.step s c = s') (htext : s' ≠ .text)
      (htag : ∀ name, s' ≠ .tag name) (h : Inside m s' cs s'') : Inside m s (c :: cs) s''

/-- Scanning `cs` from `s` stays inside what may be a tag up to the last symbol, which ends the
tag `name`. -/
def Closes (m : Marks α) (s : Seen α) (cs name : List α) : Prop :=
  ∃ front c s', cs = front ++ [c] ∧ Inside m s front s' ∧ m.step s' c = .tag name

theorem Inside.append {s' s'' : Seen α} {cs ds : List α} (h : Inside m s cs s')
    (h' : Inside m s' ds s'') : Inside m s (cs ++ ds) s'' := by
  induction h with
  | nil s => exact h'
  | cons hstep htext htag h ih => exact .cons hstep htext htag (ih h')

theorem Inside.closes {s' : Seen α} {cs ds name : List α} (h : Inside m s cs s')
    (h' : Closes m s' ds name) : Closes m s (cs ++ ds) name := by
  obtain ⟨front, c, t, rfl, hfront, hend⟩ := h'
  exact ⟨cs ++ front, c, t, (List.append_assoc ..).symm, h.append hfront, hend⟩

theorem Inside.expand {s' : Seen α} {cs : List α} (h : Inside m s cs s') (u : List α) :
    m.expand insert count s held (cs ++ u) = m.expand insert count s' (held ++ cs) u := by
  induction h generalizing held with
  | nil s => rw [List.append_nil, List.nil_append]
  | cons hstep htext htag h ih =>
      rw [List.cons_append, expand_inside hstep htext htag, ih, List.append_assoc]
      rfl

theorem Inside.scan {s' : Seen α} {cs : List α} (h : Inside m s cs s') : m.scan s cs = s' := by
  induction h with
  | nil s => rfl
  | cons hstep htext htag h ih => rw [scan_cons, hstep, ih]

theorem Closes.expand {cs name : List α} (h : Closes m s cs name) (u : List α) :
    m.expand insert count s held (cs ++ u) =
      insert count name ++ m.expand insert (count + 1) .text [] u := by
  obtain ⟨front, c, s', rfl, hfront, hend⟩ := h
  rw [List.append_assoc, hfront.expand, List.singleton_append, Marks.expand, hend]
  exact congrArg _ (expand_tag name u)

theorem Closes.scan {cs name : List α} (h : Closes m s cs name) : m.scan s cs = .tag name := by
  obtain ⟨front, c, s', rfl, hfront, hend⟩ := h
  rw [scan_append, hfront.scan, scan_cons, scan_nil, hend]

omit [DecidableEq α] in
theorem inLeadIn_ne (read : Nat) :
    m.inLeadIn read ≠ .text ∧ ∀ name, m.inLeadIn read ≠ .tag name := by
  unfold inLeadIn
  split <;> simp

/-- The rest of the lead-in. -/
theorem inside_inLeadIn (done : List α) {rest : List α} (hsplit : m.leadIn = done ++ rest) :
    Inside m (m.inLeadIn done.length) rest (.name []) := by
  induction rest generalizing done with
  | nil =>
      rw [List.append_nil] at hsplit
      rw [inLeadIn, if_pos (by rw [hsplit])]
      exact .nil _
  | cons c rest ih =>
      have hlt : done.length ≠ m.leadIn.length := by
        rw [hsplit, List.length_append, List.length_cons]
        omega
      have hread : m.leadIn[done.length]? = some c := by rw [hsplit]; simp
      have hstep : m.step (m.inLeadIn done.length) c = m.inLeadIn (done ++ [c]).length := by
        rw [inLeadIn, if_neg hlt, step, if_pos hread, List.length_append]
        rfl
      have hne := inLeadIn_ne (m := m) (done ++ [c]).length
      exact .cons hstep hne.1 hne.2 (ih (done ++ [c]) (by rw [hsplit]; simp))

theorem inside_leadIn : Inside m .text m.leadIn (.name []) := by
  obtain ⟨c, rest, hin⟩ := List.exists_cons_of_ne_nil m.leadIn_ne
  have hread : m.leadIn[0]? = some c := by rw [hin, List.getElem?_cons_zero]
  have hstep : m.step .text c = m.inLeadIn 1 := if_pos hread
  have hne := inLeadIn_ne (m := m) 1
  have hrest := inside_inLeadIn [c] hin
  rw [hin]
  exact .cons hstep hne.1 hne.2 hrest

/-- Blanks, where they change nothing. -/
theorem inside_blanks {blanks : List α} (htext : s ≠ .text) (htag : ∀ name, s ≠ .tag name)
    (hstep : ∀ c, m.blank c = true → m.step s c = s)
    (hblank : ∀ c ∈ blanks, m.blank c = true) : Inside m s blanks s := by
  induction blanks with
  | nil => exact .nil s
  | cons c blanks ih =>
      rw [List.forall_mem_cons] at hblank
      exact .cons (hstep c hblank.1) htext htag (ih hblank.2)

/-- The symbols of the name. -/
theorem inside_name (read : List α) {rest : List α} (hname : m.IsName (read ++ rest)) :
    Inside m (.name read) rest (.name (read ++ rest)) := by
  induction rest generalizing read with
  | nil =>
      rw [List.append_nil]
      exact .nil _
  | cons c rest ih =>
      have hvisible := hname.visible c (by simp)
      have hopen := hname.open_ c (by simp)
      have hshort : read.length < m.maxName := by
        have hlen := hname.short
        rw [List.length_append, List.length_cons] at hlen
        omega
      have hstep : m.step (.name read) c = .name (read ++ [c]) := by
        simp only [step, stepName, hvisible, hopen, hshort, Bool.false_eq_true, and_false,
          or_false, if_false, if_true]
      rw [List.append_cons] at hname ⊢
      exact .cons hstep (by simp) (by simp) (ih (read ++ [c]) hname)

/-- The rest of the lead-out, of which at least one symbol is read. -/
theorem closes_rest {name done rest : List α} (hne : done ≠ [])
    (hsplit : m.leadOut = done ++ rest) (hrest : rest ≠ []) :
    Closes m (.leadOut done.length name) rest name := by
  induction rest generalizing done with
  | nil => exact absurd rfl hrest
  | cons c rest ih =>
      have hpos : done.length ≠ 0 := fun h => hne (List.length_eq_zero_iff.mp h)
      have hread : m.leadOut[done.length]? = some c := by rw [hsplit]; simp
      have hstep : m.step (.leadOut done.length name) c = m.inLeadOut (done.length + 1) name := by
        rw [step, if_neg (fun h => hpos h.1), if_pos hread]
      by_cases hend : rest = []
      · subst hend
        have htag : m.inLeadOut (done.length + 1) name = .tag name :=
          if_pos (by rw [hsplit]; simp)
        exact ⟨[], c, _, rfl, .nil _, hstep.trans htag⟩
      · have hmore : m.inLeadOut (done.length + 1) name = .leadOut (done ++ [c]).length name := by
          have hlen := List.length_pos_iff.mpr hend
          rw [inLeadOut, if_neg (by rw [hsplit, List.length_append, List.length_cons]; omega),
            List.length_append]
          rfl
        have hinside :
            Inside m (.leadOut done.length name) [c] (.leadOut (done ++ [c]).length name) :=
          .cons (hstep.trans hmore) (by simp) (by simp) (.nil _)
        exact hinside.closes (ih (by simp) (by rw [hsplit]; simp) hend)

/-- The lead-out, where its first symbol is not taken for another. -/
theorem closes_leadOut {name : List α}
    (hfirst : ∀ c, m.leadOut[0]? = some c → m.step s c = m.inLeadOut 1 name) :
    Closes m s m.leadOut name := by
  obtain ⟨c, rest, hout⟩ := List.exists_cons_of_ne_nil m.leadOut_ne
  have hstep := hfirst c (by rw [hout, List.getElem?_cons_zero])
  by_cases hend : rest = []
  · have htag : m.inLeadOut 1 name = .tag name := if_pos (by rw [hout, hend]; rfl)
    rw [hout, hend]
    exact ⟨[], c, _, rfl, .nil _, hstep.trans htag⟩
  · have hmore : m.inLeadOut 1 name = .leadOut [c].length name := by
      have hlen := List.length_pos_iff.mpr hend
      refine if_neg ?_
      rw [hout, List.length_cons]
      omega
    have hinside : Inside m s [c] (.leadOut [c].length name) :=
      .cons (hstep.trans hmore) (by simp) (by simp) (.nil _)
    have hrest := hinside.closes (closes_rest (by simp) hout hend)
    rw [hout]
    exact hrest

omit [DecidableEq α] in
theorem not_blank_of_leadOut {c : α} (h : m.leadOut[0]? = some c) : m.blank c = false :=
  m.leadOut_visible c (by rw [List.head?_eq_getElem?]; exact h)

/-- Blanks between the name and the lead-out. -/
theorem closes_after {name blanks : List α} (hname : m.IsName name)
    (hblank : ∀ c ∈ blanks, m.blank c = true) : Closes m (.name name) (blanks ++ m.leadOut) name := by
  have hout : Closes m (.leadOut 0 name) m.leadOut name := by
    refine closes_leadOut fun c hc => ?_
    simp only [step, not_blank_of_leadOut hc, hc, Bool.false_eq_true, and_false, if_false, if_true]
  cases blanks with
  | nil =>
      refine closes_leadOut fun c hc => ?_
      simp only [step, stepName, hname.ne, not_blank_of_leadOut hc, hc, Bool.false_eq_true,
        and_false, or_false, if_false, if_true]
  | cons c blanks =>
      rw [List.forall_mem_cons] at hblank
      have hother : m.leadOut[0]? ≠ some c := fun h => by
        rw [not_blank_of_leadOut h] at hblank
        exact absurd hblank.1 (by simp)
      have hstep : m.step (.name name) c = .leadOut 0 name := by
        simp only [step, stepName, hname.ne, hother, hblank.1, false_and, if_false, or_true,
          if_true]
      have hblanks : Inside m (.leadOut 0 name) blanks (.leadOut 0 name) :=
        inside_blanks (by simp) (by simp) (fun c hc => if_pos ⟨rfl, hc⟩) hblank.2
      exact (Inside.cons hstep (by simp) (by simp) hblanks).closes hout

/-- A well-formed tag is read as one. -/
theorem closes_source {before name after : List α} (h : (Piece.tag before name after).Proper m) :
    Closes m .text ((Piece.tag before name after).source m) name := by
  obtain ⟨hname, hbefore, hafter⟩ := h
  have hblanks : Inside m (.name []) before (.name []) :=
    inside_blanks (by simp) (by simp) (fun c hc => if_pos ⟨rfl, hc⟩) hbefore
  exact inside_leadIn.closes (hblanks.closes
    ((inside_name [] hname).closes (closes_after hname hafter)))

/-- **A template expands piece by piece**: its texts are copied, and its tags replaced. -/
theorem expand_source (count : Nat) {ps : List (Piece α)} (hproper : ∀ p ∈ ps, p.Proper m) :
    m.expand insert count .text [] (ps.flatMap (Piece.source m)) =
      Piece.output insert count ps := by
  induction ps generalizing count with
  | nil => rfl
  | cons p ps ih =>
      rw [List.forall_mem_cons] at hproper
      have htail (count : Nat) := ih count hproper.2
      rw [List.flatMap_cons]
      cases p with
      | text t => rw [Piece.source, hproper.1.expand, htail, Piece.output]
      | tag before name after => rw [(closes_source hproper.1).expand, htail, Piece.output]

/-! ## The last tag -/

theorem tags_append (s : Seen α) (cs ds : List α) :
    m.tags s (cs ++ ds) = m.tags s cs ++ m.tags (m.scan s cs) ds := by
  induction cs generalizing s with
  | nil => rfl
  | cons c cs ih =>
      rw [List.cons_append, tags, tags, scan_cons]
      cases m.step s c with
      | tag name => exact congrArg (name :: ·) (ih _)
      | text | leadIn | name | leadOut => exact ih _

theorem tags_idle (s : Seen α) (cs : List α) : m.tags (idle s) cs = m.tags s cs := by
  cases cs with
  | nil => rfl
  | cons c cs => rw [tags, tags, step_idle]

theorem scan_idle (s : Seen α) {cs : List α} (hne : cs ≠ []) : m.scan (idle s) cs = m.scan s cs := by
  cases cs with
  | nil => exact absurd rfl hne
  | cons c cs => rw [scan_cons, scan_cons, step_idle]

/-- No tag ends where a symbol is read that ends none. -/
theorem tags_single {c : α} (h : ∀ name, m.step s c ≠ .tag name) : m.tags s [c] = [] := by
  rw [tags]
  split
  · next name hstep => exact absurd hstep (h name)
  · rfl

/-- What a template ends with becomes the end of the expanded text. -/
theorem expand_ends (count : Nat) (held : List α) {cs : List α} {name : List α}
    (hscan : m.scan s cs = .tag name)
    (hs : ∀ name, s ≠ .tag name) :
    ∃ front, m.expand insert count s held cs =
      front ++ insert (count + (m.tags s cs).length - 1) name := by
  induction cs generalizing s count held with
  | nil => exact absurd hscan (hs name)
  | cons c cs ih =>
      rw [scan_cons] at hscan
      cases hstep : m.step s c with
      | text =>
          rw [hstep] at hscan
          obtain ⟨front, hfront⟩ := ih count [] hscan (by simp)
          rw [expand, tags, hstep]
          exact ⟨held ++ c :: front, by simp [hfront]⟩
      | tag name' =>
          rw [hstep] at hscan
          rw [expand, tags, hstep]
          by_cases hend : cs = []
          · subst hend
            obtain rfl : name' = name := Seen.tag.inj hscan
            exact ⟨[], by simp [tags]⟩
          · have htext : m.scan .text cs = .tag name := (scan_idle (.tag name') hend).trans hscan
            have htags : m.tags .text cs = m.tags (.tag name') cs := tags_idle (.tag name') cs
            obtain ⟨front, hfront⟩ := ih (count + 1) [] htext (by simp)
            refine ⟨insert count name' ++ front, ?_⟩
            simp only [expand_tag, hfront, htags, List.length_cons, List.append_assoc]
            rw [Nat.add_right_comm, Nat.add_assoc count]
      | leadIn read | name read | leadOut read name' =>
          rw [hstep] at hscan
          obtain ⟨front, hfront⟩ := ih count (held ++ [c]) hscan (by simp)
          rw [expand, tags, hstep]
          exact ⟨front, hfront⟩

/-- What the last tag of a template becomes, if the template ends with one. -/
def lastInsert (insert : Nat → List α → List α) (cs : List α) : List α :=
  match m.scan .text cs with
  | .tag name => insert ((m.tags .text cs).length - 1) name
  | _ => []

theorem scan_of_idle {s : Seen α} (hs : idle s = .text) {cs : List α} (hne : cs ≠ []) :
    m.scan s cs = m.scan .text cs := by
  rw [← scan_idle s hne, hs]

/-- Behind a template made of pieces the scanner is idle. -/
theorem scan_source {ps : List (Piece α)} (hproper : ∀ p ∈ ps, p.Proper m) {s : Seen α}
    (hs : idle s = .text) : idle (m.scan s (ps.flatMap (Piece.source m))) = .text := by
  induction ps generalizing s with
  | nil => exact hs
  | cons p ps ih =>
      rw [List.forall_mem_cons] at hproper
      rw [List.flatMap_cons, scan_append]
      refine ih hproper.2 ?_
      by_cases hne : p.source m = []
      · rw [hne]
        exact hs
      · rw [scan_of_idle hs hne]
        cases p with
        | text t => exact congrArg idle hproper.1.idle
        | tag before name after => exact congrArg idle (closes_source hproper.1).scan

/-- A template that ends with a text does not end with a tag. -/
theorem lastInsert_source {ps : List (Piece α)} (hproper : ∀ p ∈ ps, p.Proper m) {t : List α}
    (htext : m.Passes t) (hne : t ≠ []) :
    m.lastInsert insert (ps.flatMap (Piece.source m) ++ t) = [] := by
  have hscan : m.scan .text (ps.flatMap (Piece.source m) ++ t) = .text := by
    rw [scan_append, scan_of_idle (scan_source hproper rfl) hne, htext.idle]
  rw [lastInsert, hscan]

end Marks

/-! ## Stretches of a text -/

/-- The symbols from offset `a` up to offset `b`. -/
def stretch {α : Type*} (l : List α) (a b : Nat) : List α := (l.drop a).take (b - a)

section Stretches

variable {α : Type*} (l : List α) {a b c : Nat}

theorem stretch_self : stretch l a a = [] := by simp [stretch]

theorem stretch_of_le (h : b ≤ a) : stretch l a b = [] := by
  simp [stretch, Nat.sub_eq_zero_of_le h]

theorem take_drop_eq_stretch (n : Nat) : (l.drop a).take n = stretch l a (a + n) := by
  simp [stretch]

theorem stretch_append (hab : a ≤ b) (hbc : b ≤ c) :
    stretch l a b ++ stretch l b c = stretch l a c := by
  have hsplit : c - a = (b - a) + (c - b) := by omega
  have hdrop : l.drop b = (l.drop a).drop (b - a) := by
    rw [List.drop_drop]
    congr 1
    omega
  rw [stretch, stretch, stretch, hsplit, List.take_add, hdrop]

theorem stretch_drop (hab : a ≤ b) : stretch l a b ++ l.drop b = l.drop a := by
  have hdrop : l.drop b = (l.drop a).drop (b - a) := by
    rw [List.drop_drop]
    congr 1
    omega
  rw [stretch, hdrop, List.take_append_drop]

theorem stretch_succ (hab : a ≤ b) (hb : b < l.length) (d : α) :
    stretch l a (b + 1) = stretch l a b ++ [l.getD b d] := by
  have hone : stretch l b (b + 1) = [l.getD b d] := by
    rw [stretch, List.drop_eq_getElem_cons hb, Nat.add_sub_cancel_left, List.take_one,
      List.head?_cons, List.getD_eq_getElem _ _ hb]
    rfl
  rw [← stretch_append l hab b.le_succ, hone]

end Stretches

end Template
