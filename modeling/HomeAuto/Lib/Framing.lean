import Mathlib.Algebra.Ring.Nat
import Mathlib.Data.List.Basic

/-!
# Framing a byte stream

A framing decoder `next` looks at the front of a buffer and either finds a complete
frame there, described by a header `κ` whose `size` is the frame's length, or asks for
more.  `parse` splits off complete frames until it has to wait.

A decoder is *stable* when a frame it has found stays found however the buffer goes
on.  The last part adds a buffer of bounded capacity which is emptied when a piece does
not fit, and says exactly when a receiver with a stable decoder still hands on every frame
of a stream that it is fed piece by piece.
-/

namespace Framing

variable {α κ : Type*} (next : List α → Option κ) (size : κ → Nat)

/-- A frame found at the front of a buffer is not empty, lies inside the buffer, and is
found again when the buffer goes on. -/
structure Stable : Prop where
  pos : ∀ buf k, next buf = some k → 0 < size k
  le : ∀ buf k, next buf = some k → size k ≤ buf.length
  append : ∀ buf k more, next buf = some k → next (buf ++ more) = some k

/-- Split off at most `fuel` frames. -/
def split : Nat → List α → List (κ × List α) × List α
  | 0, buf => ([], buf)
  | fuel + 1, buf =>
      match next buf with
      | none => ([], buf)
      | some k =>
          ((k, buf.take (size k)) :: (split fuel (buf.drop (size k))).1,
            (split fuel (buf.drop (size k))).2)

/-- Split off frames until the decoder waits: the length of the buffer is fuel enough. -/
def parse (buf : List α) : List (κ × List α) × List α := split next size buf.length buf

variable {next size}

/-- Fuel beyond the length of the buffer changes nothing. -/
theorem split_eq_parse (hs : Stable next size) (fuel : Nat) (buf : List α)
    (hfuel : buf.length ≤ fuel) : split next size fuel buf = parse next size buf := by
  have hboth : ∀ n m (buf : List α), buf.length ≤ n → buf.length ≤ m →
      split next size n buf = split next size m buf := by
    intro n
    induction n with
    | zero =>
        intro m buf hn hm
        have hnil : buf = [] := List.length_eq_zero_iff.mp (by omega)
        subst hnil
        cases m with
        | zero => rfl
        | succ m =>
            cases hk : next [] with
            | none => simp [split, hk]
            | some k =>
                have hpos := hs.pos [] k hk
                have hle := hs.le [] k hk
                simp only [List.length_nil] at hle
                omega
    | succ n ih =>
        intro m buf hn hm
        cases m with
        | zero =>
            have hnil : buf = [] := List.length_eq_zero_iff.mp (by omega)
            subst hnil
            cases hk : next [] with
            | none => simp [split, hk]
            | some k =>
                have hpos := hs.pos [] k hk
                have hle := hs.le [] k hk
                simp only [List.length_nil] at hle
                omega
        | succ m =>
            cases hk : next buf with
            | none => simp [split, hk]
            | some k =>
                have hpos := hs.pos buf k hk
                have hle := hs.le buf k hk
                have hdrop : (buf.drop (size k)).length = buf.length - size k := by simp
                simp only [split, hk]
                rw [ih m (buf.drop (size k)) (by omega) (by omega)]
  exact hboth fuel buf.length buf hfuel (Nat.le_refl _)

theorem parse_of_none {buf : List α} (h : next buf = none) :
    parse next size buf = ([], buf) := by
  unfold parse
  cases buf with
  | nil => rfl
  | cons x buf => simp [split, h]

theorem parse_of_some (hs : Stable next size) {buf : List α} {k : κ} (h : next buf = some k) :
    parse next size buf =
      ((k, buf.take (size k)) :: (parse next size (buf.drop (size k))).1,
        (parse next size (buf.drop (size k))).2) := by
  have hpos := hs.pos buf k h
  have hle := hs.le buf k h
  obtain ⟨n, hn⟩ : ∃ n, buf.length = n + 1 := ⟨buf.length - 1, by omega⟩
  have hdrop : (buf.drop (size k)).length ≤ n := by
    rw [List.length_drop]
    omega
  rw [← split_eq_parse hs n (buf.drop (size k)) hdrop, parse, hn, split, h]

/-- **Induction over the frames of a buffer.** -/
theorem parse_induction (hs : Stable next size) {P : List α → Prop}
    (hwait : ∀ buf, next buf = none → P buf)
    (hframe : ∀ buf k, next buf = some k → P (buf.drop (size k)) → P buf) (buf : List α) :
    P buf := by
  induction hlen : buf.length using Nat.strongRecOn generalizing buf with
  | ind n ih =>
      cases hk : next buf with
      | none => exact hwait buf hk
      | some k =>
          have hpos := hs.pos buf k hk
          have hle := hs.le buf k hk
          refine hframe buf k hk (ih (buf.length - size k) (by omega) _ ?_)
          rw [List.length_drop]

/-- Parsing ends where the decoder waits. -/
theorem next_parse (hs : Stable next size) (buf : List α) :
    next (parse next size buf).2 = none := by
  induction buf using parse_induction hs with
  | hwait buf h =>
      rw [parse_of_none h]
      exact h
  | hframe buf k h ih =>
      rw [parse_of_some hs h]
      exact ih

/-- The frames and what is left make up the buffer. -/
theorem flatten_parse (hs : Stable next size) (buf : List α) :
    ((parse next size buf).1.map Prod.snd).flatten ++ (parse next size buf).2 = buf := by
  induction buf using parse_induction hs with
  | hwait buf h =>
      rw [parse_of_none h]
      rfl
  | hframe buf k h ih =>
      rw [parse_of_some hs h]
      simp only [List.map_cons, List.flatten_cons, List.append_assoc]
      rw [ih, List.take_append_drop]

/-! ## Streams of whole frames -/

/-- A frame the decoder finds as soon as, and only when, it is complete. -/
def Recognised (next : List α → Option κ) (size : κ → Nat) (p : List α) : Prop :=
  (∃ k, next p = some k ∧ size k = p.length) ∧ ∀ q, q <+: p → q ≠ p → next q = none

theorem parse_recognised_append (hs : Stable next size) {p : List α}
    (hp : Recognised next size p) (more : List α) :
    ((parse next size (p ++ more)).1.map Prod.snd,
        (parse next size (p ++ more)).2) =
      (p :: (parse next size more).1.map Prod.snd, (parse next size more).2) := by
  obtain ⟨⟨k, hk, hsize⟩, _⟩ := hp
  rw [parse_of_some hs (hs.append p k more hk), hsize]
  simp

/-- Any front part of a stream of recognised frames parses into the frames it
completes. -/
theorem parse_prefix (hs : Stable next size) {ps : List (List α)}
    (hps : ∀ p ∈ ps, Recognised next size p) {buf rest : List α}
    (hstream : buf ++ rest = ps.flatten) :
    ∃ qs rs, ps = qs ++ rs ∧ (parse next size buf).1.map Prod.snd = qs ∧
      (parse next size buf).2 ++ rest = rs.flatten := by
  induction ps generalizing buf with
  | nil =>
      obtain ⟨rfl, rfl⟩ := List.append_eq_nil_iff.mp hstream
      exact ⟨[], [], rfl, rfl, rfl⟩
  | cons p ps ih =>
      have hp := hps p (by simp)
      rw [List.flatten_cons] at hstream
      rcases List.append_eq_append_iff.mp hstream with ⟨q, hq, hrest⟩ | ⟨more, hbuf, hmore⟩
      · -- the buffer ends inside the first frame, or just at its end
        by_cases hqe : q = []
        · subst hqe
          rw [List.append_nil] at hq
          subst hq
          have hrest' : [] ++ rest = ps.flatten := hrest
          obtain ⟨qs, rs, hsplit, hframes, hleft⟩ := ih (fun p hp => hps p (by simp [hp])) hrest'
          have hpar := parse_recognised_append hs hp []
          rw [List.append_nil, Prod.mk.injEq] at hpar
          exact ⟨p :: qs, rs, by rw [hsplit]; rfl, by rw [hpar.1, hframes],
            by rw [hpar.2, hleft]⟩
        · have hwait : next buf = none := by
            refine hp.2 buf ⟨q, hq.symm⟩ ?_
            rintro rfl
            exact hqe (by simpa using hq)
          refine ⟨[], p :: ps, rfl, by rw [parse_of_none hwait]; rfl, ?_⟩
          rw [parse_of_none hwait, List.flatten_cons]
          exact hstream
      · subst hbuf
        obtain ⟨qs, rs, hsplit, hframes, hleft⟩ :=
          ih (fun p hp => hps p (by simp [hp])) hmore.symm
        have hpar := parse_recognised_append hs hp more
        rw [Prod.mk.injEq] at hpar
        exact ⟨p :: qs, rs, by rw [hsplit]; rfl, by rw [hpar.1, hframes],
          by rw [hpar.2, hleft]⟩

/-! ## A receiver of bounded capacity -/

/-- Take a piece into a buffer of capacity `cap`; when it does not fit, buffer and piece
are both dropped. -/
def accumulate (cap : Nat) (buf seg : List α) : List α :=
  if buf.length + seg.length ≤ cap then buf ++ seg else []

/-- The buffer of a receiver and the frames it has handed on. -/
structure Receiver (α : Type*) where
  buf : List α
  handled : List (List α)

/-- One delivery, in pieces: take in all of it, then hand on the complete frames. -/
def receive (next : List α → Option κ) (size : κ → Nat) (cap : Nat) (r : Receiver α)
    (segs : List (List α)) : Receiver α where
  buf := (parse next size (segs.foldl (accumulate cap) r.buf)).2
  handled := r.handled ++
    (parse next size (segs.foldl (accumulate cap) r.buf)).1.map Prod.snd

theorem accumulate_of_fits {cap : Nat} {segs : List (List α)} {buf : List α}
    (h : buf.length + segs.flatten.length ≤ cap) :
    segs.foldl (accumulate cap) buf = buf ++ segs.flatten := by
  induction segs generalizing buf with
  | nil => simp
  | cons seg segs ih =>
      rw [List.flatten_cons, List.length_append] at h
      rw [List.foldl_cons, accumulate, if_pos (by omega), ih (by rw [List.length_append]; omega),
        List.flatten_cons, List.append_assoc]

theorem accumulate_length_le (cap : Nat) (segs : List (List α)) (buf : List α) :
    (segs.foldl (accumulate cap) buf).length ≤ buf.length + segs.flatten.length := by
  induction segs generalizing buf with
  | nil => simp
  | cons seg segs ih =>
      rw [List.foldl_cons, List.flatten_cons, List.length_append]
      have := ih (accumulate cap buf seg)
      have hseg : (accumulate cap buf seg).length ≤ buf.length + seg.length := by
        unfold accumulate
        split <;> simp
      omega

/-- A delivery that does not fit loses data. -/
theorem accumulate_length_lt {cap : Nat} (segs : List (List α)) (buf : List α)
    (hbuf : buf.length ≤ cap) (h : cap < buf.length + segs.flatten.length) :
    (segs.foldl (accumulate cap) buf).length < buf.length + segs.flatten.length := by
  induction segs generalizing buf with
  | nil =>
      simp only [List.flatten_nil, List.length_nil, Nat.add_zero] at h
      omega
  | cons seg segs ih =>
      rw [List.flatten_cons, List.length_append] at h
      rw [List.foldl_cons, List.flatten_cons, List.length_append]
      by_cases hfit : buf.length + seg.length ≤ cap
      · rw [accumulate, if_pos hfit]
        have := ih (buf ++ seg) (by rw [List.length_append]; omega)
          (by rw [List.length_append]; omega)
        rw [List.length_append] at this
        omega
      · rw [accumulate, if_neg hfit]
        have := accumulate_length_le cap segs ([] : List α)
        simp only [List.length_nil] at this
        omega

/-- The number of items of a delivery. -/
def total (segs : List (List α)) : Nat := segs.flatten.length

/-- After `n` items of a stream of frames, how many of them belong to the frame still
incomplete. -/
def pendingLen : List (List α) → Nat → Nat
  | [], n => n
  | p :: ps, n => if p.length ≤ n then pendingLen ps (n - p.length) else n

/-- Every delivery, with the incomplete frame before it, fits the buffer; `n` items have
been delivered before. -/
def Fits (cap : Nat) (ps : List (List α)) : Nat → List (List (List α)) → Prop
  | _, [] => True
  | n, d :: ds => pendingLen ps n + total d ≤ cap ∧ Fits cap ps (n + total d) ds

theorem pendingLen_append (qs rs : List (List α)) (n : Nat) :
    pendingLen (qs ++ rs) (qs.flatten.length + n) = pendingLen rs n := by
  induction qs with
  | nil => simp
  | cons q qs ih =>
      rw [List.cons_append, List.flatten_cons, List.length_append, pendingLen,
        if_pos (by omega), ← ih]
      congr 1
      omega

/-- Frames that are complete before a delivery do not matter for it. -/
theorem fits_append (cap : Nat) (qs rs : List (List α)) (n : Nat) (ds : List (List (List α))) :
    Fits cap (qs ++ rs) (qs.flatten.length + n) ds ↔ Fits cap rs n ds := by
  induction ds generalizing n with
  | nil => exact Iff.rfl
  | cons d ds ih => rw [Fits, Fits, pendingLen_append, Nat.add_assoc, ih]

/-- A buffer at whose front no frame is complete is shorter than the next frame. -/
theorem length_lt_of_waiting (hs : Stable next size) {p : List α} {ps : List (List α)}
    (hp : Recognised next size p) {buf rest : List α}
    (hstream : buf ++ rest = (p :: ps).flatten) (hwait : next buf = none) :
    buf.length < p.length := by
  obtain ⟨⟨k, hk, _⟩, _⟩ := hp
  by_contra hle
  rw [List.flatten_cons] at hstream
  rcases List.append_eq_append_iff.mp hstream with ⟨q, hq, _⟩ | ⟨more, hbuf, _⟩
  · have hqnil : q = [] := by
      rw [hq, List.length_append] at hle
      exact List.length_eq_zero_iff.mp (by omega)
    subst hqnil
    rw [List.append_nil] at hq
    subst hq
    rw [hwait] at hk
    cases hk
  · rw [hbuf, hs.append p k more hk] at hwait
    cases hwait

/-- What waits in the buffer is the incomplete frame. -/
theorem pendingLen_of_waiting (hs : Stable next size) {ps : List (List α)}
    (hps : ∀ p ∈ ps, Recognised next size p) {buf rest : List α}
    (hstream : buf ++ rest = ps.flatten) (hwait : next buf = none) :
    pendingLen ps buf.length = buf.length := by
  cases ps with
  | nil => rfl
  | cons p ps =>
      have hlt := length_lt_of_waiting hs (hps p (by simp)) hstream hwait
      rw [pendingLen, if_neg (by omega)]

/-- What a receiver has handed on and still holds is no more than it was sent. -/
theorem received_length_le (hs : Stable next size) (cap : Nat) (ds : List (List (List α)))
    (r : Receiver α) :
    (ds.foldl (receive next size cap) r).handled.flatten.length +
        (ds.foldl (receive next size cap) r).buf.length ≤
      r.handled.flatten.length + r.buf.length + (ds.map total).sum := by
  induction ds generalizing r with
  | nil => simp
  | cons d ds ih =>
      have hstep := ih (receive next size cap r d)
      have hparse := congrArg List.length
        (flatten_parse hs (d.foldl (accumulate cap) r.buf))
      have hacc := accumulate_length_le cap d r.buf
      simp only [List.foldl_cons, List.map_cons, List.sum_cons]
      simp only [receive, List.flatten_append, List.length_append, total] at hstep hparse hacc ⊢
      omega

/-- **Bounded framing, exactly.**  A receiver of capacity `cap` hands on every frame of a
stream, whole and in order, precisely when every delivery fits together with the
incomplete frame before it. -/
theorem handled_eq_iff_fits (hs : Stable next size) {cap : Nat} {ps : List (List α)}
    (qs : List (List α)) (hps : ∀ p ∈ ps, Recognised next size p) (hcap : ∀ p ∈ ps, p.length ≤ cap)
    (ds : List (List (List α))) {buf : List α}
    (hstream : buf ++ (ds.map List.flatten).flatten = ps.flatten) (hwait : next buf = none) :
    (ds.foldl (receive next size cap) ⟨buf, qs⟩).handled = qs ++ ps ↔
      Fits cap (qs ++ ps) (qs.flatten.length + buf.length) ds := by
  induction ds generalizing ps qs buf with
  | nil =>
      cases ps with
      | nil => simp [Fits]
      | cons p ps =>
          have hlt := length_lt_of_waiting hs (hps p (by simp)) hstream hwait
          simp only [List.map_nil, List.flatten_nil, List.append_nil, List.flatten_cons] at hstream
          rw [hstream, List.length_append] at hlt
          omega
  | cons d ds ih =>
      rw [List.map_cons, List.flatten_cons] at hstream
      have hpend : pendingLen (qs ++ ps) (qs.flatten.length + buf.length) = buf.length := by
        rw [pendingLen_append, pendingLen_of_waiting hs hps hstream hwait]
      rw [List.foldl_cons, Fits, hpend]
      by_cases hfit : buf.length + total d ≤ cap
      · -- the delivery fits: parse what is there and go on with the frames left
        rw [← List.append_assoc] at hstream
        obtain ⟨fs, rs, rfl, hframes, hleft⟩ := parse_prefix hs hps hstream
        have hlen := congrArg List.length (flatten_parse hs (buf ++ d.flatten))
        rw [hframes] at hlen
        simp only [List.length_append] at hlen
        have hih := @ih rs (qs ++ fs) (fun p hp => hps p (by simp [hp]))
          (fun p hp => hcap p (by simp [hp])) _ hleft (next_parse hs _)
        have hcount : (qs ++ fs).flatten.length + (parse next size (buf ++ d.flatten)).2.length =
            qs.flatten.length + buf.length + total d := by
          simp only [List.flatten_append, List.length_append, total]
          omega
        rw [List.append_assoc, hcount] at hih
        rw [receive, accumulate_of_fits hfit, hframes, hih]
        exact ⟨fun h => ⟨hfit, h⟩, fun h => h.2⟩
      · -- the delivery does not fit: data is lost, and the totals no longer match
        refine iff_of_false (fun heq => ?_) (fun h => hfit h.1)
        have hbuf : buf.length ≤ cap := by
          cases ps with
          | nil =>
              have hnil := (List.append_eq_nil_iff.mp hstream).1
              simp [hnil]
          | cons p ps =>
              have hlt := length_lt_of_waiting hs (hps p (by simp)) hstream hwait
              have := hcap p (by simp)
              omega
        have hlost := accumulate_length_lt d buf hbuf (by unfold total at hfit; omega)
        have hparse := congrArg List.length (flatten_parse hs (d.foldl (accumulate cap) buf))
        have hle := received_length_le hs cap ds (receive next size cap ⟨buf, qs⟩ d)
        have hsum : (ds.map total).sum = (ds.map List.flatten).flatten.length := by
          rw [List.length_flatten, List.map_map]
          rfl
        have hall := congrArg List.length hstream
        rw [heq, hsum] at hle
        simp only [receive, List.flatten_append, List.length_append] at hle hparse hall hlost
        omega

end Framing
