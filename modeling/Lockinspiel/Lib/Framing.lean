/-
Lockinspiel/Lib/Framing.lean

Streams that are cut into frames by a terminator, and the buffer they are
collected in.

A frame ends with the terminator and does not contain it earlier, so of the
parts of a frame that a reader can have seen only the whole one ends with it
(`IsFrame.not_suffix`).  If every record ends with one and the same element
and does not contain it earlier, a stream of records that goes on with a part
of one is not a stream of records (`IsStream.not_append_part`).  `overwrite` puts
what was read into a buffer of a fixed length, behind what is there
(`take_overwrite`).

A reader that looks for the terminator at the end of its buffer, and empties the
buffer when it is full, finds a number of frames that depends on the chunks it
reads.  It does not depend on them exactly if the terminator stands nowhere but
at the end of a piece, where the pieces are those that the length of the buffer
cuts off the stream (`frames_eq_iff`).

A reader that has the whole stream finds the first terminator with `splitOnce`: it
is the one that a frame ends with (`splitOnce_eq_some_iff`).
-/
import Mathlib.Data.List.Infix
import Mathlib.Data.Vector.Basic

namespace Framing

variable {α : Type}

/-- `r` ends with `d`, and `d` does not occur in it earlier. -/
structure IsFrame (d r : List α) : Prop where
  ends : d <:+ r
  first : ¬ d <:+: r.dropLast

instance [DecidableEq α] (d r : List α) : Decidable (IsFrame d r) :=
  decidable_of_iff (d <:+ r ∧ ¬ d <:+: r.dropLast) ⟨fun h => ⟨h.1, h.2⟩, fun h => ⟨h.1, h.2⟩⟩

/-- A proper part does without the last element. -/
theorem prefix_dropLast {p r : List α} (hp : p <+: r) (hne : p ≠ r) : p <+: r.dropLast := by
  have hlt : p.length < r.length := by
    refine Nat.lt_of_le_of_ne hp.length_le fun hlen => ?_
    exact hne (hp.eq_of_length hlen)
  rw [List.dropLast_eq_take, List.prefix_take_iff]
  exact ⟨hp, Nat.le_sub_one_of_lt hlt⟩

/-- Behind what stands before the last element, there is one more. -/
theorem exists_prefix_of_infix_dropLast {d r : List α} (hd : d ≠ []) (h : d <:+: r.dropLast) :
    ∃ x a, x ++ d ++ [a] <+: r := by
  obtain ⟨x, y, hxy⟩ := h
  have hne : r ≠ [] := by
    rintro rfl
    rw [List.dropLast_nil, List.append_assoc] at hxy
    exact hd (List.append_eq_nil_iff.mp (List.append_eq_nil_iff.mp hxy).2).1
  obtain ⟨a, z, haz⟩ := List.exists_cons_of_ne_nil (List.concat_ne_nil (r.getLast hne) y)
  refine ⟨x, a, z, ?_⟩
  rw [List.append_assoc, List.singleton_append, ← haz, ← List.append_assoc, hxy,
    List.dropLast_append_getLast]

/-- No proper part of a frame ends with the terminator. -/
theorem IsFrame.not_suffix {d r p : List α} (h : IsFrame d r) (hp : p <+: r) (hne : p ≠ r) :
    ¬ d <:+ p := by
  intro hd
  exact h.first (hd.isInfix.trans (prefix_dropLast hp hne).isInfix)

/-- A stream of records, one whole record after the other. -/
def IsStream (P : List α → Prop) (s : List α) : Prop :=
  ∃ records : List (List α), (∀ r ∈ records, P r) ∧ s = records.flatten

section

variable {P : List α → Prop} {s p r : List α}

theorem IsStream.nil : IsStream P [] := ⟨[], by simp, rfl⟩

theorem IsStream.append (hs : IsStream P s) (hr : P r) : IsStream P (s ++ r) := by
  obtain ⟨records, hrecords, rfl⟩ := hs
  refine ⟨records ++ [r], fun r' hr' => ?_, by simp⟩
  rcases List.mem_append.mp hr' with hr' | hr'
  · exact hrecords r' hr'
  · rw [List.mem_singleton.mp hr']
    exact hr

/-- A stream that is not empty ends as its last record does. -/
theorem IsStream.suffix {d : List α} (hP : ∀ r, P r → IsFrame d r) (hs : IsStream P s) :
    s = [] ∨ d <:+ s := by
  obtain ⟨records, hrecords, rfl⟩ := hs
  rcases records.eq_nil_or_concat with rfl | ⟨before, last, rfl⟩
  · exact .inl rfl
  · have hlast := hP last (hrecords last (by simp))
    rw [List.concat_eq_append, List.flatten_append, List.flatten_singleton]
    exact .inr (hlast.ends.trans (List.suffix_append _ _))

/-- A stream does not go on with a part of a record. -/
theorem IsStream.not_append_part {a : α} (hP : ∀ r, P r → IsFrame [a] r) (hr : P r)
    (hp : p <+: r) (hne : p ≠ r) (hnil : p ≠ []) : ¬ IsStream P (s ++ p) := by
  intro h
  rcases h.suffix hP with hempty | hsuffix
  · exact hnil (List.append_eq_nil_iff.mp hempty).2
  · refine (hP r hr).not_suffix hp hne ?_
    rw [List.singleton_suffix_iff_getLast?_eq_some] at hsuffix ⊢
    rw [← hsuffix, List.getLast?_append_of_ne_nil _ hnil]

end

/-- The buffer with `new` at the positions from `i` on. -/
def overwrite {n : ℕ} (buf : List.Vector α n) (i : ℕ) (new : List α) : List.Vector α n where
  val := (buf.toList.take i ++ new ++ buf.toList.drop (i + new.length)).take n
  property := by
    rw [List.length_take, List.length_append, List.length_append, List.length_take,
      List.length_drop, buf.toList_length]
    omega

theorem take_overwrite {n : ℕ} (buf : List.Vector α n) {i : ℕ} {new : List α}
    (h : i + new.length ≤ n) :
    (overwrite buf i new).toList.take (i + new.length) = buf.toList.take i ++ new := by
  have hlen : (buf.toList.take i ++ new).length = i + new.length := by
    rw [List.length_append, List.length_take, buf.toList_length]
    omega
  show ((buf.toList.take i ++ new ++ buf.toList.drop (i + new.length)).take n).take _ = _
  rw [List.take_take, Nat.min_eq_left h, ← hlen]
  exact List.take_left

/-! ### A buffer of `N` elements -/

/-- In none of the pieces of `N` elements `d` stands anywhere but at the end. -/
def Aligned (N : ℕ) (d s : List α) : Prop := ∀ k, ¬ d <:+: ((s.drop (N * k)).take N).dropLast

section

variable {N : ℕ} {d s : List α}

theorem Aligned.drop (h : Aligned N d s) : Aligned N d (s.drop N) := by
  intro k
  have hk := h (k + 1)
  rwa [Nat.mul_succ, Nat.add_comm, ← List.drop_drop] at hk

/-- A beginning of an aligned stream is aligned. -/
theorem Aligned.of_prefix {p : List α} (h : Aligned N d s) (hp : p <+: s) : Aligned N d p := by
  intro k hk
  have hpiece : (p.drop (N * k)).take N <+: (s.drop (N * k)).take N :=
    (hp.drop (N * k)).take N
  refine h k (hk.trans (List.IsPrefix.isInfix ?_))
  rw [List.dropLast_eq_take, List.dropLast_eq_take, List.prefix_take_iff]
  refine ⟨(List.take_prefix _ _).trans hpiece, ?_⟩
  rw [List.length_take]
  have hle := hpiece.length_le
  omega

/-- A part of the first piece that ends with `d` is all of it. -/
theorem Aligned.eq_take (h : Aligned N d s) {p : List α} (hp : p <+: s) (hlen : p.length ≤ N)
    (hd : d <:+ p) : p = s.take N := by
  have hpre : p <+: s.take N := List.prefix_take_iff.mpr ⟨hp, hlen⟩
  by_contra hne
  exact h 0 (hd.isInfix.trans (prefix_dropLast hpre hne).isInfix)

end

section

variable [DecidableEq α] (N : ℕ) (d : List α)

/-- What the buffer holds after another chunk: it is emptied when it ends with
`d`, and when it is full. -/
def afterChunk (buf chunk : List α) : List α :=
  if d <:+ buf ++ chunk ∨ N ≤ (buf ++ chunk).length then [] else buf ++ chunk

/-- What the buffer holds after some chunks. -/
def afterChunks (buf : List α) (chunks : List (List α)) : List α :=
  chunks.foldl (afterChunk N d) buf

/-- The chunks are not empty and find room in the buffer. -/
def IsDelivery : List α → List (List α) → Prop
  | _, [] => True
  | buf, chunk :: chunks => chunk ≠ [] ∧ buf.length + chunk.length ≤ N ∧
      IsDelivery (afterChunk N d buf chunk) chunks

/-- How often the buffer ends with `d`. -/
def frames : List α → List (List α) → ℕ
  | _, [] => 0
  | buf, chunk :: chunks =>
      (if d <:+ buf ++ chunk then 1 else 0) + frames (afterChunk N d buf chunk) chunks

/-- The pieces of `N` elements that end with `d`; the last piece may be shorter. -/
def endedPieces (s : List α) : ℕ :=
  if s = [] ∨ N = 0 then 0 else (if d <:+ s.take N then 1 else 0) + endedPieces (s.drop N)
termination_by s.length
decreasing_by
  rename_i h
  rw [not_or] at h
  rw [List.length_drop]
  have hpos := List.length_pos_iff.mpr h.1
  omega

variable {N d} {buf s : List α} {chunks chunks' : List (List α)}

theorem isDelivery_append : IsDelivery N d buf (chunks ++ chunks') ↔
    IsDelivery N d buf chunks ∧ IsDelivery N d (afterChunks N d buf chunks) chunks' := by
  induction chunks generalizing buf with
  | nil => exact (and_iff_right trivial).symm
  | cons chunk chunks ih =>
      rw [List.cons_append, IsDelivery, IsDelivery, ih, and_assoc, and_assoc]
      rfl

theorem frames_append : frames N d buf (chunks ++ chunks') =
    frames N d buf chunks + frames N d (afterChunks N d buf chunks) chunks' := by
  induction chunks generalizing buf with
  | nil => exact (Nat.zero_add _).symm
  | cons chunk chunks ih =>
      rw [List.cons_append, frames, frames, ih, Nat.add_assoc]
      rfl

theorem endedPieces_nil : endedPieces N d [] = 0 := by
  rw [endedPieces, if_pos (.inl rfl)]

theorem endedPieces_of_ne_nil (hN : 0 < N) (hs : s ≠ []) :
    endedPieces N d s = (if d <:+ s.take N then 1 else 0) + endedPieces N d (s.drop N) := by
  rw [endedPieces, if_neg]
  rintro (h | rfl)
  · exact hs h
  · exact Nat.lt_irrefl 0 hN

/-- **Aligned frames**: whatever the chunks are, the frames are the pieces that end
with `d`.  The buffer is emptied at the end of each piece, and nowhere else. -/
theorem frames_eq_endedPieces (hN : 0 < N) (hd : d ≠ []) (hfits : IsDelivery N d buf chunks)
    (hlen : buf.length < N) (hbuf : ¬ d <:+ buf) (h : Aligned N d (buf ++ chunks.flatten)) :
    frames N d buf chunks = endedPieces N d (buf ++ chunks.flatten) := by
  have hnil : ¬ d <:+ ([] : List α) := fun h => hd (List.suffix_nil.mp h)
  induction chunks generalizing buf with
  | nil =>
      rw [List.flatten_nil, List.append_nil, frames]
      by_cases hs : buf = []
      · rw [hs, endedPieces_nil]
      · rw [endedPieces_of_ne_nil hN hs, List.take_of_length_le (Nat.le_of_lt hlen), if_neg hbuf,
          List.drop_of_length_le (Nat.le_of_lt hlen), endedPieces_nil]
  | cons chunk chunks ih =>
      obtain ⟨hne, hroom, hfits⟩ := hfits
      rw [List.flatten_cons, ← List.append_assoc] at h ⊢
      rw [← List.length_append] at hroom
      rw [frames]
      rw [afterChunk] at hfits ⊢
      by_cases hreset : d <:+ buf ++ chunk ∨ N ≤ (buf ++ chunk).length
      · rw [if_pos hreset] at hfits ⊢
        have hpiece : buf ++ chunk = (buf ++ chunk ++ chunks.flatten).take N := by
          obtain hends | hfull := hreset
          · exact h.eq_take (List.prefix_append _ _) hroom hends
          · rw [← Nat.le_antisymm hroom hfull, List.take_left]
        have hs : buf ++ chunk ++ chunks.flatten ≠ [] := by
          intro hs
          exact hne (List.append_eq_nil_iff.mp (List.append_eq_nil_iff.mp hs).1).2
        have hrest : (buf ++ chunk ++ chunks.flatten).drop N = chunks.flatten := by
          have hall := List.take_append_drop N (buf ++ chunk ++ chunks.flatten)
          rw [← hpiece] at hall
          exact List.append_cancel_left hall
        rw [endedPieces_of_ne_nil hN hs, ← hpiece, hrest]
        congr 1
        exact ih hfits hN hnil (hrest ▸ h.drop)
      · rw [if_neg hreset] at hfits ⊢
        rw [not_or] at hreset
        rw [if_neg hreset.1, Nat.zero_add]
        exact ih hfits (Nat.lt_of_not_le hreset.2) hreset.1 h

/-- A chunk that ends with `d` and another element, or both as one chunk. -/
theorem frames_ne (hshift : ∀ a, ¬ d <:+ d ++ [a]) (x : List α) (a : α) :
    frames N d [] [x ++ d, [a]] = 1 ∧ frames N d [] [x ++ d ++ [a]] = 0 := by
  have hends : d <:+ x ++ d := List.suffix_append _ _
  have hone : ¬ d <:+ [a] := fun h => hshift a (h.trans (List.suffix_append _ _))
  have hlonger : ¬ d <:+ x ++ d ++ [a] := by
    intro h
    refine hshift a (List.suffix_of_suffix_length_le h ?_ (by simp))
    rw [List.append_assoc]
    exact List.suffix_append _ _
  constructor
  · simp only [frames, afterChunk, List.nil_append, hends, hone, if_true, if_false, true_or]
  · simp only [frames, List.nil_append, hlonger, if_false]

/-- Both are ways to deliver the same, if there is room for it. -/
theorem isDelivery_pair (hd : d ≠ []) {x : List α} {a : α} (hroom : (x ++ d ++ [a]).length ≤ N) :
    IsDelivery N d [] [x ++ d, [a]] ∧ IsDelivery N d [] [x ++ d ++ [a]] := by
  have hreset : afterChunk N d [] (x ++ d) = [] := by
    rw [afterChunk, List.nil_append, if_pos (.inl (List.suffix_append _ _))]
  rw [List.length_append, List.length_singleton] at hroom
  refine ⟨⟨by simp [hd], ?_, by simp, ?_, trivial⟩, by simp, ?_, trivial⟩
  · rw [List.length_nil, Nat.zero_add]
    exact Nat.le_of_succ_le hroom
  · rw [hreset, List.length_nil, Nat.zero_add, List.length_singleton]
    exact (Nat.le_add_left _ _).trans hroom
  · rw [List.length_nil, Nat.zero_add, List.length_append, List.length_singleton]
    exact hroom

/-- Where `d` stands inside a piece, there is a beginning of the stream whose
frames depend on the chunks. -/
theorem exists_deliveries (hd : d ≠ []) (hshift : ∀ a, ¬ d <:+ d ++ [a]) (k : ℕ)
    (h : d <:+: ((s.drop (N * k)).take N).dropLast) :
    ∃ chunks chunks', chunks.flatten <+: s ∧ chunks'.flatten = chunks.flatten ∧
      IsDelivery N d [] chunks ∧ IsDelivery N d [] chunks' ∧
      frames N d [] chunks ≠ frames N d [] chunks' := by
  induction k generalizing s with
  | zero =>
      rw [Nat.mul_zero, List.drop_zero] at h
      obtain ⟨x, a, hpart⟩ := exists_prefix_of_infix_dropLast hd h
      obtain ⟨hpair, hwhole⟩ := isDelivery_pair hd (hpart.length_le.trans (List.length_take_le _ _))
      obtain ⟨hone, hnone⟩ := frames_ne (N := N) hshift x a
      refine ⟨[x ++ d, [a]], [x ++ d ++ [a]], ?_, by simp, hpair, hwhole, ?_⟩
      · simpa using hpart.trans (List.take_prefix _ _)
      · rw [hone, hnone]
        decide
  | succ k ih =>
      have hdrop : s.drop (N * (k + 1)) = (s.drop N).drop (N * k) := by
        rw [List.drop_drop, Nat.mul_succ, Nat.add_comm]
      -- the first piece is a whole one, and comes in one chunk
      have hlen := h.length_le
      have hpos := List.length_pos_iff.mpr hd
      rw [List.length_dropLast, List.length_take, List.length_drop, Nat.mul_succ] at hlen
      have hfull : N ≤ (s.take N).length := by
        rw [List.length_take]
        omega
      have hne : s.take N ≠ [] := List.ne_nil_of_length_pos (by omega)
      have hreset : afterChunk N d [] (s.take N) = [] := by
        rw [afterChunk, List.nil_append, if_pos (.inr hfull)]
      rw [hdrop] at h
      obtain ⟨chunks, chunks', hpre, heq, hfits, hfits', hframes⟩ := ih h
      refine ⟨s.take N :: chunks, s.take N :: chunks', ?_, ?_, ?_, ?_, fun hsame => hframes ?_⟩
      · rw [List.flatten_cons]
        exact (List.prefix_append_right_inj _).mpr hpre |>.trans (by rw [List.take_append_drop])
      · rw [List.flatten_cons, List.flatten_cons, heq]
      · exact ⟨hne, by simp, hreset.symm ▸ hfits⟩
      · exact ⟨hne, by simp, hreset.symm ▸ hfits'⟩
      · rw [frames, frames, hreset] at hsame
        exact Nat.add_left_cancel hsame

/-- **When the frames do not depend on the chunks**, anywhere in the stream:
exactly if it is aligned. -/
theorem frames_eq_iff (hN : 0 < N) (hd : d ≠ []) (hshift : ∀ a, ¬ d <:+ d ++ [a]) :
    (∀ p, p <+: s → ∀ chunks chunks', chunks.flatten = p → chunks'.flatten = p →
      IsDelivery N d [] chunks → IsDelivery N d [] chunks' →
        frames N d [] chunks = frames N d [] chunks') ↔ Aligned N d s := by
  constructor
  · intro h k hk
    obtain ⟨chunks, chunks', hpre, heq, hfits, hfits', hne⟩ := exists_deliveries hd hshift k hk
    exact hne (h _ hpre chunks chunks' rfl heq hfits hfits')
  · rintro h p hp chunks chunks' heq heq' hfits hfits'
    have hnil : ¬ d <:+ ([] : List α) := fun h => hd (List.suffix_nil.mp h)
    have haligned := h.of_prefix hp
    rw [frames_eq_endedPieces hN hd hfits hN hnil (heq ▸ haligned),
      frames_eq_endedPieces hN hd hfits' hN hnil (heq' ▸ haligned), heq, heq']

end

/-! ### Splitting at the first terminator -/

section

variable {d s r x x' y : List α}

/-- The end of a frame, from a place before the terminator on. -/
theorem IsFrame.of_append (h : IsFrame d (x ++ r)) (hd : d <:+ r) : IsFrame d r := by
  refine ⟨hd, fun hfirst => h.first (hfirst.trans ?_)⟩
  rw [List.dropLast_append]
  split
  · next hnil =>
      rw [List.isEmpty_iff.mp hnil]
      exact List.nil_infix
  · exact (List.suffix_append _ _).isInfix

/-- No terminator stands before the one that a frame ends with. -/
theorem IsFrame.length_le (h : IsFrame d (x ++ d)) (hx : x ++ d <+: s) (hx' : x' ++ d <+: s) :
    x.length ≤ x'.length := by
  by_contra hlt
  have hshort : x' ++ d <+: x ++ d := by
    refine List.prefix_of_prefix_length_le hx' hx ?_
    rw [List.length_append, List.length_append]
    omega
  refine h.not_suffix hshort (fun heq => hlt ?_) (List.suffix_append _ _)
  rw [List.append_cancel_right heq]

/-- A stream begins with one frame only. -/
theorem IsFrame.unique (h : IsFrame d (x ++ d)) (h' : IsFrame d (x' ++ d)) (hx : x ++ d <+: s)
    (hx' : x' ++ d <+: s) : x = x' := by
  have hlen := Nat.le_antisymm (h.length_le hx hx') (h'.length_le hx' hx)
  have hpre : x <+: s := (List.prefix_append _ _).trans hx
  have hpre' : x' <+: s := (List.prefix_append _ _).trans hx'
  exact (List.prefix_of_prefix_length_le hpre hpre' (Nat.le_of_eq hlen)).eq_of_length hlen

variable [DecidableEq α]

variable (d) in
/-- What stands before the first `d`, and what stands behind it. -/
def splitOnce : List α → Option (List α × List α)
  | [] => if d = [] then some ([], []) else none
  | a :: s =>
      if d <+: a :: s then some ([], (a :: s).drop d.length)
      else (splitOnce s).map fun (x, y) => (a :: x, y)

theorem splitOnce_eq_none : splitOnce d s = none ↔ ¬ d <:+: s := by
  induction s with
  | nil => simp [splitOnce]
  | cons a s ih =>
      rw [splitOnce, List.infix_cons_iff]
      split
      · next hpre => exact iff_of_false (by simp) (fun h => h (.inl hpre))
      · next hpre => rw [Option.map_eq_none_iff, ih, not_or, and_iff_right hpre]

theorem splitOnce_spec (hd : d ≠ []) (h : splitOnce d s = some (x, y)) :
    s = x ++ d ++ y ∧ IsFrame d (x ++ d) := by
  induction s generalizing x with
  | nil =>
      rw [splitOnce, if_neg hd] at h
      cases h
  | cons a s ih =>
      rw [splitOnce] at h
      split at h
      · next hpre =>
          obtain ⟨t, ht⟩ := hpre
          cases h
          rw [← ht, List.drop_left, List.nil_append]
          refine ⟨rfl, List.suffix_rfl, fun hfirst => ?_⟩
          have hlen := hfirst.length_le
          have hpos := List.length_pos_iff.mpr hd
          rw [List.length_dropLast] at hlen
          omega
      · next hpre =>
          obtain ⟨⟨x', y'⟩, hrest, heq⟩ := Option.map_eq_some_iff.mp h
          cases heq
          obtain ⟨hs, hends, hfirst⟩ := ih hrest
          have hne : x' ++ d ≠ [] := List.append_ne_nil_of_right_ne_nil _ hd
          refine ⟨by rw [hs]; rfl, hends.trans (List.suffix_cons _ _), fun hinfix => ?_⟩
          rw [List.cons_append, List.dropLast_cons_of_ne_nil hne] at hinfix
          rcases List.infix_cons_iff.mp hinfix with hhead | htail
          · refine hpre (hhead.trans ((List.cons_prefix_cons.mpr ⟨rfl, ?_⟩)))
            rw [hs]
            exact (List.dropLast_prefix _).trans (List.prefix_append _ _)
          · exact hfirst htail

/-- **The first terminator** is the one that a frame ends with. -/
theorem splitOnce_eq_some_iff (hd : d ≠ []) :
    splitOnce d s = some (x, y) ↔ s = x ++ d ++ y ∧ IsFrame d (x ++ d) := by
  refine ⟨splitOnce_spec hd, ?_⟩
  rintro ⟨hs, hframe⟩
  cases hsplit : splitOnce d s with
  | none =>
      refine absurd ?_ (splitOnce_eq_none.mp hsplit)
      exact ⟨x, y, hs.symm⟩
  | some xy =>
      obtain ⟨x', y'⟩ := xy
      obtain ⟨hs', hframe'⟩ := splitOnce_spec hd hsplit
      obtain rfl : x = x' := hframe.unique hframe' ⟨y, hs.symm⟩ ⟨y', hs'.symm⟩
      rw [List.append_cancel_left (hs'.symm.trans hs)]

end

end Framing
