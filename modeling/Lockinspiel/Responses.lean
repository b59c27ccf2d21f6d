/-
Lockinspiel/Responses.lean

The responses of the timesync server.

Whatever the shared buffer held before, the slices of a response are those of
its two times (`ResponseBuffer.slices_format`).  A response ends with `}` and
contains no other (`IsResponse.frame`).  What a script of `write_vectored` does
to it depends on its length alone: all of it is accepted, or the loop fails
within it (`response_spec`), and a script that blocks within it stops the loop
there (`Blocks`).
-/
import Lockinspiel.Timesync

namespace Lockinspiel

namespace Timesync

open Framing

/-! ### Responses -/

/-- The bytes of a response. -/
def IsResponse (bytes : List UInt8) : Prop :=
  ∃ t1 t2, bytes = (responseSlices t1 t2).flatten

/-- `}`, the end of every response. -/
def brace : UInt8 := 125

theorem digit_of_mem_toString {n : ℕ} {c : Char} (h : c ∈ (toString n).toList) :
    48 ≤ c.toNat ∧ c.toNat ≤ 57 := by
  have hdigit : c.isDigit = true := by
    refine Nat.isDigit_of_mem_toDigits (b := 10) (n := n) (by decide) (by decide) ?_
    rwa [← Nat.toList_repr]
  rw [Char.isDigit, Bool.and_eq_true, decide_eq_true_eq, decide_eq_true_eq] at hdigit
  exact hdigit

/-- The bytes of a decimal number are digits. -/
theorem digit_of_mem_ascii {n : ℕ} {b : UInt8} (h : b ∈ ascii (toString n)) :
    48 ≤ b.toNat ∧ b.toNat ≤ 57 := by
  obtain ⟨c, hc, rfl⟩ := List.mem_map.mp h
  have hdigit := digit_of_mem_toString hc
  show 48 ≤ c.toNat % 256 ∧ c.toNat % 256 ≤ 57
  omega

theorem brace_not_mem_toString (n : ℕ) : brace ∉ ascii (toString n) :=
  fun h => absurd (digit_of_mem_ascii h).2 (by decide)

/-- A response ends with the brace and does not contain it earlier. -/
theorem IsResponse.frame {r : List UInt8} (h : IsResponse r) : IsFrame [brace] r := by
  obtain ⟨t1, t2, rfl⟩ := h
  -- the last of the slices is the brace alone
  have hlast : ∃ front, brace ∉ front ∧ (responseSlices t1 t2).flatten = front ++ [brace] := by
    refine ⟨(responseSlices t1 t2).dropLast.flatten, ?_, ?_⟩
    · rw [List.mem_flatten]
      rintro ⟨slice, hslice, hmem⟩
      simp only [responseSlices, ResponseBuffer.slices, List.dropLast_cons_cons,
        List.dropLast_singleton, List.mem_cons, List.not_mem_nil, or_false] at hslice
      rcases hslice with rfl | rfl | rfl | rfl | rfl | rfl | rfl
      · exact absurd hmem (by decide)
      · exact brace_not_mem_toString _ hmem
      · exact absurd hmem (by decide)
      · exact absurd hmem (by decide)
      · exact brace_not_mem_toString _ hmem
      · exact absurd hmem (by decide)
      · exact brace_not_mem_toString _ hmem
    · simp [responseSlices, ResponseBuffer.slices, brace, ascii]
  obtain ⟨front, hfront, heq⟩ := hlast
  rw [heq]
  refine ⟨List.suffix_append _ _, fun hinfix => hfront ?_⟩
  rw [List.dropLast_concat] at hinfix
  exact hinfix.subset (List.mem_singleton_self _)

/-! ### Writing a response -/

/-- The calls of `write_vectored` accept `n` bytes in all, and then one would
block. -/
inductive Blocks : List Acceptance → ℕ → Prop
  | now {writes} : Blocks (.fails .wouldBlock :: writes) 0
  | interrupted {writes n} (h : Blocks writes n) : Blocks (.fails .interrupted :: writes) n
  | accepts {writes k n} (hk : 0 < k) (h : Blocks writes n) : Blocks (.accepts k :: writes) (k + n)

/-- The loop starts with a slice that is not empty, or it is over. -/
def Trimmed (slices : List (List UInt8)) : Prop := slices.head? ≠ some []

theorem Trimmed.flatten_ne_nil {slices : List (List UInt8)} (h : Trimmed slices)
    (hne : slices ≠ []) : slices.flatten ≠ [] := by
  cases slices with
  | nil => exact absurd rfl hne
  | cons slice slices =>
      intro hflat
      refine h ?_
      rw [List.flatten_cons, List.append_eq_nil_iff] at hflat
      rw [List.head?_cons, hflat.1]

/-- `advance_slices` within the bounds. -/
theorem advanceSlices_spec {slices : List (List UInt8)} {n : ℕ} (h : n ≤ slices.flatten.length) :
    ∃ slices', advanceSlices slices n = some slices' ∧ Trimmed slices' ∧
      slices'.flatten = slices.flatten.drop n := by
  induction slices generalizing n with
  | nil =>
      obtain rfl : n = 0 := Nat.le_zero.mp h
      exact ⟨[], rfl, nofun, rfl⟩
  | cons slice slices ih =>
      rw [List.flatten_cons, List.length_append] at h
      rw [advanceSlices, List.flatten_cons]
      by_cases hle : slice.length ≤ n
      · obtain ⟨slices', hadvance, htrimmed, hflat⟩ := ih (n := n - slice.length) (by omega)
        rw [if_pos hle]
        refine ⟨slices', hadvance, htrimmed, ?_⟩
        rw [hflat, List.drop_append, List.drop_of_length_le hle, List.nil_append]
      · rw [if_neg hle]
        refine ⟨_, rfl, ?_, ?_⟩
        · intro hhead
          rw [List.head?_cons, Option.some.injEq, List.drop_eq_nil_iff] at hhead
          exact hle hhead
        · rw [List.flatten_cons, List.drop_append_of_le_length (by omega)]

/-- What one call of `write_vectored` leaves that accepts bytes. -/
theorem advanceSlices_min (slices : List (List UInt8)) (k : ℕ) :
    ∃ slices', advanceSlices slices (min k slices.flatten.length) = some slices' ∧
      Trimmed slices' ∧ slices'.flatten = slices.flatten.drop k := by
  obtain ⟨slices', hadvance, htrimmed, hflat⟩ :=
    advanceSlices_spec (Nat.min_le_right k slices.flatten.length)
  exact ⟨slices', hadvance, htrimmed, hflat.trans List.drop_eq_drop_min.symm⟩

theorem min_length_ne_zero {slices : List (List UInt8)} {k : ℕ} (hk : 0 < k) (hne : slices ≠ [])
    (htrimmed : Trimmed slices) : min k slices.flatten.length ≠ 0 := by
  have hpos := List.length_pos_iff.mpr (htrimmed.flatten_ne_nil hne)
  omega

/-- One call of `write_vectored` that accepts bytes. -/
theorem writeAll_accepts (writes : List Acceptance) {slices slices' : List (List UInt8)} {k : ℕ}
    (hk : 0 < k) (hne : slices ≠ []) (htrimmed : Trimmed slices)
    (hadvance : advanceSlices slices (min k slices.flatten.length) = some slices') :
    writeAll (.accepts k :: writes) slices =
      ((writeAll writes slices').1, slices.flatten.take k ++ (writeAll writes slices').2) := by
  rw [writeAll]
  · dsimp only
    rw [if_neg (min_length_ne_zero hk hne htrimmed), hadvance, ← List.take_eq_take_min]
  · exact hne

theorem writeAll_nil (writes : List Acceptance) : writeAll writes [] = (.ok (), []) := by
  cases writes <;> rfl

/-- A script that is over accepts what is left. -/
theorem writeAll_accepting (slices : List (List UInt8)) :
    writeAll [] slices = (.ok (), slices.flatten) := by
  cases slices <;> rfl

/-- `Ok(0)` while slices are left. -/
theorem writeAll_zero (writes : List Acceptance) {slices : List (List UInt8)} (hne : slices ≠ []) :
    writeAll (.accepts 0 :: writes) slices = (.error (.io .writeZero), []) := by
  rw [writeAll]
  · rw [Nat.zero_min]
    rfl
  · exact hne

theorem writeAll_interrupted (writes : List Acceptance) (slices : List (List UInt8)) :
    writeAll (.fails .interrupted :: writes) slices = writeAll writes slices := by
  cases slices with
  | nil => rw [writeAll_nil, writeAll_nil]
  | cons slice slices => rfl

theorem writeAll_fails {kind : ErrorKind} (hkind : kind ≠ .interrupted) (writes : List Acceptance)
    {slices : List (List UInt8)} (hne : slices ≠ []) :
    writeAll (.fails kind :: writes) slices = (.error (.io kind), []) := by
  obtain ⟨slice, rest, rfl⟩ := List.exists_cons_of_ne_nil hne
  cases kind with
  | interrupted => exact absurd rfl hkind
  | wouldBlock | writeZero | other => rfl

/-- A part of what is left of the slices, behind what was accepted. -/
theorem take_append_take_drop (bytes : List UInt8) (k n : ℕ) :
    bytes.take k ++ (bytes.drop k).take n = bytes.take (k + n) := by
  rw [List.take_add]

/-- **The loop of `response`**: everything is accepted, or the loop fails and
something is left. -/
theorem writeAll_spec (writes : List Acceptance) {slices : List (List UInt8)}
    (htrimmed : Trimmed slices) :
    writeAll writes slices = (.ok (), slices.flatten) ∨
    ∃ fault n, n < slices.flatten.length ∧
      writeAll writes slices = (.error fault, slices.flatten.take n) ∧
      (fault = .io .wouldBlock → Blocks writes n) := by
  induction writes generalizing slices with
  | nil => exact .inl (writeAll_accepting slices)
  | cons w writes ih =>
      by_cases hne : slices = []
      · subst hne
        exact .inl (writeAll_nil _)
      have hpos := List.length_pos_iff.mpr (htrimmed.flatten_ne_nil hne)
      cases w with
      | accepts k =>
          rcases Nat.eq_zero_or_pos k with rfl | hk
          · exact .inr ⟨.io .writeZero, 0, hpos, writeAll_zero writes hne, nofun⟩
          obtain ⟨slices', hadvance, htrimmed', hflat⟩ := advanceSlices_min slices k
          rw [writeAll_accepts writes hk hne htrimmed hadvance]
          obtain hall | ⟨fault, n, hn, hfail, hblocks⟩ := ih htrimmed'
          · refine .inl ?_
            rw [hall, hflat, List.take_append_drop]
          · rw [hflat, List.length_drop] at hn
            refine .inr ⟨fault, k + n, by omega, ?_, fun h => (hblocks h).accepts hk⟩
            rw [hfail, hflat, take_append_take_drop]
      | fails kind =>
          -- only an interrupted call is made again
          cases kind with
          | interrupted =>
              rw [writeAll_interrupted]
              obtain hall | ⟨fault, n, hn, hfail, hblocks⟩ := ih htrimmed
              · exact .inl hall
              · exact .inr ⟨fault, n, hn, hfail, fun h => (hblocks h).interrupted⟩
          | wouldBlock =>
              exact .inr ⟨_, 0, hpos, writeAll_fails (by decide) writes hne, fun _ => .now⟩
          | writeZero =>
              exact .inr ⟨_, 0, hpos, writeAll_fails (by decide) writes hne, fun h => by cases h⟩
          | other =>
              exact .inr ⟨_, 0, hpos, writeAll_fails (by decide) writes hne, fun h => by cases h⟩

theorem ne_nil_of_lt_length_flatten {slices : List (List UInt8)} {n : ℕ}
    (h : n < slices.flatten.length) : slices ≠ [] := by
  rintro rfl
  exact Nat.not_lt_zero n h

/-- A script that blocks before the end of the response stops the loop
there. -/
theorem Blocks.writeAll {writes : List Acceptance} {n : ℕ} (h : Blocks writes n)
    {slices : List (List UInt8)} (htrimmed : Trimmed slices) (hn : n < slices.flatten.length) :
    writeAll writes slices = (.error (.io .wouldBlock), slices.flatten.take n) := by
  induction h generalizing slices with
  | now => exact writeAll_fails (by decide) _ (ne_nil_of_lt_length_flatten hn)
  | interrupted h ih => rw [writeAll_interrupted, ih htrimmed hn]
  | @accepts writes k n hk h ih =>
      obtain ⟨slices', hadvance, htrimmed', hflat⟩ := advanceSlices_min slices k
      have hlt : n < slices'.flatten.length := by
        rw [hflat, List.length_drop]
        omega
      rw [writeAll_accepts writes hk (ne_nil_of_lt_length_flatten hn) htrimmed hadvance,
        ih htrimmed' hlt, hflat, take_append_take_drop]

/-- The calls accept a part of the response of this event, and then one would
block. -/
def Readiness.CutShort (e : Readiness) : Prop :=
  ∃ n, 0 < n ∧ n < (responseSlices e.t1 e.t2).flatten.length ∧ Blocks e.writes n

theorem response_eq (buffer : ResponseBuffer) (t1 t2 : ℕ) (writes : List Acceptance) :
    ∃ slices, Trimmed slices ∧ slices.flatten = (responseSlices t1 t2).flatten ∧
      buffer.response t1 t2 writes = writeAll writes slices := by
  obtain ⟨slices, hadvance, htrimmed, hflat⟩ :=
    advanceSlices_spec (Nat.zero_le (responseSlices t1 t2).flatten.length)
  refine ⟨slices, htrimmed, hflat, ?_⟩
  rw [ResponseBuffer.response, ResponseBuffer.slices_format, hadvance]

/-- The response is accepted, or a proper part of it is; after a part that is
not empty the socket blocks only if the script cuts the response short. -/
theorem response_spec (e : Readiness) :
    e.buffer.response e.t1 e.t2 e.writes = (.ok (), (responseSlices e.t1 e.t2).flatten) ∨
    ∃ fault n, n < (responseSlices e.t1 e.t2).flatten.length ∧
      e.buffer.response e.t1 e.t2 e.writes =
        (.error fault, (responseSlices e.t1 e.t2).flatten.take n) ∧
      (fault = .io .wouldBlock → ¬ e.CutShort → n = 0) := by
  obtain ⟨slices, htrimmed, hflat, hresponse⟩ := response_eq e.buffer e.t1 e.t2 e.writes
  rw [hresponse, ← hflat]
  obtain hall | ⟨fault, n, hn, hfail, hblocks⟩ := writeAll_spec e.writes htrimmed
  · exact .inl hall
  · refine .inr ⟨fault, n, hn, hfail, fun hfault hcut => ?_⟩
    by_contra hne
    exact hcut ⟨n, Nat.pos_of_ne_zero hne, hflat ▸ hn, hblocks hfault⟩

/-- A response that is cut short. -/
theorem Readiness.CutShort.response {e : Readiness} (h : e.CutShort) :
    ∃ n, 0 < n ∧ n < (responseSlices e.t1 e.t2).flatten.length ∧
      e.buffer.response e.t1 e.t2 e.writes =
        (.error (.io .wouldBlock), (responseSlices e.t1 e.t2).flatten.take n) := by
  obtain ⟨n, hpos, hn, hblocks⟩ := h
  obtain ⟨slices, htrimmed, hflat, hresponse⟩ := response_eq e.buffer e.t1 e.t2 e.writes
  refine ⟨n, hpos, hn, ?_⟩
  rw [hresponse, ← hflat]
  exact hblocks.writeAll htrimmed (hflat.symm ▸ hn)

/-! ### The answer of a call -/

/-- The bytes that the socket accepted. -/
def Io.accepted : Io → List UInt8
  | .read .. => []
  | .response _ accepted => accepted

/-- How the answer ends. -/
def answered (e : Readiness) : Except Fault Bool :=
  match (e.buffer.response e.t1 e.t2 e.writes).1 with
  | .ok () | .error (.io .wouldBlock) => .ok false
  | .error fault => .error fault

theorem answered_eq_ok {e : Readiness} : answered e = .ok false ↔
    (e.buffer.response e.t1 e.t2 e.writes).1 = .ok () ∨
      (e.buffer.response e.t1 e.t2 e.writes).1 = .error (.io .wouldBlock) := by
  rw [answered]
  rcases (e.buffer.response e.t1 e.t2 e.writes).1 with (kind | _) | _
  · cases kind <;> simp
  · simp
  · simp

theorem answer_result (e : Readiness) (conn : Connection) :
    (answer e conn).result = answered e ∧
      (answer e conn).trace.flatMap Io.accepted = (e.buffer.response e.t1 e.t2 e.writes).2 ∧
      (answer e conn).conn.socket.outbound =
        conn.socket.outbound ++ (e.buffer.response e.t1 e.t2 e.writes).2 := by
  have happend : ∀ l : List UInt8, l ++ [] = l := List.append_nil
  rcases h : e.buffer.response e.t1 e.t2 e.writes with ⟨(kind | _) | _, accepted⟩
  · rw [answer, answered, h]
    cases kind <;> exact ⟨rfl, happend _, rfl⟩
  · rw [answer, answered, h]
    exact ⟨rfl, happend _, rfl⟩
  · rw [answer, answered, h]
    exact ⟨rfl, happend _, rfl⟩

theorem Socket.read_outbound (socket : Socket) (len : ℕ) (d : Delivery) :
    (socket.read len d).2.outbound = socket.outbound := by
  cases d with
  | fails kind => rfl
  | arrived n =>
      dsimp only [Socket.read]
      split <;> rfl

/-- What a call adds to the bytes of the socket is what its responses were
accepted of. -/
theorem handleReads_outbound (e : Readiness) (reads : List Delivery) (conn : Connection) :
    (handleReads e reads conn).conn.socket.outbound =
      conn.socket.outbound ++ (handleReads e reads conn).trace.flatMap Io.accepted := by
  induction reads generalizing conn with
  | nil => exact (List.append_nil _).symm
  | cons d reads ih =>
      have hkeeps := conn.socket.read_outbound (2048 - conn.total) d
      rcases hread : conn.socket.read (2048 - conn.total) d with ⟨kind | bytes, socket⟩
      · cases kind with
        | interrupted =>
            simp only [handleReads, hread]
            exact ih conn
        | wouldBlock | writeZero | other =>
            simp only [handleReads, hread]
            exact (List.append_nil _).symm
      · rw [hread] at hkeeps
        change socket.outbound = _ at hkeeps
        cases bytes with
        | nil =>
            simp only [handleReads, hread]
            exact hkeeps.trans (List.append_nil _).symm
        | cons b bs =>
            rw [handleReads, hread, ← hkeeps]
            dsimp only
            split
            · obtain ⟨-, haccepted, houtbound⟩ := answer_result e (conn.receive socket (b :: bs))
              exact houtbound.trans (congrArg _ haccepted.symm)
            split
            · exact (List.append_nil _).symm
            · exact ih _

end Timesync

end Lockinspiel
