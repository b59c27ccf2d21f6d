/-
Lockinspiel/CompleteResponse.lean

The loop of `ResponseBuffer::response` on any writer, and what a client makes of
its bytes.

A `Writing` is the loop between two calls of `write_vectored`.  What was accepted
and the slices that are left are always the whole response (`Writing.Sound`), so
the loop ends with all of it or fails within it, and every call that goes on is
paid for by a byte or by an interruption (`Writing.calls_lt`); a writer that
fails no call gets all of it.  On a script the loop does what `response` does
(`Writing.after_response`).

The length that the response announces is that of its body, so a client that
reads by it gets the two times and stops where the response ends
(`readResponse_responseText`).
-/
import Lockinspiel.ResponseStream

namespace Lockinspiel

namespace Timesync

/-! ### The loop -/

/-- The loop of `ResponseBuffer::response` between two calls of
`write_vectored`. -/
structure Writing where
  slices : List (List UInt8)
  accepted : List UInt8
  /-- `none` while the loop goes on. -/
  result : Option (Except Fault Unit)

namespace Writing

/-- The condition of the loop. -/
def check (slices : List (List UInt8)) (accepted : List UInt8) : Writing :=
  ⟨slices, accepted, if slices = [] then some (.ok ()) else none⟩

/-- The loop is reached with the first slices that are not empty. -/
def start (buffer : ResponseBuffer) (t1 t2 : ℕ) : Writing :=
  match advanceSlices (buffer.format t1 t2).slices 0 with
  | none => ⟨[], [], some (.error .panic)⟩
  | some slices => check slices []

/-- One call of `write_vectored`, while the loop goes on. -/
def call (s : Writing) (a : Acceptance) : Writing :=
  match s.result, a with
  | some _, _ => s
  | none, .accepts n =>
      let n := min n s.slices.flatten.length
      if n = 0 then { s with result := some (.error (.io .writeZero)) }
      else
        let accepted := s.accepted ++ s.slices.flatten.take n
        match advanceSlices s.slices n with
        | none => { s with accepted, result := some (.error .panic) }
        | some slices => check slices accepted
  | none, .fails .interrupted => s
  | none, .fails kind => { s with result := some (.error (.io kind)) }

/-- The loop after `n` calls, where `writer i` is what happens on the call with
the number `i`. -/
def after (writer : ℕ → Acceptance) (s : Writing) : ℕ → Writing
  | 0 => s
  | n + 1 => (after writer s n).call (writer n)

/-- What was accepted and what is left are the whole response, and the loop is
over exactly if nothing is left or a call has failed; no advance is too far. -/
structure Sound (whole : List UInt8) (s : Writing) : Prop where
  split : s.accepted ++ s.slices.flatten = whole
  trimmed : Trimmed s.slices
  ok : s.result = some (.ok ()) → s.slices = []
  going : s.result = none → s.slices ≠ []
  error : ∀ fault, s.result = some (.error fault) → s.slices ≠ [] ∧ fault ≠ .panic

variable {whole : List UInt8} {s : Writing}

theorem sound_check {slices : List (List UInt8)} {accepted : List UInt8}
    (hsplit : accepted ++ slices.flatten = whole) (htrimmed : Trimmed slices) :
    Sound whole (check slices accepted) := by
  by_cases hnil : slices = []
  · refine ⟨hsplit, htrimmed, fun _ => hnil, fun hgoing => ?_, fun fault hfault => ?_⟩
    · rw [check, if_pos hnil] at hgoing
      cases hgoing
    · rw [check, if_pos hnil] at hfault
      cases hfault
  · refine ⟨hsplit, htrimmed, fun hok => ?_, fun _ => hnil, fun fault hfault => ?_⟩
    · rw [check, if_neg hnil] at hok
      cases hok
    · rw [check, if_neg hnil] at hfault
      cases hfault

theorem sound_start (buffer : ResponseBuffer) (t1 t2 : ℕ) :
    Sound (responseSlices t1 t2).flatten (start buffer t1 t2) := by
  obtain ⟨slices, hadvance, htrimmed, hflat⟩ :=
    advanceSlices_spec (Nat.zero_le (responseSlices t1 t2).flatten.length)
  rw [start, ResponseBuffer.slices_format, hadvance]
  exact sound_check hflat htrimmed

/-- The loop is reached without an error. -/
theorem start_ne_error (buffer : ResponseBuffer) (t1 t2 : ℕ) (fault : Fault) :
    (start buffer t1 t2).result ≠ some (.error fault) := by
  obtain ⟨slices, hadvance, -⟩ :=
    advanceSlices_spec (Nat.zero_le (responseSlices t1 t2).flatten.length)
  rw [start, ResponseBuffer.slices_format, hadvance]
  dsimp only [check]
  split <;> simp

/-- One call of `write_vectored` that accepts bytes. -/
theorem call_accepts {slices : List (List UInt8)} {k : ℕ} (hk : 0 < k) (hne : s.slices ≠ [])
    (htrimmed : Trimmed s.slices) (hgoing : s.result = none)
    (hadvance : advanceSlices s.slices (min k s.slices.flatten.length) = some slices) :
    s.call (.accepts k) = check slices (s.accepted ++ s.slices.flatten.take k) := by
  simp only [call, hgoing, hadvance, ← List.take_eq_take_min]
  exact if_neg (min_length_ne_zero hk hne htrimmed)

/-- `Ok(0)` while slices are left. -/
theorem call_zero (hgoing : s.result = none) :
    s.call (.accepts 0) = { s with result := some (.error (.io .writeZero)) } := by
  simp only [call, hgoing, Nat.zero_min, if_true]

theorem call_fails {kind : ErrorKind} (hkind : kind ≠ .interrupted) (hgoing : s.result = none) :
    s.call (.fails kind) = { s with result := some (.error (.io kind)) } := by
  cases kind with
  | interrupted => exact absurd rfl hkind
  | wouldBlock | writeZero | other => simp only [call, hgoing]

theorem call_interrupted (s : Writing) : s.call (.fails .interrupted) = s := by
  rcases h : s.result with - | r <;> simp only [call, h]

/-- **What one call does**, while the loop goes on: it accepts bytes, or is
interrupted, or fails. -/
theorem call_cases (h : Sound whole s) (hgoing : s.result = none) (a : Acceptance) :
    (∃ slices n, 0 < n ∧ Trimmed slices ∧ slices.flatten = s.slices.flatten.drop n ∧
      s.call a = check slices (s.accepted ++ s.slices.flatten.take n)) ∨
    (a = .fails .interrupted ∧ s.call a = s) ∨
    ∃ kind, s.call a = { s with result := some (.error (.io kind)) } := by
  cases a with
  | accepts n =>
      rcases Nat.eq_zero_or_pos n with rfl | hn
      · exact .inr (.inr ⟨.writeZero, call_zero hgoing⟩)
      · obtain ⟨slices, hadvance, htrimmed, hflat⟩ := advanceSlices_min s.slices n
        exact .inl ⟨slices, n, hn, htrimmed, hflat,
          call_accepts hn (h.going hgoing) h.trimmed hgoing hadvance⟩
  | fails kind =>
      by_cases hkind : kind = .interrupted
      · subst hkind
        exact .inr (.inl ⟨rfl, call_interrupted s⟩)
      · exact .inr (.inr ⟨kind, call_fails hkind hgoing⟩)

theorem call_of_some {r : Except Fault Unit} (h : s.result = some r) (a : Acceptance) :
    s.call a = s := by
  simp only [call, h]

/-- One call keeps the invariant. -/
theorem Sound.call (h : Sound whole s) (a : Acceptance) : Sound whole (s.call a) := by
  rcases hresult : s.result with - | r
  · have hne := h.going hresult
    obtain ⟨slices, n, -, htrimmed, hflat, heq⟩ | ⟨-, heq⟩ | ⟨kind, heq⟩ :=
      call_cases h hresult a
    · rw [heq]
      refine sound_check ?_ htrimmed
      rw [hflat, List.append_assoc, List.take_append_drop, h.split]
    · rw [heq]
      exact h
    · rw [heq]
      refine ⟨h.split, h.trimmed, nofun, nofun, fun fault hfault => ⟨hne, ?_⟩⟩
      cases hfault
      exact Fault.noConfusion
  · rw [call_of_some hresult]
    exact h

/-- **The invariant of the loop.** -/
theorem Sound.after (h : Sound whole s) (writer : ℕ → Acceptance) (n : ℕ) :
    Sound whole (s.after writer n) := by
  induction n with
  | zero => exact h
  | succ n ih => exact ih.call (writer n)

/-! ### The number of calls -/

/-- The interruptions among the first `n` calls. -/
def interruptions (writer : ℕ → Acceptance) : ℕ → ℕ
  | 0 => 0
  | n + 1 => interruptions writer n + if writer n = .fails .interrupted then 1 else 0

/-- A loop that goes on has spent each call on a byte or an interruption. -/
theorem calls_le (h : Sound whole s) (writer : ℕ → Acceptance) (n : ℕ)
    (hgoing : (s.after writer n).result = none) :
    n ≤ (s.after writer n).accepted.length + interruptions writer n := by
  induction n with
  | zero => exact Nat.zero_le _
  | succ n ih =>
      rw [after] at hgoing
      rw [after, interruptions]
      rcases hbefore : (s.after writer n).result with - | r
      · have hle := ih hbefore
        have hsound := h.after writer n
        have hpos :=
          List.length_pos_iff.mpr (hsound.trimmed.flatten_ne_nil (hsound.going hbefore))
        obtain ⟨slices, k, hk, -, -, heq⟩ | ⟨hint, heq⟩ | ⟨kind, heq⟩ :=
          call_cases hsound hbefore (writer n)
        · rw [heq, check, List.length_append, List.length_take]
          omega
        · rw [heq, if_pos hint]
          omega
        · rw [heq] at hgoing
          cases hgoing
      · rw [call_of_some hbefore, hbefore] at hgoing
        cases hgoing

/-- ... and has not reached the end of the response. -/
theorem calls_lt (h : Sound whole s) (writer : ℕ → Acceptance) (n : ℕ)
    (hgoing : (s.after writer n).result = none) :
    n < whole.length + interruptions writer n := by
  have hsound := h.after writer n
  have hle := calls_le h writer n hgoing
  have hpos := List.length_pos_iff.mpr (hsound.trimmed.flatten_ne_nil (hsound.going hgoing))
  have hlen := congrArg List.length hsound.split
  rw [List.length_append] at hlen
  omega

/-! ### Writers that fail no call -/

/-- Every call accepts bytes, or is interrupted. -/
def Accepting (writer : ℕ → Acceptance) : Prop :=
  ∀ i, (∃ n, 0 < n ∧ writer i = .accepts n) ∨ writer i = .fails .interrupted

/-- Such a writer gets on without an error. -/
theorem after_accepting (h : Sound whole s) (hstart : ∀ fault, s.result ≠ some (.error fault))
    {writer : ℕ → Acceptance} (hwriter : Accepting writer) (n : ℕ) (fault : Fault) :
    (s.after writer n).result ≠ some (.error fault) := by
  induction n with
  | zero => exact hstart fault
  | succ n ih =>
      rw [after]
      rcases hbefore : (s.after writer n).result with - | r
      · have hsound := h.after writer n
        obtain ⟨k, hk, hcall⟩ | hcall := hwriter n
        · obtain ⟨slices, hadvance, -⟩ := advanceSlices_min (s.after writer n).slices k
          rw [hcall, call_accepts hk (hsound.going hbefore) hsound.trimmed hbefore hadvance, check]
          split <;> simp
        · rw [hcall, call_interrupted, hbefore]
          exact (Option.some_ne_none _).symm
      · rw [call_of_some hbefore]
        exact ih

/-! ### Scripts -/

/-- The first call, and the calls after it. -/
theorem after_succ (writer : ℕ → Acceptance) (s : Writing) (n : ℕ) :
    s.after writer (n + 1) = (s.call (writer 0)).after (fun i => writer (i + 1)) n := by
  induction n with
  | zero => rfl
  | succ n ih => exact congrArg (fun s : Writing => s.call (writer (n + 1))) ih

theorem after_of_some {r : Except Fault Unit} (h : s.result = some r) (writer : ℕ → Acceptance)
    (n : ℕ) : s.after writer n = s := by
  induction n with
  | zero => rfl
  | succ n ih => rw [after, ih, call_of_some h]

/-- A writer that follows a script, and then accepts `k` bytes a call. -/
def follow (writes : List Acceptance) (k : ℕ) (i : ℕ) : Acceptance := writes.getD i (.accepts k)

theorem after_nil (writer : ℕ → Acceptance) (n : ℕ) (accepted : List UInt8)
    (writes : List Acceptance) : (check [] accepted).after writer n =
      ⟨[], accepted ++ (writeAll writes []).2, some (writeAll writes []).1⟩ := by
  rw [after_of_some rfl, writeAll_nil, List.append_nil]
  rfl

/-- **The loop and its script.**  A call more than the script has ends it. -/
theorem after_writeAll (writes : List Acceptance) {slices : List (List UInt8)}
    (htrimmed : Trimmed slices) {k : ℕ} (hk : slices.flatten.length ≤ k) (accepted : List UInt8) :
    ∃ left, (check slices accepted).after (follow writes k) (writes.length + 1) =
      ⟨left, accepted ++ (writeAll writes slices).2, some (writeAll writes slices).1⟩ := by
  induction writes generalizing slices accepted with
  | nil =>
      by_cases hnil : slices = []
      · subst hnil
        exact ⟨[], after_nil _ _ accepted _⟩
      have hgoing : (check slices accepted).result = none := if_neg hnil
      have hpos := List.length_pos_iff.mpr (htrimmed.flatten_ne_nil hnil)
      obtain ⟨slices', hadvance, htrimmed', hflat⟩ := advanceSlices_min slices k
      have hnil' : slices' = [] := by
        by_contra hne
        refine htrimmed'.flatten_ne_nil hne ?_
        rw [hflat, List.drop_of_length_le hk]
      refine ⟨[], ?_⟩
      show (check slices accepted).call (.accepts k) = _
      rw [call_accepts (by omega) hnil htrimmed hgoing hadvance, hnil', writeAll_accepting]
      show check [] (accepted ++ slices.flatten.take k) = _
      rw [List.take_of_length_le hk]
      rfl
  | cons w writes ih =>
      by_cases hnil : slices = []
      · subst hnil
        exact ⟨[], after_nil _ _ accepted _⟩
      have hgoing : (check slices accepted).result = none := if_neg hnil
      rw [List.length_cons, after_succ]
      show ∃ left, ((check slices accepted).call w).after (follow writes k) _ = _
      cases w with
      | accepts n =>
          -- `Ok(0)` ends the loop, and anything else shortens the slices
          rcases Nat.eq_zero_or_pos n with rfl | hn
          · rw [call_zero hgoing, after_of_some rfl, writeAll_zero writes hnil]
            exact ⟨slices, by rw [List.append_nil]; rfl⟩
          · obtain ⟨slices', hadvance, htrimmed', hflat⟩ := advanceSlices_min slices n
            rw [call_accepts hn hnil htrimmed hgoing hadvance,
              writeAll_accepts writes hn hnil htrimmed hadvance, ← List.append_assoc]
            refine ih htrimmed' ?_ _
            rw [hflat, List.length_drop]
            omega
      | fails kind =>
          by_cases hkind : kind = .interrupted
          · subst hkind
            rw [call_interrupted, writeAll_interrupted]
            exact ih htrimmed hk accepted
          · rw [call_fails hkind hgoing, after_of_some rfl, writeAll_fails hkind writes hnil]
            exact ⟨slices, by rw [List.append_nil]; rfl⟩

/-- The loop does on a script what `response` does. -/
theorem after_response (buffer : ResponseBuffer) (t1 t2 : ℕ) (writes : List Acceptance) :
    ∃ left, (start buffer t1 t2).after (follow writes (responseSlices t1 t2).flatten.length)
        (writes.length + 1) =
      ⟨left, (buffer.response t1 t2 writes).2, some (buffer.response t1 t2 writes).1⟩ := by
  obtain ⟨slices, hadvance, htrimmed, hflat⟩ :=
    advanceSlices_spec (Nat.zero_le (responseSlices t1 t2).flatten.length)
  rw [start, ResponseBuffer.response, ResponseBuffer.slices_format, hadvance]
  exact after_writeAll writes htrimmed (Nat.le_of_eq (congrArg List.length hflat)) []

end Writing

/-! ### The client -/

/-- What follows a text. -/
def expect (text : String) (bytes : List UInt8) : Option (List UInt8) :=
  if ascii text <+: bytes then some (bytes.drop (ascii text).length) else none

def isDigit (b : UInt8) : Bool := 48 ≤ b && b ≤ 57

/-- A decimal number, and what follows it. -/
def readDecimal (bytes : List UInt8) : ℕ × List UInt8 :=
  ((bytes.takeWhile isDigit).foldl (fun n b => 10 * n + (b.toNat - 48)) 0,
    bytes.dropWhile isDigit)

/-- The two times of a body. -/
def readBody (body : List UInt8) : Option (ℕ × ℕ) := do
  let body ← expect "\x7b\"n2\":" body
  let (t1, body) := readDecimal body
  let body ← expect ",\"n3\":" body
  let (t2, body) := readDecimal body
  let body ← expect "\x7d" body
  if body = [] then some (t1, t2) else none

/-- A client that reads as many bytes as the response announces: the two times,
and what follows the response. -/
def readResponse (bytes : List UInt8) : Option ((ℕ × ℕ) × List UInt8) := do
  let bytes ← expect httpHeader bytes
  let (contentLength, bytes) := readDecimal bytes
  let bytes ← expect "\r\n\r\n" bytes
  let times ← readBody (bytes.take contentLength)
  return (times, bytes.drop contentLength)

theorem expect_append (text : String) (rest : List UInt8) :
    expect text (ascii text ++ rest) = some rest := by
  rw [expect, if_pos (List.prefix_append _ _), List.drop_left]

theorem isDigit_of_mem_toString {n : ℕ} {b : UInt8} (h : b ∈ ascii (toString n)) :
    isDigit b = true := by
  rw [isDigit, Bool.and_eq_true, decide_eq_true_eq, decide_eq_true_eq, UInt8.le_iff_toNat_le,
    UInt8.le_iff_toNat_le]
  exact digit_of_mem_ascii h

/-- The digits of a number are read as the number. -/
theorem foldl_toString (n : ℕ) :
    (ascii (toString n)).foldl (fun n b => 10 * n + (b.toNat - 48)) 0 = n := by
  have hbyte : ∀ (m : ℕ), ∀ c ∈ (toString n).toList,
      10 * m + (c.toNat.toUInt8.toNat - 48) = 10 * m + (c.toNat - '0'.toNat) := by
    intro m c hc
    have hdigit := digit_of_mem_toString hc
    have hmod : c.toNat.toUInt8.toNat = c.toNat := Nat.mod_eq_of_lt (by omega)
    rw [hmod]
    rfl
  rw [ascii, List.foldl_map, List.foldl_ext _ _ _ hbyte, ← Nat.ofDigitChars_eq_foldl]
  show Nat.ofDigitChars 10 n.repr.toList 0 = n
  rw [Nat.toList_repr, Nat.ofDigitChars_ten_toDigits]

/-- A number is read up to the first byte that is no digit. -/
theorem readDecimal_toString (n : ℕ) {rest : List UInt8} (h : ∀ b ∈ rest.head?, isDigit b = false) :
    readDecimal (ascii (toString n) ++ rest) = (n, rest) := by
  have hdigits : ∀ b ∈ ascii (toString n), isDigit b = true := fun b => isDigit_of_mem_toString
  have hstop : rest.takeWhile isDigit = [] ∧ rest.dropWhile isDigit = rest := by
    cases rest with
    | nil => exact ⟨rfl, rfl⟩
    | cons b rest =>
        have hb : isDigit b = false := h b rfl
        rw [List.takeWhile_cons, List.dropWhile_cons, hb]
        exact ⟨rfl, rfl⟩
  rw [readDecimal, List.takeWhile_append_of_pos hdigits, List.dropWhile_append_of_pos hdigits,
    hstop.1, hstop.2, List.append_nil, foldl_toString]

theorem ascii_append (s t : String) : ascii (s ++ t) = ascii s ++ ascii t := by
  rw [ascii, String.toList_append, List.map_append]
  rfl

/-- The body of a response. -/
def responseBody (t1 t2 : ℕ) : List UInt8 :=
  ascii ("\x7b\"n2\":" ++ toString t1 ++ ",\"n3\":" ++ toString t2 ++ "\x7d")

/-- A response: status line and headers, with the length of the body, and the
body. -/
def responseText (t1 t2 : ℕ) : List UInt8 :=
  ascii (httpHeader ++ toString (responseBody t1 t2).length ++ "\r\n\r\n") ++ responseBody t1 t2

theorem flatten_responseSlices (t1 t2 : ℕ) :
    (responseSlices t1 t2).flatten = responseText t1 t2 := by
  have hterminator : ascii "\r\n\r\n" = terminator := by decide
  have hlength : (ascii "\x7b\"n2\":").length + (ascii (toString t1)).length +
      (ascii ",\"n3\":").length + (ascii (toString t2)).length + (ascii "\x7d").length =
        (responseBody t1 t2).length := by
    simp only [responseBody, ascii_append, List.length_append]
  simp only [responseSlices, ResponseBuffer.slices, ResponseBuffer.format, hlength, responseText]
  simp only [responseBody, ascii_append, hterminator, List.flatten_cons, List.flatten_nil,
    List.append_nil, List.append_assoc]

/-- The body is read as the two times. -/
theorem readBody_responseBody (t1 t2 : ℕ) : readBody (responseBody t1 t2) = some (t1, t2) := by
  have hcomma : ∀ rest, ∀ b ∈ (ascii ",\"n3\":" ++ rest).head?, isDigit b = false := by
    rintro rest b ⟨⟩
    rfl
  have hbrace : ∀ b ∈ (ascii "\x7d" ++ []).head?, isDigit b = false := by
    rintro b ⟨⟩
    rfl
  have hbody : responseBody t1 t2 = ascii "\x7b\"n2\":" ++ (ascii (toString t1) ++
      (ascii ",\"n3\":" ++ (ascii (toString t2) ++ (ascii "\x7d" ++ [])))) := by
    simp only [responseBody, ascii_append, List.append_assoc, List.append_nil]
  rw [hbody, readBody, expect_append, Option.bind_eq_bind, Option.bind_some,
    readDecimal_toString t1 (hcomma _)]
  dsimp only
  rw [expect_append, Option.bind_some, readDecimal_toString t2 hbrace]
  dsimp only
  rw [expect_append, Option.bind_some, if_pos rfl]

/-- A client gets the two times, and stops where the response ends. -/
theorem readResponse_responseText (t1 t2 : ℕ) (rest : List UInt8) :
    readResponse (responseText t1 t2 ++ rest) = some ((t1, t2), rest) := by
  have hreturn : ∀ rest, ∀ b ∈ (ascii "\r\n\r\n" ++ rest).head?, isDigit b = false := by
    rintro rest b ⟨⟩
    rfl
  have htext : responseText t1 t2 ++ rest =
      ascii httpHeader ++ (ascii (toString (responseBody t1 t2).length) ++
        (ascii "\r\n\r\n" ++ (responseBody t1 t2 ++ rest))) := by
    simp only [responseText, ascii_append, List.append_assoc]
  rw [htext, readResponse, expect_append, Option.bind_eq_bind, Option.bind_some,
    readDecimal_toString _ (hreturn _)]
  dsimp only
  rw [expect_append, Option.bind_some, List.take_left, readBody_responseBody, List.drop_left]
  rfl

/-- **The response on any writer.**  What was accepted when the loop ends is the
whole response, or a proper part of it if the result is an error, which is never
the panic of `advance_slices`; the loop ends within as many calls as there are
bytes and interruptions, and with the whole response if no call fails.  From the
response a client gets the two times.  And on every script of calls this loop is
`response`. -/
theorem response_complete (buffer : ResponseBuffer) (t1 t2 : ℕ) (writer : ℕ → Acceptance)
    (n : ℕ) :
    let s := (Writing.start buffer t1 t2).after writer n
    (s.result = some (.ok ()) → s.accepted = responseText t1 t2) ∧
      (∀ fault, s.result = some (.error fault) → fault ≠ .panic ∧
        s.accepted <+: responseText t1 t2 ∧ s.accepted ≠ responseText t1 t2) ∧
      ((responseText t1 t2).length + Writing.interruptions writer n ≤ n → s.result ≠ none ∧
        (Writing.Accepting writer →
          s.result = some (.ok ()) ∧ s.accepted = responseText t1 t2)) ∧
      (∀ rest, readResponse (responseText t1 t2 ++ rest) = some ((t1, t2), rest)) ∧
      ∀ writes, ∃ left, (Writing.start buffer t1 t2).after
          (Writing.follow writes (responseText t1 t2).length) (writes.length + 1) =
        ⟨left, (buffer.response t1 t2 writes).2, some (buffer.response t1 t2 writes).1⟩ := by
  have hstart : Writing.Sound (responseText t1 t2) (Writing.start buffer t1 t2) :=
    flatten_responseSlices t1 t2 ▸ Writing.sound_start buffer t1 t2
  have h := hstart.after writer n
  have hok : ((Writing.start buffer t1 t2).after writer n).result = some (.ok ()) →
      ((Writing.start buffer t1 t2).after writer n).accepted = responseText t1 t2 := by
    intro hok
    rw [← h.split, h.ok hok, List.flatten_nil, List.append_nil]
  refine ⟨hok, fun fault hfault => ?_, fun hcalls => ?_, readResponse_responseText t1 t2,
    fun writes => ?_⟩
  · obtain ⟨hne, hpanic⟩ := h.error fault hfault
    refine ⟨hpanic, ⟨_, h.split⟩, fun hall => ?_⟩
    have hsplit := h.split
    rw [hall] at hsplit
    exact h.trimmed.flatten_ne_nil hne (List.append_right_eq_self.mp hsplit)
  · have hends : ((Writing.start buffer t1 t2).after writer n).result ≠ none :=
      fun hgoing => Nat.not_lt.mpr hcalls (Writing.calls_lt hstart writer n hgoing)
    refine ⟨hends, fun hwriter => ?_⟩
    have hfails := Writing.after_accepting hstart (Writing.start_ne_error buffer t1 t2) hwriter n
    rcases hresult : ((Writing.start buffer t1 t2).after writer n).result with - | fault | ⟨⟩
    · exact absurd hresult hends
    · exact absurd hresult (hfails fault)
    · exact ⟨rfl, hok hresult⟩
  · rw [← flatten_responseSlices]
    exact Writing.after_response buffer t1 t2 writes

end Timesync

end Lockinspiel
