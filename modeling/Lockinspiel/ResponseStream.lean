/-
Lockinspiel/ResponseStream.lean

The bytes that a client of the timesync server gets.

A response is accepted by the socket in parts.  When `write_vectored` would
block, `handle_readable` takes the response for sent, so a response that was
accepted in part and then blocks leaves the connection open behind a part of
it.  That is the only way to corrupt the stream: every other error closes the
connection (`Wire.whole_step`).  Behind a part of a response the stream is no
sequence of responses, whatever follows (`IsStream.not_append_part`).
-/
import Lockinspiel.Lib.Runs
import Lockinspiel.OneResponse

namespace Lockinspiel

namespace Timesync

open Framing Runs

/-! ### One call of `handle_readable` -/

/-- The reads deliver bytes that end with the terminator, before the stream
ends, the buffer is full or a read fails. -/
def asks : List Delivery → Connection → Bool
  | [], _ => false
  | delivery :: reads, conn =>
      match conn.socket.read (2048 - conn.total) delivery with
      | (.ok [], _) => false
      | (.ok bytes, socket) =>
          let conn := conn.receive socket bytes
          if 4 ≤ conn.total ∧ conn.received.drop (conn.total - 4) = terminator then true
          else if 2048 ≤ conn.total then false
          else asks reads conn
      | (.error .interrupted, _) => asks reads conn
      | (.error _, _) => false

/-- A call writes a response exactly if its reads ask for one. -/
theorem handleReads_accepted (e : Readiness) (reads : List Delivery) (conn : Connection) :
    if asks reads conn = true then
      (handleReads e reads conn).result = answered e ∧
        (handleReads e reads conn).trace.flatMap Io.accepted =
          (e.buffer.response e.t1 e.t2 e.writes).2
    else (handleReads e reads conn).trace.flatMap Io.accepted = [] := by
  induction reads generalizing conn with
  | nil => rfl
  | cons d reads ih =>
      rcases hread : conn.socket.read (2048 - conn.total) d with ⟨kind | bytes, socket⟩
      · cases kind with
        | interrupted =>
            simp only [asks, handleReads, hread]
            exact ih conn
        | wouldBlock | writeZero | other =>
            simp only [asks, handleReads, hread]
            rfl
      · cases bytes with
        | nil =>
            simp only [asks, handleReads, hread]
            rfl
        | cons b bs =>
            rw [asks, handleReads, hread]
            dsimp only
            split
            · exact ⟨(answer_result e _).1, (answer_result e _).2.1⟩
            split
            · rfl
            · exact ih _

/-! ### A run of one connection -/

/-- What happens to a connection. -/
inductive Act
  /-- The peer sends these bytes. -/
  | send (bytes : List UInt8)
  /-- The peer closes its side. -/
  | shut
  | event (e : Event)

/-- A connection, with the bytes that its socket has accepted so far. -/
structure Wire where
  slot : Slot
  stream : List UInt8

def Slot.shut : Slot → Slot
  | .occupied conn => .occupied { conn with socket := { conn.socket with closed := true } }
  | slot => slot

def Wire.step (s : Wire) : Act → Wire
  | .send bytes => { s with slot := s.slot.deliver bytes }
  | .shut => { s with slot := s.slot.shut }
  | .event e =>
      ⟨(serveEvent e s.slot).1, s.stream ++ (serveEvent e s.slot).2.flatMap Io.accepted⟩

/-- The connection is accepted. -/
def Wire.start : Wire := ⟨.occupied (.accepted ⟨[], false, []⟩), []⟩

def Wire.run (acts : List Act) : Wire := acts.foldl Wire.step Wire.start

/-- The server keeps the connection open. -/
def Slot.IsOpen (slot : Slot) : Prop := ∃ conn, slot = .occupied conn

/-- While the connection is open, its bytes are complete responses. -/
def Wire.Whole (s : Wire) : Prop := s.slot.IsOpen → IsStream IsResponse s.stream

/-- The event asks for a response, and the response is cut short. -/
def Wire.CutShort (s : Wire) : Act → Prop
  | .send _ | .shut => False
  | .event e => ∃ conn, s.slot = .occupied conn ∧ e.readable = true ∧
      asks e.reads conn = true ∧ e.CutShort

theorem Slot.isOpen_deliver {slot : Slot} {bytes : List UInt8} :
    (slot.deliver bytes).IsOpen ↔ slot.IsOpen := by
  cases slot <;> simp [Slot.deliver, Slot.IsOpen]

theorem Slot.isOpen_shut {slot : Slot} : slot.shut.IsOpen ↔ slot.IsOpen := by
  cases slot <;> simp [Slot.shut, Slot.IsOpen]

/-- What a closed connection gets: nothing, and it stays closed. -/
theorem serveEvent_closed {slot : Slot} (h : ¬ slot.IsOpen) (e : Event) :
    serveEvent e slot = (slot, []) := by
  cases slot with
  | occupied conn => exact absurd ⟨conn, rfl⟩ h
  | vacant | panicked => rfl

/-- Nothing is accepted on a closed connection any more. -/
theorem Wire.step_closed {s : Wire} (h : ¬ s.slot.IsOpen) (a : Act) :
    ¬ (s.step a).slot.IsOpen ∧ (s.step a).stream = s.stream := by
  cases a with
  | send bytes => exact ⟨Slot.isOpen_deliver.not.mpr h, rfl⟩
  | shut => exact ⟨Slot.isOpen_shut.not.mpr h, rfl⟩
  | event e =>
      rw [Wire.step, serveEvent_closed h]
      exact ⟨h, List.append_nil _⟩

theorem Wire.run_closed (acts : List Act) {s : Wire} (h : ¬ s.slot.IsOpen) :
    (acts.foldl Wire.step s).stream = s.stream := by
  induction acts generalizing s with
  | nil => rfl
  | cons a acts ih => exact (ih (Wire.step_closed h a).1).trans (Wire.step_closed h a).2

theorem serveEvent_isOpen {e : Event} (h : e.readable = true) (conn : Connection) :
    (serveEvent e (.occupied conn)).1.IsOpen ↔
      (handleReadable e.toReadiness conn).result = .ok false := by
  simp only [serveEvent, h, if_true]
  rcases (handleReadable e.toReadiness conn).result with (kind | _) | (_ | _)
  all_goals simp [Slot.IsOpen]

/-- An event of an open connection: what the socket accepts, and when the
connection stays open with it. -/
theorem serveEvent_open (e : Event) (conn : Connection) :
    if e.readable = true ∧ asks e.reads conn = true then
      (serveEvent e (.occupied conn)).2.flatMap Io.accepted =
        (e.buffer.response e.t1 e.t2 e.writes).2 ∧
      ((serveEvent e (.occupied conn)).1.IsOpen ↔ answered e.toReadiness = .ok false)
    else (serveEvent e (.occupied conn)).2.flatMap Io.accepted = [] := by
  cases hreadable : e.readable with
  | false =>
      rw [if_neg (by simp), serveEvent, hreadable]
      rfl
  | true =>
      have hcall := handleReads_accepted e.toReadiness e.reads conn
      rw [serveEvent_trace hreadable]
      split at hcall
      · rename_i hasks
        rw [if_pos ⟨rfl, hasks⟩]
        refine ⟨hcall.2, ?_⟩
        rw [serveEvent_isOpen hreadable, ← hcall.1]
        rfl
      · rename_i hasks
        rw [if_neg fun h => hasks h.2]
        exact hcall

/-- A response that does not fail for good leaves a stream of complete
responses exactly if it is not cut short. -/
theorem isStream_response {stream : List UInt8} (h : IsStream IsResponse stream) {e : Readiness}
    (hkept : answered e = .ok false) :
    IsStream IsResponse (stream ++ (e.buffer.response e.t1 e.t2 e.writes).2) ↔ ¬ e.CutShort := by
  constructor
  · intro hstream hcut
    obtain ⟨n, hpos, hn, hresponse⟩ := hcut.response
    rw [hresponse] at hstream
    refine IsStream.not_append_part (fun r hr => IsResponse.frame hr) ⟨e.t1, e.t2, rfl⟩
      (List.take_prefix n _) ?_ ?_ hstream
    · intro hall
      have hlen := congrArg List.length hall
      rw [List.length_take] at hlen
      omega
    · rw [ne_eq, List.take_eq_nil_iff, not_or]
      exact ⟨Nat.ne_of_gt hpos, List.ne_nil_of_length_pos (Nat.zero_lt_of_lt hn)⟩
  · intro hcut
    obtain hall | ⟨fault, n, -, hfail, hblocks⟩ := response_spec e
    · rw [hall]
      exact h.append ⟨e.t1, e.t2, rfl⟩
    · -- of the errors only one that blocks keeps the connection, and nothing was accepted
      have hfault : fault = .io .wouldBlock := by
        rw [answered_eq_ok, hfail] at hkept
        obtain hok | herror := hkept
        · cases hok
        · exact Except.error.inj herror
      obtain rfl := hblocks hfault hcut
      rw [hfail, List.take_zero, List.append_nil]
      exact h

/-- **One step** keeps the bytes of an open connection complete responses
exactly if it does not cut a response short. -/
theorem Wire.whole_step (s : Wire) (a : Act) (h : s.Whole) :
    (s.step a).Whole ↔ ¬ s.CutShort a := by
  by_cases hopen : s.slot.IsOpen
  swap
  · refine ⟨fun _ => ?_, fun _ hopen' => absurd hopen' (Wire.step_closed hopen a).1⟩
    cases a with
    | send bytes | shut => exact id
    | event e =>
        rintro ⟨conn, hslot, -⟩
        exact hopen ⟨conn, hslot⟩
  have hwhole := h hopen
  cases a with
  | send bytes => exact ⟨fun _ => id, fun _ _ => hwhole⟩
  | shut => exact ⟨fun _ => id, fun _ _ => hwhole⟩
  | event e =>
      obtain ⟨conn, hslot⟩ := hopen
      have hserve := serveEvent_open e conn
      have hcutShort : s.CutShort (.event e) ↔
          (e.readable = true ∧ asks e.reads conn = true) ∧ e.CutShort := by
        constructor
        · rintro ⟨conn', hslot', hreadable, hasks, hcut⟩
          obtain rfl := Slot.occupied.inj (hslot.symm.trans hslot')
          exact ⟨⟨hreadable, hasks⟩, hcut⟩
        · rintro ⟨⟨hreadable, hasks⟩, hcut⟩
          exact ⟨conn, hslot, hreadable, hasks, hcut⟩
      rw [hcutShort, Wire.Whole, Wire.step, hslot]
      split at hserve
      · rename_i hasks
        rw [hserve.1, hserve.2]
        constructor
        · rintro hstep ⟨-, hcut⟩
          have hkept : answered e.toReadiness = .ok false := by
            obtain ⟨n, -, -, hresponse⟩ := hcut.response
            exact answered_eq_ok.mpr (.inr (by rw [hresponse]))
          exact (isStream_response hwhole hkept).mp (hstep hkept) hcut
        · intro hcut hkept
          exact (isStream_response hwhole hkept).mpr fun h => hcut ⟨hasks, h⟩
      · rename_i hasks
        rw [hserve, List.append_nil]
        exact ⟨fun _ h => hasks h.1, fun _ _ => hwhole⟩

/-! The stream is what the socket has accepted. -/

theorem serveEvent_outbound {e : Event} {conn conn' : Connection}
    (h : (serveEvent e (.occupied conn)).1 = .occupied conn') :
    conn'.socket.outbound =
      conn.socket.outbound ++ (serveEvent e (.occupied conn)).2.flatMap Io.accepted := by
  cases hreadable : e.readable with
  | false =>
      simp only [serveEvent, hreadable, Bool.false_eq_true, if_false] at h ⊢
      obtain rfl := Slot.occupied.inj h
      exact (List.append_nil _).symm
  | true =>
      have hresult := (serveEvent_isOpen hreadable conn).mp ⟨conn', h⟩
      rw [serveEvent_ok hreadable hresult] at h ⊢
      obtain rfl := Slot.occupied.inj h
      exact handleReads_outbound e.toReadiness e.reads conn

/-- What the socket of an open connection has accepted is the stream. -/
theorem Wire.outbound_run (acts : List Act) {conn : Connection}
    (h : (Wire.run acts).slot = .occupied conn) :
    conn.socket.outbound = (Wire.run acts).stream := by
  induction acts using List.reverseRecOn generalizing conn with
  | nil =>
      obtain rfl := Slot.occupied.inj h
      rfl
  | append_singleton acts a ih =>
      have hrun : Wire.run (acts ++ [a]) = (Wire.run acts).step a := List.foldl_concat ..
      rw [hrun] at h ⊢
      generalize Wire.run acts = s at h ih ⊢
      by_cases hopen : s.slot.IsOpen
      swap
      · exact absurd ⟨conn, h⟩ (Wire.step_closed hopen a).1
      obtain ⟨conn₀, hslot⟩ := hopen
      have hstream := ih hslot
      cases a with
      | send bytes | shut =>
          simp only [Wire.step, hslot] at h ⊢
          obtain rfl := Slot.occupied.inj h
          exact hstream
      | event e =>
          simp only [Wire.step, hslot] at h ⊢
          rw [← hstream]
          exact serveEvent_outbound h

/-- The stream of the run is not corrupted: at every moment, what the socket of
an open connection has accepted are complete responses, and an incomplete
response is the last. -/
def NeverCorrupted (acts : List Act) : Prop :=
  ∀ before after, acts = before ++ after →
    (∀ conn, (Wire.run before).slot = .occupied conn →
      IsStream IsResponse conn.socket.outbound) ∧
    (¬ IsStream IsResponse (Wire.run before).stream →
      (Wire.run acts).stream = (Wire.run before).stream)

/-- **The stream of a connection** is not corrupted exactly if no response of
the run is cut short by a socket that would block. -/
theorem response_stream (acts : List Act) :
    NeverCorrupted acts ↔
      ∀ before a after, acts = before ++ a :: after → ¬ (Wire.run before).CutShort a := by
  have hrun : Always Wire.step Wire.Whole acts Wire.start ↔
      EachStep Wire.step (fun s a => ¬ s.CutShort a) acts Wire.start :=
    always_iff_eachStep Wire.whole_step acts Wire.start fun _ => .nil
  refine Iff.trans ⟨fun h before after heq => ?_, fun h before after heq => ⟨?_, ?_⟩⟩ hrun
  · rintro ⟨conn, hslot⟩
    have hstream := (h before after heq).1 conn hslot
    rwa [Wire.outbound_run before hslot] at hstream
  · intro conn hslot
    rw [Wire.outbound_run before hslot]
    exact h before after heq ⟨conn, hslot⟩
  · -- behind an incomplete response the connection is closed
    intro hpart
    have hclosed : ¬ (Wire.run before).slot.IsOpen :=
      fun hopen => hpart (h before after heq hopen)
    rw [heq, Wire.run, List.foldl_append]
    exact Wire.run_closed after hclosed

/-- The client sends a request, and the socket accepts five bytes of the
response; then the client sends another one. -/
def cutShort : List Act :=
  [.send terminator,
    .event { reads := [.arrived 4], t1 := 1, t2 := 2,
             writes := [.accepts 5, .fails .wouldBlock], readable := true, writable := false },
    .send terminator,
    .event { reads := [.arrived 4], t1 := 3, t2 := 4, writes := [], readable := true,
             writable := true }]

/-- The second response stands behind the first five bytes of the first. -/
theorem response_stream_cutShort :
    (Wire.run cutShort).stream = ascii "HTTP/" ++ (responseSlices 3 4).flatten ∧
      ¬ NeverCorrupted cutShort := by
  refine ⟨by decide, fun h => ?_⟩
  have hstream : (Wire.run (cutShort.take 2)).stream = ascii "HTTP/" := by decide
  obtain ⟨-, hlast⟩ := h (cutShort.take 2) (cutShort.drop 2) rfl
  rw [hstream] at hlast
  have hpart : ¬ IsStream IsResponse (ascii "HTTP/") := by
    intro hwhole
    rcases hwhole.suffix fun r hr => hr.frame with hnil | hsuffix
    · exact absurd hnil (by decide)
    · exact absurd hsuffix (by decide)
  exact absurd (hlast hpart) (by decide)

end Timesync

end Lockinspiel
