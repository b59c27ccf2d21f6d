/-
Lockinspiel/OneResponse.lean

One response for every request, however the socket delivers it.

A `Dialogue` is a connection together with its client, which sends a request
only after the answer to the one before.  What of a request the worker has seen
between two reads is `p`, and then its buffer is determined: `p` are the bytes
up to `total` (`Pending`).  As `p` is a proper part of a request it neither
ends with the terminator nor fills the buffer, and when the last byte arrives
the whole request ends with the terminator.  So along every run the trace stays
a sequence of exchanges with the first of the requests (`Exchanged`), and what
the socket has accepted is a complete response to each of them.
-/
import Lockinspiel.Responses

namespace Lockinspiel

namespace Timesync

open Framing

/-! ### Requests and exchanges -/

/-- At most 2048 bytes that end with the terminator and do not contain it
earlier. -/
structure IsRequest (r : List UInt8) : Prop where
  frame : IsFrame terminator r
  length_le : r.length ≤ 2048

instance (r : List UInt8) : Decidable (IsRequest r) :=
  decidable_of_iff (IsFrame terminator r ∧ r.length ≤ 2048)
    ⟨fun h => ⟨h.1, h.2⟩, fun h => ⟨h.1, h.2⟩⟩

theorem IsRequest.ne_nil {r : List UInt8} (h : IsRequest r) : r ≠ [] := by
  rintro rfl
  have hends := List.suffix_nil.mp h.frame.ends
  cases hends

/-- The read delivers bytes that have arrived, or has to be tried again. -/
def Delivery.Benign : Delivery → Prop
  | .arrived _ | .fails .wouldBlock | .fails .interrupted => True
  | .fails _ => False

instance : DecidablePred Delivery.Benign
  | .arrived _ | .fails .wouldBlock | .fails .interrupted => inferInstanceAs (Decidable True)
  | .fails .writeZero | .fails .other => inferInstanceAs (Decidable False)

def Io.isResponse : Io → Bool
  | .read .. => false
  | .response .. => true

/-- The bytes that were read. -/
def Io.bytes : Io → List UInt8
  | .read _ (.ok bytes) => bytes
  | _ => []

/-- Not a response that failed. -/
def Io.succeeds : Io → Bool
  | .read .. => true
  | .response (.ok ()) _ => true
  | .response (.error _) _ => false

/-- The trace of a worker that has answered the requests `done`, each with a
complete response at the read that delivered its last byte, and has then read
`p`.  No slice was empty. -/
inductive Exchanged : List (List UInt8) → List UInt8 → List Io → Prop
  | start : Exchanged [] [] []
  | again {done p trace len kind} (h : Exchanged done p trace) (hlen : 0 < len) :
      Exchanged done p (trace ++ [.read len (.error kind)])
  | receive {done p trace len bytes} (h : Exchanged done p trace) (hlen : 0 < len)
      (hbytes : bytes ≠ []) : Exchanged done (p ++ bytes) (trace ++ [.read len (.ok bytes)])
  | answer {done p trace len bytes response} (h : Exchanged done p trace) (hlen : 0 < len)
      (hbytes : bytes ≠ []) (hresponse : IsResponse response) :
      Exchanged (done ++ [p ++ bytes]) []
        (trace ++ [.read len (.ok bytes), .response (.ok ()) response])

section

variable {done : List (List UInt8)} {p : List UInt8} {trace : List Io}

theorem Exchanged.countP (h : Exchanged done p trace) :
    trace.countP Io.isResponse = done.length := by
  induction h with
  | start => rfl
  | again h hlen ih | receive h hlen hbytes ih =>
      rw [List.countP_append, ih]
      rfl
  | answer h hlen hbytes hresponse ih =>
      rw [List.countP_append, ih, List.length_append]
      rfl

theorem Exchanged.bytes (h : Exchanged done p trace) :
    trace.flatMap Io.bytes = done.flatten ++ p := by
  induction h with
  | start => rfl
  | again h hlen ih => simp [Io.bytes, ih]
  | receive h hlen hbytes ih => simp [Io.bytes, ih]
  | answer h hlen hbytes hresponse ih => simp [Io.bytes, ih]

/-- What was accepted is one response after the other, for each request. -/
theorem Exchanged.accepted (h : Exchanged done p trace) :
    ∃ responses : List (List UInt8), responses.length = done.length ∧
      (∀ r ∈ responses, IsResponse r) ∧ trace.flatMap Io.accepted = responses.flatten := by
  induction h with
  | start => exact ⟨[], rfl, fun _ h => (by cases h), rfl⟩
  | again h hlen ih | receive h hlen hbytes ih =>
      obtain ⟨responses, hlength, hall, hflat⟩ := ih
      refine ⟨responses, hlength, hall, ?_⟩
      rw [List.flatMap_append, hflat]
      exact List.append_nil _
  | @answer done p trace len bytes response h hlen hbytes hresponse ih =>
      obtain ⟨responses, hlength, hall, hflat⟩ := ih
      refine ⟨responses ++ [response], ?_, ?_, ?_⟩
      · rw [List.length_append, List.length_append, hlength]
        rfl
      · exact List.forall_mem_append.mpr ⟨hall, List.forall_mem_singleton.mpr hresponse⟩
      · rw [List.flatMap_append, hflat, List.flatten_append, List.flatten_singleton]
        exact congrArg _ (List.append_nil response)

end

/-! ### A connection and its client -/

structure Dialogue where
  slot : Slot
  /-- The requests that the client has not sent yet. -/
  unsent : List (List UInt8)
  trace : List Io

def Slot.deliver (bytes : List UInt8) : Slot → Slot
  | .occupied conn =>
      .occupied { conn with
        socket := { conn.socket with inbound := conn.socket.inbound ++ bytes } }
  | slot => slot

/-- The client sends its next request.  A part that is on its way is not told
from one that is not sent yet. -/
def Dialogue.sendNext (s : Dialogue) : Dialogue :=
  match s.unsent with
  | [] => s
  | r :: unsent => { s with slot := s.slot.deliver r, unsent }

/-- The connection is accepted, and the client sends its first request. -/
def Dialogue.start (requests : List (List UInt8)) : Dialogue :=
  Dialogue.sendNext ⟨.occupied (.accepted ⟨[], false, []⟩), requests, []⟩

/-- One event; the client goes on when it is answered. -/
def Dialogue.step (s : Dialogue) (e : Event) : Dialogue :=
  let (slot, trace) := serveEvent e s.slot
  let s' : Dialogue := ⟨slot, s.unsent, s.trace ++ trace⟩
  if trace.any Io.isResponse then s'.sendNext else s'

def Dialogue.run (requests : List (List UInt8)) (events : List Event) : Dialogue :=
  events.foldl Dialogue.step (Dialogue.start requests)

/-! ### One read -/

section

variable {socket : Socket} {len : ℕ}

/-- `Ok(0)` on a slice that is not empty is the end of the stream. -/
theorem Socket.read_eq_ok_nil (hlen : 0 < len) {d : Delivery}
    (h : (socket.read len d).1 = .ok []) : socket.inbound = [] ∧ socket.closed = true := by
  cases d with
  | fails kind => cases h
  | arrived n =>
      simp only [Socket.read] at h
      split at h
      · rename_i hcond
        have hnil : (socket.inbound.take n).take len = [] := Except.ok.inj h
        obtain hbytes | hzero | hend := hcond
        · exact absurd hnil hbytes
        · exact absurd hzero (Nat.ne_of_gt hlen)
        · exact hend
      · cases h

/-- A read from an open connection waits, or delivers some of what was
sent. -/
theorem Socket.read_arrived (hlen : 0 < len) (hopen : socket.closed = false) (n : ℕ) :
    socket.read len (.arrived n) = (.error .wouldBlock, socket) ∨
    ∃ bytes rest, bytes ≠ [] ∧ bytes.length ≤ len ∧ socket.inbound = bytes ++ rest ∧
      socket.read len (.arrived n) = (.ok bytes, { socket with inbound := rest }) := by
  by_cases hbytes : (socket.inbound.take n).take len = []
  · refine .inl ?_
    have hcond : ¬ ((socket.inbound.take n).take len ≠ [] ∨ len = 0 ∨
        (socket.inbound = [] ∧ socket.closed = true)) := by
      rintro (h | h | ⟨-, h⟩)
      · exact h hbytes
      · exact absurd h (Nat.ne_of_gt hlen)
      · cases hopen.symm.trans h
    simp only [Socket.read, if_neg hcond]
  · have hpart : (socket.inbound.take n).take len <+: socket.inbound := by
      rw [List.take_take]
      exact List.take_prefix _ _
    refine .inr ⟨_, _, hbytes, List.length_take_le _ _, ?_, if_pos (.inl hbytes)⟩
    exact (List.prefix_iff_eq_append.mp hpart).symm

end

/-! ### One call of `handle_readable` -/

/-- Of the request `r`, which is `[]` if there is none, the worker has read
`p`, which is not all of it. -/
structure Pending (r p : List UInt8) (conn : Connection) : Prop where
  total : conn.total = p.length
  received : conn.received = p
  rest : p ++ conn.socket.inbound = r
  unfinished : p = r → r = []
  isOpen : conn.socket.closed = false

section

variable {e : Readiness} {conn : Connection} {r p bytes rest : List UInt8}

theorem Pending.isPart (h : Pending r p conn) : p <+: r := ⟨_, h.rest⟩

/-- The slice of the next read is not empty. -/
theorem Pending.total_lt (h : Pending r p conn) (hr : r = [] ∨ IsRequest r) :
    conn.total < 2048 := by
  rw [h.total]
  obtain rfl | hr := hr
  · rw [List.prefix_nil.mp h.isPart]
    decide
  · refine Nat.lt_of_lt_of_le (Nat.lt_of_le_of_ne h.isPart.length_le fun hlen => ?_) hr.length_le
    exact hr.ne_nil (h.unfinished (h.isPart.eq_of_length hlen))

/-- What a read delivers stands behind what was read before. -/
theorem Connection.received_receive {socket : Socket} (h : conn.total + bytes.length ≤ 2048) :
    (conn.receive socket bytes).received = conn.received ++ bytes :=
  take_overwrite conn.buf h

/-- The terminator is looked for at the end of what was read. -/
theorem ends_iff (htotal : conn.total = conn.received.length) :
    (4 ≤ conn.total ∧ conn.received.drop (conn.total - 4) = terminator) ↔
      terminator <:+ conn.received := by
  rw [htotal, List.suffix_iff_eq_drop]
  constructor
  · rintro ⟨-, h⟩
    exact h.symm
  · intro h
    refine ⟨?_, h.symm⟩
    have hlen := congrArg List.length h
    rw [List.length_drop] at hlen
    change 4 = _ at hlen
    omega

/-- The response that `answer` writes, and that it is complete where it does not
fail. -/
theorem answer_spec (e : Readiness) (conn : Connection) :
    ∃ result accepted, (answer e conn).trace = [.response result accepted] ∧
      (result = .ok () → IsResponse accepted ∧ (answer e conn).result = .ok false ∧
        (answer e conn).conn =
          { conn with
            socket := { conn.socket with outbound := conn.socket.outbound ++ accepted }
            total := 0 }) := by
  rcases h : e.buffer.response e.t1 e.t2 e.writes with ⟨result, accepted⟩
  refine ⟨result, accepted, ?_, ?_⟩
  · simp only [answer, h]
    split <;> rfl
  · rintro rfl
    simp only [answer, h]
    refine ⟨⟨e.t1, e.t2, ?_⟩, trivial, trivial⟩
    obtain hall | ⟨fault, n, -, hfail, -⟩ := response_spec e
    · exact congrArg Prod.snd (h.symm.trans hall)
    · cases (h.symm.trans hfail)

/-- What the buffer of an open connection holds between two reads. -/
structure Connection.Holds (conn : Connection) (buf : List UInt8) : Prop where
  total : conn.total = buf.length
  received : conn.received = buf
  room : buf.length < 2048
  isOpen : conn.socket.closed = false

/-- What is read comes behind what the buffer holds. -/
theorem Connection.Holds.receive {buf : List UInt8} (h : conn.Holds buf)
    (hrest : conn.socket.inbound = bytes ++ rest) (hlen : bytes.length ≤ 2048 - conn.total)
    {conn' : Connection} (hconn : conn' = conn.receive { conn.socket with inbound := rest } bytes) :
    conn'.total = (buf ++ bytes).length ∧ conn'.received = buf ++ bytes ∧
      conn.socket.inbound = bytes ++ conn'.socket.inbound ∧ conn'.socket.closed = false ∧
      buf.length + bytes.length ≤ 2048 := by
  have hroom := h.room
  rw [← h.total] at hroom
  subst hconn
  refine ⟨?_, ?_, hrest, h.isOpen, ?_⟩
  · rw [List.length_append, ← h.total]
    rfl
  · rw [Connection.received_receive (by omega), h.received]
  · rw [← h.total]
    omega

/-- What was read stays a part of the request, or is all of it. -/
theorem Pending.receive (h : Pending r p conn) (hrest : conn.socket.inbound = bytes ++ rest)
    (hlen : bytes.length ≤ 2048 - conn.total) (hlt : conn.total < 2048) {conn' : Connection}
    (hconn : conn' = conn.receive { conn.socket with inbound := rest } bytes) :
    conn'.total = (p ++ bytes).length ∧ conn'.received = p ++ bytes ∧
      p ++ bytes ++ conn'.socket.inbound = r ∧ conn'.socket.closed = false := by
  have hholds : conn.Holds p := ⟨h.total, h.received, h.total ▸ hlt, h.isOpen⟩
  obtain ⟨htotal, hreceived, hinbound, hopen, -⟩ := hholds.receive hrest hlen hconn
  refine ⟨htotal, hreceived, ?_, hopen⟩
  rw [← h.rest, hinbound, List.append_assoc]

/-- After `trace`, a call has read some more of the request `r`, or it has read
the rest of it and answered. -/
def Progress (r : List UInt8) (done : List (List UInt8)) (trace : List Io) (h : Handled) : Prop :=
  (∃ p, Exchanged done p (trace ++ h.trace) ∧ Pending r p h.conn ∧ h.result = .ok false ∧
    h.trace.any Io.isResponse = false) ∨
  (r ≠ [] ∧ h.trace.any Io.isResponse = true ∧ (h.trace.all Io.succeeds = true →
    Exchanged (done ++ [r]) [] (trace ++ h.trace) ∧ h.result = .ok false ∧ Pending [] [] h.conn))

/-- A read before the rest of the call. -/
theorem Progress.cons {done : List (List UInt8)} {trace : List Io} {h : Handled} {len : ℕ}
    {result : Except ErrorKind (List UInt8)}
    (hp : Progress r done (trace ++ [.read len result]) h) :
    Progress r done trace { h with trace := .read len result :: h.trace } := by
  have happend : trace ++ [.read len result] ++ h.trace = trace ++ .read len result :: h.trace :=
    List.append_assoc ..
  rw [Progress, happend] at hp
  exact hp

/-- The read of the last byte of a request, and the answer to it. -/
theorem Progress.answer {done : List (List UInt8)} {trace : List Io} {len : ℕ}
    (htrace : Exchanged done p trace) (hlen : 0 < len) (hbytes : bytes ≠ [])
    (hall : p ++ bytes = r) (hempty : conn.socket.inbound = [])
    (hopen : conn.socket.closed = false) :
    Progress r done (trace ++ [.read len (.ok bytes)]) (answer e conn) := by
  obtain ⟨result, accepted, hio, hok⟩ := answer_spec e conn
  have hne : r ≠ [] := by
    rintro rfl
    exact hbytes (List.append_eq_nil_iff.mp hall).2
  refine .inr ⟨hne, by rw [hio]; rfl, fun hsucceeds => ?_⟩
  rw [hio] at hsucceeds
  obtain rfl : result = .ok () := by
    rcases result with fault | ⟨⟩
    · cases hsucceeds
    · rfl
  obtain ⟨hresponse, hfalse, hconn⟩ := hok rfl
  have hanswer : Exchanged (done ++ [p ++ bytes]) []
      (trace ++ [.read len (.ok bytes), .response (.ok ()) accepted]) :=
    htrace.answer hlen hbytes hresponse
  rw [hall] at hanswer
  rw [hio, hconn, List.append_assoc]
  exact ⟨hanswer, hfalse, rfl, rfl, hempty, fun _ => rfl, hopen⟩

/-- **One call of `handle_readable`**, from its first read on. -/
theorem handleReads_progress (hr : r = [] ∨ IsRequest r) (reads : List Delivery)
    (hreads : ∀ d ∈ reads, d.Benign) {done : List (List UInt8)} {trace : List Io}
    (htrace : Exchanged done p trace) (h : Pending r p conn) :
    Progress r done trace (handleReads e reads conn) := by
  induction reads generalizing p conn trace with
  | nil =>
      have hlt := h.total_lt hr
      exact .inl ⟨p, htrace.again (by omega), h, rfl, rfl⟩
  | cons d reads ih =>
      have hlt := h.total_lt hr
      have hlen : 0 < 2048 - conn.total := by omega
      have hmore : ∀ d ∈ reads, d.Benign := fun d hd => hreads d (List.mem_cons_of_mem _ hd)
      have hwait : ∀ {d}, conn.socket.read (2048 - conn.total) d =
          (.error .wouldBlock, conn.socket) →
          Progress r done trace (handleReads e (d :: reads) conn) := by
        intro d hread
        rw [handleReads, hread]
        exact .inl ⟨p, htrace.again hlen, h, rfl, rfl⟩
      cases d with
      | fails kind =>
          cases kind with
          | wouldBlock => exact hwait rfl
          | interrupted => exact (ih hmore (htrace.again hlen) h).cons
          -- excluded: no read of the run fails for good
          | writeZero | other => exact (hreads _ List.mem_cons_self).elim
      | arrived n =>
          obtain hread | ⟨bytes, rest, hbytes, hfits, hinbound, hread⟩ :=
            Socket.read_arrived hlen h.isOpen n
          · exact hwait hread
          obtain ⟨b, bs, rfl⟩ := List.exists_cons_of_ne_nil hbytes
          obtain ⟨htotal, hreceived, hrest, hopen⟩ := h.receive hinbound hfits hlt rfl
          rw [handleReads, hread]
          dsimp only
          generalize conn.receive { conn.socket with inbound := rest } (b :: bs) = conn'
            at htotal hreceived hrest hopen ⊢
          -- the check of the last four bytes is about all that was read
          have hends := ends_iff (htotal.trans (congrArg List.length hreceived).symm)
          have hrequest : IsRequest r := hr.resolve_left fun hnil => by simp [hnil] at hrest
          by_cases hall : p ++ b :: bs = r
          · have hempty : conn'.socket.inbound = [] := by
              rw [hall] at hrest
              exact List.append_right_eq_self.mp hrest
            rw [if_pos (hends.mpr (by rw [hreceived, hall]; exact hrequest.frame.ends))]
            exact (Progress.answer htrace hlen hbytes hall hempty hopen).cons
          · -- a proper part neither ends with the terminator nor fills the buffer
            have hpending : Pending r (p ++ b :: bs) conn' :=
              ⟨htotal, hreceived, hrest, fun h => absurd h hall, hopen⟩
            have hlt' := hpending.total_lt hr
            have hno : ¬ terminator <:+ conn'.received := by
              rw [hreceived]
              exact hrequest.frame.not_suffix hpending.isPart hall
            rw [if_neg (hends.not.mpr hno), if_neg (Nat.not_le.mpr hlt')]
            exact (ih hmore (htrace.receive hlen hbytes) hpending).cons

end

/-! ### Runs -/

/-- The client and the worker after the requests `done`, with the requests
`rest` to come, of the first of which the worker has read `p`. -/
structure Dialogue.Going (s : Dialogue) (done rest : List (List UInt8)) (p : List UInt8)
    (conn : Connection) : Prop where
  slot : s.slot = .occupied conn
  unsent : s.unsent = rest.tail
  trace : Exchanged done p s.trace
  pending : Pending (rest.headD []) p conn
  outbound : conn.socket.outbound = s.trace.flatMap Io.accepted

/-- The client sends a request to a worker that waits for one. -/
theorem Dialogue.Going.sendNext {s : Dialogue} {done : List (List UInt8)} {conn : Connection}
    (hslot : s.slot = .occupied conn) (htrace : Exchanged done [] s.trace)
    (hpending : Pending [] [] conn)
    (houtbound : conn.socket.outbound = s.trace.flatMap Io.accepted) :
    ∃ conn', s.sendNext.Going done s.unsent [] conn' := by
  obtain ⟨htotal, hreceived, hrest, -, hopen⟩ := hpending
  rcases hunsent : s.unsent with - | ⟨r, unsent⟩
  · refine ⟨conn, ?_⟩
    rw [Dialogue.sendNext, hunsent]
    exact ⟨hslot, hunsent, htrace, ⟨htotal, hreceived, hrest, fun _ => rfl, hopen⟩, houtbound⟩
  · have hempty : conn.socket.inbound = [] := hrest
    refine ⟨{ conn with socket := { conn.socket with inbound := conn.socket.inbound ++ r } }, ?_⟩
    rw [Dialogue.sendNext, hunsent]
    refine ⟨by rw [hslot]; rfl, rfl, htrace,
      ⟨htotal, hreceived, ?_, fun h => h.symm, hopen⟩, houtbound⟩
    rw [hempty]
    rfl

theorem Dialogue.sendNext_trace (s : Dialogue) : s.sendNext.trace = s.trace := by
  rw [Dialogue.sendNext]
  split <;> rfl

theorem Dialogue.step_of_serve {s : Dialogue} {e : Event} {slot : Slot} {trace : List Io}
    (h : serveEvent e s.slot = (slot, trace)) :
    s.step e =
      if trace.any Io.isResponse then Dialogue.sendNext ⟨slot, s.unsent, s.trace ++ trace⟩
      else ⟨slot, s.unsent, s.trace ++ trace⟩ := by
  rw [Dialogue.step, h]

theorem Dialogue.step_trace (s : Dialogue) (e : Event) :
    (s.step e).trace = s.trace ++ (serveEvent e s.slot).2 := by
  rcases h : serveEvent e s.slot with ⟨slot, trace⟩
  rw [Dialogue.step_of_serve h]
  split
  · exact Dialogue.sendNext_trace _
  · rfl

theorem serveEvent_trace {e : Event} (h : e.readable = true) (conn : Connection) :
    (serveEvent e (.occupied conn)).2 = (handleReadable e.toReadiness conn).trace := by
  simp only [serveEvent, h, if_true]
  split <;> rfl

/-- A connection on which `handle_readable` returns `Ok(false)` stays in the
slab. -/
theorem serveEvent_ok {e : Event} (h : e.readable = true) {conn : Connection}
    (hresult : (handleReadable e.toReadiness conn).result = .ok false) :
    serveEvent e (.occupied conn) =
      (.occupied (handleReadable e.toReadiness conn).conn,
        (handleReadable e.toReadiness conn).trace) := by
  simp only [serveEvent, h, if_true, hresult]

/-- One event: the worker goes on with the same request, or with the next. -/
theorem Dialogue.Going.step {s : Dialogue} {done rest : List (List UInt8)} {p : List UInt8}
    {conn : Connection} (h : s.Going done rest p conn) (hrest : ∀ r ∈ rest, IsRequest r)
    {e : Event} (hreads : ∀ d ∈ e.reads, d.Benign)
    (hwrites : (s.step e).trace.all Io.succeeds = true) :
    ∃ done' rest' p' conn', (s.step e).Going done' rest' p' conn' ∧
      done' ++ rest' = done ++ rest := by
  rw [Dialogue.step_trace, h.slot, List.all_append, Bool.and_eq_true] at hwrites
  cases hreadable : e.readable with
  | false =>
      have hserve : serveEvent e s.slot = (.occupied conn, []) := by
        rw [h.slot, serveEvent, hreadable]
        rfl
      rw [Dialogue.step_of_serve hserve]
      rw [List.any_nil, if_neg Bool.false_ne_true, List.append_nil]
      exact ⟨done, rest, p, conn, ⟨rfl, h.unsent, h.trace, h.pending, h.outbound⟩, rfl⟩
  | true =>
      rw [serveEvent_trace hreadable] at hwrites
      have hr : rest.headD [] = [] ∨ IsRequest (rest.headD []) := by
        cases rest with
        | nil => exact .inl rfl
        | cons r rest => exact .inr (hrest r List.mem_cons_self)
      -- the call has read some more of the request, or has answered it
      have houtbound : (handleReadable e.toReadiness conn).conn.socket.outbound =
          (s.trace ++ (handleReadable e.toReadiness conn).trace).flatMap Io.accepted := by
        rw [List.flatMap_append, ← h.outbound]
        exact handleReads_outbound e.toReadiness e.reads conn
      obtain ⟨p', htrace, hpending, hresult, hno⟩ | ⟨hne, hyes, hok⟩ :
          Progress (rest.headD []) done s.trace (handleReadable e.toReadiness conn) :=
        handleReads_progress hr e.reads hreads h.trace h.pending
      · rw [Dialogue.step_of_serve (h.slot ▸ serveEvent_ok hreadable hresult), hno]
        exact ⟨done, rest, p', _, ⟨rfl, h.unsent, htrace, hpending, houtbound⟩, rfl⟩
      · obtain ⟨htrace, hresult, hpending⟩ := hok hwrites.2
        rw [Dialogue.step_of_serve (h.slot ▸ serveEvent_ok hreadable hresult), hyes, if_pos rfl]
        obtain ⟨conn', hgoing⟩ := Dialogue.Going.sendNext
          (s := ⟨.occupied (handleReadable e.toReadiness conn).conn, s.unsent,
            s.trace ++ (handleReadable e.toReadiness conn).trace⟩) rfl htrace hpending houtbound
        refine ⟨_, _, _, conn', hgoing, ?_⟩
        cases rest with
        | nil => exact absurd rfl hne
        | cons r rest =>
            show done ++ [r] ++ s.unsent = _
            rw [h.unsent, List.append_assoc]
            rfl

/-- The invariant of a run. -/
theorem Dialogue.going_run {requests : List (List UInt8)} (hrequests : ∀ r ∈ requests, IsRequest r)
    (events : List Event) (hreads : ∀ e ∈ events, ∀ d ∈ e.reads, d.Benign)
    (hwrites : (Dialogue.run requests events).trace.all Io.succeeds = true) :
    ∃ done rest p conn, (Dialogue.run requests events).Going done rest p conn ∧
      done ++ rest = requests := by
  -- the last event comes last, so the induction takes the events from the end
  induction events using List.reverseRecOn with
  | nil =>
      obtain ⟨conn, h⟩ := Dialogue.Going.sendNext
        (s := ⟨.occupied (.accepted ⟨[], false, []⟩), requests, []⟩) rfl .start
        ⟨rfl, rfl, rfl, fun _ => rfl, rfl⟩ rfl
      exact ⟨[], requests, [], conn, h, rfl⟩
  | append_singleton events e ih =>
      have hrun : Dialogue.run requests (events ++ [e]) =
          (Dialogue.run requests events).step e := List.foldl_concat ..
      rw [hrun] at hwrites ⊢
      have hbefore : (Dialogue.run requests events).trace.all Io.succeeds = true := by
        rw [Dialogue.step_trace, List.all_append, Bool.and_eq_true] at hwrites
        exact hwrites.1
      obtain ⟨done, rest, p, conn, h, heq⟩ :=
        ih (fun e' he' => hreads e' (List.mem_append_left _ he')) hbefore
      have hrest : ∀ r ∈ rest, IsRequest r :=
        fun r hr => hrequests r (heq ▸ List.mem_append_right _ hr)
      obtain ⟨done', rest', p', conn', h', heq'⟩ :=
        h.step hrest (hreads e (List.mem_append_right _ List.mem_cons_self)) hwrites
      exact ⟨done', rest', p', conn', h', heq'.trans heq⟩

/-- **One response for every request.**  However the socket delivers the
requests of the client, as long as no response fails, the connection is kept
and the trace is the exchanges with the first `n` requests, each answered at
the read that delivered its last byte, and then the reads of a proper part `p`
of the next request; and the bytes that the socket has accepted are `n` complete
responses.  The next read is into a slice that is not empty, so that `Ok(0)` can
only be the end of the stream, and once everything has been read every request
is answered. -/
theorem one_response_per_request {requests : List (List UInt8)}
    (hrequests : ∀ r ∈ requests, IsRequest r) (events : List Event)
    (hreads : ∀ e ∈ events, ∀ d ∈ e.reads, d.Benign)
    (hwrites : (Dialogue.run requests events).trace.all Io.succeeds = true) :
    ∃ n p conn, n ≤ requests.length ∧ (Dialogue.run requests events).slot = .occupied conn ∧
      Exchanged (requests.take n) p (Dialogue.run requests events).trace ∧
      (Dialogue.run requests events).trace.countP Io.isResponse = n ∧
      (∃ responses : List (List UInt8), responses.length = n ∧
        (∀ r ∈ responses, IsResponse r) ∧ conn.socket.outbound = responses.flatten) ∧
      (∀ r, requests[n]? = some r → p <+: r ∧ p ≠ r) ∧ (n = requests.length → p = []) ∧
      conn.total = p.length ∧ conn.total < 2048 ∧
      (∀ (socket : Socket) d, (socket.read (2048 - conn.total) d).1 = .ok [] →
        socket.inbound = [] ∧ socket.closed = true) ∧
      ((Dialogue.run requests events).trace.flatMap Io.bytes = requests.flatten →
        n = requests.length) := by
  obtain ⟨done, rest, p, conn, h, rfl⟩ := Dialogue.going_run hrequests events hreads hwrites
  have htake : (done ++ rest).take done.length = done := List.take_left
  have hr : rest.headD [] = [] ∨ IsRequest (rest.headD []) := by
    cases rest with
    | nil => exact .inl rfl
    | cons r rest => exact .inr (hrequests r (List.mem_append_right _ List.mem_cons_self))
  have hlt := h.pending.total_lt hr
  -- what has been read of the next request is not all of it
  have hpart : ∀ r, rest.head? = some r → p <+: r ∧ p ≠ r := by
    intro r hhead
    obtain ⟨rest', rfl⟩ := List.head?_eq_some_iff.mp hhead
    refine ⟨h.pending.isPart, fun hall => ?_⟩
    have hrequest := hrequests r (List.mem_append_right _ List.mem_cons_self)
    exact hrequest.ne_nil (h.pending.unfinished hall)
  have hlast : rest = [] → p = [] := by
    rintro rfl
    exact List.prefix_nil.mp h.pending.isPart
  refine ⟨done.length, p, conn, ?_, h.slot, htake.symm ▸ h.trace, h.trace.countP, ?_, ?_, ?_,
    h.pending.total, hlt, fun socket d => Socket.read_eq_ok_nil (by omega), ?_⟩
  · rw [List.length_append]
    omega
  · rw [h.outbound]
    exact h.trace.accepted
  · intro r hget
    rw [List.getElem?_append_right (Nat.le_refl _), Nat.sub_self, ← List.head?_eq_getElem?] at hget
    exact hpart r hget
  · intro hlen
    rw [List.length_append] at hlen
    exact hlast (List.eq_nil_of_length_eq_zero (by omega))
  · intro hall
    rw [h.trace.bytes, List.flatten_append] at hall
    -- if everything has been read, the part is the rest of the stream
    have hp : p = rest.flatten := List.append_cancel_left hall
    cases rest with
    | nil => rw [List.append_nil]
    | cons r rest =>
        exfalso
        obtain ⟨hpre, hne⟩ := hpart r rfl
        refine hne (hpre.eq_of_length_le ?_)
        rw [hp, List.flatten_cons, List.length_append]
        omega

/-- A request of four bytes, and one of six of which the last one comes alone;
each is answered. -/
def patient : List Event :=
  [{ reads := [.arrived 3, .fails .interrupted, .arrived 1], t1 := 1, t2 := 2, writes := [],
     readable := true, writable := false },
    { reads := [.arrived 5, .fails .wouldBlock], t1 := 3, t2 := 4, writes := [],
      readable := true, writable := false },
    { reads := [.arrived 2048], t1 := 5, t2 := 6, writes := [.accepts 7, .fails .interrupted],
      readable := true, writable := true }]

theorem one_response_per_request_patient :
    let s := Dialogue.run [terminator, [71, 10] ++ terminator] patient
    s.trace.countP Io.isResponse = 2 ∧ ∃ conn first second, s.slot = .occupied conn ∧
      IsResponse first ∧ IsResponse second ∧ conn.socket.outbound = first ++ second := by
  have hrequests : ∀ r ∈ [terminator, [71, 10] ++ terminator], IsRequest r := by decide
  obtain ⟨n, -, conn, -, hslot, -, hcount, ⟨responses, hlength, hall, hsent⟩, -, -, -, -, -,
    hread⟩ := one_response_per_request hrequests patient (by decide) (by decide)
  obtain rfl : n = 2 := hread (by decide)
  obtain ⟨first, second, rfl⟩ := List.length_eq_two.mp hlength
  refine ⟨hcount, conn, first, second, hslot, hall _ (by simp), hall _ (by simp), ?_⟩
  rw [hsent]
  simp

end Timesync

end Lockinspiel
