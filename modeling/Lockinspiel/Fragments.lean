/-
Lockinspiel/Fragments.lean

The answers to one stream of bytes, however TCP cuts it into reads.

A `Session` is a connection to which one stream is sent.  Of the stream
`handle_readable` sees the chunks that its reads deliver, and with open sockets
and responses that go through, the connection is a buffer of 2048 bytes that is
emptied by the terminator and by being full (`Session.fed_run`).  Every
delivery of the stream is a session of its own (`Session.chunks_inChunks`).  So
the number of answers depends on the chunks wherever a terminator stands inside
a piece of 2048 bytes (`sameNumber_iff`).
-/
import Lockinspiel.ResponseStream

namespace Lockinspiel

namespace Timesync

open Framing

/-! ### Sessions -/

/-- A connection, with all that the worker did to its socket. -/
structure Session where
  slot : Slot
  trace : List Io

def Session.step (s : Session) (e : Event) : Session :=
  ⟨(serveEvent e s.slot).1, s.trace ++ (serveEvent e s.slot).2⟩

/-- The peer sends the bytes.  What is on its way is not told from what is not
sent yet. -/
def Session.start (bytes : List UInt8) : Session := ⟨.occupied (.accepted ⟨bytes, false, []⟩), []⟩

def Session.run (bytes : List UInt8) (events : List Event) : Session :=
  events.foldl Session.step (Session.start bytes)

/-- The bytes of each read that delivered some. -/
def chunks (trace : List Io) : List (List UInt8) :=
  trace.filterMap fun
    | .read _ (.ok bytes) => some bytes
    | _ => none

/-- The number of responses. -/
def Session.answers (s : Session) : ℕ := s.trace.countP Io.isResponse

/-- The reads of these events deliver all of the bytes, and every response goes
through. -/
structure Delivers (bytes : List UInt8) (events : List Event) : Prop where
  reads : ∀ e ∈ events, ∀ d ∈ e.reads, d.Benign
  writes : (Session.run bytes events).trace.all Io.succeeds = true
  whole : (chunks (Session.run bytes events).trace).flatten = bytes

/-- The number of answers is the same for any two deliveries. -/
def SameNumber (bytes : List UInt8) : Prop :=
  ∀ events events', Delivers bytes events → Delivers bytes events' →
    (Session.run bytes events).answers = (Session.run bytes events').answers

/-! ### One call of `handle_readable` -/

theorem Connection.holds_nil {conn : Connection} (htotal : conn.total = 0)
    (hopen : conn.socket.closed = false) : conn.Holds [] := by
  refine ⟨htotal, ?_, by decide, hopen⟩
  rw [Connection.received, htotal, List.take_zero]

/-- A call, from a connection that holds `buf`, has fed its chunks to the
buffer. -/
structure Framed (buf : List UInt8) (conn : Connection) (h : Handled) : Prop where
  result : h.result = .ok false
  delivery : IsDelivery 2048 terminator buf (chunks h.trace)
  holds : h.conn.Holds (afterChunks 2048 terminator buf (chunks h.trace))
  rest : (chunks h.trace).flatten ++ h.conn.socket.inbound = conn.socket.inbound
  answers : h.trace.countP Io.isResponse = frames 2048 terminator buf (chunks h.trace)

section

variable {e : Readiness} {conn conn' : Connection} {buf bytes : List UInt8}

/-- A read that delivers nothing, and the call goes on. -/
theorem Framed.again {h : Handled} {len : ℕ} {kind : ErrorKind} (hf : Framed buf conn h) :
    Framed buf conn { h with trace := .read len (.error kind) :: h.trace } :=
  ⟨hf.result, hf.delivery, hf.holds, hf.rest, hf.answers⟩

/-- A read that delivers nothing, and the call is over. -/
theorem Connection.Holds.waits (h : conn.Holds buf) (len : ℕ) :
    Framed buf conn ⟨.ok false, conn, [.read len (.error .wouldBlock)]⟩ :=
  ⟨rfl, trivial, h, rfl, rfl⟩

/-- A read that delivers a chunk. -/
theorem Framed.receive {h : Handled} {len : ℕ} (hbytes : bytes ≠ [])
    (hroom : buf.length + bytes.length ≤ 2048)
    (hinbound : conn.socket.inbound = bytes ++ conn'.socket.inbound)
    (hf : Framed (afterChunk 2048 terminator buf bytes) conn' h)
    (hno : ¬ terminator <:+ buf ++ bytes) :
    Framed buf conn { h with trace := .read len (.ok bytes) :: h.trace } := by
  refine ⟨hf.result, ⟨hbytes, hroom, hf.delivery⟩, hf.holds, ?_, ?_⟩
  · rw [hinbound, ← hf.rest, ← List.append_assoc]
    rfl
  · show h.trace.countP Io.isResponse = (if terminator <:+ buf ++ bytes then 1 else 0) + _
    rw [if_neg hno, Nat.zero_add]
    exact hf.answers

/-- A chunk that ends with the terminator, and the answer to it. -/
theorem Framed.answered {len : ℕ} (hbytes : bytes ≠ []) (hroom : buf.length + bytes.length ≤ 2048)
    (hinbound : conn.socket.inbound = bytes ++ conn'.socket.inbound)
    (hopen : conn'.socket.closed = false) (hends : terminator <:+ buf ++ bytes)
    (hwrites : (answer e conn').trace.all Io.succeeds = true) :
    Framed buf conn
      { answer e conn' with trace := .read len (.ok bytes) :: (answer e conn').trace } := by
  obtain ⟨result, accepted, hio, hok⟩ := answer_spec e conn'
  rw [hio] at hwrites
  have hresult : result = .ok () := by
    rcases result with fault | ⟨⟩
    · cases hwrites
    · rfl
  obtain ⟨-, hfalse, hconn⟩ := hok hresult
  have hchunks : chunks (.read len (.ok bytes) :: (answer e conn').trace) = [bytes] := by
    rw [hio]
    rfl
  have hreset : afterChunk 2048 terminator buf bytes = [] := if_pos (.inl hends)
  refine ⟨hfalse, ?_, ?_, ?_, ?_⟩
  · rw [hchunks]
    exact ⟨hbytes, hroom, trivial⟩
  · rw [hchunks]
    show (answer e conn').conn.Holds (afterChunk 2048 terminator buf bytes)
    rw [hreset, hconn]
    exact Connection.holds_nil rfl hopen
  · rw [hchunks]
    show [bytes].flatten ++ (answer e conn').conn.socket.inbound = _
    rw [hconn, hinbound, List.flatten_singleton]
  · rw [hchunks]
    show (.read len (.ok bytes) :: (answer e conn').trace).countP Io.isResponse = _
    rw [hio, frames, if_pos hends]
    rfl

/-- A chunk that fills the buffer without the terminator. -/
theorem Framed.dropped {len : ℕ} (hbytes : bytes ≠ []) (hroom : buf.length + bytes.length ≤ 2048)
    (hinbound : conn.socket.inbound = bytes ++ conn'.socket.inbound)
    (hopen : conn'.socket.closed = false) (hno : ¬ terminator <:+ buf ++ bytes)
    (hfull : 2048 ≤ (buf ++ bytes).length) :
    Framed buf conn ⟨.ok false, { conn' with total := 0 }, [.read len (.ok bytes)]⟩ := by
  have hreset : afterChunk 2048 terminator buf bytes = [] := if_pos (.inr hfull)
  refine ⟨rfl, ⟨hbytes, hroom, trivial⟩, ?_, ?_, ?_⟩
  · show Connection.Holds _ (afterChunk 2048 terminator buf bytes)
    rw [hreset]
    exact Connection.holds_nil rfl hopen
  · show [bytes].flatten ++ conn'.socket.inbound = _
    rw [hinbound, List.flatten_singleton]
  · show 0 = (if terminator <:+ buf ++ bytes then 1 else 0) + 0
    rw [if_neg hno]

/-- **One call of `handle_readable`** feeds its chunks to the buffer. -/
theorem handleReads_framed (reads : List Delivery) (hreads : ∀ d ∈ reads, d.Benign)
    (h : conn.Holds buf) (hwrites : (handleReads e reads conn).trace.all Io.succeeds = true) :
    Framed buf conn (handleReads e reads conn) := by
  induction reads generalizing conn buf with
  | nil => exact h.waits _
  | cons d reads ih =>
      have hmore : ∀ d ∈ reads, d.Benign := fun d hd => hreads d (List.mem_cons_of_mem _ hd)
      have hlen : 0 < 2048 - conn.total := by
        have hroom := h.room
        rw [h.total]
        omega
      have hwait : ∀ {d},
          conn.socket.read (2048 - conn.total) d = (.error .wouldBlock, conn.socket) →
            Framed buf conn (handleReads e (d :: reads) conn) := by
        intro d hread
        rw [handleReads, hread]
        exact h.waits _
      cases d with
      | fails kind =>
          cases kind with
          | wouldBlock => exact hwait rfl
          | interrupted => exact (ih hmore h hwrites).again
          -- excluded: no read of the run fails for good
          | writeZero | other => exact (hreads _ List.mem_cons_self).elim
      | arrived n =>
          obtain hread | ⟨bytes, rest, hbytes, hfits, hinbound, hread⟩ :=
            Socket.read_arrived hlen h.isOpen n
          · exact hwait hread
          obtain ⟨b, bs, rfl⟩ := List.exists_cons_of_ne_nil hbytes
          obtain ⟨htotal, hreceived, hrest, hopen, hroom⟩ := h.receive hinbound hfits rfl
          rw [handleReads, hread] at hwrites ⊢
          dsimp only at hwrites ⊢
          generalize conn.receive { conn.socket with inbound := rest } (b :: bs) = conn'
            at hwrites htotal hreceived hrest hopen ⊢
          have hends : (4 ≤ conn'.total ∧ conn'.received.drop (conn'.total - 4) = terminator) ↔
              terminator <:+ buf ++ b :: bs := by
            rw [ends_iff (htotal.trans (congrArg List.length hreceived).symm), hreceived]
          by_cases hterminator : terminator <:+ buf ++ b :: bs
          · rw [if_pos (hends.mpr hterminator)] at hwrites ⊢
            exact Framed.answered hbytes hroom hrest hopen hterminator hwrites
          rw [if_neg (hends.not.mpr hterminator)] at hwrites ⊢
          by_cases hfull : 2048 ≤ conn'.total
          · rw [if_pos hfull]
            exact Framed.dropped hbytes hroom hrest hopen hterminator (htotal ▸ hfull)
          · rw [if_neg hfull] at hwrites ⊢
            have hkept : afterChunk 2048 terminator buf (b :: bs) = buf ++ b :: bs := by
              refine if_neg (not_or.mpr ⟨hterminator, ?_⟩)
              rw [← htotal]
              exact hfull
            refine Framed.receive hbytes hroom hrest ?_ hterminator
            rw [hkept]
            exact ih hmore ⟨htotal, hreceived, htotal ▸ Nat.lt_of_not_le hfull, hopen⟩ hwrites

end

/-! ### Runs -/

theorem chunks_append (trace trace' : List Io) :
    chunks (trace ++ trace') = chunks trace ++ chunks trace' :=
  List.filterMap_append ..

/-- A session that has fed the chunks of its reads to the buffer. -/
structure Session.Fed (bytes : List UInt8) (s : Session) (conn : Connection) : Prop where
  slot : s.slot = .occupied conn
  delivery : IsDelivery 2048 terminator [] (chunks s.trace)
  holds : conn.Holds (afterChunks 2048 terminator [] (chunks s.trace))
  rest : (chunks s.trace).flatten ++ conn.socket.inbound = bytes
  answers : s.answers = frames 2048 terminator [] (chunks s.trace)

/-- **One event** of a session. -/
theorem Session.Fed.step {bytes : List UInt8} {s : Session} {conn : Connection}
    (h : s.Fed bytes conn) {e : Event} (hreads : ∀ d ∈ e.reads, d.Benign)
    (hwrites : (s.step e).trace.all Io.succeeds = true) :
    ∃ conn', (s.step e).Fed bytes conn' := by
  cases hreadable : e.readable with
  | false =>
      have hstep : s.step e = s := by
        rw [Session.step, h.slot, serveEvent, hreadable]
        simp only [Bool.false_eq_true, if_false, List.append_nil]
        rw [← h.slot]
      rw [hstep]
      exact ⟨conn, h⟩
  | true =>
      rw [Session.step, h.slot, List.all_append, Bool.and_eq_true, serveEvent_trace hreadable]
        at hwrites
      have hcall : Framed _ conn (handleReadable e.toReadiness conn) :=
        handleReads_framed e.reads hreads h.holds hwrites.2
      rw [Session.step, h.slot, serveEvent_ok hreadable hcall.result]
      generalize handleReadable e.toReadiness conn = handled at hcall
      refine ⟨handled.conn, rfl, ?_, ?_, ?_, ?_⟩
      · rw [chunks_append, isDelivery_append]
        exact ⟨h.delivery, hcall.delivery⟩
      · rw [chunks_append, afterChunks, List.foldl_append]
        exact hcall.holds
      · rw [chunks_append, List.flatten_append, List.append_assoc, hcall.rest, h.rest]
      · rw [chunks_append, frames_append, ← h.answers, ← hcall.answers]
        exact List.countP_append

/-- **The invariant of a session.** -/
theorem Session.fed_run (bytes : List UInt8) (events : List Event)
    (hreads : ∀ e ∈ events, ∀ d ∈ e.reads, d.Benign)
    (hwrites : (Session.run bytes events).trace.all Io.succeeds = true) :
    ∃ conn, (Session.run bytes events).Fed bytes conn := by
  induction events using List.reverseRecOn with
  | nil => exact ⟨_, rfl, trivial, Connection.holds_nil rfl rfl, rfl, rfl⟩
  | append_singleton events e ih =>
      have hrun : Session.run bytes (events ++ [e]) = (Session.run bytes events).step e :=
        List.foldl_concat ..
      rw [hrun] at hwrites ⊢
      have hbefore : (Session.run bytes events).trace.all Io.succeeds = true := by
        rw [Session.step, List.all_append, Bool.and_eq_true] at hwrites
        exact hwrites.1
      obtain ⟨conn, h⟩ := ih (fun e' he' => hreads e' (List.mem_append_left _ he')) hbefore
      exact h.step (hreads e (List.mem_append_right _ List.mem_cons_self)) hwrites

/-! ### Every delivery -/

/-- One event for each chunk. -/
def inChunks (chunks : List (List UInt8)) : List Event :=
  chunks.map fun chunk =>
    { reads := [.arrived chunk.length], t1 := 0, t2 := 0, writes := [], readable := true,
      writable := false }

theorem benign_inChunks (chunks : List (List UInt8)) :
    ∀ e ∈ inChunks chunks, ∀ d ∈ e.reads, d.Benign := by
  intro e he d hd
  obtain ⟨chunk, -, rfl⟩ := List.mem_map.mp he
  obtain rfl := List.mem_singleton.mp hd
  trivial

/-- A response on a socket that accepts everything goes through. -/
theorem answer_accepting {e : Readiness} (he : e.writes = []) (conn : Connection) :
    (answer e conn).trace.all Io.succeeds = true ∧ chunks (answer e conn).trace = [] := by
  obtain ⟨slices, -, -, hresponse⟩ := response_eq e.buffer e.t1 e.t2 e.writes
  rw [he, writeAll_accepting] at hresponse
  rw [answer, he, hresponse]
  exact ⟨rfl, rfl⟩

/-- An event for a chunk that finds room reads it. -/
theorem handleReads_chunk {e : Readiness} (he : e.writes = []) {conn : Connection}
    {buf bytes rest : List UInt8} (h : conn.Holds buf) (hbytes : bytes ≠ [])
    (hroom : buf.length + bytes.length ≤ 2048) (hinbound : conn.socket.inbound = bytes ++ rest) :
    (handleReads e [.arrived bytes.length] conn).trace.all Io.succeeds = true ∧
      chunks (handleReads e [.arrived bytes.length] conn).trace = [bytes] := by
  have htake : (conn.socket.inbound.take bytes.length).take (2048 - conn.total) = bytes := by
    rw [hinbound, List.take_left, List.take_of_length_le]
    rw [h.total]
    omega
  have hread : conn.socket.read (2048 - conn.total) (.arrived bytes.length) =
      (.ok bytes, { conn.socket with inbound := conn.socket.inbound.drop bytes.length }) := by
    rw [Socket.read]
    dsimp only
    rw [htake, if_pos (.inl hbytes)]
  obtain ⟨b, bs, rfl⟩ := List.exists_cons_of_ne_nil hbytes
  rw [handleReads, hread]
  dsimp only
  split
  · obtain ⟨hall, hnone⟩ := answer_accepting he
      (conn.receive { conn.socket with inbound := conn.socket.inbound.drop (b :: bs).length }
        (b :: bs))
    exact ⟨hall, congrArg (List.cons (b :: bs)) hnone⟩
  split
  · exact ⟨rfl, rfl⟩
  · exact ⟨rfl, rfl⟩

/-- **Every delivery of the stream is a session.** -/
theorem Session.chunks_inChunks (delivery : List (List UInt8))
    (h : IsDelivery 2048 terminator [] delivery) (rest : List UInt8) :
    (Session.run (delivery.flatten ++ rest) (inChunks delivery)).trace.all Io.succeeds = true ∧
      chunks (Session.run (delivery.flatten ++ rest) (inChunks delivery)).trace = delivery := by
  induction delivery using List.reverseRecOn generalizing rest with
  | nil => exact ⟨rfl, rfl⟩
  | append_singleton delivery chunk ih =>
      obtain ⟨hbefore, hchunk, hroom, -⟩ := isDelivery_append.mp h
      rw [List.flatten_append, List.flatten_singleton, List.append_assoc, inChunks, List.map_append]
      obtain ⟨hwrites, hchunks⟩ := ih hbefore (chunk ++ rest)
      obtain ⟨conn, hfed⟩ := Session.fed_run _ _ (benign_inChunks delivery) hwrites
      have hrest := hfed.rest
      have hholds := hfed.holds
      rw [hchunks] at hrest hholds
      obtain ⟨hall, hone⟩ := handleReads_chunk (e := ⟨[.arrived chunk.length], 0, 0, [], {}⟩) rfl
        hholds hchunk hroom (List.append_cancel_left hrest)
      -- the chunk is read by the event that comes last
      rw [Session.run, List.foldl_append]
      let before := Session.run (delivery.flatten ++ (chunk ++ rest)) (inChunks delivery)
      change (before.step _).trace.all Io.succeeds = true ∧ chunks (before.step _).trace = _
      rw [Session.step, hfed.slot, serveEvent_trace rfl, List.all_append, hwrites, chunks_append,
        hchunks]
      exact ⟨hall, congrArg (delivery ++ ·) hone⟩

/-- **When the number of answers does not depend on TCP.**  For a stream with all
of its beginnings: at every point of the stream the number is the same for any
two deliveries exactly if no terminator stands inside a piece of 2048 bytes.  For
the finished stream alone this is enough. -/
theorem sameNumber_iff (bytes : List UInt8) :
    (∀ p, p <+: bytes → SameNumber p) ↔ Aligned 2048 terminator bytes := by
  have hshift : ∀ a, ¬ terminator <:+ terminator ++ [a] := by
    intro a h
    rw [List.suffix_iff_eq_drop] at h
    have hcr : (13 : UInt8) = 10 := congrArg (·.headD 0) h
    exact absurd hcr (by decide)
  rw [← frames_eq_iff (by decide) (by decide) hshift]
  refine forall_congr' fun p => imp_congr_right fun _ => ?_
  constructor
  · rintro h delivery delivery' rfl heq hdelivery hdelivery'
    have hrun : ∀ {l}, l.flatten = delivery.flatten → IsDelivery 2048 terminator [] l →
        Delivers delivery.flatten (inChunks l) ∧
          (Session.run delivery.flatten (inChunks l)).answers = frames 2048 terminator [] l := by
      intro l hl hdelivers
      obtain ⟨hwrites, hchunks⟩ := Session.chunks_inChunks l hdelivers []
      rw [List.append_nil, hl] at hwrites hchunks
      obtain ⟨conn, hfed⟩ := Session.fed_run _ _ (benign_inChunks l) hwrites
      refine ⟨⟨benign_inChunks l, hwrites, ?_⟩, ?_⟩
      · rw [hchunks, hl]
      · rw [hfed.answers, hchunks]
    obtain ⟨hevents, hanswers⟩ := hrun rfl hdelivery
    obtain ⟨hevents', hanswers'⟩ := hrun heq hdelivery'
    rw [← hanswers, ← hanswers']
    exact h _ _ hevents hevents'
  · intro h events events' hevents hevents'
    obtain ⟨conn, hfed⟩ := Session.fed_run p events hevents.reads hevents.writes
    obtain ⟨conn', hfed'⟩ := Session.fed_run p events' hevents'.reads hevents'.writes
    rw [hfed.answers, hfed'.answers]
    exact h _ _ hevents.whole hevents'.whole hfed.delivery hfed'.delivery

/-- Two requests of four bytes each are answered twice if they come one by one,
and once if they come together. -/
theorem sameNumber_pipelined :
    Delivers (terminator ++ terminator) (inChunks [terminator, terminator]) ∧
      Delivers (terminator ++ terminator) (inChunks [terminator ++ terminator]) ∧
      (Session.run (terminator ++ terminator) (inChunks [terminator, terminator])).answers = 2 ∧
      (Session.run (terminator ++ terminator) (inChunks [terminator ++ terminator])).answers = 1 ∧
      ¬ SameNumber (terminator ++ terminator) := by
  have hone : Delivers (terminator ++ terminator) (inChunks [terminator, terminator]) :=
    ⟨benign_inChunks _, by decide, by decide⟩
  have htogether : Delivers (terminator ++ terminator) (inChunks [terminator ++ terminator]) :=
    ⟨benign_inChunks _, by decide, by decide⟩
  refine ⟨hone, htogether, by decide, by decide, fun h => ?_⟩
  exact absurd (h _ _ hone htogether) (by decide)

end Timesync

end Lockinspiel
