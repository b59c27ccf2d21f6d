/-
Lockinspiel/Timesync.lean

The timesync server: the response, one connection of a worker, and the part of
the event loop that serves it.

The socket is not part of the repository.  A `Socket` holds the bytes the peer
has sent and those that were accepted from the server; what happens on one
`read` or one `write_vectored` is given with each readiness event, any way the
two calls can go.  A list that is over stands for a socket on which nothing
more arrives, or that accepts everything that is left.

The clock is after 1970, so its two readings are numbers.  Everything that the
worker does to the socket of a connection is recorded, in order, as `Io`.
-/
import Lockinspiel.Lib.Framing

namespace Lockinspiel

namespace Timesync

open Framing

/-! ### The socket -/

/-- The kinds of `io::Error` that the server tells apart. -/
inductive ErrorKind
  | wouldBlock
  | interrupted
  | writeZero
  | other
deriving DecidableEq

/-- The socket of a connection. -/
structure Socket where
  /-- What the peer has sent and was not read yet. -/
  inbound : List UInt8
  /-- The peer has closed its side after that. -/
  closed : Bool
  /-- What was accepted from the server. -/
  outbound : List UInt8

/-- What happens on one `read`. -/
inductive Delivery
  /-- At most `n` bytes of what the peer has sent have arrived. -/
  | arrived (n : ℕ)
  | fails (kind : ErrorKind)
deriving DecidableEq

/-- What happens on one `write_vectored`. -/
inductive Acceptance
  /-- At most `n` bytes are accepted. -/
  | accepts (n : ℕ)
  | fails (kind : ErrorKind)
deriving DecidableEq

/-- `read` into a slice of `len` bytes.  It answers `Ok(0)` at the end of the
stream, and for an empty slice. -/
def Socket.read (socket : Socket) (len : ℕ) :
    Delivery → Except ErrorKind (List UInt8) × Socket
  | .fails kind => (.error kind, socket)
  | .arrived n =>
      let bytes := (socket.inbound.take n).take len
      if bytes ≠ [] ∨ len = 0 ∨ (socket.inbound = [] ∧ socket.closed = true) then
        (.ok bytes, { socket with inbound := socket.inbound.drop bytes.length })
      else (.error .wouldBlock, socket)

/-! ### The response -/

/-- The bytes of a text of ASCII characters. -/
def ascii (s : String) : List UInt8 := s.toList.map fun c => c.toNat.toUInt8

/-- `\r\n\r\n`. -/
def terminator : List UInt8 := [13, 10, 13, 10]

def httpHeader : String :=
  "HTTP/1.1 200 OK\r\nConnection: keep-alive\r\nContent-Length: "

/-- How a function of the worker ends without a value. -/
inductive Fault
  | io (kind : ErrorKind)
  | panic
deriving DecidableEq

/-- `IoSlice::advance_slices`; `none` is the panic on more bytes than there
are. -/
def advanceSlices : List (List UInt8) → ℕ → Option (List (List UInt8))
  | [], n => if n = 0 then some [] else none
  | slice :: slices, n =>
      if slice.length ≤ n then advanceSlices slices (n - slice.length)
      else some (slice.drop n :: slices)

/-- The loop of `ResponseBuffer::response`: its result, and the bytes that
were accepted. -/
def writeAll : List Acceptance → List (List UInt8) → Except Fault Unit × List UInt8
  | _, [] => (.ok (), [])
  | [], slices => (.ok (), slices.flatten)
  | .accepts n :: writes, slices =>
      let n := min n slices.flatten.length
      -- `Ok(0)` while slices are left
      if n = 0 then (.error (.io .writeZero), [])
      else
        match advanceSlices slices n with
        | none => (.error .panic, slices.flatten.take n)
        | some slices' =>
            let (result, accepted) := writeAll writes slices'
            (result, slices.flatten.take n ++ accepted)
  | .fails .interrupted :: writes, slices => writeAll writes slices
  | .fails kind :: _, _ => (.error (.io kind), [])

/-- `ResponseBuffer`, with what was last formatted into each of its buffers. -/
structure ResponseBuffer where
  t1Buffer : List UInt8 := []
  t2Buffer : List UInt8 := []
  contentLengthBuffer : List UInt8 := []

namespace ResponseBuffer

/-- The numbers that `ResponseBuffer::response` formats, for the two readings of
the clock.  Each `itoa::Buffer` is written anew. -/
def format (_self : ResponseBuffer) (t1 t2 : ℕ) : ResponseBuffer :=
  let jsonHeader := ascii "\x7b\"n2\":"
  let jsonSeparator := ascii ",\"n3\":"
  let jsonFooter := ascii "\x7d"
  let t1Str := ascii (toString t1)
  let t2Str := ascii (toString t2)
  let contentLength := jsonHeader.length + t1Str.length + jsonSeparator.length + t2Str.length +
    jsonFooter.length
  { t1Buffer := t1Str, t2Buffer := t2Str
    contentLengthBuffer := ascii (toString contentLength) }

/-- The slices of `ResponseBuffer::response`, over what was formatted. -/
def slices (self : ResponseBuffer) : List (List UInt8) :=
  [ascii httpHeader, self.contentLengthBuffer, terminator, ascii "\x7b\"n2\":", self.t1Buffer,
    ascii ",\"n3\":", self.t2Buffer, ascii "\x7d"]

/-- `ResponseBuffer::response`. -/
def response (self : ResponseBuffer) (t1 t2 : ℕ) (writes : List Acceptance) :
    Except Fault Unit × List UInt8 :=
  match advanceSlices (self.format t1 t2).slices 0 with
  | none => (.error .panic, [])
  | some slices => writeAll writes slices

end ResponseBuffer

/-- The slices of a response from a new buffer. -/
def responseSlices (t1 t2 : ℕ) : List (List UInt8) := (ResponseBuffer.format {} t1 t2).slices

/-- Nothing is left of the response to another connection. -/
theorem ResponseBuffer.slices_format (self : ResponseBuffer) (t1 t2 : ℕ) :
    (self.format t1 t2).slices = responseSlices t1 t2 := rfl

/-! ### A connection -/

/-- What the worker does to the socket of a connection. -/
inductive Io
  /-- A `read` into a slice of `len` bytes. -/
  | read (len : ℕ) (result : Except ErrorKind (List UInt8))
  /-- A response, with what was accepted of it. -/
  | response (result : Except Fault Unit) (accepted : List UInt8)

structure Connection where
  buf : List.Vector UInt8 2048
  socket : Socket
  total : ℕ

/-- `&conn.buf[..conn.total]`. -/
def Connection.received (conn : Connection) : List UInt8 := conn.buf.toList.take conn.total

/-- The entry of a connection that `accept_connections` inserts. -/
def Connection.accepted (socket : Socket) : Connection where
  buf := .replicate 2048 0
  socket := socket
  total := 0

/-- What happens while `handle_readable` runs: its reads, and the response, of
which there is at most one, in a buffer that other connections have used. -/
structure Readiness where
  reads : List Delivery
  t1 : ℕ
  t2 : ℕ
  writes : List Acceptance
  buffer : ResponseBuffer := {}

/-- How `handle_readable` ends: its result, the connection it leaves, and what
it has done. -/
structure Handled where
  result : Except Fault Bool
  conn : Connection
  trace : List Io

/-- The connection after a read of these bytes. -/
def Connection.receive (conn : Connection) (socket : Socket) (bytes : List UInt8) : Connection where
  buf := overwrite conn.buf conn.total bytes
  socket := socket
  total := conn.total + bytes.length

/-- The answer of `handle_readable` to a buffer that ends with the
terminator. -/
def answer (e : Readiness) (conn : Connection) : Handled :=
  let (result, accepted) := e.buffer.response e.t1 e.t2 e.writes
  let conn :=
    { conn with socket := { conn.socket with outbound := conn.socket.outbound ++ accepted } }
  match result with
  -- a response that would block counts as sent, whatever is left of it
  | .ok () | .error (.io .wouldBlock) =>
      ⟨.ok false, { conn with total := 0 }, [.response result accepted]⟩
  | .error fault => ⟨.error fault, conn, [.response result accepted]⟩

/-- The loop of `handle_readable`, with the reads that are to come. -/
def handleReads (e : Readiness) : List Delivery → Connection → Handled
  | [], conn => ⟨.ok false, conn, [.read (2048 - conn.total) (.error .wouldBlock)]⟩
  | delivery :: reads, conn =>
      let len := 2048 - conn.total
      let (result, socket) := conn.socket.read len delivery
      let io := Io.read len result
      match result with
      -- the peer has closed the connection
      | .ok [] => ⟨.ok true, { conn with socket }, [io]⟩
      | .ok bytes =>
          let conn := conn.receive socket bytes
          if 4 ≤ conn.total ∧ conn.received.drop (conn.total - 4) = terminator then
            let handled := answer e conn
            { handled with trace := io :: handled.trace }
          -- the buffer is full without a terminator: what it holds is dropped
          else if 2048 ≤ conn.total then ⟨.ok false, { conn with total := 0 }, [io]⟩
          else
            let handled := handleReads e reads conn
            { handled with trace := io :: handled.trace }
      | .error .wouldBlock => ⟨.ok false, conn, [io]⟩
      | .error .interrupted =>
          let handled := handleReads e reads conn
          { handled with trace := io :: handled.trace }
      | .error kind => ⟨.error (.io kind), conn, [io]⟩

def handleReadable (e : Readiness) (conn : Connection) : Handled := handleReads e e.reads conn

/-! ### The event loop -/

/-- An event for the token of a connection. -/
structure Event extends Readiness where
  readable : Bool
  writable : Bool

/-- The entry of a connection in the slab of a worker, which ends with a
panic. -/
inductive Slot
  | vacant
  | occupied (conn : Connection)
  | panicked

/-- The event loop on one event for the token of the slot, and what it does to
the socket.  Registering anew, which it does for a writable event, leaves the
connection as it is. -/
def serveEvent (e : Event) : Slot → Slot × List Io
  | .occupied conn =>
      if e.readable then
        let handled := handleReadable e.toReadiness conn
        match handled.result with
        | .ok false => (.occupied handled.conn, handled.trace)
        | .ok true | .error (.io _) => (.vacant, handled.trace)
        | .error .panic => (.panicked, handled.trace)
      else (.occupied conn, [])
  | slot => (slot, [])

end Timesync

end Lockinspiel
