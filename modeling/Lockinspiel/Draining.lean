/-
Lockinspiel/Draining.lean

What a call of `handle_readable` leaves behind in the socket.

The socket is polled edge-triggered, so a connection that is kept is served again
only after something new has arrived.  A call that ends because a read would block
has left nothing behind.  Two of its other ends keep the connection as well: a
response that was written, or that would block, and a buffer that is full.
What decides between them is the first content of the buffer that ends with the
terminator or fills the buffer (`handleReads_stops`).
-/
import Lockinspiel.Fragments

namespace Lockinspiel

namespace Timesync

/-! ### The last read -/

def Io.readResult : Io → Option (Except ErrorKind (List UInt8))
  | .read _ result => some result
  | .response .. => none

/-- What the last of the reads returned. -/
def lastRead (trace : List Io) : Option (Except ErrorKind (List UInt8)) :=
  (trace.filterMap Io.readResult).getLast?

/-- A call that keeps the connection has read until the socket would block. -/
def Handled.Drained (h : Handled) : Prop :=
  h.result = .ok false → lastRead h.trace = some (.error .wouldBlock)

theorem lastRead_cons {trace : List Io} {result : Except ErrorKind (List UInt8)}
    (h : lastRead trace = some result) (io : Io) : lastRead (io :: trace) = some result := by
  rw [lastRead] at h ⊢
  rw [List.filterMap_cons]
  rcases io.readResult with - | first
  · exact h
  · rw [List.getLast?_cons, h]
    rfl

/-! ### The buffer -/

/-- What the buffer holds after each of the reads, up to the first that delivers
nothing. -/
def buffers : List Delivery → Connection → List (List UInt8)
  | [], _ => []
  | delivery :: reads, conn =>
      match conn.socket.read (2048 - conn.total) delivery with
      | (.ok [], _) => []
      | (.ok bytes, socket) =>
          let conn := conn.receive socket bytes
          conn.received :: buffers reads conn
      | (.error .interrupted, _) => buffers reads conn
      | (.error _, _) => []

/-- The buffer ends with the terminator, or it is full. -/
def Stops (buf : List UInt8) : Bool := terminator <:+ buf ∨ 2048 ≤ buf.length

theorem Socket.length_read {socket socket' : Socket} {len : ℕ} {d : Delivery} {bytes : List UInt8}
    (h : socket.read len d = (.ok bytes, socket')) : bytes.length ≤ len := by
  cases d with
  | fails kind => cases h
  | arrived n =>
      simp only [Socket.read] at h
      split at h
      · obtain rfl := Except.ok.inj (Prod.mk.inj h).1
        exact List.length_take_le _ _
      · cases (Prod.mk.inj h).1

/-- After a read that delivers bytes, what was received fills the buffer up to
`total`. -/
theorem Connection.length_receive {conn : Connection} {socket : Socket} {bytes : List UInt8}
    (hbytes : bytes ≠ []) (hlen : bytes.length ≤ 2048 - conn.total) :
    (conn.receive socket bytes).total = (conn.receive socket bytes).received.length := by
  have hpos := List.length_pos_iff.mpr hbytes
  rw [Connection.received, List.length_take, List.Vector.toList_length]
  show conn.total + bytes.length = min (conn.total + bytes.length) 2048
  omega

/-- How a call ends, from the first content of the buffer that stops it. -/
def Handled.EndsAt (h : Handled) (e : Readiness) : Option (List UInt8) → Prop
  | none => h.Drained
  | some buf => h.result = (if terminator <:+ buf then answered e else .ok false) ∧
      ∃ bytes, lastRead h.trace = some (.ok bytes)

theorem Handled.EndsAt.cons {h : Handled} {e : Readiness} {stop : Option (List UInt8)}
    (hends : h.EndsAt e stop) (io : Io) :
    Handled.EndsAt { h with trace := io :: h.trace } e stop := by
  cases stop with
  | none => exact fun hresult => lastRead_cons (hends hresult) io
  | some buf =>
      obtain ⟨hresult, bytes, hlast⟩ := hends
      exact ⟨hresult, bytes, lastRead_cons hlast io⟩

/-- **How a call ends.**  If no content of the buffer stops it, it has drained the
socket; otherwise its last read is the one that led to the first such content. -/
theorem handleReads_stops (e : Readiness) (reads : List Delivery) (conn : Connection) :
    (handleReads e reads conn).EndsAt e ((buffers reads conn).find? Stops) := by
  induction reads generalizing conn with
  | nil => exact fun _ => rfl
  | cons d reads ih =>
      rcases hread : conn.socket.read (2048 - conn.total) d with ⟨kind | bytes, socket⟩
      · cases kind with
        | interrupted =>
            simp only [buffers, handleReads, hread]
            exact (ih conn).cons _
        | wouldBlock =>
            simp only [buffers, handleReads, hread]
            exact fun _ => rfl
        | writeZero | other =>
            simp only [buffers, handleReads, hread]
            intro hresult
            cases hresult
      · cases bytes with
        | nil =>
            simp only [buffers, handleReads, hread]
            intro hresult
            cases hresult
        | cons b bs =>
            -- the buffer is tested for the terminator first, and only then whether it is full
            have hlen : (conn.receive socket (b :: bs)).total =
                (conn.receive socket (b :: bs)).received.length :=
              Connection.length_receive (List.cons_ne_nil b bs) (Socket.length_read hread)
            rw [buffers, handleReads, hread]
            dsimp only
            generalize conn.receive socket (b :: bs) = conn' at hlen ⊢
            rw [List.find?_cons]
            by_cases hends : terminator <:+ conn'.received
            · have hstops : Stops conn'.received = true := by
                rw [Stops, decide_eq_true_eq]
                exact .inl hends
              obtain ⟨result, accepted, htrace, -⟩ := answer_spec e conn'
              rw [if_pos ((ends_iff hlen).mpr hends), hstops, htrace]
              exact ⟨(answer_result e conn').1.trans (if_pos hends).symm, _, rfl⟩
            rw [if_neg ((ends_iff hlen).not.mpr hends)]
            by_cases hfull : 2048 ≤ conn'.total
            · have hstops : Stops conn'.received = true := by
                rw [Stops, decide_eq_true_eq]
                exact .inr (hlen ▸ hfull)
              rw [if_pos hfull, hstops]
              exact ⟨(if_neg hends).symm, _, rfl⟩
            · have hgoes : Stops conn'.received = false := by
                rw [Stops, decide_eq_false_iff_not, not_or]
                exact ⟨hends, hlen ▸ hfull⟩
              rw [if_neg hfull, hgoes]
              exact (ih conn').cons _

theorem answered_ne_ok {e : Readiness} : answered e ≠ .ok false ↔
    ∃ fault, (e.buffer.response e.t1 e.t2 e.writes).1 = .error fault ∧ fault ≠ .io .wouldBlock := by
  rw [ne_eq, answered_eq_ok, not_or]
  rcases (e.buffer.response e.t1 e.t2 e.writes).1 with fault | ⟨⟩
  · simp
  · simp

/-- **When nothing is left behind.**  A call that keeps the connection has read until
the socket would block, exactly if no content of its buffer ends with the terminator
or fills the buffer, or the first that does ends with the terminator and the
response to it fails for good. -/
theorem handleReadable_drained_iff (e : Readiness) (conn : Connection) :
    (handleReadable e conn).Drained ↔
      ∀ buf, (buffers e.reads conn).find? Stops = some buf →
        terminator <:+ buf ∧ ∃ fault, (e.buffer.response e.t1 e.t2 e.writes).1 = .error fault ∧
          fault ≠ .io .wouldBlock := by
  have hends := handleReads_stops e e.reads conn
  rw [handleReadable]
  rcases hstop : (buffers e.reads conn).find? Stops with - | buf
  · rw [hstop] at hends
    exact iff_of_true hends nofun
  · rw [hstop] at hends
    obtain ⟨hresult, bytes, hlast⟩ := hends
    rw [Handled.Drained, hresult, hlast]
    constructor
    · rintro hdrained _ ⟨⟩
      have hkept : ¬ (if terminator <:+ buf then answered e else .ok false) = .ok false :=
        fun hkept => nomatch hdrained hkept
      by_cases hterminator : terminator <:+ buf
      · rw [if_pos hterminator] at hkept
        exact ⟨hterminator, answered_ne_ok.mp hkept⟩
      · exact absurd (if_neg hterminator) hkept
    · intro hstops hkept
      obtain ⟨hterminator, hfails⟩ := hstops buf rfl
      rw [if_pos hterminator] at hkept
      exact absurd hkept (answered_ne_ok.mpr hfails)

/-- A peer that sends one request and closes: the request is answered, the
connection is kept, and the end of the stream is never read. -/
theorem handleReadable_strands :
    ∃ e conn, conn = Connection.accepted ⟨terminator, true, []⟩ ∧
      (handleReadable e conn).result = .ok false ∧
      (handleReadable e conn).conn.socket.closed = true ∧
      lastRead (handleReadable e conn).trace = some (.ok terminator) ∧
      ¬ (handleReadable e conn).Drained := by
  refine ⟨⟨[.arrived 4, .arrived 1], 0, 0, [], {}⟩, _, rfl, by decide, by decide, by decide, ?_⟩
  intro h
  have hlast := h (by decide)
  exact absurd hlast (by decide)

end Timesync

end Lockinspiel
