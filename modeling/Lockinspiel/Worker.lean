/-
Lockinspiel/Worker.lean

The loop of a timesync worker, with all of its connections.

A `Worker` is its slab of connections and the response buffer that they share.
Its events come in batches from `poll`, which are handled one after the other;
what `accept` and the sockets answer is part of the event, in any way they can.
A worker that panics is gone, and its connections with it.

An event of a connection is that of the single one of the modules before, with
the buffer as the others have left it, which makes no difference
(`Worker.serve_sharing`).  What its peer does cannot end the worker, but what
`accept` answers can: an error of `handle_readable` closes one connection, an
error of `accept_connections` is unwrapped (`unharmed_iff`).
-/
import Lockinspiel.Draining
import Lockinspiel.CompleteResponse
import Lockinspiel.Lib.Runs
import Lockinspiel.Lib.Slab

namespace Lockinspiel

namespace Timesync

/-! ### The worker -/

/-- What happens in the loop of a worker. -/
inductive WorkerEvent
  /-- `poll` fails. -/
  | pollFails (kind : ErrorKind)
  /-- An event for the listener: the sockets that `accept` returns, each with the
  result of `set_nodelay`, and the error that it returns after them. -/
  | server (sockets : List (Socket × Except ErrorKind Unit)) (last : ErrorKind)
  /-- What happens to the connection of a token. -/
  | connection (key : ℕ) (a : Act)

variable (S : Slab Connection)

/-- The state of a worker. -/
structure Worker where
  connections : S.State
  responseBuffer : ResponseBuffer

/-- `accept_connections`. -/
def acceptConnections : List (Socket × Except ErrorKind Unit) → ErrorKind → S.State →
    Except ErrorKind S.State
  | [], last, connections => if last = .wouldBlock then .ok connections else .error last
  | (_, .error kind) :: _, _, _ => .error kind
  | (socket, .ok ()) :: sockets, last, connections =>
      acceptConnections sockets last (S.insert connections (.accepted socket))

variable {S}

namespace Worker

/-- The worker when its loop begins. -/
def start : Worker S where
  connections := S.new
  responseBuffer := {}

/-- What an act does to an open connection, and what the worker has done to the
socket. -/
def serve (conn : Connection) : Act → Slot × List Io
  | .send bytes => (Slot.deliver bytes (.occupied conn), [])
  | .shut => (Slot.shut (.occupied conn), [])
  | .event e => serveEvent e (.occupied conn)

/-- The act finds the buffer of the worker. -/
def sharing (buffer : ResponseBuffer) : Act → Act
  | .event e => .event { e with buffer }
  | a => a

/-- The event that writes a response formats it in the buffer. -/
def formatted (self : ResponseBuffer) : Act → List Io → ResponseBuffer
  | .event e, trace => if trace.any Io.isResponse then self.format e.t1 e.t2 else self
  | _, _ => self

/-- One event; `none` is a panic.  A token may be stale: its connection was closed
by an earlier event of the batch. -/
def step (w : Worker S) : WorkerEvent → Option (Worker S)
  | .pollFails kind => if kind = .interrupted then some w else none
  | .server sockets last =>
      match acceptConnections S sockets last w.connections with
      | .ok connections => some { w with connections }
      | .error _ => none
  | .connection key a =>
      match S.get w.connections key with
      | none => some w
      | some conn =>
          let (slot, trace) := serve conn (sharing w.responseBuffer a)
          let responseBuffer := formatted w.responseBuffer a trace
          match slot with
          | .occupied conn => some ⟨S.set w.connections key conn, responseBuffer⟩
          | .vacant => some ⟨S.tryRemove w.connections key, responseBuffer⟩
          | .panicked => none

/-- The event of a worker that may be gone. -/
def next (w : Option (Worker S)) (e : WorkerEvent) : Option (Worker S) := w.bind (step · e)

/-- The events one after the other. -/
def run (w : Option (Worker S)) (events : List WorkerEvent) : Option (Worker S) :=
  events.foldl next w

end Worker

/-- What an event does to the sockets of the connections. -/
def Worker.ios (w : Worker S) : WorkerEvent → List Io
  | .pollFails _ | .server .. => []
  | .connection key a =>
      match S.get w.connections key with
      | none => []
      | some conn => (serve conn (sharing w.responseBuffer a)).2

/-- The event may change the entry of a key: its own, and for the listener a
vacant one. -/
def WorkerEvent.Touches (e : WorkerEvent) (w : Worker S) (key : ℕ) : Prop :=
  match e with
  | .pollFails _ => False
  | .server .. => S.get w.connections key = none
  | .connection key' _ => key = key'

/-- The buffer of every connection has room. -/
def Worker.InRange (w : Worker S) : Prop :=
  ∀ key conn, S.get w.connections key = some conn → conn.total < 2048

/-- The event harms no one: every read is into a part of the buffer that there is,
and not an empty one, the worker goes on, and the entries of all other connections
are what they were. -/
def Unharmed (w : Option (Worker S)) (e : WorkerEvent) : Prop :=
  ∃ w₀ w₁, w = some w₀ ∧ (∀ len result, .read len result ∈ w₀.ios e → 0 < len) ∧
    w₀.step e = some w₁ ∧ w₁.InRange ∧
    ∀ key, ¬ e.Touches w₀ key → S.get w₁.connections key = S.get w₀.connections key

/-- `accept` returns sockets on which `set_nodelay` succeeds, until it would block;
and `poll` is at most interrupted. -/
def WorkerEvent.Harmless : WorkerEvent → Prop
  | .pollFails kind => kind = .interrupted
  | .server sockets last => (∀ s ∈ sockets, s.2 = .ok ()) ∧ last = .wouldBlock
  | .connection .. => True

/-! ### The shared buffer -/

/-- A call does the same whatever the buffer held. -/
theorem handleReads_buffer (e : Readiness) (buffer : ResponseBuffer) (reads : List Delivery)
    (conn : Connection) :
    handleReads { e with buffer } reads conn = handleReads e reads conn := by
  induction reads generalizing conn with
  | nil => rfl
  | cons d reads ih =>
      simp only [handleReads, ih]
      rfl

/-- **The connections can share the buffer**: what is left in it by one of them
does not reach another. -/
theorem Worker.serve_sharing (buffer : ResponseBuffer) (conn : Connection) (a : Act) :
    serve conn (sharing buffer a) = serve conn a := by
  cases a with
  | send bytes | shut => rfl
  | event e =>
      have hcall : handleReadable { e.toReadiness with buffer } conn =
          handleReadable e.toReadiness conn := handleReads_buffer e.toReadiness buffer e.reads conn
      simp only [serve, sharing, serveEvent]
      rw [hcall]

/-! ### One call of `handle_readable` -/

/-- A call that stays within the buffer, and does not panic. -/
structure Handled.InRange (h : Handled) : Prop where
  result : h.result ≠ .error .panic
  total : h.result = .ok false → h.conn.total < 2048
  reads : ∀ len result, .read len result ∈ h.trace → 0 < len

section

variable {e : Readiness} {conn : Connection}

/-- `advance_slices` never goes too far. -/
theorem response_ne_panic (buffer : ResponseBuffer) (t1 t2 : ℕ) (writes : List Acceptance) :
    (buffer.response t1 t2 writes).1 ≠ .error .panic := by
  intro hpanic
  obtain ⟨left, hafter⟩ := Writing.after_response buffer t1 t2 writes
  have hsound := (Writing.sound_start buffer t1 t2).after
    (Writing.follow writes (responseSlices t1 t2).flatten.length) (writes.length + 1)
  rw [hafter] at hsound
  exact (hsound.error .panic (congrArg some hpanic)).2 rfl

theorem Handled.InRange.read {h : Handled} (hr : h.InRange) {len : ℕ} (hlen : 0 < len)
    (result : Except ErrorKind (List UInt8)) :
    Handled.InRange { h with trace := .read len result :: h.trace } := by
  refine ⟨hr.result, hr.total, fun len' result' hmem => ?_⟩
  rcases List.mem_cons.mp hmem with heq | hmem
  · cases heq
    exact hlen
  · exact hr.reads len' result' hmem

theorem inRange_answer (e : Readiness) (conn : Connection) : (answer e conn).InRange := by
  have hempty : 0 < 2048 := by decide
  have hno := response_ne_panic e.buffer e.t1 e.t2 e.writes
  rcases h : e.buffer.response e.t1 e.t2 e.writes with ⟨(kind | _) | _, accepted⟩
  · rw [answer, h]
    cases kind with
    | wouldBlock => exact ⟨by simp, fun _ => hempty, by simp⟩
    | _ => exact ⟨by simp, fun h => (by cases h), by simp⟩
  · exact absurd (congrArg Prod.fst h) hno
  · rw [answer, h]
    exact ⟨by simp, fun _ => hempty, by simp⟩

/-- **One call of `handle_readable`** on a connection that has room. -/
theorem inRange_handleReads (e : Readiness) (reads : List Delivery)
    (h : conn.total < 2048) : (handleReads e reads conn).InRange := by
  have hlen : 0 < 2048 - conn.total := by omega
  induction reads generalizing conn with
  | nil => exact ⟨by simp [handleReads], fun _ => h, by simpa [handleReads] using hlen⟩
  | cons d reads ih =>
      have hlast : ∀ {r : Except Fault Bool} {conn' : Connection} (result),
          r ≠ .error .panic → (r = .ok false → conn'.total < 2048) →
          Handled.InRange ⟨r, conn', [.read (2048 - conn.total) result]⟩ := by
        intro r conn' result hr htotal
        exact Handled.InRange.read (h := ⟨r, conn', []⟩) ⟨hr, htotal, by simp⟩ hlen result
      rcases hread : conn.socket.read (2048 - conn.total) d with ⟨kind | bytes, socket⟩
      · cases kind with
        | interrupted =>
            simp only [handleReads, hread]
            exact (ih h hlen).read hlen _
        | wouldBlock =>
            simp only [handleReads, hread]
            exact hlast _ (by simp) fun _ => h
        | writeZero | other =>
            simp only [handleReads, hread]
            exact hlast _ (by simp) fun hok => by cases hok
      · cases bytes with
        | nil =>
            simp only [handleReads, hread]
            exact hlast _ (by simp) fun hok => by cases hok
        | cons b bs =>
            rw [handleReads, hread]
            dsimp only
            split
            · exact (inRange_answer e _).read hlen _
            split
            · exact hlast _ (by simp) fun _ => Nat.zero_lt_succ 2047
            · next hroom =>
                have hlt := Nat.lt_of_not_le hroom
                exact (ih hlt (by omega)).read hlen _

end

/-! ### One event -/

/-- The buffer has room, if there is one; no panic. -/
def Slot.InRange : Slot → Prop
  | .vacant => True
  | .occupied conn => conn.total < 2048
  | .panicked => False

/-- An event of a connection that has room does not end the worker. -/
theorem inRange_serveEvent (e : Event) {conn : Connection} (h : conn.total < 2048) :
    (serveEvent e (.occupied conn)).1.InRange ∧
      ∀ len result, .read len result ∈ (serveEvent e (.occupied conn)).2 → 0 < len := by
  cases hreadable : e.readable with
  | false =>
      rw [serveEvent, hreadable]
      exact ⟨h, by simp⟩
  | true =>
      have hcall : (handleReadable e.toReadiness conn).InRange :=
        inRange_handleReads e.toReadiness e.reads h
      rw [serveEvent_trace hreadable]
      refine ⟨?_, hcall.reads⟩
      rcases hresult : (handleReadable e.toReadiness conn).result with (kind | _) | (_ | _)
      · simp only [serveEvent, hreadable, if_true, hresult, Slot.InRange]
      · exact absurd hresult hcall.result
      · simp only [serveEvent, hreadable, if_true, hresult, Slot.InRange]
        exact hcall.total hresult
      · simp only [serveEvent, hreadable, if_true, hresult, Slot.InRange]

/-- The peer neither. -/
theorem inRange_serve (a : Act) {conn : Connection} (h : conn.total < 2048) :
    (Worker.serve conn a).1.InRange ∧
      ∀ len result, .read len result ∈ (Worker.serve conn a).2 → 0 < len := by
  cases a with
  | send bytes => exact ⟨h, by simp [Worker.serve]⟩
  | shut => exact ⟨h, by simp [Worker.serve]⟩
  | event e => exact inRange_serveEvent e h

/-- An event for the listener that harms no one: the entries that were there are
kept, the others are vacant or new. -/
theorem acceptConnections_ok (hS : S.Laws) {sockets : List (Socket × Except ErrorKind Unit)}
    (hsockets : ∀ s ∈ sockets, s.2 = .ok ()) (connections : S.State) :
    ∃ connections', acceptConnections S sockets .wouldBlock connections = .ok connections' ∧
      ∀ key, S.get connections' key = S.get connections key ∨
        S.get connections key = none ∧
          ∃ socket, S.get connections' key = some (.accepted socket) := by
  induction sockets generalizing connections with
  | nil => exact ⟨connections, rfl, fun key => .inl rfl⟩
  | cons s sockets ih =>
      obtain ⟨socket, nodelay⟩ := s
      obtain rfl : nodelay = .ok () := hsockets _ (.head _)
      obtain ⟨connections', haccept, hkeys⟩ := ih (fun s hs => hsockets s (.tail _ hs))
        (S.insert connections (.accepted socket))
      refine ⟨connections', haccept, fun key => ?_⟩
      have hinsert := hS.get_insert connections (.accepted socket) key
      by_cases hkey : key = S.vacantKey connections
      · rw [if_pos hkey] at hinsert
        have hvacant : S.get connections key = none := hkey ▸ hS.get_vacantKey connections
        rcases hkeys key with hkept | ⟨hnone, -⟩
        · exact .inr ⟨hvacant, socket, hkept.trans hinsert⟩
        · exact absurd (hinsert.symm.trans hnone) (by simp)
      · rw [if_neg hkey] at hinsert
        rw [← hinsert]
        exact hkeys key

/-- Any other one fails. -/
theorem acceptConnections_error {sockets : List (Socket × Except ErrorKind Unit)} {last : ErrorKind}
    (h : ¬ ((∀ s ∈ sockets, s.2 = .ok ()) ∧ last = .wouldBlock)) (connections : S.State) :
    ∃ kind, acceptConnections S sockets last connections = .error kind := by
  induction sockets generalizing connections with
  | nil =>
      have hlast : last ≠ .wouldBlock := fun hlast => h ⟨by simp, hlast⟩
      exact ⟨last, if_neg hlast⟩
  | cons s sockets ih =>
      obtain ⟨socket, kind | ⟨⟩⟩ := s
      · exact ⟨kind, rfl⟩
      · refine ih (fun hrest => h ⟨fun s hs => ?_, hrest.2⟩) _
        rcases List.mem_cons.mp hs with rfl | hs
        · rfl
        · exact hrest.1 s hs

/-- The connection of a slot. -/
def Slot.connection : Slot → Option Connection
  | .occupied conn => some conn
  | .vacant | .panicked => none

/-- An event for a connection changes its entry, if there is one. -/
theorem get_step_connection (hS : S.Laws) {w w' : Worker S} {key : ℕ} {a : Act}
    (hstep : w.step (.connection key a) = some w') (key' : ℕ) :
    S.get w'.connections key' =
      if key' = key then (S.get w.connections key).bind fun conn =>
        (Worker.serve conn a).1.connection
      else S.get w.connections key' := by
  cases hget : S.get w.connections key with
  | none =>
      simp only [Worker.step, hget] at hstep
      obtain rfl := Option.some.inj hstep
      split
      · next hkey => rw [hkey, hget, Option.bind_none]
      · rfl
  | some conn =>
      simp only [Worker.step, hget, Worker.serve_sharing] at hstep
      rw [Option.bind_some]
      generalize Worker.serve conn a = served at hstep ⊢
      obtain ⟨slot, trace⟩ := served
      cases slot with
      | vacant =>
          obtain rfl := Option.some.inj hstep
          exact hS.get_tryRemove _ _ _
      | occupied conn' =>
          obtain rfl := Option.some.inj hstep
          exact hS.get_set _ _ _ _ (by rw [hget]; rfl)
      | panicked => cases hstep

/-- **What an event leaves alone**: every entry that it does not touch. -/
theorem get_step (hS : S.Laws) {w w' : Worker S} {e : WorkerEvent} (hstep : w.step e = some w')
    {key : ℕ} (hkey : ¬ e.Touches w key) :
    S.get w'.connections key = S.get w.connections key := by
  cases e with
  | connection key' a => exact (get_step_connection hS hstep key).trans (if_neg hkey)
  | pollFails kind =>
      rw [Worker.step] at hstep
      split at hstep
      · rw [Option.some.inj hstep]
      · cases hstep
  | server sockets last =>
      rw [Worker.step] at hstep
      by_cases hok : (∀ s ∈ sockets, s.2 = .ok ()) ∧ last = .wouldBlock
      · obtain ⟨hsockets, rfl⟩ := hok
        obtain ⟨connections, haccept, hkeys⟩ := acceptConnections_ok hS hsockets w.connections
        rw [haccept] at hstep
        obtain rfl := Option.some.inj hstep
        exact (hkeys key).resolve_right fun hvacant => hkey hvacant.1
      · obtain ⟨kind, herror⟩ := acceptConnections_error hok w.connections
        rw [herror] at hstep
        cases hstep

/-- An event for a connection, whatever its socket does, is handled. -/
theorem step_connection (hS : S.Laws) {w : Worker S} (h : w.InRange) (key : ℕ) (a : Act) :
    Unharmed (some w) (.connection key a) := by
  have hstep : ∃ w', w.step (.connection key a) = some w' := by
    cases hget : S.get w.connections key with
    | none => exact ⟨w, by rw [Worker.step, hget]⟩
    | some conn =>
        obtain ⟨hslot, -⟩ := inRange_serve a (h key conn hget)
        simp only [Worker.step, hget, Worker.serve_sharing]
        generalize Worker.serve conn a = served at hslot ⊢
        obtain ⟨_ | conn' | _, trace⟩ := served
        · exact ⟨_, rfl⟩
        · exact ⟨_, rfl⟩
        · exact hslot.elim
  obtain ⟨w', hstep⟩ := hstep
  refine ⟨w, w', rfl, fun len result hread => ?_, hstep, fun key' conn' hget' => ?_,
    fun key' hkey => get_step hS hstep hkey⟩
  · rw [Worker.ios] at hread
    cases hget : S.get w.connections key with
    | none =>
        rw [hget] at hread
        cases hread
    | some conn =>
        simp only [hget, Worker.serve_sharing] at hread
        exact (inRange_serve a (h key conn hget)).2 len result hread
  · rw [get_step_connection hS hstep] at hget'
    split at hget'
    · obtain ⟨conn, hget, hslot⟩ := Option.bind_eq_some_iff.mp hget'
      have hroom := (inRange_serve a (h key conn hget)).1
      generalize (Worker.serve conn a).1 = slot at hslot hroom
      cases slot with
      | occupied conn'' =>
          obtain rfl := Option.some.inj hslot
          exact hroom
      | _ => cases hslot
    · exact h key' conn' hget'

/-- **Which events harm no one.** -/
theorem step_unharmed_iff (hS : S.Laws) {w : Worker S} (h : w.InRange) (e : WorkerEvent) :
    Unharmed (some w) e ↔ e.Harmless := by
  cases e with
  | connection key a => exact iff_of_true (step_connection hS h key a) trivial
  | pollFails kind =>
      constructor
      · rintro ⟨w₀, w₁, -, -, hstep, -⟩
        by_contra hkind
        have hgone : w₀.step (.pollFails kind) = none := if_neg hkind
        cases hgone.symm.trans hstep
      · intro hkind
        exact ⟨w, w, rfl, by simp [Worker.ios], if_pos hkind, h, fun _ _ => rfl⟩
  | server sockets last =>
      constructor
      · rintro ⟨w₀, w₁, -, -, hstep, -⟩
        by_contra hharm
        obtain ⟨kind, herror⟩ := acceptConnections_error hharm w₀.connections
        rw [Worker.step, herror] at hstep
        cases hstep
      · rintro ⟨hsockets, rfl⟩
        obtain ⟨connections, haccept, hkeys⟩ := acceptConnections_ok hS hsockets w.connections
        have hstep : w.step (.server sockets .wouldBlock) = some { w with connections } := by
          rw [Worker.step, haccept]
        refine ⟨w, _, rfl, by simp [Worker.ios], hstep, fun key conn hget => ?_,
          fun key hkey => get_step hS hstep hkey⟩
        rcases hkeys key with hkept | ⟨-, socket, hnew⟩
        · exact h key conn (hkept.symm.trans hget)
        · obtain rfl := Option.some.inj (hnew.symm.trans hget)
          exact Nat.zero_lt_succ 2047

/-! ### Runs -/

theorem inRange_start (hS : S.Laws) : (Worker.start : Worker S).InRange := by
  intro key conn hget
  cases (hS.get_new key).symm.trans hget

theorem eachStep_unharmed_iff (hS : S.Laws) {w : Worker S} (h : w.InRange)
    (events : List WorkerEvent) :
    Runs.EachStep Worker.next Unharmed events (some w) ↔ ∀ e ∈ events, e.Harmless := by
  induction events generalizing w with
  | nil => exact iff_of_true Runs.eachStep_nil (by simp)
  | cons e events ih =>
      rw [Runs.eachStep_cons, List.forall_mem_cons, step_unharmed_iff hS h]
      refine and_congr_right fun he => ?_
      obtain ⟨w₀, w', hw, -, hstep, hroom, -⟩ := (step_unharmed_iff hS h e).mpr he
      obtain rfl := Option.some.inj hw
      have hnext : Worker.next (some w) e = some w' := hstep
      rw [hnext]
      exact ih hroom

/-- **When one peer cannot hurt the others.**  Whatever the sockets of the
connections do, no event of a run harms anyone, exactly if every `accept` would
block or returns a socket on which `set_nodelay` succeeds, and `poll` is at most
interrupted. -/
theorem unharmed_iff (hS : S.Laws) (events : List WorkerEvent) :
    Runs.EachStep Worker.next Unharmed events (some (Worker.start : Worker S)) ↔
      ∀ e ∈ events, e.Harmless :=
  eachStep_unharmed_iff hS (inRange_start hS) events

/-- A peer that has sent nothing yet. -/
def peer : Socket := ⟨[], false, []⟩

/-- Three peers.  A read from the first one fails, and the third one gets its key;
a response to the second one fails. -/
def crowd : List WorkerEvent :=
  [.server [(peer, .ok ()), (peer, .ok ())] .wouldBlock,
    .connection 1 (.send terminator),
    .connection 0 (.event
      { reads := [.fails .other], t1 := 1, t2 := 2, writes := []
        readable := true, writable := false }),
    .pollFails .interrupted,
    .server [(peer, .ok ())] .wouldBlock,
    .connection 1 (.event
      { reads := [.arrived 4], t1 := 3, t2 := 4, writes := [.accepts 7, .fails .other]
        readable := true, writable := true })]

theorem unharmed_crowd : Runs.EachStep Worker.next Unharmed crowd
    (some (Worker.start : Worker (Slab.freeList Connection))) :=
  (unharmed_iff (Slab.freeList_laws Connection) crowd).mpr (by simp [crowd, WorkerEvent.Harmless])

/-- One peer is served.  Another one is gone before it is accepted, or before
`set_nodelay`, and the worker ends with both. -/
theorem harmed_by_accept :
    let served : WorkerEvent := .server [(peer, .ok ())] .wouldBlock
    let aborted : WorkerEvent := .server [] .other
    let delayed : WorkerEvent := .server [(peer, .error .other)] .wouldBlock
    let start : Option (Worker (Slab.freeList Connection)) := some .start
    ((Worker.run start [served]).bind fun w =>
        (Slab.freeList Connection).get w.connections 0).isSome ∧
      (Worker.run start [served, aborted]).isNone ∧ (Worker.run start [served, delayed]).isNone ∧
      ¬ Runs.EachStep Worker.next Unharmed [served, aborted] start ∧
      ¬ Runs.EachStep Worker.next Unharmed [served, delayed] start := by
  have hS := Slab.freeList_laws Connection
  refine ⟨rfl, rfl, rfl, fun h => ?_, fun h => ?_⟩
  · have hharmless := (eachStep_unharmed_iff hS (inRange_start hS) _).mp h
    simp [WorkerEvent.Harmless] at hharmless
  · have hharmless := (eachStep_unharmed_iff hS (inRange_start hS) _).mp h
    simp [WorkerEvent.Harmless] at hharmless

end Timesync

end Lockinspiel
