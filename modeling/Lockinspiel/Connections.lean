/-
Lockinspiel/Connections.lean

The connections of a timesync worker do not notice each other.

A worker hands out the keys of its slab again and formats all responses in one
buffer, and `poll` brings the events of its connections in any order.  Here the
worker is run with a record of every connection that it has accepted: what has
happened to it since, and the bytes the worker has written to it.  Every one of
them is what these acts alone make of it (`connections_alone`), so what holds of
a single connection holds of all connections of a worker; for instance, they all
get complete responses as long as no socket blocks in the middle of one
(`complete_streams`).
-/
import Mathlib.Logic.Function.Basic
import Lockinspiel.Worker

namespace Lockinspiel

namespace Timesync

open Framing

/-! ### The record of a worker -/

/-- A connection that was accepted: the socket, what has happened to the
connection, and the bytes that were written to it. -/
structure Peer where
  socket : Socket
  acts : List Act
  stream : List UInt8

/-- The connection with nobody else, after the same acts. -/
def Peer.alone (p : Peer) : Wire := p.acts.foldl Wire.step ⟨.occupied (.accepted p.socket), []⟩

/-- The connections that have had a key so far, the last one first. -/
abbrev Peers := ℕ → List Peer

variable (S : Slab Connection)

/-- The record of `acceptConnections`. -/
def acceptPeers : List (Socket × Except ErrorKind Unit) → S.State → Peers → Peers
  | (socket, .ok ()) :: sockets, connections, peers =>
      let key := S.vacantKey connections
      acceptPeers sockets (S.insert connections (.accepted socket))
        (Function.update peers key (⟨socket, [], []⟩ :: peers key))
  | (_, .error _) :: _, _, peers | [], _, peers => peers

variable {S}

/-- The record of an event.  An event for a stale token is nobody's. -/
def Peers.step (w : Worker S) (peers : Peers) : WorkerEvent → Peers
  | .pollFails _ => peers
  | .server sockets _ => acceptPeers S sockets w.connections peers
  | .connection key a =>
      match S.get w.connections key, peers key with
      | some _, p :: ps =>
          let written := (w.ios (.connection key a)).flatMap Io.accepted
          Function.update peers key (⟨p.socket, p.acts ++ [a], p.stream ++ written⟩ :: ps)
      | _, _ => peers

theorem Peers.step_connection (w : Worker S) (peers : Peers) (key : ℕ) (a : Act) :
    peers.step w (.connection key a) = peers ∨
    ∃ p ps stream, peers key = p :: ps ∧ peers.step w (.connection key a) =
      Function.update peers key (⟨p.socket, p.acts ++ [a], stream⟩ :: ps) := by
  rw [Peers.step]
  split
  · rename_i p ps _ hpeers
    exact .inr ⟨p, ps, _, hpeers, rfl⟩
  · exact .inl rfl

/-- One event, of a worker with its record. -/
def recordNext (s : Option (Worker S × Peers)) (e : WorkerEvent) : Option (Worker S × Peers) :=
  s.bind fun (w, peers) => (w.step e).map fun w' => (w', peers.step w e)

/-- A worker from its start, with its record. -/
def record (events : List WorkerEvent) : Option (Worker S × Peers) :=
  events.foldl recordNext (some (.start, fun _ => []))

/-- The record changes nothing. -/
theorem map_fst_record (events : List WorkerEvent) :
    (record events : Option (Worker S × Peers)).map Prod.fst = Worker.run (some .start) events := by
  suffices hrun : ∀ s : Option (Worker S × Peers),
      (events.foldl recordNext s).map Prod.fst = Worker.run (s.map Prod.fst) events from hrun _
  induction events with
  | nil => exact fun _ => rfl
  | cons e events ih =>
      intro s
      have hnext : (recordNext s e).map Prod.fst = Worker.next (s.map Prod.fst) e := by
        cases s with
        | none => rfl
        | some s =>
            show ((s.1.step e).map _).map _ = s.1.step e
            rw [Option.map_map]
            exact Option.map_id'
      exact (ih _).trans (by rw [hnext]; rfl)

/-- The record of one event more. -/
theorem record_concat {events : List WorkerEvent} {e : WorkerEvent} {w : Worker S} {peers : Peers}
    (h : record (events ++ [e]) = some (w, peers)) :
    ∃ w₀ peers₀, record events = some (w₀, peers₀) ∧ w₀.step e = some w ∧
      peers = peers₀.step w₀ e := by
  have hrecord : record (events ++ [e]) = recordNext (record (S := S) events) e :=
    List.foldl_concat ..
  rw [hrecord] at h
  obtain ⟨⟨w₀, peers₀⟩, hbefore, h⟩ := Option.bind_eq_some_iff.mp h
  obtain ⟨w', hstep, heq⟩ := Option.map_eq_some_iff.mp h
  obtain ⟨rfl, rfl⟩ := Prod.mk.inj heq
  exact ⟨w₀, peers₀, hbefore, hstep, rfl⟩

/-! ### Every connection alone -/

/-- The entry of a key belongs to the last connection that has had it, the
earlier ones are closed, and what was written to each is what is written to it
alone. -/
structure Apart (connections : S.State) (peers : Peers) : Prop where
  entry : ∀ key, S.get connections key = (peers key).head?.bind fun p => p.alone.slot.connection
  closed : ∀ key, ∀ p ∈ (peers key).tail, ¬ p.alone.slot.IsOpen
  stream : ∀ key, ∀ p ∈ peers key, p.stream = p.alone.stream

theorem Slot.connection_eq_some {slot : Slot} {conn : Connection} :
    slot.connection = some conn ↔ slot = .occupied conn := by
  cases slot <;> simp [Slot.connection]

theorem Slot.connection_eq_none {slot : Slot} : slot.connection = none ↔ ¬ slot.IsOpen := by
  cases slot <;> simp [Slot.connection, Slot.IsOpen]

/-- What an act does to an open connection. -/
theorem Wire.step_occupied (conn : Connection) (stream : List UInt8) (a : Act) :
    Wire.step ⟨.occupied conn, stream⟩ a =
      ⟨(Worker.serve conn a).1, stream ++ (Worker.serve conn a).2.flatMap Io.accepted⟩ := by
  cases a with
  | send bytes => exact congrArg _ (List.append_nil stream).symm
  | shut => exact congrArg _ (List.append_nil stream).symm
  | event e => rfl

section

variable {connections : S.State} {peers : Peers}

/-- Nobody who has had a vacant key is connected. -/
theorem Apart.closed_of_vacant (h : Apart connections peers) {key : ℕ}
    (hkey : S.get connections key = none) : ∀ p ∈ peers key, ¬ p.alone.slot.IsOpen := by
  have hentry := h.entry key
  have hclosed := h.closed key
  rw [hkey] at hentry
  cases hpeers : peers key with
  | nil => exact fun _ hp => absurd hp List.not_mem_nil
  | cons p ps =>
      rw [hpeers] at hentry hclosed
      exact List.forall_mem_cons.mpr ⟨Slot.connection_eq_none.mp hentry.symm, hclosed⟩

/-- A connection is accepted. -/
theorem Apart.insert (hS : S.Laws) (h : Apart connections peers) (socket : Socket) :
    Apart (S.insert connections (.accepted socket))
      (Function.update peers (S.vacantKey connections)
        (⟨socket, [], []⟩ :: peers (S.vacantKey connections))) := by
  refine ⟨fun key => ?_, fun key => ?_, fun key => ?_⟩ <;>
    by_cases hkey : key = S.vacantKey connections
  · subst hkey
    rw [hS.get_insert, if_pos rfl, Function.update_self]
    rfl
  · rw [hS.get_insert, if_neg hkey, Function.update_of_ne hkey]
    exact h.entry key
  · subst hkey
    rw [Function.update_self]
    exact h.closed_of_vacant (hS.get_vacantKey connections)
  · rw [Function.update_of_ne hkey]
    exact h.closed key
  · subst hkey
    rw [Function.update_self]
    exact List.forall_mem_cons.mpr ⟨rfl, h.stream _⟩
  · rw [Function.update_of_ne hkey]
    exact h.stream key

theorem Apart.accept (hS : S.Laws) {sockets : List (Socket × Except ErrorKind Unit)}
    {last : ErrorKind} {connections' : S.State} (h : Apart connections peers)
    (haccept : acceptConnections S sockets last connections = .ok connections') :
    Apart connections' (acceptPeers S sockets connections peers) := by
  induction sockets generalizing connections peers with
  | nil =>
      rw [acceptConnections] at haccept
      split at haccept
      · obtain rfl := Except.ok.inj haccept
        exact h
      · cases haccept
  | cons s sockets ih =>
      obtain ⟨socket, kind | ⟨⟩⟩ := s
      · cases haccept
      · exact ih (h.insert hS socket) haccept

/-- Something happens to the connection that has a key. -/
theorem Apart.serve (hS : S.Laws) {w w' : Worker S} (h : Apart w.connections peers) {key : ℕ}
    {a : Act} (hstep : w.step (.connection key a) = some w') :
    Apart w'.connections (peers.step w (.connection key a)) := by
  have hentries := get_step_connection hS hstep
  cases hget : S.get w.connections key with
  | none =>
      rw [Worker.step, hget] at hstep
      obtain rfl := Option.some.inj hstep
      rw [Peers.step, hget]
      exact h
  | some conn =>
      -- the connection is the last one that has had the key
      have hentry := h.entry key
      have hclosed := h.closed key
      have hstream := h.stream key
      rw [hget] at hentry
      obtain ⟨p, hhead, hp⟩ := Option.bind_eq_some_iff.mp hentry.symm
      obtain ⟨ps, hpeers⟩ := List.head?_eq_some_iff.mp hhead
      rw [hpeers] at hclosed hstream
      obtain ⟨hown, hothers⟩ := List.forall_mem_cons.mp hstream
      let p' : Peer := ⟨p.socket, p.acts ++ [a],
        p.stream ++ (Worker.serve conn a).2.flatMap Io.accepted⟩
      have halone : p'.alone = ⟨(Worker.serve conn a).1,
          p.alone.stream ++ (Worker.serve conn a).2.flatMap Io.accepted⟩ := by
        have hoccupied : p.alone = ⟨.occupied conn, p.alone.stream⟩ := by
          rw [← Slot.connection_eq_some.mp hp]
        rw [← Wire.step_occupied, ← hoccupied]
        exact List.foldl_concat ..
      have hrecord : peers.step w (.connection key a) = Function.update peers key (p' :: ps) := by
        rw [Peers.step, hget, hpeers, Worker.ios, hget]
        dsimp only
        rw [Worker.serve_sharing]
      rw [hrecord]
      refine ⟨fun key' => ?_, fun key' => ?_, fun key' => ?_⟩ <;> by_cases hkey : key' = key
      · subst hkey
        rw [hentries, if_pos rfl, hget, Function.update_self, List.head?_cons, Option.bind_some,
          Option.bind_some, halone]
      · rw [hentries, if_neg hkey, Function.update_of_ne hkey]
        exact h.entry key'
      · subst hkey
        rw [Function.update_self]
        exact hclosed
      · rw [Function.update_of_ne hkey]
        exact h.closed key'
      · subst hkey
        rw [Function.update_self]
        refine List.forall_mem_cons.mpr ⟨?_, hothers⟩
        rw [halone, ← hown]
      · rw [Function.update_of_ne hkey]
        exact h.stream key'

/-- **One event** leaves the connections apart. -/
theorem Apart.step (hS : S.Laws) {w w' : Worker S} (h : Apart w.connections peers)
    {e : WorkerEvent} (hstep : w.step e = some w') : Apart w'.connections (peers.step w e) := by
  cases e with
  | pollFails kind =>
      rw [Worker.step] at hstep
      split at hstep
      · obtain rfl := Option.some.inj hstep
        exact h
      · cases hstep
  | server sockets last =>
      rw [Worker.step] at hstep
      cases haccept : acceptConnections S sockets last w.connections with
      | error kind =>
          rw [haccept] at hstep
          cases hstep
      | ok connections' =>
          rw [haccept] at hstep
          obtain rfl := Option.some.inj hstep
          exact h.accept hS haccept
  | connection key a => exact h.serve hS hstep

end

theorem apart_record (hS : S.Laws) (events : List WorkerEvent) {w : Worker S} {peers : Peers}
    (h : record events = some (w, peers)) : Apart w.connections peers := by
  induction events using List.reverseRecOn generalizing w peers with
  | nil =>
      obtain ⟨rfl, rfl⟩ := Prod.mk.inj (Option.some.inj h)
      exact ⟨hS.get_new, fun _ _ hp => absurd hp List.not_mem_nil,
        fun _ _ hp => absurd hp List.not_mem_nil⟩
  | append_singleton events e ih =>
      obtain ⟨w₀, peers₀, hbefore, hstep, rfl⟩ := record_concat h
      exact (ih hbefore).step hS hstep

/-- **The connections of a worker are served as if each were alone.**  Whatever
comes to the worker, in whatever order and for whatever keys: as long as it
lives, the entry of a key is what the acts of its connection alone make of it,
and to every connection that it has ever accepted it has written what these acts
alone make it write. -/
theorem connections_alone (hS : S.Laws) (events : List WorkerEvent) :
    (record events).map Prod.fst = Worker.run (some (.start : Worker S)) events ∧
      ∀ w peers, record events = some (w, peers) → Apart (S := S) w.connections peers :=
  ⟨map_fst_record events, fun _ _ => apart_record hS events⟩

/-- The first peer of the crowd has failed, and the third one has got its key;
the second one has got a part of its response. -/
theorem connections_alone_crowd :
    let crowded : Option (Worker (Slab.freeList Connection) × Peers) := record crowd
    (∀ w peers, crowded = some (w, peers) → Apart (S := Slab.freeList Connection)
      w.connections peers) ∧
    crowded.map (fun s => (s.2 0).map fun p => p.acts.length) = some [0, 1] ∧
    crowded.map (fun s => (s.2 1).map Peer.stream) =
      some [(responseSlices 3 4).flatten.take 7] := by
  refine ⟨(connections_alone (Slab.freeList_laws Connection) crowd).2, ?_, ?_⟩ <;> decide +kernel

/-! ### What all connections get -/

/-- What happens to the connections of a key. -/
def own (key : ℕ) (events : List WorkerEvent) : List Act :=
  events.filterMap fun
    | .connection key' a => if key' = key then some a else none
    | _ => none

theorem flatMap_acceptPeers (sockets : List (Socket × Except ErrorKind Unit))
    (connections : S.State) (peers : Peers) (key : ℕ) :
    (acceptPeers S sockets connections peers key).reverse.flatMap Peer.acts =
      (peers key).reverse.flatMap Peer.acts := by
  induction sockets generalizing connections peers with
  | nil => rfl
  | cons s sockets ih =>
      obtain ⟨socket, kind | ⟨⟩⟩ := s
      · rfl
      · refine (ih _ _).trans ?_
        by_cases hkey : key = S.vacantKey connections
        · subst hkey
          simp
        · rw [Function.update_of_ne hkey]

theorem own_connection (key : ℕ) (a : Act) : own key [.connection key a] = [a] := by
  simp [own]

theorem mem_own {key : ℕ} {events : List WorkerEvent} {a : Act} (h : a ∈ own key events) :
    .connection key a ∈ events := by
  obtain ⟨e, he, hown⟩ := List.mem_filterMap.mp h
  cases e with
  | pollFails kind => cases hown
  | server sockets last => cases hown
  | connection key' a' =>
      dsimp only at hown
      split at hown
      · next hkey =>
          obtain rfl := Option.some.inj hown
          rwa [hkey] at he
      · cases hown

/-- What has happened to the connections that have had a key are events for this
key, in their order. -/
theorem acts_sublist (events : List WorkerEvent) {w : Worker S} {peers : Peers}
    (h : record events = some (w, peers)) (key : ℕ) :
    ((peers key).reverse.flatMap Peer.acts).Sublist (own key events) := by
  induction events using List.reverseRecOn generalizing w peers with
  | nil =>
      obtain ⟨-, rfl⟩ := Prod.mk.inj (Option.some.inj h)
      exact List.Sublist.refl _
  | append_singleton events e ih =>
      obtain ⟨w₀, peers₀, hbefore, -, rfl⟩ := record_concat h
      have hown : own key (events ++ [e]) = own key events ++ own key [e] :=
        List.filterMap_append
      have hkept : ((peers₀ key).reverse.flatMap Peer.acts).Sublist (own key (events ++ [e])) := by
        rw [hown]
        exact (ih hbefore).trans (List.sublist_append_left _ _)
      cases e with
      | pollFails kind => exact hkept
      | server sockets last =>
          rw [Peers.step, flatMap_acceptPeers]
          exact hkept
      | connection key' a =>
          obtain hstale | ⟨p, ps, stream, hpeers, hserved⟩ := Peers.step_connection w₀ peers₀ key' a
          · rw [hstale]
            exact hkept
          rw [hserved]
          by_cases hkey : key = key'
          · subst hkey
            have hbefore' := ih hbefore
            rw [hpeers] at hbefore'
            rw [Function.update_self, hown, own_connection]
            simp only [List.reverse_cons, List.flatMap_append, List.flatMap_cons,
              List.flatMap_nil, List.append_nil] at hbefore' ⊢
            rw [← List.append_assoc]
            exact hbefore'.append (List.Sublist.refl _)
          · rw [Function.update_of_ne hkey]
            exact hkept

/-- **All connections get complete responses**, as long as no socket blocks in
the middle of one. -/
theorem complete_streams (hS : S.Laws) (events : List WorkerEvent)
    (hcut : ∀ key e, .connection key (.event e) ∈ events → ¬ e.CutShort) {w : Worker S}
    {peers : Peers} (h : record events = some (w, peers)) {key : ℕ} {conn : Connection}
    (hget : S.get w.connections key = some conn) :
    ∃ p ps, peers key = p :: ps ∧ IsStream IsResponse p.stream := by
  have hapart := apart_record hS events h
  have hentry := hapart.entry key
  rw [hget] at hentry
  obtain ⟨p, hhead, hp⟩ := Option.bind_eq_some_iff.mp hentry.symm
  obtain ⟨ps, hpeers⟩ := List.head?_eq_some_iff.mp hhead
  have hmem : p ∈ peers key := by
    rw [hpeers]
    exact List.mem_cons_self
  refine ⟨p, ps, hpeers, ?_⟩
  rw [hapart.stream key p hmem]
  have hacts : ∀ a ∈ p.acts, ∀ s : Wire, ¬ s.CutShort a := by
    intro a ha s hs
    have hown : a ∈ own key events := by
      refine (acts_sublist events h key).subset ?_
      exact List.mem_flatMap.mpr ⟨p, List.mem_reverse.mpr hmem, ha⟩
    cases a with
    | send bytes | shut => exact hs
    | event e =>
        obtain ⟨-, -, -, -, hshort⟩ := hs
        exact hcut key e (mem_own hown) hshort
  have hwhole : ∀ (acts : List Act) (s : Wire), (∀ a ∈ acts, ∀ s : Wire, ¬ s.CutShort a) →
      s.Whole → (acts.foldl Wire.step s).Whole := by
    intro acts
    induction acts with
    | nil => exact fun s _ hs => hs
    | cons a acts ih =>
        intro s hacts hs
        obtain ⟨ha, hacts⟩ := List.forall_mem_cons.mp hacts
        exact ih _ hacts ((Wire.whole_step s a hs).mpr (ha s))
  exact hwhole p.acts _ hacts (fun _ => .nil) ⟨conn, Slot.connection_eq_some.mp hp⟩

/-- Two peers, and one of them sends a request, which is answered in two parts. -/
def pair : List WorkerEvent :=
  [.server [(peer, .ok ()), (peer, .ok ())] .wouldBlock,
    .connection 1 (.send terminator),
    .connection 1 (.event
      { reads := [.arrived 4], t1 := 1, t2 := 2, writes := [.accepts 7, .fails .interrupted]
        readable := true, writable := true })]

theorem isSome_record_pair :
    (record pair : Option (Worker (Slab.freeList Connection) × Peers)).isSome := by
  decide +kernel

theorem complete_streams_pair :
    let s : Worker (Slab.freeList Connection) × Peers := (record pair).get isSome_record_pair
    ∃ p ps, s.2 1 = p :: ps ∧ IsStream IsResponse p.stream := by
  intro s
  have hopen : ((Slab.freeList Connection).get s.1.connections 1).isSome := by decide +kernel
  refine complete_streams (Slab.freeList_laws Connection) pair ?_
    (Option.some_get isSome_record_pair).symm (Option.some_get hopen).symm
  intro key e he
  simp only [pair, List.mem_cons, WorkerEvent.connection.injEq, Act.event.injEq, reduceCtorEq,
    and_false, List.not_mem_nil, or_false, false_or] at he
  obtain ⟨-, rfl⟩ := he
  -- the calls never block
  rintro ⟨n, -, -, hblocks⟩
  cases hblocks with
  | accepts _ h =>
      cases h with
      | interrupted h => cases h

end Timesync

end Lockinspiel
