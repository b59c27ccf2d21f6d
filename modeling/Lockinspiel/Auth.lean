/-
Lockinspiel/Auth.lean

The login of a request on a pooled connection, and the session it leaves.

A connection of the pool keeps two settings from one request to the next:
its role (`SET ROLE`) and `app.current_user_id` (`set_config(.., false)`).
`DatabaseConnection::from_request_parts` sets both anew for every request, in
separate statements, each of which may fail and then leaves the session as it
was.  The statements of the handler run in the session the login left; none
of them changes it.

The decoding of the JWT is a parameter, and the header enters as what the
typed header extractor makes of it.

Main result: `no_identity_leak`.  Whatever the requests before left on the
connection, a login that returns `Ok` leaves exactly the role and the user id
of the current request, so every statement of its handler sees its subject.
-/
import Lockinspiel.Lib.Program
import Lockinspiel.Lib.Rows

namespace Lockinspiel

open Effects Sql

abbrev Uuid := BitVec 128

/-- `Uuid::nil`, the owner of the default rows. -/
def Uuid.nil : Uuid := 0

/-! ### Roles and sessions -/

/-- The database roles: the login user of the service, which owns its tables,
and the three roles a request goes through. -/
inductive Role
  | service | authenticator | authenticated | anon
deriving DecidableEq

/-- `GRANT .. TO ..`: is the first role a member of the second? -/
def Role.member : Role → Role → Bool
  | .service, _ => true
  | .authenticated, .anon => true
  | r, r' => r == r'

/-- The settings a connection keeps. -/
structure Session where
  role : Role
  /-- The setting `app.current_user_id`, once it has been set. -/
  currentUserId : Option Uuid
deriving DecidableEq

namespace Session

/-- `timekeeper.uid()`. -/
def timekeeperUid (s : Session) : Option Uuid := s.currentUserId

/-- `"user".uid()`. -/
def userUid (s : Session) : Option Uuid := s.currentUserId

end Session

/-- The statements of a login. -/
inductive SessionStmt
  | setRole (role : Role)
  | selectSetUid (uid : Uuid)

def sessionSig : Sig where
  Op := SessionStmt
  Res := fun _ => Except SqlError Unit

/-- A login statement on the session; `fails` says that it fails. -/
def sessionExec (fails : Bool) (st : sessionSig.Op) (s : Session) :
    Except SqlError Unit × Session :=
  if fails then (.error .connectionLost, s)
  else
    match st with
    | .setRole role => (.ok (), { s with role := role })
    | .selectSetUid uid => (.ok (), { s with currentUserId := some uid })

/-! ### The login -/

structure Identity where
  email : String
deriving DecidableEq

/-- The claims of a JWT. -/
structure UserClaims where
  identity : Identity
  sid : Uuid
  sub : Uuid
deriving DecidableEq

/-- The `Authorization` header of a request: missing, not a bearer token, or
a token. -/
inductive Authorization
  | absent
  | malformed
  | bearer (token : String)

inductive ErrorKind
  | dbConnectionError
  | ioError
  | parseHeader
  | dieselError (source : SqlError)
  | jwtError (source : String)

/-- `error::Error<ErrorKind, EyreError>`. -/
structure LoginError where
  msg : Option String
  source : ErrorKind

inductive StatusCode
  | unauthorized
  | notFound
  | unprocessableEntity
  | internalServerError
deriving DecidableEq

/-- `AsStatusCode for ErrorKind`. -/
def ErrorKind.statusCode : ErrorKind → StatusCode
  | .dbConnectionError => .internalServerError
  | .ioError => .internalServerError
  | .parseHeader => .internalServerError
  | .dieselError _ => .internalServerError
  | .jwtError _ => .unauthorized

/-- A login in progress: it ends with a value or with a `LoginError`. -/
abbrev Login (α : Type) := ExceptT LoginError (Program sessionSig) α

/-- The connection a handler gets, with the user it was logged in as. -/
structure DatabaseConnection where
  user : Option UserClaims

/-- `.execute(..)` of a login statement, and `.with_reason(..)`. -/
def execute (st : SessionStmt) (reason : String) : Login Unit :=
  .mk <| .call st fun r => .done (r.mapError fun e => ⟨some reason, .dieselError e⟩)

namespace DatabaseConnection

/-- `DatabaseConnection::new`. -/
def new : Login DatabaseConnection := do
  execute (.setRole .authenticator) "Failed to switch into authenticator role"
  return { user := none }

/-- `DatabaseConnection::set_uid`. -/
def setUid (user : Option UserClaims) : Login DatabaseConnection := do
  match user with
  | some user =>
      execute (.setRole .authenticated) "Failed to switch into authenticated role"
      execute (.selectSetUid user.sub) "Failed to pass user ID to database"
  | none =>
      execute (.setRole .anon) "Failed to switch into anon role"
      execute (.selectSetUid Uuid.nil) "Failed to unset user ID in database"
  return { user := user }

/-- `DatabaseConnection::login_user_with_access_token`. -/
def loginUserWithAccessToken (decode : String → Except String UserClaims)
    (token : String) : Login DatabaseConnection := do
  match decode token with
  | .ok claims => setUid (some claims)
  | .error e => throw ⟨some "Failed to decode JWT token", .jwtError e⟩

/-- `DatabaseConnection::login_as_anon`. -/
def loginAsAnon : Login DatabaseConnection := setUid none

/-- `DatabaseConnection::from_request_parts`; `pooled` says whether the pool
handed out a connection. -/
def fromRequestParts (decode : String → Except String UserClaims) (pooled : Bool)
    (header : Authorization) : Login DatabaseConnection := do
  if !pooled then throw ⟨none, .dbConnectionError⟩
  let _ ← new
  match header with
  | .malformed => throw ⟨some "Failed to decode bearer auth header", .parseHeader⟩
  | .bearer token => loginUserWithAccessToken decode token
  | .absent => loginAsAnon

/-- The user id the database sees for a connection. -/
def subject (db : DatabaseConnection) : Uuid := db.user.elim Uuid.nil UserClaims.sub

end DatabaseConnection

/-! ### Requests on one connection -/

/-- A request as the login sees it: whether it got a connection, its header,
and which statements of its login fail. -/
structure LoginRequest where
  pooled : Bool
  header : Authorization
  fails : ℕ → Bool

variable (decode : String → Except String UserClaims)

/-- The login of one request, from the session that is left on the
connection. -/
def login (r : LoginRequest) (s : Session) :
    Except LoginError DatabaseConnection × Session :=
  Program.run sessionExec r.fails
    (DatabaseConnection.fromRequestParts decode r.pooled r.header) s

variable {S : Sig} {σ κ : Type}

/-- A handler statement on the connection: it reads the settings of the
session, and leaves them as they are. -/
def onConnection (exec : Session → κ → (op : S.Op) → σ → S.Res op × σ) (c : κ) (op : S.Op)
    (st : Session × σ) : S.Res op × (Session × σ) :=
  ((exec st.1 c op st.2).1, st.1, (exec st.1 c op st.2).2)

/-- A request that is served on a connection: its login, then the statements
of its handler over some store. -/
structure Visit (S : Sig) (κ : Type) where
  login : LoginRequest
  handler : DatabaseConnection → Program S Unit
  choices : ℕ → κ

variable (exec : Session → κ → (op : S.Op) → σ → S.Res op × σ)

/-- Serve one request.  The handler runs only if the login returned `Ok`. -/
def serve (st : Session × σ) (v : Visit S κ) : Session × σ :=
  match login decode v.login st.1 with
  | (.ok db, s) => (Program.run (onConnection exec) v.choices (v.handler db) (s, st.2)).2
  | (.error _, s) => (s, st.2)

/-- The statements of the handler of one request, each with the session and
the store it is run in. -/
def handlerStatements (st : Session × σ) (v : Visit S κ) : List (S.Op × (Session × σ)) :=
  match login decode v.login st.1 with
  | (.ok db, s) => Program.asked (onConnection exec) v.choices (v.handler db) (s, st.2)
  | (.error _, _) => []

/-- The session and the user of a request, as its header says. -/
def Identified (header : Authorization) (db : DatabaseConnection) (s : Session) : Prop :=
  match header with
  | .absent => db.user = none ∧ s = ⟨.anon, some Uuid.nil⟩
  | .malformed => False
  | .bearer token => ∃ claims, decode token = .ok claims ∧ db.user = some claims ∧
      s = ⟨.authenticated, some claims.sub⟩

variable {decode exec}

/-- The settings of an identified session are those of the user. -/
theorem Identified.session_eq {header : Authorization} {db : DatabaseConnection}
    {s : Session} (h : Identified decode header db s) :
    s = ⟨if db.user.isSome then .authenticated else .anon, some db.subject⟩ := by
  cases header with
  | absent =>
      obtain ⟨hu, rfl⟩ := h
      simp [DatabaseConnection.subject, hu]
  | malformed => exact h.elim
  | bearer token =>
      obtain ⟨claims, -, hu, rfl⟩ := h
      simp [DatabaseConnection.subject, hu]

/-- A login statement goes through, or it fails and changes nothing. -/
theorem run_execute_bind {α : Type} (st : SessionStmt) (reason : String)
    (f : Unit → Login α) (c : ℕ → Bool) (s : Session) :
    Program.run sessionExec c (execute st reason >>= f : Login α) s =
      if c 0 then (.error ⟨some reason, .dieselError .connectionLost⟩, s)
      else Program.run sessionExec (fun n => c (n + 1)) (f ()) (sessionExec false st s).2 := by
  change Program.run sessionExec (fun n => c (n + 1))
    (ExceptT.bindCont f ((sessionExec (c 0) st s).1.mapError _)) (sessionExec (c 0) st s).2 = _
  cases c 0 with
  | true => rfl
  | false => cases st <;> rfl

/-- `set_uid` overwrites both settings, or returns an error. -/
theorem run_setUid (user : Option UserClaims) (c : ℕ → Bool) (s : Session) :
    (∃ e s', Program.run sessionExec c (DatabaseConnection.setUid user) s = (.error e, s')) ∨
    Program.run sessionExec c (DatabaseConnection.setUid user) s =
      (.ok ⟨user⟩, ⟨if user.isSome then .authenticated else .anon,
        some (user.elim Uuid.nil UserClaims.sub)⟩) := by
  -- a failure of the first or of the second statement, or neither
  cases user <;>
  · simp only [DatabaseConnection.setUid, run_execute_bind]
    by_cases h₀ : c 0 = true
    · exact .inl ⟨_, _, if_pos h₀⟩
    · rw [if_neg h₀]
      by_cases h₁ : c 1 = true
      · exact .inl ⟨_, _, if_pos h₁⟩
      · exact .inr (if_neg h₁)

variable (decode) in
/-- What a login can return: an error, or an identified session. -/
theorem login_cases (r : LoginRequest) (s : Session) :
    (∃ e s', login decode r s = (.error e, s')) ∨
    ∃ db s', login decode r s = (.ok db, s') ∧ Identified decode r.header db s' := by
  obtain ⟨pooled, header, fails⟩ := r
  cases pooled with
  | false => exact .inl ⟨_, _, rfl⟩
  | true =>
      simp only [login, DatabaseConnection.fromRequestParts, DatabaseConnection.new,
        Bool.not_true, Bool.false_eq_true, if_false, pure_bind, bind_assoc, run_execute_bind]
      by_cases h₀ : fails 0 = true
      · exact .inl ⟨_, _, if_pos h₀⟩
      · rw [if_neg h₀]
        cases header with
        | absent =>
            obtain ⟨e, s', h⟩ | h := run_setUid none (fun n => fails (n + 1)) _
            · exact .inl ⟨e, s', h⟩
            · exact .inr ⟨_, _, h, rfl, rfl⟩
        | malformed => exact .inl ⟨_, _, rfl⟩
        | bearer token =>
            -- the token is decoded before anything is set
            simp only [DatabaseConnection.loginUserWithAccessToken]
            rcases hdec : decode token with e | claims
            · exact .inl ⟨_, _, rfl⟩
            · obtain ⟨e, s', h⟩ | h := run_setUid (some claims) (fun n => fails (n + 1)) _
              · exact .inl ⟨e, s', h⟩
              · exact .inr ⟨_, _, h, claims, hdec, rfl, rfl⟩

/-- **No identity leaks through the connection pool.**  After any history of
requests on a connection, a login that returns `Ok` leaves the role and the
user id that its own header says, every statement of its handler sees them,
and a malformed header or a rejected token is an error. -/
theorem no_identity_leak (history : List (Visit S κ)) (start : Session × σ) (v : Visit S κ) :
    let st := history.foldl (serve decode exec) start
    (∀ db s, login decode v.login st.1 = (.ok db, s) →
      Identified decode v.login.header db s ∧
        s = ⟨if db.user.isSome then .authenticated else .anon, some db.subject⟩ ∧
        (db.user = none ↔ v.login.header = .absent) ∧
        ∀ a ∈ handlerStatements decode exec st v,
          a.2.1 = s ∧ a.2.1.userUid = some db.subject ∧
            a.2.1.timekeeperUid = some db.subject) ∧
    (v.login.header = .malformed → ∃ e, (login decode v.login st.1).1 = .error e) ∧
    (∀ token reason, v.login.header = .bearer token → decode token = .error reason →
      ∃ e, (login decode v.login st.1).1 = .error e) := by
  intro st
  refine ⟨fun db s h => ?_, fun hm => ?_, fun token reason ht hd => ?_⟩
  · obtain ⟨e, s', he⟩ | ⟨db', s', hok, hid⟩ := login_cases decode v.login st.1
    · cases he.symm.trans h
    · cases hok.symm.trans h
      have hsession := hid.session_eq
      refine ⟨hid, hsession, ?_, fun a ha => ?_⟩
      · cases hheader : v.login.header <;> rw [hheader] at hid
        · exact ⟨fun _ => rfl, fun _ => hid.1⟩
        · exact hid.elim
        · obtain ⟨claims, -, hu, -⟩ := hid
          exact ⟨fun hn => (by cases hu.symm.trans hn), fun hn => by cases hn⟩
      · -- no statement of the handler changes the settings
        have ha' : a.2.1 = s := by
          rw [handlerStatements, h] at ha
          exact Program.asked_invariant (I := fun st : Session × σ => st.1 = s)
            (fun _ _ _ h => h) _ _ _ rfl a ha
        rw [ha', Session.userUid, Session.timekeeperUid, hsession]
        exact ⟨rfl, rfl, rfl⟩
  · obtain ⟨e, s', he⟩ | ⟨db', s', -, hid⟩ := login_cases decode v.login st.1
    · exact ⟨e, congrArg Prod.fst he⟩
    · -- no session belongs to a malformed header
      rw [hm] at hid
      exact hid.elim
  · obtain ⟨e, s', he⟩ | ⟨db', s', -, hid⟩ := login_cases decode v.login st.1
    · exact ⟨e, congrArg Prod.fst he⟩
    · rw [ht] at hid
      obtain ⟨claims, hok, -⟩ := hid
      cases hok.symm.trans hd

/-- A login that fails at its last statement does leave a mixed session: the
new role, with the user id of the request before. -/
example : (login (fun _ => .ok ⟨⟨""⟩, 0, 2⟩) ⟨true, .bearer "", fun n => n == 2⟩
    ⟨.anon, some 1⟩).2 = ⟨.authenticated, some 1⟩ := by decide

end Lockinspiel
