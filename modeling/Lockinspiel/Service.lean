/-
Lockinspiel/Service.lean

The timekeeper service: any number of requests at once over one database.

`service` is the `System` of the handlers.  A request arrives with the pooled
connection it gets, on which any session may have been left; it logs in, and
then its handler takes one statement at a time, in any order with those of
the other requests.  The statements of the login touch only the connection of
the request, so they are run when it arrives.  `handle` is the same request
with nobody in between.

`Asks` says which statement a handler asks after which answers, and `Replies`
what it replies after them.  Both are read off the handlers once
(`handler_follows`) and hold of every thread of every run (`sound_run`).
-/
import Lockinspiel.Routes

namespace Lockinspiel

open Effects Sql

variable {J : Jiff}

/-! ### What a handler asks and replies -/

/-- After the answers `past`, the last first, the handler of a request asks
the statement. -/
inductive Asks (db : DatabaseConnection) : Request J → List sql.Event → Stmt → Prop
  | insertTag {tag user} (hu : db.user = some user) :
      Asks db (.createTag tag) [] (.insertTag tag.name user.sub)
  | selectTags : Asks db .getTags [] (.selectTags [db.subject, Uuid.nil])
  | updateTag {id tag} : Asks db (.modifyTag id tag) [] (.updateTag id tag.name)
  | deleteTag {id} : Asks db (.deleteTag id) [] (.deleteTag id)
  | insertTimeSplit {body user} (hu : db.user = some user) :
      Asks db (.createTimeSplit body) []
        (.insertTimeSplit body.timeSplit.name body.timeSplit.description user.sub)
  | insertTimeSplitTimers {body user} {id : ℤ} {values} (hu : db.user = some user)
      (hvalues : timerValues id body.timers = some values) :
      Asks db (.createTimeSplit body)
        [⟨.insertTimeSplit body.timeSplit.name body.timeSplit.description user.sub, .ok id⟩]
        (.insertTimeSplitTimers values)
  | selectTimeSplits : Asks db .getTimeSplits [] (.selectTimeSplits db.subject)
  | selectTimeSplitTimers {rows : List TimeSplitRow} :
      Asks db .getTimeSplits [⟨.selectTimeSplits db.subject, .ok rows⟩]
        (.selectTimeSplitTimers (rows.map TimeSplitRow.id))
  | updateTimeSplit {id timeSplit} :
      Asks db (.modifyTimeSplit id timeSplit) []
        (.updateTimeSplit id timeSplit.name timeSplit.description)
  | deleteTimeSplitTimers {id} :
      Asks db (.deleteTimeSplit id) [] (.deleteTimeSplitTimers id)
  | deleteTimeSplit {id} {n : ℕ} :
      Asks db (.deleteTimeSplit id) [⟨.deleteTimeSplitTimers id, .ok n⟩] (.deleteTimeSplit id)
  | selectTimeSplitData {r : Request J} {body user} {timer : InsertableTimer J}
      (hr : r = .postTimer body ∨ r = .modifyTimer body) (hu : db.user = some user)
      (hparse : body.parse J = some timer) :
      Asks db r [] (.selectTimeSplitData timer.timeSplitTimer)
  | insertTimesheet {body user} {timer : InsertableTimer J} {rows : List TimeSplitTimerRow}
      {row values} (hu : db.user = some user) (hparse : body.parse J = some timer)
      (hrow : rows.head? = some row) (hvalues : timer.values = some values) :
      Asks db (.postTimer body) [⟨.selectTimeSplitData timer.timeSplitTimer, .ok rows⟩]
        (.insertTimesheet values user.sub)
  | updateTimesheet {body user} {timer : InsertableTimer J} {rows : List TimeSplitTimerRow}
      {row values} (hu : db.user = some user) (hparse : body.parse J = some timer)
      (hrow : rows.head? = some row) (hvalues : timer.values = some values) :
      Asks db (.modifyTimer body) [⟨.selectTimeSplitData timer.timeSplitTimer, .ok rows⟩]
        (.updateTimesheet user.sub values.startTime values)
  | selectTimers : Asks db .getTimers [] (.selectTimers (db.user.map UserClaims.sub))

/-- After this last answer a handler does not end with an error, other than a
panic on the inserted rows. -/
def goesOn : List sql.Event → Bool
  | ⟨.insertTimeSplitTimers _, .ok _⟩ :: _ => true
  | ⟨.deleteTimeSplitTimers _, .ok _⟩ :: _ => true
  | _ => false

/-- After the answers `past`, the handler of a request ends with the time
splits, with the time split it created, or in another way. -/
inductive Replies (db : DatabaseConnection) :
    Request J → List sql.Event → Except Stop (Reply J) → Prop
  | created {body user} {id : ℤ} {values} {rows : List TimeSplitTimerRow}
      {timers : List (TimeSplitTimer J)} (hu : db.user = some user)
      (hvalues : timerValues id body.timers = some values)
      (htimers : rows.mapM TimeSplitTimer.ofRow = some timers) :
      Replies db (.createTimeSplit body)
        [⟨.insertTimeSplitTimers values, .ok rows⟩,
          ⟨.insertTimeSplit body.timeSplit.name body.timeSplit.description user.sub, .ok id⟩]
        (.ok (.timeSplit ⟨⟨id, body.timeSplit.name, body.timeSplit.description⟩, timers⟩))
  | unreadable {body user} {id : ℤ} {values} {rows : List TimeSplitTimerRow}
      (hrows : rows.mapM (TimeSplitTimer.ofRow (J := J)) = none) :
      Replies db (.createTimeSplit body)
        [⟨.insertTimeSplitTimers values, .ok rows⟩,
          ⟨.insertTimeSplit body.timeSplit.name body.timeSplit.description user, .ok id⟩]
        (.error .panic)
  | listed {rows : List TimeSplitRow} {timerRows : List TimeSplitTimerRow}
      {timers : List (TimeSplitTimer J)} {grouped}
      (htimers : timerRows.mapM TimeSplitTimer.ofRow = some timers)
      (hgrouped : groupTimers (rows.map TimeSplit.ofRow) timers = some grouped) :
      Replies db .getTimeSplits
        [⟨.selectTimeSplitTimers (rows.map TimeSplitRow.id), .ok timerRows⟩,
          ⟨.selectTimeSplits db.subject, .ok rows⟩]
        (.ok (.timeSplits grouped))
  | other {r past a} (hpast : goesOn past = false)
      (hcreated : ∀ p, a ≠ .ok (.timeSplit p)) (hlisted : ∀ ps, a ≠ .ok (.timeSplits ps)) :
      Replies db r past a

/-- The end of a handler with an error or a panic is one of the other ends. -/
theorem Replies.error {db : DatabaseConnection} {r : Request J} {past : List sql.Event}
    {e : Stop} (hpast : goesOn past = false) : Replies db r past (.error e) :=
  .other hpast (fun _ h => by cases h) fun _ h => by cases h

/-- ... and so is a reply that is not about time splits. -/
theorem Replies.unit {db : DatabaseConnection} {r : Request J} {past : List sql.Event}
    (hpast : goesOn past = false) : Replies db r past (.ok .unit) :=
  .other hpast (fun _ h => by cases h) fun _ h => by cases h

/-- A handler that goes on with a value, unless computing it panics. -/
theorem follows_orPanic {α : Type} {db : DatabaseConnection} {r : Request J}
    {past : List sql.Event} {x : Option α} {f : α → Handler (Reply J)}
    (hpanic : x = none → Replies db r past (.error .panic))
    (h : ∀ a, x = some a → (f a).run.Follows (Asks db r) (Replies db r) past) :
    (orPanic x >>= f : Handler (Reply J)).run.Follows (Asks db r) (Replies db r) past := by
  cases x with
  | none => exact hpanic rfl
  | some a => exact h a rfl

theorem goesOn_error (st : Stmt) (e : SqlError) (past : List sql.Event) :
    goesOn (⟨st, (.error e : Except SqlError st.Ret)⟩ :: past) = false := by
  cases st <;> rfl

/-- A handler that asks one statement and replies nothing. -/
theorem follows_query {db : DatabaseConnection} {r : Request J} {past : List sql.Event}
    {st : Stmt} {context : String} {status : StatusCode} (hasks : Asks db r past st)
    (hok : ∀ n : st.Ret, goesOn (⟨st, (.ok n : Except SqlError st.Ret)⟩ :: past) = false) :
    (do let _ ← query st context status; return .unit : Handler (Reply J)).run.Follows
      (Asks db r) (Replies db r) past := by
  refine ⟨hasks, fun a => ?_⟩
  cases a with
  | error e => exact .error (goesOn_error st e past)
  | ok n => exact .unit (hok n)

/-- The part that `post_timer` and `modify_timer` share. -/
theorem follows_writeTimer {db : DatabaseConnection} {r : Request J} {body : TimerBody}
    {timer : InsertableTimer J} {write : Uuid → TimesheetValues → Stmt} {m₁ m₂ m₃ : String}
    (hr : r = .postTimer body ∨ r = .modifyTimer body) (hparse : body.parse J = some timer)
    (hwrite : ∀ {user rows row values}, db.user = some user →
      rows.head? = some row → timer.values = some values →
      Asks db r [⟨.selectTimeSplitData timer.timeSplitTimer,
        (.ok rows : Except SqlError (List TimeSplitTimerRow))⟩] (write user.sub values))
    (hok : ∀ user values (n : (write user values).Ret) past,
      goesOn (⟨write user values, (.ok n : Except SqlError _)⟩ :: past) = false) :
    (writeTimer write m₁ m₂ m₃ db timer).run.Follows (Asks db r) (Replies db r) [] := by
  rw [writeTimer]
  cases hu : db.user with
  | none => exact .error rfl
  | some user =>
      refine ⟨.selectTimeSplitData hr hu hparse, fun a => ?_⟩
      cases a with
      | error e => exact .error rfl
      | ok rows =>
          change List TimeSplitTimerRow at rows
          cases rows with
          | nil => exact .error rfl
          | cons row rows =>
              refine follows_orPanic (fun _ => .error rfl) fun values hv =>
                ⟨hwrite hu rfl hv, fun a => ?_⟩
              cases a with
              | error e => exact .error (goesOn_error _ e _)
              | ok n =>
                  exact .other (hok _ _ n _) (fun _ h => by cases h) fun _ h => by cases h

/-- **What the handlers do**: they ask as `Asks` says and end as `Replies`
says. -/
theorem handler_follows (db : DatabaseConnection) (r : Request J) :
    (handler db r).run.Follows (Asks db r) (Replies db r) [] := by
  cases r with
  | createTag tag =>
      rw [handler, createTag]
      cases hu : db.user with
      | none => exact .error rfl
      | some user =>
          refine ⟨.insertTag hu, fun a => ?_⟩
          cases a with
          | error e => exact .error rfl
          | ok id => exact .other rfl (fun _ h => by cases h) fun _ h => by cases h
  | getTags =>
      refine ⟨.selectTags, fun a => ?_⟩
      cases a with
      | error e => exact .error rfl
      | ok rows => exact .other rfl (fun _ h => by cases h) fun _ h => by cases h
  | modifyTag id tag => exact follows_query .updateTag fun _ => rfl
  | deleteTag id => exact follows_query .deleteTag fun _ => rfl
  | createTimeSplit body =>
      rw [handler, createTimeSplit]
      cases hu : db.user with
      | none => exact .error rfl
      | some user =>
          refine ⟨.insertTimeSplit hu, fun a => ?_⟩
          cases a with
          | error e => exact .error rfl
          | ok id =>
              -- the timers are encoded between the two statements
              refine follows_orPanic (fun _ => .error rfl) fun values hv =>
                ⟨.insertTimeSplitTimers hu hv, fun a => ?_⟩
              cases a with
              | error e => exact .error rfl
              | ok rows =>
                  exact follows_orPanic .unreadable fun timers htimers => .created hu hv htimers
  | getTimeSplits =>
      -- the second query asks for the ids that the first has answered
      refine ⟨.selectTimeSplits, fun a => ?_⟩
      cases a with
      | error e => exact .error rfl
      | ok rows =>
          refine ⟨.selectTimeSplitTimers, fun a => ?_⟩
          cases a with
          | error e => exact .error rfl
          | ok timerRows =>
              exact follows_orPanic (fun _ => .error rfl) fun timers htimers =>
                follows_orPanic (fun _ => .error rfl) fun grouped hgrouped =>
                  .listed htimers hgrouped
  | modifyTimeSplit id timeSplit => exact follows_query .updateTimeSplit fun _ => rfl
  | deleteTimeSplit id =>
      refine ⟨.deleteTimeSplitTimers, fun a => ?_⟩
      cases a with
      | error e => exact .error rfl
      | ok n => exact follows_query .deleteTimeSplit fun _ => rfl
  | postTimer timer =>
      rw [handler]
      cases hparse : timer.parse J with
      | none => exact .error rfl
      | some t =>
          exact follows_writeTimer (.inl rfl) hparse
            (fun hu hrow hv => .insertTimesheet hu hparse hrow hv) fun _ _ _ _ => rfl
  | getTimers =>
      refine ⟨.selectTimers, fun a => ?_⟩
      cases a with
      | error e => exact .error rfl
      | ok rows =>
          exact follows_orPanic (fun _ => .error rfl) fun timers _ =>
            .other rfl (fun _ h => by cases h) fun _ h => by cases h
  | modifyTimer timer =>
      rw [handler]
      cases hparse : timer.parse J with
      | none => exact .error rfl
      | some t =>
          exact follows_writeTimer (.inr rfl) hparse
            (fun hu hrow hv => .updateTimesheet hu hparse hrow hv) fun _ _ _ _ => rfl

/-! ### The service -/

/-- A request that arrives: what its login sees, the session that is left on
the connection it gets, and the request itself. -/
structure Arrival (J : Jiff) where
  login : LoginRequest
  session : Session
  request : Request J

/-- What belongs to one request alone: how it arrived, its connection if the
login returned one, and the session of that connection. -/
structure Context (J : Jiff) where
  arrival : Arrival J
  connection : Option DatabaseConnection
  session : Session

/-- How a request ends. -/
abbrev Outcome (J : Jiff) := Except Stop (Reply J)

/-- A request at work. -/
abbrev Worker (J : Jiff) := Thread sql (Context J) (Outcome J)

/-- The service at work. -/
abbrev ServiceState (J : Jiff) := Config sql (Context J) (Outcome J) Db

variable (decode : String → Except String UserClaims)

/-- A request that has logged in stands before the first statement of its
handler; one whose login failed has ended. -/
def arrive (a : Arrival J) : Worker J :=
  match login decode a.login a.session with
  | (.ok db, s) => ⟨⟨a, some db, s⟩, [], (handler db a.request).run⟩
  | (.error e, s) => ⟨⟨a, none, s⟩, [], .done (.error (.error (.ofLogin e)))⟩

/-- The timekeeper service. -/
def service : System sql (Context J) (Outcome J) Db Choice (Arrival J) where
  start := arrive decode
  exec l c st db := Stmt.exec l.session c st db

/-- The service over the migrated database, before any request. -/
def initial : ServiceState J := ⟨migrated, []⟩

/-- A request with nobody in between: its outcome, and the database after
it. -/
def handle (a : Arrival J) (c : ℕ → Choice) (db : Db) : Outcome J × Db :=
  Program.run (fun c st db => Stmt.exec (arrive decode a).loc.session c st db) c
    (arrive decode a).prog db

/-- Requests one after the other. -/
def handleAll (requests : List (Arrival J × (ℕ → Choice))) (db : Db) : Db :=
  requests.foldl (fun db r => (handle decode r.1 r.2 db).2) db

variable {decode}

@[simp] theorem service_start (a : Arrival J) : (service decode).start a = arrive decode a := rfl

variable (decode) in
/-- What a statement can do, as a step of the service. -/
theorem service_cases {l : Context J} (hl : l.session.LoggedIn) (c : Choice) (st : sql.Op)
    (db : Db) :
    (∃ e, (service decode).exec l c st db = (.error e, db)) ∨
    ∃ (ret : Stmt.Ret st) (db' : Db), (service decode).exec l c st db = (.ok ret, db') ∧
      Stmt.Does l.session c db.toTables st ret db'.toTables :=
  Stmt.exec_cases hl c st db

/-! ### What holds of every request at work -/

/-- A request at work has logged in as its header says, and its handler is
somewhere along its way. -/
structure Working (decode : String → Except String UserClaims) (t : Worker J)
    (db : DatabaseConnection) : Prop where
  connection : t.loc.connection = some db
  identified : Identified decode t.loc.arrival.login.header db t.loc.session
  follows : t.prog.Follows (Asks db t.loc.arrival.request) (Replies db t.loc.arrival.request) t.past

/-- Every request works, or its login has failed. -/
def Sound (decode : String → Except String UserClaims) (t : Worker J) : Prop :=
  (∃ db, Working decode t db) ∨ t.past = [] ∧ ∃ e, t.prog = .done (.error e)

variable (decode) in
/-- A request arrives logged in as its header says, or with an error. -/
theorem arrive_cases (a : Arrival J) :
    (∃ e s, arrive decode a = ⟨⟨a, none, s⟩, [], .done (.error (.error e))⟩) ∨
    ∃ db s, arrive decode a = ⟨⟨a, some db, s⟩, [], (handler db a.request).run⟩ ∧
      Identified decode a.login.header db s := by
  rw [arrive]
  obtain ⟨e, s, h⟩ | ⟨db, s, h, hid⟩ := login_cases decode a.login a.session <;> rw [h]
  · exact .inl ⟨_, s, rfl⟩
  · exact .inr ⟨db, s, rfl, hid⟩

theorem arrive_past (a : Arrival J) : (arrive decode a).past = [] := by
  rw [arrive]
  split <;> rfl

theorem sound_arrive (a : Arrival J) : Sound decode (arrive decode a) := by
  obtain ⟨e, s, h⟩ | ⟨db, s, h, hid⟩ := arrive_cases decode a <;> rw [h]
  · exact .inr ⟨rfl, _, rfl⟩
  · exact .inl ⟨db, rfl, hid, handler_follows db a.request⟩

theorem Sound.resume {l : Context J} {past : List sql.Event} {st : Stmt}
    {k : sql.Res st → Program sql (Outcome J)}
    (h : Sound decode ⟨l, past, .call st k⟩) (r : sql.Res st) :
    Sound decode (System.resume l past st k r) := by
  obtain ⟨db, hc, hid, hf⟩ | ⟨-, e, he⟩ := h
  · exact .inl ⟨db, hc, hid, hf.2 r⟩
  · cases he

/-- Every request of every run is sound. -/
theorem sound_run (acts : List (Act (Arrival J) Choice)) (cfg : ServiceState J)
    (hcfg : ∀ t ∈ cfg.threads, Sound decode t) :
    ∀ t ∈ ((service decode).run acts cfg).threads, Sound decode t :=
  System.thread_invariant sound_arrive (fun _ _ _ _ h r => h.resume r) acts cfg hcfg

theorem sound_initial (acts : List (Act (Arrival J) Choice)) :
    ∀ t ∈ ((service decode).run acts initial).threads, Sound decode t :=
  sound_run acts initial fun _ ht => by cases ht

/-- A request that is about to ask a statement works. -/
theorem Sound.working {l : Context J} {past : List sql.Event} {st : Stmt}
    {k : sql.Res st → Program sql (Outcome J)} (h : Sound decode ⟨l, past, .call st k⟩) :
    ∃ db, Working decode ⟨l, past, .call st k⟩ db ∧ Asks db l.arrival.request past st := by
  obtain ⟨db, hw⟩ | ⟨-, e, he⟩ := h
  · exact ⟨db, hw, hw.follows.1⟩
  · cases he

/-- What every statement of a request keeps of the database, every run
keeps. -/
theorem store_run {I : Db → Prop}
    (hkeep : ∀ (l : Context J) past (st : Stmt) k, Sound decode ⟨l, past, .call st k⟩ →
      ∀ c db, I db → I (st.exec l.session c db).2)
    (acts : List (Act (Arrival J) Choice)) (cfg : ServiceState J)
    (hcfg : ∀ t ∈ cfg.threads, Sound decode t) (hI : I cfg.shared) :
    I ((service decode).run acts cfg).shared := by
  suffices h : I ((service decode).run acts cfg).shared ∧
      ∀ t ∈ ((service decode).run acts cfg).threads, Sound decode t from h.1
  refine System.run_invariant (I := fun cfg' => I cfg'.shared ∧
    ∀ t ∈ cfg'.threads, Sound decode t) ?_ ?_ acts cfg (System.meets_true acts cfg) ⟨hI, hcfg⟩
  · rintro cfg' a ⟨hI', hsound⟩
    refine ⟨hI', fun t ht => ?_⟩
    obtain ht | ht := List.mem_append.mp ht
    · exact hsound t ht
    · rw [List.mem_singleton.mp ht]
      exact sound_arrive a
  · rintro cfg' i c l past st k hi - ⟨hI', hsound⟩
    have hl := hsound _ (List.mem_of_getElem? hi)
    refine ⟨hkeep l past st k hl c cfg'.shared hI', fun t ht => ?_⟩
    obtain ht | rfl := List.mem_or_eq_of_mem_set ht
    · exact hsound t ht
    · exact hl.resume _

/-! ### What a login lets a session write -/

section

variable {header : Authorization} {db : DatabaseConnection} {s : Session}

theorem Identified.loggedIn (h : Identified decode header db s) : s.LoggedIn := by
  rw [h.session_eq]
  by_cases hu : db.user.isSome = true
  · exact .inl (if_pos hu)
  · exact .inr (if_neg hu)

/-- A session may write the rows of its user alone. -/
theorem Identified.mayWrite_iff (h : Identified decode header db s) {owner : Uuid} :
    s.mayWrite owner = true ↔ ∃ user, db.user = some user ∧ user.sub = owner := by
  rw [h.session_eq, Session.mayWrite, Session.timekeeperUid, DatabaseConnection.subject]
  cases db.user with
  | none => simp
  | some user => simp

theorem Identified.mayWrite_eq (h : Identified decode header db s) {user : UserClaims}
    (hu : db.user = some user) (owner : Uuid) : s.mayWrite owner = (owner == user.sub) := by
  rw [Bool.eq_iff_iff, h.mayWrite_iff, beq_iff_eq, hu]
  constructor
  · rintro ⟨user', huser, rfl⟩
    rw [Option.some.inj huser]
  · rintro rfl
    exact ⟨user, rfl, rfl⟩

/-- The user of a session has sent a token that is valid for them. -/
theorem Identified.bearer (h : Identified decode header db s) {user : UserClaims}
    (hu : db.user = some user) :
    ∃ token, header = .bearer token ∧ decode token = .ok user := by
  cases header with
  | absent => cases hu.symm.trans h.1
  | malformed => exact h.elim
  | bearer token =>
      obtain ⟨claims, hdecode, hu', -⟩ := h
      cases hu.symm.trans hu'
      exact ⟨token, rfl, hdecode⟩

end

theorem Working.loggedIn {t : Worker J} {db : DatabaseConnection} (h : Working decode t db) :
    t.loc.session.LoggedIn :=
  h.identified.loggedIn

/-! ### A request alone -/

/-- A handler in the session `s`, with nobody in between. -/
def runHandler {α : Type} (s : Session) (c : ℕ → Choice) (h : Handler α) (db : Db) :
    Except Stop α × Db :=
  Program.run (fun c st db => Stmt.exec s c st db) c h.run db

section

variable {α β : Type} {s : Session} {c : ℕ → Choice} {db : Db}

@[simp] theorem runHandler_pure (a : α) : runHandler s c (pure a) db = (.ok a, db) := rfl

/-- A statement of a handler, with its `?`. -/
theorem runHandler_query (st : Stmt) (context : String) (status : StatusCode)
    (f : st.Ret → Handler α) :
    runHandler s c (query st context status >>= f) db =
      match st.exec s (c 0) db with
      | (.ok ret, db') => runHandler s (fun n => c (n + 1)) (f ret) db'
      | (.error e, db') => (.error (.error ⟨status, ⟨[context], some e⟩⟩), db') := by
  change Program.run _ (fun n => c (n + 1))
    (ExceptT.bindCont f ((st.exec s (c 0) db).1.mapError _)) (st.exec s (c 0) db).2 = _
  rcases st.exec s (c 0) db with ⟨e | ret, db'⟩ <;> rfl

theorem runHandler_orPanic (x : Option α) (f : α → Handler β) :
    runHandler s c (orPanic x >>= f) db =
      match x with
      | some a => runHandler s c (f a) db
      | none => (.error .panic, db) := by
  cases x <;> rfl

/-- A handler that went on after a statement. -/
theorem runHandler_query_ok (hs : s.LoggedIn) {st : Stmt} {context : String}
    {status : StatusCode} {f : st.Ret → Handler α} {a : α} {db' : Db}
    (h : runHandler s c (query st context status >>= f) db = (.ok a, db')) :
    ∃ ret db₁, st.Does s (c 0) db.toTables ret db₁.toTables ∧
      runHandler s (fun n => c (n + 1)) (f ret) db₁ = (.ok a, db') := by
  rw [runHandler_query] at h
  obtain ⟨e, he⟩ | ⟨ret, db₁, he, hdoes⟩ := Stmt.exec_cases hs (c 0) st db <;> rw [he] at h
  · cases h
  · exact ⟨ret, db₁, hdoes, h⟩

/-- A handler that went on with a value. -/
theorem runHandler_orPanic_ok {x : Option α} {f : α → Handler β} {b : β} {db' : Db}
    (h : runHandler s c (orPanic x >>= f) db = (.ok b, db')) :
    ∃ a, x = some a ∧ runHandler s c (f a) db = (.ok b, db') := by
  rw [runHandler_orPanic] at h
  cases x with
  | none => cases h
  | some a => exact ⟨a, rfl, h⟩

end

variable (decode) in
/-- A request alone ends with its login, or it is its handler alone, in the
session of its login. -/
theorem handle_cases (a : Arrival J) :
    ((arrive decode a).loc.connection = none ∧
      ∃ e, ∀ c db, handle decode a c db = (.error (.error e), db)) ∨
    ∃ dbc s, Identified decode a.login.header dbc s ∧
      (arrive decode a).loc.connection = some dbc ∧
      ∀ c db, handle decode a c db = runHandler s c (handler dbc a.request) db := by
  obtain ⟨e, s, h⟩ | ⟨dbc, s, h, hid⟩ := arrive_cases decode a
  · exact .inl ⟨by rw [h], e, fun c db => by rw [handle, h]; rfl⟩
  · exact .inr ⟨dbc, s, hid, by rw [h], fun c db => by rw [handle, h]; rfl⟩

variable (decode) in
/-- The user a request is logged in as. -/
def loggedInAs (a : Arrival J) : Option Uuid :=
  ((arrive decode a).loc.connection.bind DatabaseConnection.user).map UserClaims.sub

theorem loggedInAs_eq {a : Arrival J} {dbc : DatabaseConnection}
    (h : (arrive decode a).loc.connection = some dbc) :
    loggedInAs decode a = dbc.user.map UserClaims.sub := by
  rw [loggedInAs, h]
  rfl

theorem loggedInAs_of_failed {a : Arrival J} (h : (arrive decode a).loc.connection = none) :
    loggedInAs decode a = none := by
  rw [loggedInAs, h]
  rfl

/-- A request of a user who is logged in is its handler alone, in a session of
theirs. -/
theorem handle_of_loggedIn {a : Arrival J} {u : Uuid} (h : loggedInAs decode a = some u) :
    ∃ dbc s, Identified decode a.login.header dbc s ∧ dbc.user.map UserClaims.sub = some u ∧
      ∀ c db, handle decode a c db = runHandler s c (handler dbc a.request) db := by
  obtain ⟨hfailed, -⟩ | ⟨dbc, s, hid, hconn, hrun⟩ := handle_cases decode a
  · rw [loggedInAs_of_failed hfailed] at h
    cases h
  · exact ⟨dbc, s, hid, (loggedInAs_eq hconn).symm.trans h, hrun⟩

theorem DatabaseConnection.subject_eq {dbc : DatabaseConnection} {u : Uuid}
    (h : dbc.user.map UserClaims.sub = some u) : dbc.subject = u := by
  obtain ⟨user, hu, rfl⟩ := Option.map_eq_some_iff.mp h
  rw [DatabaseConnection.subject, hu]
  rfl

variable (decode) in
/-- Requests one after the other are one of the interleavings. -/
theorem exists_run_handleAll (requests : List (Arrival J × (ℕ → Choice)))
    (cfg : ServiceState J) :
    ∃ acts, ((service decode).run acts cfg).shared = handleAll decode requests cfg.shared := by
  induction requests generalizing cfg with
  | nil => exact ⟨[], rfl⟩
  | cons r requests ih =>
      let cfg₁ := (service decode).act cfg (.arrive r.1)
      obtain ⟨acts, past, h⟩ := (service decode).run_alone cfg.threads.length
        (arrive decode r.1).loc (arrive decode r.1).prog (arrive decode r.1).past r.2 cfg₁
        (by simp [cfg₁, System.act, service])
      obtain ⟨acts', h'⟩ := ih ((service decode).run acts cfg₁)
      refine ⟨.arrive r.1 :: (acts ++ acts'), ?_⟩
      rw [System.run_cons, System.run_append, h', h]
      rfl

/-! ### Requests of one user -/

/-- The one token of these runs is that of user 1. -/
def oneUser (_ : String) : Except String UserClaims := .ok ⟨⟨""⟩, 0, 1⟩

/-- A request of user 1. -/
def byUser (request : Request Jiff.reference) : Arrival Jiff.reference :=
  ⟨⟨true, .bearer "", fun _ => false⟩, ⟨.anon, none⟩, request⟩

/-- A time split with one timer of 25 minutes. -/
def oneTimer : InsertablePackagedTimeSplit Jiff.reference :=
  ⟨⟨"Pomodoro", none⟩, [⟨⟨1, { minutes := 25 }, by decide⟩, "Work", true⟩]⟩

/-- A statement that draws ids from `id` on. -/
def drawing (id : ℤ) : Choice := { ids := fun n => id + n }

/-- A statement that fails. -/
def failing : Choice := { fails := true }

/-- A time split whose timer is stored as 479952 months. -/
def longTimer : InsertablePackagedTimeSplit Jiff.reference :=
  ⟨⟨"Long", none⟩, [⟨⟨1, { years := 19998, months := 239976 }, by decide⟩, "Work", true⟩]⟩

/-- User 1 creates it as time split 5: the rows are inserted, and the request
panics when it reads them. -/
def longCreated : List (Act (Arrival Jiff.reference) Choice) :=
  [.arrive (byUser (.createTimeSplit longTimer)), .step 0 (drawing 5), .step 0 (drawing 11)]

end Lockinspiel
