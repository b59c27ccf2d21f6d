/-
Lockinspiel/Timesheet.lean

The timesheet as a map from start times, one for every user.

`timesheet` has no row level security: nothing but the filters of `post_timer`
and `modify_timer` keeps the rows of the users apart.  Both write one row, of
the user who is logged in and of the start time of the body, and do so last, so
a request either returns its timer or has left the table alone
(`handle_timesheet`).

The purpose of the table is the `Sheet` of each user.  The rows of a user are
the graph of the sheet that their own successful requests have built
(`timesheet_refines`), with every time moved to the epoch of the database.
-/
import Lockinspiel.ConcurrentReads

namespace Lockinspiel

open Effects Sql

variable {J : Jiff} {decode : String → Except String UserClaims}

/-! ### Sheets -/

/-- What a sheet keeps for a start time. -/
structure Entry where
  timeSplitTimer : ℤ
  endTime : ℤ
  tags : List ℤ
deriving DecidableEq

/-- A map from start times, in the microseconds of the JSON body. -/
def Sheet : Type := ℤ → Option Entry

def Sheet.empty : Sheet := fun _ => none

/-- The entry of a body. -/
def TimerBody.entry (body : TimerBody) : Entry where
  timeSplitTimer := body.timeSplitTimer
  endTime := body.endTime
  tags := body.tags

/-- What a successful request does to the sheet of its user. -/
def Sheet.record (m : Sheet) : Request J → Sheet
  | .postTimer body => Function.update m body.startTime (some body.entry)
  | .modifyTimer body =>
      if (m body.startTime).isSome then Function.update m body.startTime (some body.entry) else m
  | _ => m

/-- The outcomes of requests that come one after the other. -/
def outcomes (decode : String → Except String UserClaims) :
    List (Arrival J × (ℕ → Choice)) → Db → List (Arrival J × Outcome J)
  | [], _ => []
  | r :: requests, db =>
      (r.1, (handle decode r.1 r.2 db).1) ::
        outcomes decode requests (handle decode r.1 r.2 db).2

/-- The request was made by `u`, and succeeded. -/
def Succeeded (decode : String → Except String UserClaims) (u : Uuid)
    (o : Arrival J × Outcome J) : Bool :=
  loggedInAs decode o.1 == some u && o.2.toBool

/-- The fold of the successful requests of `u` over a sheet. -/
def recordAll (decode : String → Except String UserClaims) (u : Uuid) (m : Sheet)
    (os : List (Arrival J × Outcome J)) : Sheet :=
  (os.filter (Succeeded decode u)).foldl (fun m o => m.record o.1.request) m

/-- The row of an entry. -/
def Entry.row (u : Uuid) (startTime : ℤ) (e : Entry) : TimesheetRow where
  startTime := startTime - Timestamptz.epochMicros
  endTime := e.endTime - Timestamptz.epochMicros
  userId := u
  tags := e.tags.map some
  timeSplitTimer := some e.timeSplitTimer

/-- The rows of a user. -/
def rowsOf (t : Tables) (u : Uuid) : List TimesheetRow :=
  t.timesheet.filter fun r => r.userId == u

/-! ### What a request does to the timesheet -/

/-- The columns of a body that was parsed are those of its entry. -/
theorem values_of_parse (hJ : J.TimestampLaws) {body : TimerBody} {timer : InsertableTimer J}
    (h : body.parse J = some timer) :
    ∃ values, timer.values = some values ∧ timer.timeSplitTimer = body.timeSplitTimer ∧
      values.startTime = body.startTime - Timestamptz.epochMicros ∧
      ∀ u, values.row u = body.entry.row u body.startTime := by
  obtain ⟨startTime, hstart, h⟩ := Option.bind_eq_some_iff.mp h
  obtain ⟨endTime, hend, h⟩ := Option.bind_eq_some_iff.mp h
  obtain rfl := Option.some.inj h
  refine ⟨⟨body.timeSplitTimer, body.startTime - Timestamptz.epochMicros,
    body.endTime - Timestamptz.epochMicros, body.tags⟩, ?_, rfl, rfl, fun u => rfl⟩
  rw [InsertableTimer.values, Timestamptz.toSql_deserialize hJ hstart,
    Timestamptz.toSql_deserialize hJ hend]
  rfl

section

variable {s : Session} {c : ℕ → Choice} {dbc : DatabaseConnection} {db : Db}

/-- The look-up of `post_timer` and `modify_timer` answers live timers. -/
theorem live_of_does {c : Choice} {id : ℤ} {t t' : Tables} {rows : List TimeSplitTimerRow}
    (h : (Stmt.selectTimeSplitData id).Does s c t rows t') {row : TimeSplitTimerRow}
    (hrow : row ∈ rows) : row ∈ t.timeSplitTimer ∧ row.id = id ∧ row.deleted = false := by
  obtain ⟨hmem, hq⟩ := List.mem_filter.mp (mem_pick.mp (h.2 ▸ hrow))
  simp only [Bool.and_eq_true, Bool.not_eq_true', beq_iff_eq] at hq
  exact ⟨hmem, hq.2, hq.1⟩

/-- The response to a timer that was written: the body, and what was looked
up. -/
def InsertableTimer.written (timer : InsertableTimer J) (data : TimeSplitData) : Timer J where
  timeSplitTimer := some timer.timeSplitTimer
  startTime := timer.startTime
  endTime := timer.endTime
  tags := timer.tags.map some
  timeSplitData := data

/-- `post_timer` and `modify_timer` with nobody in between: an error that has
changed nothing, or a timer that was live and has been written, with the data of
its row. -/
theorem runHandler_writeTimer (hs : s.LoggedIn) {write : Uuid → TimesheetValues → Stmt}
    {m₁ m₂ m₃ : String} {timer : InsertableTimer J} {o : Except Stop (Reply J)} {db' : Db}
    (h : runHandler s c (writeTimer write m₁ m₂ m₃ dbc timer) db = (o, db')) :
    (∃ e, o = .error e ∧ db' = db) ∨
    ∃ user values row ret, dbc.user = some user ∧ timer.values = some values ∧
      (row ∈ db.timeSplitTimer ∧ row.id = timer.timeSplitTimer ∧ row.deleted = false) ∧
      (write user.sub values).Does s (c 1) db.toTables ret db'.toTables ∧
      o = .ok (.timer (timer.written ⟨row.timeSplitId, row.work⟩)) := by
  rw [writeTimer] at h
  cases hu : dbc.user with
  | none =>
      rw [hu] at h
      cases h
      exact .inl ⟨_, rfl, rfl⟩
  | some user =>
      rw [hu] at h
      dsimp only at h
      rw [runHandler_query] at h
      obtain ⟨e, he⟩ | ⟨rows, db₁, he, hlookup⟩ := Stmt.exec_cases hs (c 0)
        (.selectTimeSplitData timer.timeSplitTimer) db
      · rw [he] at h
        cases h
        exact .inl ⟨_, rfl, rfl⟩
      · rw [he, Db.ext hlookup.1] at h
        change List TimeSplitTimerRow at rows
        cases rows with
        | nil =>
            cases h
            exact .inl ⟨_, rfl, rfl⟩
        | cons row rows =>
            have hlive := live_of_does hlookup List.mem_cons_self
            -- the times are encoded before the last statement
            dsimp only [List.head?_cons] at h
            rw [runHandler_orPanic] at h
            cases hv : timer.values with
            | none =>
                rw [hv] at h
                cases h
                exact .inl ⟨_, rfl, rfl⟩
            | some values =>
                rw [hv] at h
                dsimp only at h
                rw [runHandler_query] at h
                obtain ⟨e, he⟩ | ⟨ret, db₂, he, hdoes⟩ :=
                  Stmt.exec_cases hs (c 1) (write user.sub values) db
                · rw [he] at h
                  cases h
                  exact .inl ⟨_, rfl, rfl⟩
                · rw [he] at h
                  cases h
                  exact .inr ⟨user, values, row, ret, rfl, rfl, hlive, hdoes, rfl⟩

/-- A request that does not write timers leaves the timesheet alone. -/
theorem runHandler_timesheet (hs : s.LoggedIn) {r : Request J}
    (hr : ∀ body, r ≠ .postTimer body ∧ r ≠ .modifyTimer body) :
    (runHandler s c (handler dbc r) db).2.timesheet = db.timesheet := by
  refine Program.run_follows (I := fun db' => db'.timesheet = db.timesheet) ?_ _ [] c db
    (handler_follows dbc r) rfl
  intro past c st db₁ hasks hsame
  obtain ⟨e, h⟩ | ⟨ret, db₂, h, hdoes⟩ := Stmt.exec_cases hs c st db₁ <;> rw [h]
  · exact hsame
  · obtain heq | ⟨values, u, rfl, -⟩ | ⟨u, startTime, values, rfl, -⟩ := hdoes.timesheet_cases
    · exact heq.trans hsame
    · exfalso
      cases hasks with
      | insertTimesheet => exact (hr _).1 rfl
    · exfalso
      cases hasks with
      | updateTimesheet => exact (hr _).2 rfl

end

/-- The row of an entry is written at the place of its start time. -/
def Writes (u : Uuid) (r : Request J) (t t' : Tables) : Prop :=
  match r with
  | .postTimer body => t'.timesheet = t.timesheet ++ [body.entry.row u body.startTime]
  | .modifyTimer body => t'.timesheet = setWhere
      (fun r => r.userId == u && r.startTime == body.startTime - Timestamptz.epochMicros)
      (fun r => body.entry.row r.userId body.startTime) t.timesheet
  | _ => t'.timesheet = t.timesheet

/-- The timer that the body of a request names is live. -/
def NamesLive (r : Request J) (t : Tables) : Prop :=
  match r with
  | .postTimer body | .modifyTimer body =>
      ∃ timer ∈ t.timeSplitTimer, timer.id = body.timeSplitTimer ∧ timer.deleted = false
  | _ => True

/-- The handler of a timer with the extractor of its body: an error that has
changed nothing, or the row of a live timer written for the user, and nothing
else. -/
theorem runHandler_timerBody_row (hJ : J.TimestampLaws) {s : Session} (hs : s.LoggedIn)
    {c : ℕ → Choice} {dbc : DatabaseConnection} {db db' : Db} {body : TimerBody} {r : Request J}
    (hr : r = .postTimer body ∨ r = .modifyTimer body)
    {o : Except Stop (Reply J)} (h : runHandler s c (handler dbc r) db = (o, db')) :
    (∃ e, o = .error e ∧ db' = db) ∨
    ∃ user timer row, dbc.user = some user ∧ body.parse J = some timer ∧
      o = .ok (.timer (timer.written ⟨row.timeSplitId, row.work⟩)) ∧
      (row ∈ db.timeSplitTimer ∧ row.id = body.timeSplitTimer ∧ row.deleted = false) ∧
      Writes user.sub r db.toTables db'.toTables ∧
      db'.toTables = { db.toTables with timesheet := db'.timesheet } := by
  cases hparse : body.parse J with
  | none =>
      -- the body is rejected before the handler begins
      refine .inl ⟨.jsonRejection, ?_⟩
      rcases hr with rfl | rfl <;>
      · rw [handler, hparse] at h
        cases h
        exact ⟨rfl, rfl⟩
  | some timer =>
      obtain ⟨values, hvalues, htimer, hstart, hrow⟩ := values_of_parse hJ hparse
      rcases hr with rfl | rfl
      · rw [handler, hparse] at h
        obtain ⟨e, rfl, rfl⟩ | ⟨user, values', row, ret, hu, hvalues', hlive, hdoes, rfl⟩ :=
          runHandler_writeTimer hs h
        · exact .inl ⟨e, rfl, rfl⟩
        · obtain rfl := Option.some.inj (hvalues.symm.trans hvalues')
          rw [htimer] at hlive
          refine .inr ⟨user, timer, row, hu, rfl, rfl, hlive, ?_, by rw [hdoes.2]⟩
          show db'.timesheet = _
          rw [hdoes.2, ← hrow]
      · rw [handler, hparse] at h
        obtain ⟨e, rfl, rfl⟩ | ⟨user, values', row, ret, hu, hvalues', hlive, hdoes, rfl⟩ :=
          runHandler_writeTimer hs h
        · exact .inl ⟨e, rfl, rfl⟩
        · obtain rfl := Option.some.inj (hvalues.symm.trans hvalues')
          rw [htimer] at hlive
          refine .inr ⟨user, timer, row, hu, rfl, rfl, hlive, ?_, by rw [hdoes.2]⟩
          show db'.timesheet = _
          simp only [hdoes.2, ← hrow, hstart]

/-- The same, of the timesheet alone. -/
theorem runHandler_timerBody (hJ : J.TimestampLaws) {s : Session} (hs : s.LoggedIn)
    {c : ℕ → Choice} {dbc : DatabaseConnection} {db db' : Db} {body : TimerBody} {r : Request J}
    (hr : r = .postTimer body ∨ r = .modifyTimer body)
    {o : Except Stop (Reply J)} (h : runHandler s c (handler dbc r) db = (o, db')) :
    (∃ e, o = .error e ∧ db' = db) ∨
    ∃ user timer data, dbc.user = some user ∧ body.parse J = some timer ∧
      o = .ok (.timer (timer.written data)) ∧ NamesLive r db.toTables ∧
      Writes user.sub r db.toTables db'.toTables := by
  obtain herror | ⟨user, timer, row, hu, hparse, ho, hlive, hwrites, -⟩ :=
    runHandler_timerBody_row hJ hs hr h
  · exact .inl herror
  · refine .inr ⟨user, timer, _, hu, hparse, ho, ?_, hwrites⟩
    rcases hr with rfl | rfl <;> exact ⟨row, hlive⟩

variable (decode) in
/-- A request that writes a timer, with nobody in between. -/
theorem handle_timerBody (hJ : J.TimestampLaws) {a : Arrival J} {body : TimerBody}
    (ha : a.request = .postTimer body ∨ a.request = .modifyTimer body) (c : ℕ → Choice) (db : Db) :
    (∃ e, (handle decode a c db).1 = .error e ∧ (handle decode a c db).2 = db) ∨
    ∃ u timer data, loggedInAs decode a = some u ∧ body.parse J = some timer ∧
      (handle decode a c db).1 = .ok (.timer (timer.written data)) ∧
      NamesLive a.request db.toTables ∧
      Writes u a.request db.toTables (handle decode a c db).2.toTables := by
  obtain ⟨-, e, h⟩ | ⟨dbc, s, hid, hconn, h⟩ := handle_cases decode a
  · rw [h]
    exact .inl ⟨_, rfl, rfl⟩
  rw [h]
  rcases hrun : runHandler s c (handler dbc a.request) db with ⟨o, db'⟩
  obtain ⟨e, rfl, rfl⟩ | ⟨user, timer, data, hu, hparse, rfl, hlive, hwrites⟩ :=
    runHandler_timerBody hJ hid.loggedIn ha hrun
  · exact .inl ⟨e, rfl, rfl⟩
  · refine .inr ⟨user.sub, timer, data, ?_, hparse, rfl, hlive, hwrites⟩
    rw [loggedInAs_eq hconn, hu]
    rfl

variable (decode) in
/-- **What a request does to the timesheet**: nothing, where it ends with an
error; otherwise it writes as its user says, which for a timer is the user who
is logged in. -/
theorem handle_timesheet (hJ : J.TimestampLaws) (a : Arrival J) (c : ℕ → Choice) (db : Db) :
    (∃ e, (handle decode a c db).1 = .error e ∧
      (handle decode a c db).2.timesheet = db.timesheet) ∨
    (∃ reply, (handle decode a c db).1 = .ok reply ∧
      (∀ body, a.request ≠ .postTimer body ∧ a.request ≠ .modifyTimer body) ∧
      (handle decode a c db).2.timesheet = db.timesheet) ∨
    ∃ u reply, loggedInAs decode a = some u ∧ (handle decode a c db).1 = .ok reply ∧
      NamesLive a.request db.toTables ∧
      Writes u a.request db.toTables (handle decode a c db).2.toTables := by
  by_cases hr : ∀ body, a.request ≠ .postTimer body ∧ a.request ≠ .modifyTimer body
  · obtain ⟨-, e, h⟩ | ⟨dbc, s, hid, -, h⟩ := handle_cases decode a <;> rw [h]
    · exact .inl ⟨_, rfl, rfl⟩
    have hsame : (runHandler s c (handler dbc a.request) db).2.timesheet = db.timesheet :=
      runHandler_timesheet hid.loggedIn hr
    rcases hrun : (runHandler s c (handler dbc a.request) db).1 with e | reply
    · exact .inl ⟨e, rfl, hsame⟩
    · exact .inr (.inl ⟨reply, rfl, hr, hsame⟩)
  · obtain ⟨body, hbody⟩ : ∃ body, a.request = .postTimer body ∨ a.request = .modifyTimer body := by
      by_contra hnone
      apply hr
      intro body
      constructor <;> intro heq
      · exact hnone ⟨body, .inl heq⟩
      · exact hnone ⟨body, .inr heq⟩
    obtain ⟨e, he, hsame⟩ | ⟨u, timer, data, hu, -, hok, hlive, hwrites⟩ :=
      handle_timerBody decode hJ hbody c db
    · exact .inl ⟨e, he, by rw [hsame]⟩
    · exact .inr (.inr ⟨u, _, hu, hok, hlive, hwrites⟩)

/-! ### The rows of one user -/

section

variable {u v : Uuid} {r : Request J} {t t' : Tables} {m : Sheet}

/-- The rows of a user are where another one does not write. -/
theorem Writes.rowsOf_of_ne (h : Writes v r t t') (hne : v ≠ u) : rowsOf t' u = rowsOf t u := by
  have hother : (v == u) = false := beq_false_of_ne hne
  cases r with
  | postTimer body =>
      show t'.timesheet.filter _ = _
      have hrow : ((body.entry.row v body.startTime).userId == u) = false := hother
      rw [h, List.filter_append, List.filter_cons, hrow]
      exact List.append_nil _
  | modifyTimer body =>
      show t'.timesheet.filter _ = _
      rw [h]
      refine filter_setWhere fun row _ hp => ?_
      rw [Bool.and_eq_true, beq_iff_eq] at hp
      have hrow : (row.userId == u) = false := hp.1 ▸ hother
      exact ⟨hrow, hrow⟩
  | _ => exact congrArg _ h

/-- A row that is added has a key that no row had. -/
theorem Writes.key_absent (h : Writes u r t t') (hkeys : t'.Keys)
    (hm : Represents (Entry.row u) (rowsOf t u) m) {body : TimerBody}
    (hr : r = .postTimer body) : m body.startTime = none := by
  subst hr
  rcases hbody : m body.startTime with - | e
  · rfl
  · exfalso
    have hmem : e.row u body.startTime ∈ rowsOf t u := (hm _).mpr ⟨_, e, hbody, rfl⟩
    have hnodup := hkeys.timesheet
    change t'.timesheet = _ at h
    rw [h, List.map_append, List.nodup_append] at hnodup
    -- the old row and the new one agree on user and start time
    exact hnodup.2.2 _ (List.mem_map_of_mem (List.mem_of_mem_filter hmem)) _
      (List.mem_singleton_self _) rfl

/-- What a user writes is what their sheet records. -/
theorem Writes.represents (h : Writes u r t t') (hkeys : t'.Keys)
    (hm : Represents (Entry.row u) (rowsOf t u) m) :
    Represents (Entry.row u) (rowsOf t' u) (m.record r) := by
  cases r with
  | postTimer body =>
      have hrow : ((body.entry.row u body.startTime).userId == u) = true := beq_self_eq_true u
      have hrows : rowsOf t' u = rowsOf t u ++ [body.entry.row u body.startTime] := by
        show t'.timesheet.filter _ = _
        rw [h, List.filter_append, List.filter_cons, hrow]
        rfl
      rw [hrows]
      exact hm.append (h.key_absent hkeys hm rfl) body.entry
  | modifyTimer body =>
      have hrows : rowsOf t' u = setWhere
          (fun row => row.userId == u && row.startTime == body.startTime - Timestamptz.epochMicros)
          (fun row => body.entry.row row.userId body.startTime) (rowsOf t u) := by
        show t'.timesheet.filter _ = _
        rw [h]
        have hsame : ∀ row : TimesheetRow,
            ((body.entry.row row.userId body.startTime).userId == u) = (row.userId == u) :=
          fun _ => rfl
        exact filter_setWhere_comm hsame t.timesheet
      rw [hrows]
      refine hm.setWhere (fun k e => ?_) fun e => rfl
      simp only [Entry.row, beq_self_eq_true, Bool.true_and, beq_iff_eq, sub_left_inj]
  | _ =>
      have hrows : rowsOf t' u = rowsOf t u := congrArg _ h
      rw [hrows]
      exact hm

end

section

variable {u : Uuid} {a : Arrival J} {c : ℕ → Choice} {db : Db}

/-- A request that is not a success of the user leaves their rows alone. -/
theorem rowsOf_handle (hJ : J.TimestampLaws)
    (h : Succeeded decode u (a, (handle decode a c db).1) = false) :
    rowsOf (handle decode a c db).2.toTables u = rowsOf db.toTables u := by
  obtain ⟨e, -, hsame⟩ | ⟨reply, -, -, hsame⟩ | ⟨v, reply, hv, hok, -, hwrites⟩ :=
    handle_timesheet decode hJ a c db
  · exact congrArg _ hsame
  · exact congrArg _ hsame
  · refine hwrites.rowsOf_of_ne ?_
    rintro rfl
    rw [Succeeded, hv, hok, beq_self_eq_true] at h
    cases h

/-- A success of the user writes as their sheet records, and what it posts
was absent. -/
theorem succeeded_handle (hJ : J.TimestampLaws) {m : Sheet}
    (hm : Represents (Entry.row u) (rowsOf db.toTables u) m)
    (h : Succeeded decode u (a, (handle decode a c db).1) = true) :
    Represents (Entry.row u) (rowsOf (handle decode a c db).2.toTables u) (m.record a.request) ∧
      NamesLive a.request db.toTables ∧
      ∀ body, a.request = .postTimer body → m body.startTime = none := by
  rw [Succeeded, Bool.and_eq_true, beq_iff_eq] at h
  obtain ⟨e, he, -⟩ | ⟨reply, -, hother, hsame⟩ | ⟨v, reply, hv, -, hlive, hwrites⟩ :=
    handle_timesheet decode hJ a c db
  · rw [he] at h
    cases h.2
  · have hrows : rowsOf (handle decode a c db).2.toTables u = rowsOf db.toTables u :=
      congrArg _ hsame
    rw [hrows]
    refine ⟨?_, ?_, fun body hbody => absurd hbody (hother body).1⟩
    · cases hr : a.request with
      | postTimer body => exact absurd hr (hother body).1
      | modifyTimer body => exact absurd hr (hother body).2
      | _ => exact hm
    · cases hr : a.request with
      | postTimer body => exact absurd hr (hother body).1
      | modifyTimer body => exact absurd hr (hother body).2
      | _ => trivial
  · obtain rfl := Option.some.inj (h.1.symm.trans hv)
    have hkeys := (handle decode a c db).2.keys
    exact ⟨hwrites.represents hkeys hm, hlive, fun body => hwrites.key_absent hkeys hm⟩

end

/-! ### Runs -/

/-- One request and the sheet of a user. -/
theorem represents_handle (hJ : J.TimestampLaws) {u : Uuid} {db : Db} {m : Sheet}
    (hm : Represents (Entry.row u) (rowsOf db.toTables u) m) (a : Arrival J) (c : ℕ → Choice) :
    Represents (Entry.row u) (rowsOf (handle decode a c db).2.toTables u)
      (recordAll decode u m [(a, (handle decode a c db).1)]) := by
  rw [recordAll, List.filter_cons]
  cases h : Succeeded decode u (a, (handle decode a c db).1) with
  | false =>
      rw [rowsOf_handle hJ h]
      exact hm
  | true => exact (succeeded_handle hJ hm h).1

theorem recordAll_cons (u : Uuid) (m : Sheet) (o : Arrival J × Outcome J)
    (os : List (Arrival J × Outcome J)) :
    recordAll decode u m (o :: os) = recordAll decode u (recordAll decode u m [o]) os := by
  rw [recordAll, recordAll, recordAll, ← List.foldl_append, ← List.filter_append]
  rfl

/-- The rows of a user stay the graph of their sheet. -/
theorem represents_handleAll (hJ : J.TimestampLaws) {u : Uuid}
    (requests : List (Arrival J × (ℕ → Choice))) {db : Db} {m : Sheet}
    (hm : Represents (Entry.row u) (rowsOf db.toTables u) m) :
    Represents (Entry.row u) (rowsOf (handleAll decode requests db).toTables u)
      (recordAll decode u m (outcomes decode requests db)) := by
  induction requests generalizing db m with
  | nil => exact hm
  | cons r requests ih =>
      rw [outcomes, recordAll_cons]
      exact ih (represents_handle hJ hm r.1 r.2)

/-- **The timesheet is a map for every user.**  After any requests, one after
the other, the rows of a user are the graph of what their own successful
requests have recorded, one row for every start time.  The next request leaves
them alone unless it is a success of that user; such a one names a live timer,
and posts only where the sheet has no entry. -/
theorem timesheet_refines (hJ : J.TimestampLaws) (decode : String → Except String UserClaims)
    (requests : List (Arrival J × (ℕ → Choice))) (u : Uuid) :
    let db := handleAll decode requests migrated
    let sheet := recordAll decode u Sheet.empty (outcomes decode requests migrated)
    Represents (Entry.row u) (rowsOf db.toTables u) sheet ∧ (rowsOf db.toTables u).Nodup ∧
    ∀ (a : Arrival J) (c : ℕ → Choice),
      (Succeeded decode u (a, (handle decode a c db).1) = false →
        rowsOf (handle decode a c db).2.toTables u = rowsOf db.toTables u) ∧
      (Succeeded decode u (a, (handle decode a c db).1) = true →
        NamesLive a.request db.toTables ∧
        ∀ body, a.request = .postTimer body → sheet body.startTime = none) := by
  intro db sheet
  have hm : Represents (Entry.row u) (rowsOf db.toTables u) sheet :=
    represents_handleAll hJ requests represents_nil
  refine ⟨hm, ?_, fun a c => ⟨rowsOf_handle hJ, fun h => (succeeded_handle hJ hm h).2⟩⟩
  exact (List.Nodup.of_map _ db.keys.timesheet).filter _

/-- User 1 posts a timer, fails to post it once more, and modifies it. -/
def workday : List (Arrival Jiff.reference × (ℕ → Choice)) :=
  [(byUser (.postTimer ⟨1, 0, 1500000000, []⟩), fun _ => {}),
    (byUser (.postTimer ⟨2, 0, 300000000, []⟩), fun _ => {}),
    (byUser (.modifyTimer ⟨1, 0, 1600000000, [7]⟩), fun _ => {})]

theorem timesheet_refines_workday :
    recordAll oneUser 1 Sheet.empty (outcomes oneUser workday migrated) 0 =
        some ⟨1, 1600000000, [7]⟩ ∧
      Represents (Entry.row 1) (rowsOf (handleAll oneUser workday migrated).toTables 1)
        (recordAll oneUser 1 Sheet.empty (outcomes oneUser workday migrated)) :=
  ⟨by decide, (timesheet_refines Jiff.reference_timestampLaws oneUser workday 1).1⟩

end Lockinspiel
