/-
Lockinspiel/LatestTimer.lean

What `get_timers` shows before and after `delete_time_split`.

The query of `get_timers` joins the timesheet with the timers that are not
deleted, and takes the row with the greatest start time of what is left.  So a
row whose timer is deleted is not shown with its time split, as the
documentation of `DeleteTimeSplitRoute` has it: it is not shown at all, and an
older one stands in its place.  `getTimers_delete` says when this does not
happen.
-/
import Lockinspiel.Timesheet

namespace Lockinspiel

open Effects Sql

variable {J : Jiff} {decode : String → Except String UserClaims}

/-! ### Rows that can be read -/

/-- The columns of a row of the timesheet were written from a timer. -/
structure Recorded (J : Jiff) (r : TimesheetRow) : Prop where
  startTime : ∃ t, Timestamptz.fromSql J r.startTime = some t ∧
    Timestamptz.toSql J t = some r.startTime
  endTime : ∃ t, Timestamptz.fromSql J r.endTime = some t
  timeSplitTimer : ∃ id, r.timeSplitTimer = some id

/-- The row that is written for a body that was parsed. -/
theorem recorded_row (hJ : J.TimestampLaws) {body : TimerBody} {timer : InsertableTimer J}
    {values : TimesheetValues} (hparse : body.parse J = some timer)
    (hvalues : timer.values = some values) (u : Uuid) : Recorded J (values.row u) := by
  obtain ⟨values', hvalues', -, -, hrow⟩ := values_of_parse hJ hparse
  obtain rfl := Option.some.inj (hvalues.symm.trans hvalues')
  rw [hrow u]
  obtain ⟨startTime, hstart, hparse⟩ := Option.bind_eq_some_iff.mp hparse
  obtain ⟨endTime, hend, -⟩ := Option.bind_eq_some_iff.mp hparse
  exact ⟨⟨startTime, Timestamptz.fromSql_deserialize hJ hstart,
    Timestamptz.toSql_deserialize hJ hstart⟩,
    ⟨endTime, Timestamptz.fromSql_deserialize hJ hend⟩, ⟨_, rfl⟩⟩

/-- A statement of a request keeps the timesheet recorded. -/
theorem recorded_exec (hJ : J.TimestampLaws) {l : Context J} {past : List sql.Event} {st : Stmt}
    {k : sql.Res st → Program sql (Outcome J)} (hsound : Sound decode ⟨l, past, .call st k⟩)
    (c : Choice) (db : Db) (h : ∀ r ∈ db.timesheet, Recorded J r) :
    ∀ r ∈ (st.exec l.session c db).2.timesheet, Recorded J r := by
  obtain ⟨dbc, -, hasks⟩ := hsound.working
  obtain ⟨e, he⟩ | ⟨ret, db', he, hdoes⟩ := Stmt.exec_cases hsound.loggedIn c st db <;> rw [he]
  · exact h
  generalize l.arrival.request = req at hasks
  intro r hr
  obtain heq | ⟨values, u, rfl, heq⟩ | ⟨u, startTime, values, rfl, heq⟩ := hdoes.timesheet_cases
  · exact h r (heq ▸ hr)
  · rw [heq] at hr
    cases hasks with
    | insertTimesheet hu hparse hrow hvalues =>
        obtain hr | hr := List.mem_append.mp hr
        · exact h r hr
        · rw [List.mem_singleton.mp hr]
          exact recorded_row hJ hparse hvalues _
  · rw [heq] at hr
    cases hasks with
    | updateTimesheet hu hparse hrow hvalues =>
        obtain ⟨r₀, -, -, rfl⟩ | ⟨hr, -⟩ := mem_setWhere.mp hr
        · exact recorded_row hJ hparse hvalues _
        · exact h r hr

/-- The timesheet is recorded in every run. -/
theorem recorded_run (hJ : J.TimestampLaws) (acts : List (Act (Arrival J) Choice)) :
    ∀ r ∈ ((service decode).run acts initial).shared.timesheet, Recorded J r := by
  refine store_run (I := fun db => ∀ r ∈ db.timesheet, Recorded J r) ?_ acts initial ?_ ?_
  · intro l past st k hsound c db h
    exact recorded_exec hJ hsound c db h
  · intro t ht
    cases ht
  · intro r hr
    cases hr

/-! ### What is shown -/

/-- The rows of a user, each with its timer. -/
def posted (t : Tables) (u : Uuid) : List (TimesheetRow × TimeSplitTimerRow) :=
  join { t with timesheet := rowsOf t u }

/-- The greatest start time comes first. -/
def recency (p : TimesheetRow × TimeSplitTimerRow) : ℤ := -p.1.startTime

def live (p : TimesheetRow × TimeSplitTimerRow) : Bool := !p.2.deleted

/-- What `get_timers` shows to a user. -/
def shownTimer (t : Tables) (u : Uuid) : Option (TimesheetRow × TimeSplitTimerRow) :=
  (orderBy recency ((posted t u).filter live)).head?

/-- The row of a user with the greatest start time, and its timer. -/
def IsLatest (t : Tables) (u : Uuid) (p : TimesheetRow × TimeSplitTimerRow) : Prop :=
  p.1 ∈ rowsOf t u ∧ (∀ r ∈ rowsOf t u, r.startTime ≤ p.1.startTime) ∧
    p.2 ∈ t.timeSplitTimer ∧ p.1.timeSplitTimer = some p.2.id

/-- The outcome is the latest row of the user, or nothing if they have none. -/
def ShowsLatest (t : Tables) (u : Uuid) (o : Outcome J) : Prop :=
  (∀ p, IsLatest t u p → ∃ timer, Timer.ofRow p = some timer ∧ o = .ok (.timers [timer])) ∧
    (rowsOf t u = [] → o = .ok (.timers []))

theorem mem_join {t : Tables} {p : TimesheetRow × TimeSplitTimerRow} :
    p ∈ join t ↔ p.1 ∈ t.timesheet ∧ p.2 ∈ t.timeSplitTimer ∧ p.1.timeSplitTimer = some p.2.id := by
  rcases p with ⟨r, timer⟩
  simp only [join, List.mem_flatMap, List.mem_map, List.mem_filter, beq_iff_eq, Prod.mk.injEq]
  constructor
  · rintro ⟨r', hr, timer', ⟨htimer, hid⟩, rfl, rfl⟩
    exact ⟨hr, htimer, hid⟩
  · rintro ⟨hr, htimer, hid⟩
    exact ⟨r, hr, timer, ⟨htimer, hid⟩, rfl, rfl⟩

theorem mem_posted {t : Tables} {u : Uuid} {p : TimesheetRow × TimeSplitTimerRow} :
    p ∈ posted t u ↔
      p.1 ∈ rowsOf t u ∧ p.2 ∈ t.timeSplitTimer ∧ p.1.timeSplitTimer = some p.2.id :=
  mem_join

section

variable {db : Db} {u : Uuid}

/-- No two rows of a user have the same start time, nor two timers. -/
theorem posted_inj : ∀ a ∈ posted db.toTables u, ∀ b ∈ posted db.toTables u,
    recency a = recency b → a = b := by
  rintro ⟨r, timer⟩ ha ⟨r', timer'⟩ hb hkey
  obtain ⟨hr, htimer, hid⟩ := mem_posted.mp ha
  obtain ⟨hr', htimer', hid'⟩ := mem_posted.mp hb
  obtain ⟨hr, hu⟩ := List.mem_filter.mp hr
  obtain ⟨hr', hu'⟩ := List.mem_filter.mp hr'
  have hsame : (r.userId, r.startTime) = (r'.userId, r'.startTime) := by
    rw [beq_iff_eq] at hu hu'
    rw [hu, hu', neg_inj.mp hkey]
  obtain rfl : r = r' := List.inj_on_of_nodup_map db.keys.timesheet hr hr' hsame
  obtain rfl : timer = timer' := List.inj_on_of_nodup_map db.keys.timeSplitTimer htimer htimer'
    (Option.some.inj (hid.symm.trans hid'))
  rfl

theorem live_inj : ∀ a ∈ (posted db.toTables u).filter live,
    ∀ b ∈ (posted db.toTables u).filter live, recency a = recency b → a = b :=
  fun a ha b hb => posted_inj a (List.mem_of_mem_filter ha) b (List.mem_of_mem_filter hb)

/-- Every row of a user has a timer. -/
theorem exists_posted (hrec : ∀ r ∈ db.timesheet, Recorded J r) {r : TimesheetRow}
    (hr : r ∈ rowsOf db.toTables u) : ∃ timer, (r, timer) ∈ posted db.toTables u := by
  have hmem : r ∈ db.timesheet := List.mem_of_mem_filter hr
  obtain ⟨id, hid⟩ := (hrec r hmem).timeSplitTimer
  obtain ⟨timer, htimer, rfl⟩ := List.mem_map.mp (db.references.timesheet r hmem id hid)
  exact ⟨timer, mem_posted.mpr ⟨hr, htimer, hid⟩⟩

/-- The first row of all is the latest one. -/
theorem isLatest_iff (hrec : ∀ r ∈ db.timesheet, Recorded J r)
    {p : TimesheetRow × TimeSplitTimerRow} :
    IsLatest db.toTables u p ↔ (orderBy recency (posted db.toTables u)).head? = some p := by
  rw [head?_orderBy_iff posted_inj, mem_posted]
  constructor
  · rintro ⟨hr, hmax, htimer⟩
    refine ⟨⟨hr, htimer⟩, fun p' hp' => ?_⟩
    exact Int.neg_le_neg (hmax p'.1 (mem_posted.mp hp').1)
  · rintro ⟨⟨hr, htimer⟩, hmin⟩
    refine ⟨hr, fun r hr' => ?_, htimer⟩
    obtain ⟨timer, hmem⟩ := exists_posted hrec hr'
    exact Int.neg_le_neg_iff.mp (hmin _ hmem)

theorem posted_eq_nil (hrec : ∀ r ∈ db.timesheet, Recorded J r) :
    rowsOf db.toTables u = [] ↔ posted db.toTables u = [] := by
  constructor
  · intro h
    rw [posted, h]
    rfl
  · intro h
    rw [List.eq_nil_iff_forall_not_mem]
    intro r hr
    obtain ⟨timer, hmem⟩ := exists_posted hrec hr
    rw [h] at hmem
    cases hmem

/-! ### Rows as timers -/

/-- Every recorded row is read as a timer, from which its start time can be
told. -/
theorem exists_ofRow {p : TimesheetRow × TimeSplitTimerRow} (h : Recorded J p.1) :
    ∃ timer : Timer J, Timer.ofRow p = some timer ∧
      Timestamptz.toSql J timer.startTime = some p.1.startTime := by
  obtain ⟨startTime, hstart, hback⟩ := h.startTime
  obtain ⟨endTime, hend⟩ := h.endTime
  let timer : Timer J :=
    { timeSplitTimer := p.1.timeSplitTimer, startTime, endTime, tags := p.1.tags,
      timeSplitData := { timeSplitId := p.2.timeSplitId, work := p.2.work } }
  refine ⟨timer, ?_, hback⟩
  rw [Timer.ofRow, hstart, hend]
  rfl

/-- The reply of `get_timers` for the row it shows. -/
def timersReply (J : Jiff) (o : Option (TimesheetRow × TimeSplitTimerRow)) : Outcome J :=
  .ok (.timers (o.toList.filterMap Timer.ofRow))

/-- Different rows of a user are different replies. -/
theorem timersReply_inj (hrec : ∀ r ∈ db.timesheet, Recorded J r)
    {o o' : Option (TimesheetRow × TimeSplitTimerRow)}
    (ho : ∀ p ∈ o, p ∈ posted db.toTables u) (ho' : ∀ p ∈ o', p ∈ posted db.toTables u) :
    timersReply J o = timersReply J o' ↔ o = o' := by
  refine ⟨fun h => ?_, fun h => by rw [h]⟩
  have hread : ∀ p ∈ posted db.toTables u, ∃ timer : Timer J, Timer.ofRow p = some timer ∧
      Timestamptz.toSql J timer.startTime = some p.1.startTime :=
    fun p hp => exists_ofRow (hrec _ (List.mem_of_mem_filter (mem_posted.mp hp).1))
  rw [timersReply, timersReply, Except.ok.injEq, Reply.timers.injEq] at h
  -- a row can be read, so it is told from no row, and its start time from others
  cases o with
  | none =>
      cases o' with
      | none => rfl
      | some p' =>
          obtain ⟨timer', htimer', -⟩ := hread p' (ho' p' rfl)
          simp [htimer'] at h
  | some p =>
      obtain ⟨timer, htimer, hstart⟩ := hread p (ho p rfl)
      cases o' with
      | none => simp [htimer] at h
      | some p' =>
          obtain ⟨timer', htimer', hstart'⟩ := hread p' (ho' p' rfl)
          have htimers : timer = timer' := by simpa [htimer, htimer'] using h
          have hsame : p.1.startTime = p'.1.startTime := by
            rw [htimers, hstart'] at hstart
            exact (Option.some.inj hstart).symm
          have hkey : recency p = recency p' := congrArg Neg.neg hsame
          exact congrArg some (posted_inj p (ho p rfl) p' (ho' p' rfl) hkey)

end

/-! ### `get_timers` and `delete_time_split` -/

section

variable {db : Db} {u : Uuid} {c : ℕ → Choice}

/-- The rows that the query of `get_timers` answers, whatever its plan: no two
of them have the same key. -/
theorem shownTimer_eq (plan : List ℕ) :
    (orderBy (fun p => -p.1.startTime) (pick plan (join
      { db.toTables with
        timesheet := rowsOf db.toTables u
        timeSplitTimer := db.timeSplitTimer.filter fun r => !r.deleted }))).take 1 =
      (shownTimer db.toTables u).toList := by
  have hrows : ∀ p, p ∈ pick plan (join
      { db.toTables with
        timesheet := rowsOf db.toTables u
        timeSplitTimer := db.timeSplitTimer.filter fun r => !r.deleted }) ↔
      p ∈ (posted db.toTables u).filter live := by
    intro p
    simp only [mem_pick, mem_join, List.mem_filter, mem_posted, live]
    constructor
    · rintro ⟨hr, ⟨htimer, hlive⟩, hid⟩
      exact ⟨⟨hr, htimer, hid⟩, hlive⟩
    · rintro ⟨⟨hr, htimer, hid⟩, hlive⟩
      exact ⟨hr, ⟨htimer, hlive⟩, hid⟩
  rw [List.take_one]
  exact congrArg Option.toList (head?_orderBy_congr live_inj hrows)

theorem mem_posted_of_shown {p : TimesheetRow × TimeSplitTimerRow}
    (h : p ∈ shownTimer db.toTables u) : p ∈ posted db.toTables u :=
  List.mem_of_mem_filter ((head?_orderBy_iff live_inj).mp h).1

/-- `get_timers` with nobody in between. -/
theorem handle_getTimers {g : Arrival J} (hg : g.request = .getTimers)
    (hu : loggedInAs decode g = some u) (hc : (c 0).fails = false)
    (hrec : ∀ r ∈ db.timesheet, Recorded J r) :
    (handle decode g c db).1 = timersReply J (shownTimer db.toTables u) := by
  obtain ⟨dbc, s, hid, hsub, h⟩ := handle_of_loggedIn hu
  have hexec : (Stmt.selectTimers (some u)).exec s (c 0) db =
      (.ok (shownTimer db.toTables u).toList, db) := by
    rw [Stmt.exec_selectTimers hid.loggedIn, hc, ← shownTimer_eq (c 0).plan]
    rfl
  have hread : ∀ p ∈ (shownTimer db.toTables u).toList, (Timer.ofRow (J := J) p).isSome := by
    intro p hp
    have hmem := mem_posted_of_shown (Option.mem_toList.mp hp)
    obtain ⟨timer, htimer, -⟩ :=
      exists_ofRow (hrec _ (List.mem_of_mem_filter (mem_posted.mp hmem).1))
    rw [htimer]
    rfl
  rw [h, hg, handler, getTimers, hsub, runHandler_query, hexec]
  dsimp only
  rw [runHandler_orPanic, mapM_eq_filterMap hread]
  rfl

end

/-- The timers that a request deletes: those of its time split, where it is a
deletion by the owner whose first statement does not fail. -/
def deletes (decode : String → Except String UserClaims) (d : Arrival J) (c : ℕ → Choice)
    (t : Tables) (timer : TimeSplitTimerRow) : Bool :=
  match d.request with
  | .deleteTimeSplit id =>
      !(c 0).fails && (loggedInAs decode d).any (fun v => t.owns v id) && timer.timeSplitId == id
  | _ => false

/-- A session of a user may write the timers of the time splits they own. -/
theorem Identified.mayWriteTimers_eq {header : Authorization} {dbc : DatabaseConnection}
    {s : Session} (hid : Identified decode header dbc s) {user : UserClaims}
    (hu : dbc.user = some user) (t : Tables) (id : ℤ) :
    s.mayWriteTimers t id = t.owns user.sub id := by
  simp only [Session.mayWriteTimers, hid.mayWrite_eq hu]
  rfl

/-- The second statement of a deletion is not about timers; the deletion ends
with its error, or well. -/
theorem runHandler_deleteSecond {s : Session} (hs : s.LoggedIn) (hrole : s.role = .authenticated)
    (c : ℕ → Choice) (id : ℤ) (db : Db) :
    let o := runHandler s c (do
      let _ ← query (.deleteTimeSplit id) "Failed to delete time split in database"
        .internalServerError
      return (.unit : Reply J)) db
    ((c 0).fails = true ∧ ∃ e, o = (.error (.error e), db)) ∨
      ((c 0).fails = false ∧ o.1 = .ok .unit ∧ o.2.timesheet = db.timesheet ∧
        o.2.timeSplitTimer = db.timeSplitTimer) := by
  intro o
  cases hf : (c 0).fails with
  | true =>
      refine .inl ⟨rfl, ?_⟩
      rw [show o = _ from runHandler_query .., Stmt.exec_fails hf]
      exact ⟨_, rfl⟩
  | false =>
      have hst : Stmt.deleteTimeSplit id = .deleteTimeSplit id := rfl
      obtain ⟨ret, db', he, hdoes⟩ := Stmt.exec_delete hs hrole hf (.inr hst) db
      refine .inr ⟨rfl, ?_⟩
      rw [show o = _ from runHandler_query .., he]
      show _ ∧ db'.timesheet = _ ∧ db'.timeSplitTimer = _
      rw [hdoes]
      exact ⟨rfl, rfl, rfl⟩

section

variable {d : Arrival J} {id : ℤ}

/-- Nobody is logged in: nothing is deleted. -/
theorem deletes_of_nobody (hd : d.request = .deleteTimeSplit id)
    (hnobody : loggedInAs decode d = none) (c : ℕ → Choice) (t : Tables)
    (timer : TimeSplitTimerRow) : deletes decode d c t timer = false := by
  rw [deletes, hd]
  simp only [hnobody, Option.any_none, Bool.and_false, Bool.false_and]

/-- A user is logged in: the policies decide. -/
theorem deletes_of_user {header : Authorization} {dbc : DatabaseConnection} {s : Session}
    (hd : d.request = .deleteTimeSplit id) (hid : Identified decode header dbc s)
    {user : UserClaims} (hu : dbc.user = some user)
    (hlogged : loggedInAs decode d = dbc.user.map UserClaims.sub) (c : ℕ → Choice) (t : Tables)
    (timer : TimeSplitTimerRow) :
    deletes decode d c t timer =
      (!(c 0).fails && (s.mayWriteTimers t timer.timeSplitId && timer.timeSplitId == id)) := by
  rw [hu] at hlogged
  rw [deletes, hd]
  simp only [hlogged, Option.map_some, Option.any_some, hid.mayWriteTimers_eq hu, Bool.and_assoc]
  by_cases htimer : timer.timeSplitId = id
  · rw [htimer]
  · simp only [beq_false_of_ne htimer, Bool.and_false]

variable (decode) in
/-- **What a deletion does.**  Nothing, if its first statement is refused;
otherwise it deletes the timers of its time split, and its second statement
fails, or the deletion ends well. -/
theorem handle_delete_cases (hd : d.request = .deleteTimeSplit id) (c : ℕ → Choice) (db : Db) :
    ((∀ timer, deletes decode d c db.toTables timer = false) ∧
      ∃ e, handle decode d c db = (.error (.error e), db)) ∨
    ∃ db₁, db₁.toTables = { db.toTables with
        timeSplitTimer := setWhere (deletes decode d c db.toTables) TimeSplitTimerRow.setDeleted
          db.timeSplitTimer } ∧
      (((c 1).fails = true ∧ ∃ e, handle decode d c db = (.error (.error e), db₁)) ∨
        ((c 1).fails = false ∧ (handle decode d c db).1 = .ok .unit ∧
          (handle decode d c db).2.timesheet = db₁.timesheet ∧
          (handle decode d c db).2.timeSplitTimer = db₁.timeSplitTimer)) := by
  obtain ⟨hfailed, e, h⟩ | ⟨dbc, s, hid, hconn, h⟩ := handle_cases decode d
  · exact .inl ⟨deletes_of_nobody hd (loggedInAs_of_failed hfailed) c _, e, h c db⟩
  have hlogged := loggedInAs_eq hconn
  rw [h, hd, handler, deleteTimeSplit, runHandler_query]
  cases hu : dbc.user with
  | none =>
      -- nobody is logged in, and Postgres refuses the statement
      rw [hu] at hlogged
      obtain ⟨e, he⟩ | ⟨ret, db₁, -, hrole, -⟩ :=
        Stmt.exec_cases hid.loggedIn (c 0) (.deleteTimeSplitTimers id) db
      · rw [he]
        exact .inl ⟨deletes_of_nobody hd hlogged c _, _, rfl⟩
      · rw [hid.session_eq, hu] at hrole
        cases hrole
  | some user =>
      have hrole : s.role = .authenticated := by
        rw [hid.session_eq, hu]
        rfl
      have hdeletes := deletes_of_user hd hid hu hlogged c db.toTables
      cases hf : (c 0).fails with
      | true =>
          rw [Stmt.exec_fails hf]
          refine .inl ⟨fun timer => ?_, _, rfl⟩
          rw [hdeletes, hf]
          rfl
      | false =>
          have hst : Stmt.deleteTimeSplitTimers id = .deleteTimeSplitTimers id := rfl
          obtain ⟨ret, db₁, he, -, hdb₁⟩ := Stmt.exec_delete hid.loggedIn hrole hf (.inl hst) db
          rw [he]
          refine .inr ⟨db₁, ?_, runHandler_deleteSecond hid.loggedIn hrole (fun n => c (n + 1))
            id db₁⟩
          rw [hdb₁, funext hdeletes, hf]
          rfl

variable (decode) in
/-- Of the rows of `get_timers` a deletion changes the timers of its time split,
and nothing else. -/
theorem handle_delete (hd : d.request = .deleteTimeSplit id) (c : ℕ → Choice) (db : Db) :
    (handle decode d c db).2.timesheet = db.timesheet ∧
    (handle decode d c db).2.timeSplitTimer =
      setWhere (deletes decode d c db.toTables) TimeSplitTimerRow.setDeleted db.timeSplitTimer := by
  obtain ⟨hnone, e, h⟩ | ⟨db₁, hdb₁, ⟨-, e, h⟩ | ⟨-, -, hsheet, htimers⟩⟩ :=
    handle_delete_cases decode hd c db
  · rw [h, setWhere_false hnone]
    exact ⟨rfl, rfl⟩
  · rw [h, hdb₁]
    exact ⟨rfl, rfl⟩
  · rw [hsheet, htimers, hdb₁]
    exact ⟨rfl, rfl⟩

end

/-! ### Before and after -/

/-- A request of `get_timers` of the user, whose query is answered. -/
structure Reads (decode : String → Except String UserClaims) (u : Uuid) (g : Arrival J)
    (c : ℕ → Choice) : Prop where
  request : g.request = .getTimers
  user : loggedInAs decode g = some u
  answered : (c 0).fails = false

section

variable {db : Db} {u : Uuid} {d : Arrival J} {c : ℕ → Choice} {id : ℤ}

/-- After a deletion the first of the rows is shown whose timer was live and is
not deleted now. -/
theorem shownTimer_delete (hd : d.request = .deleteTimeSplit id) :
    shownTimer (handle decode d c db).2.toTables u =
      (orderBy recency (((posted db.toTables u).filter live).filter fun p =>
        !deletes decode d c db.toTables p.2)).head? := by
  obtain ⟨hsheet, htimers⟩ := handle_delete decode hd c db
  have hrows : rowsOf (handle decode d c db).2.toTables u = rowsOf db.toTables u :=
    congrArg _ hsheet
  refine head?_orderBy_congr (fun a ha b hb => ?_) fun p => ?_
  · exact live_inj a (List.mem_of_mem_filter ha) b (List.mem_of_mem_filter hb)
  · simp only [List.mem_filter, mem_posted, hrows, htimers, live, mem_setWhere]
    constructor
    · rintro ⟨⟨hr, ⟨timer, -, -, htimer⟩ | ⟨hmem, hno⟩, hid⟩, hlive⟩
      · -- a timer that was deleted is not live
        rw [← htimer] at hlive
        cases hlive
      · exact ⟨⟨⟨hr, hmem, hid⟩, hlive⟩, by rw [hno]; rfl⟩
    · rintro ⟨⟨⟨hr, hmem, hid⟩, hlive⟩, hno⟩
      rw [Bool.not_eq_true'] at hno
      exact ⟨⟨hr, .inr ⟨hmem, hno⟩, hid⟩, hlive⟩

/-- The outcome shows the latest row if it is the reply for the first row of
all. -/
theorem showsLatest_iff (hrec : ∀ r ∈ db.timesheet, Recorded J r) {o : Outcome J} :
    ShowsLatest db.toTables u o ↔
      o = timersReply J (orderBy recency (posted db.toTables u)).head? := by
  have hnone : rowsOf db.toTables u = [] ↔
      (orderBy recency (posted db.toTables u)).head? = none :=
    (posted_eq_nil hrec).trans head?_orderBy_eq_none.symm
  rw [ShowsLatest, hnone]
  simp only [isLatest_iff hrec]
  rcases hfirst : (orderBy recency (posted db.toTables u)).head? with - | p
  · simp [timersReply]
  · have hmem := mem_posted.mp ((head?_orderBy_iff posted_inj).mp hfirst).1
    obtain ⟨timer, htimer, -⟩ := exists_ofRow (hrec _ (List.mem_of_mem_filter hmem.1))
    simp [timersReply, htimer]

end

/-- **When a deletion leaves the timers of a user alone.**  In every reachable
database, `get_timers` shows the latest row of the user with the data of its
timer, before and after a deletion, exactly if the timer of this row is
neither deleted already nor one of those that the request deletes. -/
theorem getTimers_delete (hJ : J.TimestampLaws) (decode : String → Except String UserClaims)
    (acts : List (Act (Arrival J) Choice)) (u : Uuid) {g g' d : Arrival J}
    {cg cg' : ℕ → Choice} (hg : Reads decode u g cg) (hg' : Reads decode u g' cg') {id : ℤ}
    (hd : d.request = .deleteTimeSplit id) (c : ℕ → Choice) :
    let db := ((service decode).run acts initial).shared
    let db' := (handle decode d c db).2
    ((handle decode g' cg' db').1 = (handle decode g cg db).1 ∧
      ShowsLatest db.toTables u (handle decode g cg db).1) ↔
    ∀ p, IsLatest db.toTables u p →
      p.2.deleted = false ∧ deletes decode d c db.toTables p.2 = false := by
  intro db db'
  have hrec : ∀ r ∈ db.timesheet, Recorded J r := recorded_run hJ acts
  have hrec' : ∀ r ∈ db'.timesheet, Recorded J r := by
    intro r hr
    rw [(handle_delete decode hd c db).1] at hr
    exact hrec r hr
  have hbefore := handle_getTimers hg.request hg.user hg.answered hrec
  have hafter := handle_getTimers hg'.request hg'.user hg'.answered hrec'
  rw [shownTimer_delete hd] at hafter
  rw [hbefore, hafter, showsLatest_iff hrec]
  -- all three rows, if they are there, are among those the user has posted
  have hfirst : ∀ p ∈ (orderBy recency (posted db.toTables u)).head?, p ∈ posted db.toTables u :=
    fun p hp => mem_orderBy.mp (List.mem_of_head? hp)
  have hshown : ∀ p ∈ shownTimer db.toTables u, p ∈ posted db.toTables u :=
    fun p hp => mem_posted_of_shown hp
  have hleft : ∀ p ∈ (orderBy recency (((posted db.toTables u).filter live).filter fun p =>
      !deletes decode d c db.toTables p.2)).head?, p ∈ posted db.toTables u := by
    intro p hp
    have hmem := mem_orderBy.mp (List.mem_of_head? hp)
    exact List.mem_of_mem_filter (List.mem_of_mem_filter hmem)
  rw [timersReply_inj hrec hleft hshown, timersReply_inj hrec hshown hfirst, shownTimer,
    head?_orderBy_filter live_inj]
  simp only [isLatest_iff hrec, Bool.not_eq_true']
  constructor
  · -- nothing older stands in, so the row that is shown is the first of all
    rintro ⟨hno, hsame⟩ p hp
    have hlive := (head?_orderBy_filter posted_inj live).mp hsame p hp
    rw [live, Bool.not_eq_true'] at hlive
    exact ⟨hlive, hno p (hsame.trans hp)⟩
  · intro h
    have hsame : (orderBy recency ((posted db.toTables u).filter live)).head? =
        (orderBy recency (posted db.toTables u)).head? := by
      refine (head?_orderBy_filter posted_inj live).mpr fun p hp => ?_
      rw [live, (h p hp).1]
      rfl
    exact ⟨fun p hp => (h p (hsame.symm.trans hp)).2, hsame⟩

/-- User 1 creates time split 5 with timer 11 and posts a timer with it. -/
def postedWithSplit : List (Act (Arrival Jiff.reference) Choice) :=
  [.arrive (byUser (.createTimeSplit oneTimer)), .step 0 (drawing 5), .step 0 (drawing 11),
    .arrive (byUser (.postTimer ⟨11, 0, 1500000000, []⟩)), .step 1 {}, .step 1 {}]

/-- The data of the timers of a reply. -/
def timerData : Outcome J → Option (List TimeSplitData)
  | .ok (.timers timers) => some (timers.map Timer.timeSplitData)
  | _ => none

/-- The timer is shown with time split 5, and after the deletion of the time
split no timer is shown. -/
theorem getTimers_deleted :
    let db := ((service oneUser).run postedWithSplit initial).shared
    let db' := (handle oneUser (byUser (.deleteTimeSplit 5)) (fun _ => {}) db).2
    let before := (handle oneUser (byUser .getTimers) (fun _ => {}) db).1
    let after := (handle oneUser (byUser .getTimers) (fun _ => {}) db').1
    timerData before = some [⟨5, true⟩] ∧ timerData after = some [] ∧
      ¬ (after = before ∧ ShowsLatest db.toTables 1 before) := by
  intro db db' before after
  have hbefore : timerData before = some [⟨5, true⟩] := by decide
  have hafter : timerData after = some [] := by decide
  refine ⟨hbefore, hafter, ?_⟩
  rintro ⟨hsame, -⟩
  rw [hsame, hbefore] at hafter
  cases hafter

theorem reads_user (c : ℕ → Choice) (hc : (c 0).fails = false) :
    Reads oneUser 1 (byUser .getTimers) c :=
  ⟨rfl, by decide, hc⟩

/-- The deletion of another time split changes nothing. -/
theorem getTimers_delete_other :
    let db := ((service oneUser).run postedWithSplit initial).shared
    let db' := (handle oneUser (byUser (.deleteTimeSplit 1)) (fun _ => {}) db).2
    ((handle oneUser (byUser .getTimers) (fun _ => {}) db').1 =
        (handle oneUser (byUser .getTimers) (fun _ => {}) db).1 ∧
      ShowsLatest db.toTables 1 (handle oneUser (byUser .getTimers) (fun _ => {}) db).1) := by
  refine (getTimers_delete Jiff.reference_timestampLaws oneUser postedWithSplit 1
    (reads_user _ rfl) (reads_user _ rfl) (d := byUser (.deleteTimeSplit 1)) rfl _).mpr ?_
  rintro p ⟨hr, -, htimer, hid⟩
  have hrows : rowsOf ((service oneUser).run postedWithSplit initial).shared.toTables 1 =
      [Entry.row 1 0 ⟨11, 1500000000, []⟩] := by decide
  have htimers : ∀ timer ∈ ((service oneUser).run postedWithSplit initial).shared.timeSplitTimer,
      timer.id = 11 → timer.deleted = false ∧
        deletes oneUser (byUser (.deleteTimeSplit 1)) (fun _ => {})
          ((service oneUser).run postedWithSplit initial).shared.toTables timer = false := by
    decide
  rw [hrows] at hr
  rw [List.mem_singleton.mp hr] at hid
  exact htimers p.2 htimer (Option.some.inj hid).symm

end Lockinspiel
