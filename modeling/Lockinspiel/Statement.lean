/-
Lockinspiel/Statement.lean

The SQL statements of the timekeeper handlers, one constructor for each query
that diesel builds from a handler, and what Postgres does on one of them.

A statement is atomic: it goes through, or it fails and leaves the database as
it was.  This is an assumption where the connection is lost: a statement that
Postgres has committed, and whose answer does not arrive, is an error for the
handler, and such a lost acknowledgement is not modelled: an error of a
statement means that it had no effect.  What the repository does not decide is the `Choice` of the
statement: whether it fails for a reason outside the database (a lost
connection), the ids it draws from a sequence, and the order of an answer
without `ORDER BY`.  A statement that reads only cannot fail otherwise in the
session of a request; a statement that writes can also be refused by a grant,
a policy, a constraint, a NUL character in a text, or the limit of bind
parameters and of timestamps.

`Stmt.exec_cases` says once what a statement can do to the database: nothing,
or what `Stmt.Does` allows in the session.
-/
import Lockinspiel.Schema

namespace Lockinspiel

open Effects Sql

/-! ### Statements -/

/-- One tuple of the `VALUES` of `time_split_timer`. -/
structure TimeSplitTimerValues where
  len : PgInterval
  name : String
  work : Bool
  orderIdx : ℤ
  timeSplitId : ℤ
deriving DecidableEq

/-- The columns that `InsertableTimer` writes. -/
structure TimesheetValues where
  timeSplitTimer : ℤ
  startTime : ℤ
  endTime : ℤ
  tags : List ℤ
deriving DecidableEq

inductive Stmt
  /-- `INSERT INTO tag .. RETURNING id` -/
  | insertTag (name : String) (userId : Uuid)
  /-- `SELECT .. FROM tag WHERE NOT deleted AND user_id = ANY(..)` -/
  | selectTags (userIds : List Uuid)
  /-- `UPDATE tag SET name = .. WHERE id = ..` -/
  | updateTag (id : ℤ) (name : String)
  /-- `UPDATE tag SET deleted = true WHERE id = ..` -/
  | deleteTag (id : ℤ)
  /-- `INSERT INTO time_split .. RETURNING id` -/
  | insertTimeSplit (name : String) (description : Option String) (userId : Uuid)
  /-- `INSERT INTO time_split_timer .. RETURNING ..` -/
  | insertTimeSplitTimers (values : List TimeSplitTimerValues)
  /-- `SELECT .. FROM time_split WHERE NOT deleted AND (user_id = .. OR user_id IS NULL)` -/
  | selectTimeSplits (userId : Uuid)
  /-- `SELECT .. FROM time_split_timer WHERE NOT deleted AND time_split_id = ANY(..)
  ORDER BY order_idx` -/
  | selectTimeSplitTimers (timeSplitIds : List ℤ)
  /-- `UPDATE time_split SET name = .., description = .. WHERE id = ..`, without the
  description where it is `None` -/
  | updateTimeSplit (id : ℤ) (name : String) (description : Option String)
  /-- `UPDATE time_split_timer SET deleted = true WHERE time_split_id = ..` -/
  | deleteTimeSplitTimers (timeSplitId : ℤ)
  /-- `UPDATE time_split SET deleted = true WHERE id = ..` -/
  | deleteTimeSplit (id : ℤ)
  /-- `SELECT .. FROM time_split_timer WHERE NOT deleted AND id = ..` -/
  | selectTimeSplitData (timeSplitTimer : ℤ)
  /-- `INSERT INTO timesheet ..` -/
  | insertTimesheet (values : TimesheetValues) (userId : Uuid)
  /-- `UPDATE timesheet SET .. WHERE user_id = .. AND start_time = ..` -/
  | updateTimesheet (userId : Uuid) (startTime : ℤ) (values : TimesheetValues)
  /-- `SELECT .. FROM timesheet INNER JOIN time_split_timer .. WHERE NOT deleted
  ORDER BY start_time DESC LIMIT 1`, of one user or of all -/
  | selectTimers (userId : Option Uuid)
deriving DecidableEq

/-- What a statement that goes through answers: ids or rows, or the number of
rows it touched. -/
@[reducible] def Stmt.Ret : Stmt → Type
  | insertTag .. => ℤ
  | selectTags _ => List TagRow
  | updateTag .. => ℕ
  | deleteTag _ => ℕ
  | insertTimeSplit .. => ℤ
  | insertTimeSplitTimers _ => List TimeSplitTimerRow
  | selectTimeSplits _ => List TimeSplitRow
  | selectTimeSplitTimers _ => List TimeSplitTimerRow
  | updateTimeSplit .. => ℕ
  | deleteTimeSplitTimers _ => ℕ
  | deleteTimeSplit _ => ℕ
  | selectTimeSplitData _ => List TimeSplitTimerRow
  | insertTimesheet .. => ℕ
  | updateTimesheet .. => ℕ
  | selectTimers _ => List (TimesheetRow × TimeSplitTimerRow)

/-- The signature of the handlers. -/
def sql : Sig where
  Op := Stmt
  Res := fun st => Except SqlError st.Ret

/-- What is left open about one statement. -/
structure Choice where
  /-- The statement fails, whatever it is. -/
  fails : Bool := false
  /-- The ids drawn from a sequence. -/
  ids : ℕ → ℤ := fun n => n
  /-- The order of the rows of an answer. -/
  plan : List ℕ := []

/-! ### What Postgres does -/

/-- Postgres refuses a text with a NUL character. -/
def checkText (texts : List String) : Except SqlError Unit :=
  if texts.any fun t => t.toList.contains (Char.ofNat 0) then .error .untranslatableCharacter
  else .ok ()

/-- The limit of bind parameters of one statement. -/
def maxBinds : ℕ := 65535

/-- A statement with too many bind parameters cannot be sent. -/
def checkBinds (n : ℕ) : Except SqlError Unit :=
  if n ≤ maxBinds then .ok () else .error .tooManyParameters

/-- Postgres refuses a `TIMESTAMPTZ` before 4714-11-24 BC or after 294276 AD. -/
def checkTimestamps (times : List ℤ) : Except SqlError Unit :=
  if times.all fun u => decide (-211813488000000000 ≤ u ∧ u < 9223371331200000000) then .ok ()
  else .error .datetimeFieldOverflow

/-- The rows of a `VALUES` list with the ids that were drawn for them. -/
def TimeSplitTimerValues.rows (ids : ℕ → ℤ) (values : List TimeSplitTimerValues) :
    List TimeSplitTimerRow :=
  values.mapIdx fun n v => ⟨ids n, v.orderIdx, v.timeSplitId, v.len, v.name, v.work, false⟩

/-- The row of a timer of `user`. -/
def TimesheetValues.row (v : TimesheetValues) (userId : Uuid) : TimesheetRow where
  startTime := v.startTime
  endTime := v.endTime
  userId := userId
  tags := v.tags.map some
  timeSplitTimer := some v.timeSplitTimer

/-- `timesheet INNER JOIN time_split_timer ON time_split_timer = id`. -/
def join (t : Tables) : List (TimesheetRow × TimeSplitTimerRow) :=
  t.timesheet.flatMap fun r =>
    (t.timeSplitTimer.filter fun timer => r.timeSplitTimer == some timer.id).map fun timer =>
      (r, timer)

/-- `SET deleted = true`. -/
def TagRow.setDeleted (r : TagRow) : TagRow := { r with deleted := true }

/-- `SET deleted = true`. -/
def TimeSplitRow.setDeleted (r : TimeSplitRow) : TimeSplitRow := { r with deleted := true }

/-- `SET deleted = true`. -/
def TimeSplitTimerRow.setDeleted (r : TimeSplitTimerRow) : TimeSplitTimerRow :=
  { r with deleted := true }

/-- `SET name = ..`, the changeset of `InsertableTag`. -/
def TagRow.set (name : String) (r : TagRow) : TagRow := { r with name }

/-- The columns `name` and `description` of `InsertableTimeSplit` as a
changeset. -/
def TimeSplitRow.set (name : String) (description : Option String) (r : TimeSplitRow) :
    TimeSplitRow :=
  { r with name := name, description := description.orElse fun _ => r.description }

/-- A statement in the session `s`. -/
def Stmt.apply (s : Session) (c : Choice) (db : Db) :
    (st : Stmt) → Except SqlError (st.Ret × Db)
  | .insertTag name userId => do
      checkText [name]
      let row : TagRow := { id := c.ids 0, name, userId, deleted := false }
      let tag ← tagTable.insert Role.member s.role ⟨s, db.toTables⟩ [row] db.tag
      return (row.id, ← commit { db.toTables with tag })
  | .selectTags userIds => do
      let rows ← tagTable.select Role.member s.role ⟨s, db.toTables⟩
        (fun r => !r.deleted && userIds.contains r.userId) db.tag
      return (pick c.plan rows, db)
  | .updateTag id name => do
      checkText [name]
      let (n, tag) ← tagTable.update Role.member s.role ⟨s, db.toTables⟩
        (fun r => r.id == id) (TagRow.set name) db.tag
      return (n, ← commit { db.toTables with tag })
  | .deleteTag id => do
      let (n, tag) ← tagTable.update Role.member s.role ⟨s, db.toTables⟩
        (fun r => r.id == id) TagRow.setDeleted db.tag
      return (n, ← commit { db.toTables with tag })
  | .insertTimeSplit name description userId => do
      checkText (name :: description.toList)
      let row : TimeSplitRow := { id := c.ids 0, userId, name, description, deleted := false }
      let timeSplit ← timeSplitTable.insert Role.member s.role ⟨s, db.toTables⟩ [row] db.timeSplit
      return (row.id, ← commit { db.toTables with timeSplit })
  | .insertTimeSplitTimers values =>
      -- diesel asks `SELECT 1 .. WHERE 1=0` where there is nothing to insert
      if values.isEmpty then do
        let rows ← timeSplitTimerTable.select Role.member s.role ⟨s, db.toTables⟩
          (fun _ => false) db.timeSplitTimer
        return (rows, db)
      else do
        checkBinds (5 * values.length)
        checkText (values.map TimeSplitTimerValues.name)
        let rows := TimeSplitTimerValues.rows c.ids values
        let timeSplitTimer ← timeSplitTimerTable.insert Role.member s.role ⟨s, db.toTables⟩
          rows db.timeSplitTimer
        return (rows, ← commit { db.toTables with timeSplitTimer })
  | .selectTimeSplits userId => do
      -- `user_id` is `NOT NULL`
      let rows ← timeSplitTable.select Role.member s.role ⟨s, db.toTables⟩
        (fun r => !r.deleted && (r.userId == userId || false)) db.timeSplit
      return (pick c.plan rows, db)
  | .selectTimeSplitTimers timeSplitIds => do
      let rows ← timeSplitTimerTable.select Role.member s.role ⟨s, db.toTables⟩
        (fun r => !r.deleted && timeSplitIds.contains r.timeSplitId) db.timeSplitTimer
      return (orderBy TimeSplitTimerRow.orderIdx (pick c.plan rows), db)
  | .updateTimeSplit id name description => do
      checkText (name :: description.toList)
      let (n, timeSplit) ← timeSplitTable.update Role.member s.role ⟨s, db.toTables⟩
        (fun r => r.id == id) (TimeSplitRow.set name description) db.timeSplit
      return (n, ← commit { db.toTables with timeSplit })
  | .deleteTimeSplitTimers timeSplitId => do
      let (n, timeSplitTimer) ← timeSplitTimerTable.update Role.member s.role ⟨s, db.toTables⟩
        (fun r => r.timeSplitId == timeSplitId) TimeSplitTimerRow.setDeleted db.timeSplitTimer
      return (n, ← commit { db.toTables with timeSplitTimer })
  | .deleteTimeSplit id => do
      let (n, timeSplit) ← timeSplitTable.update Role.member s.role ⟨s, db.toTables⟩
        (fun r => r.id == id) TimeSplitRow.setDeleted db.timeSplit
      return (n, ← commit { db.toTables with timeSplit })
  | .selectTimeSplitData timeSplitTimer => do
      let rows ← timeSplitTimerTable.select Role.member s.role ⟨s, db.toTables⟩
        (fun r => !r.deleted && r.id == timeSplitTimer) db.timeSplitTimer
      return (pick c.plan rows, db)
  | .insertTimesheet values userId => do
      checkTimestamps [values.startTime, values.endTime]
      let inserted : ℕ := 1
      let timesheet ← timesheetTable.insert Role.member s.role ⟨s, db.toTables⟩
        [values.row userId] db.timesheet
      return (inserted, ← commit { db.toTables with timesheet })
  | .updateTimesheet userId startTime values => do
      checkTimestamps [startTime, values.startTime, values.endTime]
      let (n, timesheet) ← timesheetTable.update Role.member s.role ⟨s, db.toTables⟩
        (fun r => r.userId == userId && r.startTime == startTime)
        -- the changeset has every column but the user
        (fun r => values.row r.userId) db.timesheet
      return (n, ← commit { db.toTables with timesheet })
  | .selectTimers userId => do
      -- the filter by user is added only where somebody is logged in
      let timesheet ← timesheetTable.select Role.member s.role ⟨s, db.toTables⟩
        (fun r => userId.all fun u => r.userId == u) db.timesheet
      let timeSplitTimer ← timeSplitTimerTable.select Role.member s.role ⟨s, db.toTables⟩
        (fun r => !r.deleted) db.timeSplitTimer
      let rows := join { db.toTables with timesheet, timeSplitTimer }
      return ((orderBy (fun r => -r.1.startTime) (pick c.plan rows)).take 1, db)

/-- A statement with its choice: it goes through, or the database stays as it
was. -/
def Stmt.exec (s : Session) (c : Choice) (st : Stmt) (db : Db) : Except SqlError st.Ret × Db :=
  if c.fails then (.error .connectionLost, db)
  else
    match st.apply s c db with
    | .ok (ret, db') => (.ok ret, db')
    | .error e => (.error e, db)

/-! ### What a statement can do -/

/-- May the session write rows of this owner? -/
def Session.mayWrite (s : Session) (owner : Uuid) : Bool :=
  s.role == .authenticated && s.timekeeperUid == some owner

/-- May the session write timers of this time split? -/
def Session.mayWriteTimers (s : Session) (t : Tables) (timeSplitId : ℤ) : Bool :=
  t.timeSplit.any fun r => r.id == timeSplitId && s.mayWrite r.userId

/-- The tags that can be shown to these users. -/
def shownTags (t : Tables) (userIds : List Uuid) : List TagRow :=
  t.tag.filter fun r => !r.deleted && userIds.contains r.userId

/-- The time splits that can be shown to a user. -/
def shownTimeSplits (t : Tables) (userId : Uuid) : List TimeSplitRow :=
  t.timeSplit.filter fun r => !r.deleted && r.userId == userId

/-- The timers that can be shown with these time splits. -/
def shownTimers (t : Tables) (timeSplitIds : List ℤ) : List TimeSplitTimerRow :=
  t.timeSplitTimer.filter fun r => !r.deleted && timeSplitIds.contains r.timeSplitId

theorem shownTimers_congr (t : Tables) {ids ids' : List ℤ} (h : ids.Perm ids') :
    shownTimers t ids = shownTimers t ids' := by
  refine List.filter_congr fun r _ => ?_
  rw [h.contains_eq]

/-- What a statement that goes through has answered and done. -/
def Stmt.Does (s : Session) (c : Choice) (t : Tables) :
    (st : Stmt) → st.Ret → Tables → Prop
  | .insertTag name userId, id, t' => s.mayWrite userId = true ∧ id = c.ids 0 ∧
      t' = { t with tag := t.tag ++ [{ id, name, userId, deleted := false }] }
  | .selectTags userIds, rows, t' => t' = t ∧
      rows = pick c.plan (shownTags t userIds)
  | .updateTag id name, _, t' =>
      t' = { t with
        tag := setWhere (fun r => s.mayWrite r.userId && r.id == id)
          (TagRow.set name) t.tag }
  | .deleteTag id, _, t' =>
      t' = { t with
        tag := setWhere (fun r => s.mayWrite r.userId && r.id == id)
          TagRow.setDeleted t.tag }
  | .insertTimeSplit name description userId, id, t' => s.mayWrite userId = true ∧
      id = c.ids 0 ∧ t' = { t with
        timeSplit := t.timeSplit ++ [{ id, userId, name, description, deleted := false }] }
  | .insertTimeSplitTimers values, rows, t' =>
      rows = TimeSplitTimerValues.rows c.ids values ∧ 5 * values.length ≤ maxBinds ∧
        (∀ v ∈ values, s.mayWriteTimers t v.timeSplitId = true) ∧
        t' = { t with
          timeSplitTimer := t.timeSplitTimer ++ TimeSplitTimerValues.rows c.ids values }
  | .selectTimeSplits userId, rows, t' => t' = t ∧
      rows = pick c.plan (shownTimeSplits t userId)
  | .selectTimeSplitTimers ids, rows, t' => t' = t ∧
      rows = orderBy TimeSplitTimerRow.orderIdx (pick c.plan (shownTimers t ids))
  | .updateTimeSplit id name description, _, t' =>
      t' = { t with
        timeSplit := setWhere (fun r => s.mayWrite r.userId && r.id == id)
          (TimeSplitRow.set name description) t.timeSplit }
  | .deleteTimeSplitTimers timeSplitId, _, t' => s.role = .authenticated ∧
      t' = { t with
        timeSplitTimer := setWhere
          (fun r => s.mayWriteTimers t r.timeSplitId && r.timeSplitId == timeSplitId)
          TimeSplitTimerRow.setDeleted t.timeSplitTimer }
  | .deleteTimeSplit id, _, t' =>
      t' = { t with
        timeSplit := setWhere (fun r => s.mayWrite r.userId && r.id == id)
          TimeSplitRow.setDeleted t.timeSplit }
  | .selectTimeSplitData timeSplitTimer, rows, t' => t' = t ∧
      rows = pick c.plan
        (t.timeSplitTimer.filter fun r => !r.deleted && r.id == timeSplitTimer)
  | .insertTimesheet values userId, _, t' => s.role = .authenticated ∧
      t' = { t with timesheet := t.timesheet ++ [values.row userId] }
  | .updateTimesheet userId startTime values, _, t' => s.role = .authenticated ∧
      t' = { t with
        timesheet := setWhere (fun r => r.userId == userId && r.startTime == startTime)
          (fun r => values.row r.userId) t.timesheet }
  | .selectTimers userId, rows, t' => t' = t ∧
      rows = (orderBy (fun r => -r.1.startTime) (pick c.plan (join
        { t with
          timesheet := t.timesheet.filter fun r => userId.all fun u => r.userId == u
          timeSplitTimer := t.timeSplitTimer.filter fun r => !r.deleted }))).take 1

theorem bind_ok {ε α β : Type} {x : Except ε α} {f : α → Except ε β} {b : β}
    (h : x >>= f = .ok b) : ∃ a, x = .ok a ∧ f a = .ok b := by
  cases x with
  | error e => cases h
  | ok a => exact ⟨a, rfl, h⟩

section

variable {ρ : Type} {userId : ρ → Uuid} {expr : Env → ρ → Bool} {s : Session} {t : Tables}
  {p : ρ → Bool} {f : ρ → ρ} {row : ρ} {rows rows' : List ρ} {n : ℕ}

/-- An insert of a row with an owner. -/
theorem own_insert_ok (hs : s.LoggedIn)
    (h : (secured fun e r => uidIs e (userId r)).insert Role.member s.role ⟨s, t⟩ [row] rows =
      .ok rows') :
    s.mayWrite (userId row) = true ∧ rows' = rows ++ [row] := by
  obtain ⟨hrole, hall, rfl⟩ := secured_insert_ok hs h
  have hu := hall _ (List.mem_singleton_self _)
  refine ⟨?_, rfl⟩
  rw [Session.mayWrite, hrole]
  exact hu

/-- An update of rows with an owner. -/
theorem own_update_ok (hs : s.LoggedIn)
    (h : (secured fun e r => uidIs e (userId r)).update Role.member s.role ⟨s, t⟩ p f rows =
      .ok (n, rows'))
    (hf : ∀ r, userId (f r) = userId r) :
    rows' = setWhere (fun r => s.mayWrite (userId r) && p r) f rows := by
  obtain ⟨hrole, rfl⟩ := secured_update_ok hs h fun r => by rw [hf]
  simp only [Session.mayWrite, hrole, uidIs, beq_self_eq_true, Bool.true_and]

end

/-- The policies of `time_split_timer`, read as `mayWriteTimers`. -/
theorem existsTimeSplit_eq {s : Session} (hs : s.LoggedIn) (hrole : s.role = .authenticated)
    (t : Tables) (id : ℤ) : existsTimeSplit ⟨s, t⟩ id = s.mayWriteTimers t id := by
  rw [Bool.eq_iff_iff, existsTimeSplit_iff hs]
  simp only [Tables.owns, Session.mayWriteTimers, Session.mayWrite, hrole, List.any_eq_true,
    Bool.and_eq_true, beq_iff_eq, beq_self_eq_true, true_and]
  constructor
  · rintro ⟨u, hu, r, hr, hid, rfl⟩
    exact ⟨r, hr, hid, hu⟩
  · rintro ⟨r, hr, hid, hu⟩
    exact ⟨r.userId, hu, r, hr, hid, rfl⟩

/-- A statement that goes through does what its query says. -/
theorem Stmt.apply_ok {s : Session} (hs : s.LoggedIn) {c : Choice} {db db' : Db} {st : Stmt}
    {ret : st.Ret} (h : st.apply s c db = .ok (ret, db')) :
    st.Does s c db.toTables ret db'.toTables := by
  cases st with
  | insertTag name userId =>
      obtain ⟨-, -, h⟩ := bind_ok h
      obtain ⟨tag, hins, h⟩ := bind_ok h
      obtain ⟨db₁, hdb, h⟩ := bind_ok h
      cases h
      obtain ⟨hu, rfl⟩ := own_insert_ok hs hins
      exact ⟨hu, rfl, commit_ok hdb⟩
  | selectTags userIds =>
      rw [apply, tagTable, secured_select hs] at h
      cases h
      exact ⟨rfl, rfl⟩
  | updateTag id name =>
      obtain ⟨-, -, h⟩ := bind_ok h
      obtain ⟨⟨n, tag⟩, hupd, h⟩ := bind_ok h
      obtain ⟨db₁, hdb, h⟩ := bind_ok h
      cases h
      rw [own_update_ok hs hupd fun _ => rfl] at hdb
      exact commit_ok hdb
  | deleteTag id =>
      obtain ⟨⟨n, tag⟩, hupd, h⟩ := bind_ok h
      obtain ⟨db₁, hdb, h⟩ := bind_ok h
      cases h
      rw [own_update_ok hs hupd fun _ => rfl] at hdb
      exact commit_ok hdb
  | insertTimeSplit name description userId =>
      obtain ⟨-, -, h⟩ := bind_ok h
      obtain ⟨timeSplit, hins, h⟩ := bind_ok h
      obtain ⟨db₁, hdb, h⟩ := bind_ok h
      cases h
      obtain ⟨hu, rfl⟩ := own_insert_ok hs hins
      exact ⟨hu, rfl, commit_ok hdb⟩
  | insertTimeSplitTimers values =>
      rw [apply] at h
      split at h
      · -- nothing to insert: a query without rows
        rename_i hempty
        obtain rfl := List.isEmpty_iff.mp hempty
        rw [timeSplitTimerTable, secured_select hs] at h
        cases h
        exact ⟨List.filter_false _, by decide, by simp, by simp [TimeSplitTimerValues.rows]⟩
      · obtain ⟨_, hbinds, h⟩ := bind_ok h
        obtain ⟨-, -, h⟩ := bind_ok h
        obtain ⟨timers, hins, h⟩ := bind_ok h
        obtain ⟨db₁, hdb, h⟩ := bind_ok h
        cases h
        obtain ⟨hrole, hall, rfl⟩ := secured_insert_ok hs hins
        refine ⟨rfl, ?_, fun v hv => ?_, commit_ok hdb⟩
        · unfold checkBinds at hbinds
          split at hbinds
          · assumption
          · cases hbinds
        · -- the policy asks for every row whether its time split is the user's
          obtain ⟨n, hn, rfl⟩ := List.mem_iff_getElem.mp hv
          rw [← existsTimeSplit_eq hs hrole]
          exact hall _ (List.mem_mapIdx.mpr ⟨n, hn, rfl⟩)
  | selectTimeSplits userId =>
      rw [apply, timeSplitTable, secured_select hs] at h
      cases h
      exact ⟨rfl, by simp only [shownTimeSplits, Bool.or_false]⟩
  | selectTimeSplitTimers ids =>
      rw [apply, timeSplitTimerTable, secured_select hs] at h
      cases h
      exact ⟨rfl, rfl⟩
  | updateTimeSplit id name description =>
      obtain ⟨-, -, h⟩ := bind_ok h
      obtain ⟨⟨n, timeSplit⟩, hupd, h⟩ := bind_ok h
      obtain ⟨db₁, hdb, h⟩ := bind_ok h
      cases h
      rw [own_update_ok hs hupd fun _ => rfl] at hdb
      exact commit_ok hdb
  | deleteTimeSplitTimers timeSplitId =>
      obtain ⟨⟨n, timers⟩, hupd, h⟩ := bind_ok h
      obtain ⟨db₁, hdb, h⟩ := bind_ok h
      cases h
      obtain ⟨hrole, rfl⟩ := secured_update_ok hs hupd fun _ => rfl
      simp only [existsTimeSplit_eq hs hrole] at hdb
      exact ⟨hrole, commit_ok hdb⟩
  | deleteTimeSplit id =>
      obtain ⟨⟨n, timeSplit⟩, hupd, h⟩ := bind_ok h
      obtain ⟨db₁, hdb, h⟩ := bind_ok h
      cases h
      rw [own_update_ok hs hupd fun _ => rfl] at hdb
      exact commit_ok hdb
  | selectTimeSplitData timeSplitTimer =>
      rw [apply, timeSplitTimerTable, secured_select hs] at h
      cases h
      exact ⟨rfl, rfl⟩
  | insertTimesheet values userId =>
      obtain ⟨-, -, h⟩ := bind_ok h
      obtain ⟨timesheet, hins, h⟩ := bind_ok h
      obtain ⟨db₁, hdb, h⟩ := bind_ok h
      cases h
      -- without policies the grant decides alone
      obtain ⟨hgrant, -, rfl⟩ := Table.insert_ok hins
      rw [granted_write hs rfl rfl (by decide), beq_iff_eq] at hgrant
      exact ⟨hgrant, commit_ok hdb⟩
  | updateTimesheet userId startTime values =>
      obtain ⟨-, -, h⟩ := bind_ok h
      obtain ⟨⟨n, timesheet⟩, hupd, h⟩ := bind_ok h
      obtain ⟨db₁, hdb, h⟩ := bind_ok h
      cases h
      obtain ⟨hgrant, -, rfl⟩ := Table.update_ok hupd
      rw [granted_write hs rfl rfl (by decide), beq_iff_eq] at hgrant
      exact ⟨hgrant, commit_ok hdb⟩
  | selectTimers userId =>
      obtain ⟨timesheet, hsheet, h⟩ := bind_ok h
      obtain ⟨timers, htimers, h⟩ := bind_ok h
      rw [timeSplitTimerTable, secured_select hs] at htimers
      cases h
      cases htimers
      cases Table.select_ok hsheet
      exact ⟨rfl, rfl⟩

/-- **What a statement can do**: fail and change nothing, or what its query
says. -/
theorem Stmt.exec_cases {s : Session} (hs : s.LoggedIn) (c : Choice) (st : Stmt) (db : Db) :
    (∃ e, st.exec s c db = (.error e, db)) ∨
    ∃ ret db', st.exec s c db = (.ok ret, db') ∧ st.Does s c db.toTables ret db'.toTables := by
  by_cases hf : c.fails = true
  · exact .inl ⟨_, if_pos hf⟩
  · rcases h : st.apply s c db with e | ⟨ret, db'⟩
    · exact .inl ⟨e, by rw [exec, if_neg hf, h]⟩
    · exact .inr ⟨ret, db', by rw [exec, if_neg hf, h], apply_ok hs h⟩

theorem Stmt.exec_fails {s : Session} {c : Choice} (hf : c.fails = true) (st : Stmt) (db : Db) :
    st.exec s c db = (.error .connectionLost, db) :=
  if_pos hf

/-! ### Statements that go through -/

/-- The statements that only read. -/
def Stmt.isSelect : Stmt → Bool
  | .selectTags _ | .selectTimeSplits _ | .selectTimeSplitTimers _ | .selectTimeSplitData _
  | .selectTimers _ => true
  | _ => false

/-- A statement that only reads goes through unless it is made to fail. -/
theorem Stmt.exec_select {s : Session} (hs : s.LoggedIn) {c : Choice} (hf : c.fails = false)
    (st : Stmt) (hst : st.isSelect = true) (db : Db) :
    ∃ ret, st.exec s c db = (.ok ret, db) ∧ st.Does s c db.toTables ret db.toTables := by
  have h : ∃ ret, st.apply s c db = .ok (ret, db) := by
    cases st with
    | selectTags =>
        obtain ⟨rows, h⟩ := exists_select hs tagTable rfl ⟨s, db.toTables⟩ _ _
        exact ⟨_, by rw [apply, h]; rfl⟩
    | selectTimeSplits =>
        obtain ⟨rows, h⟩ := exists_select hs timeSplitTable rfl ⟨s, db.toTables⟩ _ _
        exact ⟨_, by rw [apply, h]; rfl⟩
    | selectTimeSplitTimers | selectTimeSplitData =>
        obtain ⟨rows, h⟩ := exists_select hs timeSplitTimerTable rfl ⟨s, db.toTables⟩ _ _
        exact ⟨_, by rw [apply, h]; rfl⟩
    | selectTimers =>
        obtain ⟨rows, h⟩ := exists_select hs timesheetTable rfl ⟨s, db.toTables⟩ _ _
        obtain ⟨rows', h'⟩ := exists_select hs timeSplitTimerTable rfl ⟨s, db.toTables⟩
          (fun r => !r.deleted) db.timeSplitTimer
        exact ⟨_, by rw [apply, h]; simp only [bind, Except.bind, h']; rfl⟩
    | _ => cases hst
  obtain ⟨ret, h⟩ := h
  exact ⟨ret, by rw [exec, hf, h]; rfl, apply_ok hs h⟩

section

variable {s : Session} (hs : s.LoggedIn) (c : Choice) (db : Db)
include hs

/-- ... with the rows that its query says, which depend on the database alone. -/
theorem Stmt.exec_select_eq {st : Stmt} (hst : st.isSelect = true) {rows : st.Ret}
    (hrows : ∀ ret, st.Does s c db.toTables ret db.toTables → ret = rows) :
    st.exec s c db = (if c.fails then .error .connectionLost else .ok rows, db) := by
  cases hf : c.fails with
  | true => exact exec_fails hf st db
  | false =>
      obtain ⟨ret, h, hdoes⟩ := exec_select hs hf st hst db
      rw [h, hrows ret hdoes]
      rfl

theorem Stmt.exec_selectTags (userIds : List Uuid) :
    (Stmt.selectTags userIds).exec s c db =
      (if c.fails then .error .connectionLost
        else .ok (pick c.plan (shownTags db.toTables userIds)), db) :=
  exec_select_eq hs c db rfl fun _ h => h.2

theorem Stmt.exec_selectTimeSplits (userId : Uuid) :
    (Stmt.selectTimeSplits userId).exec s c db =
      (if c.fails then .error .connectionLost
        else .ok (pick c.plan (shownTimeSplits db.toTables userId)), db) :=
  exec_select_eq hs c db rfl fun _ h => h.2

theorem Stmt.exec_selectTimeSplitTimers (ids : List ℤ) :
    (Stmt.selectTimeSplitTimers ids).exec s c db =
      (if c.fails then .error .connectionLost
        else .ok (orderBy TimeSplitTimerRow.orderIdx (pick c.plan (shownTimers db.toTables ids))),
        db) :=
  exec_select_eq hs c db rfl fun _ h => h.2

theorem Stmt.exec_selectTimers (userId : Option Uuid) :
    (Stmt.selectTimers userId).exec s c db =
      (if c.fails then .error .connectionLost
        else .ok ((orderBy (fun r => -r.1.startTime) (pick c.plan (join
          { db.toTables with
            timesheet := db.timesheet.filter fun r => userId.all fun u => r.userId == u
            timeSplitTimer := db.timeSplitTimer.filter fun r => !r.deleted }))).take 1), db) :=
  exec_select_eq hs c db rfl fun _ h => h.2

end

/-- Columns that no constraint is about can change. -/
theorem commit_of_eq (db : Db) (t : Tables)
    (hsplit : t.timeSplit.map TimeSplitRow.id = db.timeSplit.map TimeSplitRow.id)
    (htimer : t.timeSplitTimer.map (fun r => (r.id, r.timeSplitId)) =
      db.timeSplitTimer.map fun r => (r.id, r.timeSplitId))
    (hsheet : t.timesheet = db.timesheet) (htag : t.tag = db.tag) :
    ∃ db', commit t = .ok db' := by
  have hid : t.timeSplitTimer.map TimeSplitTimerRow.id =
      db.timeSplitTimer.map TimeSplitTimerRow.id := by
    simpa [Function.comp_def] using congrArg (List.map Prod.fst) htimer
  have hkeys : t.Keys :=
    ⟨hsplit ▸ db.keys.1, hid ▸ db.keys.2, hsheet ▸ db.keys.3, htag ▸ db.keys.4, htag ▸ db.keys.5⟩
  have hrefs : t.References := by
    refine ⟨fun r hr => ?_, ?_⟩
    · have hmem : (r.id, r.timeSplitId) ∈ db.timeSplitTimer.map fun r => (r.id, r.timeSplitId) :=
        htimer ▸ List.mem_map_of_mem hr
      obtain ⟨r₀, hr₀, h₀⟩ := List.mem_map.mp hmem
      rw [hsplit, ← (Prod.mk.inj h₀).2]
      exact db.references.1 r₀ hr₀
    · rw [hsheet, hid]
      exact db.references.2
  exact ⟨_, by rw [commit, dif_pos hkeys, dif_pos hrefs]⟩

/-- The two statements of `delete_time_split` go through for everybody who is
logged in as a user, unless they are made to fail. -/
theorem Stmt.exec_delete {s : Session} (hs : s.LoggedIn) (hrole : s.role = .authenticated)
    {c : Choice} (hf : c.fails = false) {st : Stmt} {id : ℤ}
    (hst : st = .deleteTimeSplitTimers id ∨ st = .deleteTimeSplit id) (db : Db) :
    ∃ ret db', st.exec s c db = (.ok ret, db') ∧ st.Does s c db.toTables ret db'.toTables := by
  have h : ∃ ret db', st.apply s c db = .ok (ret, db') := by
    rcases hst with rfl | rfl
    · have hupd : timeSplitTimerTable.update Role.member s.role ⟨s, db.toTables⟩
          (fun r => r.timeSplitId == id) TimeSplitTimerRow.setDeleted db.timeSplitTimer = _ :=
        secured_update hs hrole fun _ => rfl
      obtain ⟨db', hdb⟩ := commit_of_eq db ({ db.toTables with
        timeSplitTimer := setWhere (fun r => existsTimeSplit ⟨s, db.toTables⟩ r.timeSplitId &&
          r.timeSplitId == id) TimeSplitTimerRow.setDeleted db.timeSplitTimer })
        rfl (map_setWhere (f := TimeSplitTimerRow.setDeleted) (fun _ => rfl) _) rfl rfl
      exact ⟨_, db', by rw [apply, hupd]; simp only [bind, Except.bind, hdb]; rfl⟩
    · have hupd : timeSplitTable.update Role.member s.role ⟨s, db.toTables⟩
          (fun r => r.id == id) TimeSplitRow.setDeleted db.timeSplit = _ :=
        secured_update hs hrole fun _ => rfl
      obtain ⟨db', hdb⟩ := commit_of_eq db ({ db.toTables with
        timeSplit := setWhere (fun r => uidIs ⟨s, db.toTables⟩ r.userId && r.id == id)
          TimeSplitRow.setDeleted db.timeSplit })
        (map_setWhere (f := TimeSplitRow.setDeleted) (fun _ => rfl) _) rfl rfl rfl
      exact ⟨_, db', by rw [apply, hupd]; simp only [bind, Except.bind, hdb]; rfl⟩
  obtain ⟨ret, db', h⟩ := h
  exact ⟨ret, db', by rw [exec, hf, h]; rfl, apply_ok hs h⟩

end Lockinspiel
