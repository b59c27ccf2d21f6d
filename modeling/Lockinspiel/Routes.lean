/-
Lockinspiel/Routes.lean

The eleven handlers of the timekeeper service, over the statements of
`Statement.lean`.

A handler is a program that asks statements one after the other, with no
transaction around them, and ends with a reply, with an `EyreError`, or with a
panic.  A panic can only come from the codecs of `SqlTypes.lean` (an interval
that `from_sql` refuses), and both build profiles abort on one.  An abort of
the process is, for the other requests, a failure of their next statements, so
here a panic is the outcome of the one thread.

`post_timer` and `modify_timer` differ in their last statement and in their
messages only, and are one body (`writeTimer`) with those as parameters.  How
the requests of many users interleave is in `Service.lean`.
-/
import Lockinspiel.Statement
import Mathlib.Logic.Function.Basic

namespace Lockinspiel

open Effects Sql

/-! ### Errors -/

/-- `eyre::Report`: the contexts, the outermost first, and the diesel error
below them. -/
structure Report where
  contexts : List String
  source : Option SqlError

/-- `error::EyreError`. -/
structure EyreError where
  statusCode : StatusCode
  error : Report

/-- `#[error(..)]` of `ErrorKind`. -/
def ErrorKind.display : ErrorKind → String
  | .dbConnectionError => "Failed to get connection to database"
  | .ioError => "An IO error occurred"
  | .parseHeader => "Failed to parse header"
  | .dieselError _ => "The database encountered an error"
  | .jwtError _ => "An error occurred while processing a JWT"

/-- `From<Error<E, EyreError>> for EyreError`. -/
def EyreError.ofLogin (e : LoginError) : EyreError where
  statusCode := e.source.statusCode
  error :=
    { contexts := [e.msg.getD e.source.display, e.source.display]
      source := match e.source with
        | .dieselError e => some e
        | _ => none }

/-- How a handler ends without a reply: with an error, with the rejection of
its JSON body, or with a panic. -/
inductive Stop
  | error (e : EyreError)
  | jsonRejection
  | panic

/-- A handler in progress. -/
abbrev Handler (α : Type) := ExceptT Stop (Program sql) α

/-- `.get_result(..)`, `.get_results(..)` or `.execute(..)`, then
`.wrap_err(..)` and `.with_status_code(..)?`. -/
def query (st : Stmt) (context : String) (status : StatusCode) : Handler st.Ret :=
  .mk <| .call st fun r => .done (r.mapError fun e => .error ⟨status, ⟨[context], some e⟩⟩)

/-- `Err(eyre!(..)).with_status_code(..)`. -/
def fail {α : Type} (message : String) (status : StatusCode) : Handler α :=
  throw (.error ⟨status, ⟨[message], none⟩⟩)

/-- A value that was computed without a panic. -/
def orPanic {α : Type} : Option α → Handler α
  | some a => pure a
  | none => throw .panic

/-! ### Requests and replies -/

structure Tag where
  id : ℤ
  name : String
deriving DecidableEq

structure InsertableTag where
  name : String

structure TimeSplit where
  id : ℤ
  name : String
  description : Option String
deriving DecidableEq

structure InsertableTimeSplit where
  name : String
  description : Option String

variable (J : Jiff)

structure InsertableTimeSplitTimer where
  len : J.Span
  name : String
  work : Bool

structure InsertablePackagedTimeSplit where
  timeSplit : InsertableTimeSplit
  timers : List (InsertableTimeSplitTimer J)

structure TimeSplitTimer where
  id : ℤ
  timeSplitId : ℤ
  orderIdx : ℤ
  len : J.Span
  name : String
  work : Bool

structure PackagedTimeSplit where
  timeSplit : TimeSplit
  timers : List (TimeSplitTimer J)

/-- The JSON of an `InsertableTimer`: the times are microseconds since the
Unix epoch. -/
structure TimerBody where
  timeSplitTimer : ℤ
  startTime : ℤ
  endTime : ℤ
  tags : List ℤ
deriving DecidableEq

structure InsertableTimer where
  timeSplitTimer : ℤ
  startTime : J.Timestamp
  endTime : J.Timestamp
  tags : List ℤ

structure TimeSplitData where
  timeSplitId : ℤ
  work : Bool
deriving DecidableEq

structure Timer where
  timeSplitTimer : Option ℤ
  startTime : J.Timestamp
  endTime : J.Timestamp
  tags : List (Option ℤ)
  timeSplitData : TimeSplitData

inductive Request
  | createTag (tag : InsertableTag)
  | getTags
  | modifyTag (id : ℤ) (tag : InsertableTag)
  | deleteTag (id : ℤ)
  | createTimeSplit (body : InsertablePackagedTimeSplit J)
  | getTimeSplits
  | modifyTimeSplit (id : ℤ) (timeSplit : InsertableTimeSplit)
  | deleteTimeSplit (id : ℤ)
  | postTimer (timer : TimerBody)
  | getTimers
  | modifyTimer (timer : TimerBody)

/-- The body of a successful response. -/
inductive Reply
  | unit
  | tagId (id : ℤ)
  | tags (tags : List Tag)
  | timeSplit (timeSplit : PackagedTimeSplit J)
  | timeSplits (timeSplits : List (PackagedTimeSplit J))
  | timer (timer : Timer J)
  | timers (timers : List (Timer J))

variable {J}

/-! ### Rows and values -/

/-- The columns of `Tag`. -/
def Tag.ofRow (r : TagRow) : Tag := { id := r.id, name := r.name }

/-- The columns of `TimeSplit`. -/
def TimeSplit.ofRow (r : TimeSplitRow) : TimeSplit :=
  { id := r.id, name := r.name, description := r.description }

/-- The columns of `TimeSplitTimer`. -/
def TimeSplitTimer.ofRow (r : TimeSplitTimerRow) : Option (TimeSplitTimer J) := do
  let len ← Interval.fromSql J r.len
  return { id := r.id, timeSplitId := r.timeSplitId, orderIdx := r.orderIdx, len, name := r.name,
           work := r.work }

/-- The columns of `Timer`, with those of the embedded `TimeSplitData`. -/
def Timer.ofRow (r : TimesheetRow × TimeSplitTimerRow) : Option (Timer J) := do
  let startTime ← Timestamptz.fromSql J r.1.startTime
  let endTime ← Timestamptz.fromSql J r.1.endTime
  return { timeSplitTimer := r.1.timeSplitTimer, startTime, endTime, tags := r.1.tags,
           timeSplitData := { timeSplitId := r.2.timeSplitId, work := r.2.work } }

/-- `order as i32`: the low 32 bits. -/
def asI32 (order : ℕ) : ℤ := (order : ℤ).bmod 4294967296

theorem asI32_eq {order : ℕ} (h : order < 2147483648) : asI32 order = order :=
  Int.bmod_eq_of_le (by omega) (by omega)

/-- The tuple that `create_time_split` inserts for its timer number
`order`. -/
def InsertableTimeSplitTimer.values (timeSplitId : ℤ) (t : InsertableTimeSplitTimer J)
    (order : ℕ) : Option TimeSplitTimerValues := do
  let len ← Interval.toSql J t.len
  return { len, name := t.name, work := t.work, orderIdx := asI32 order, timeSplitId }

theorem InsertableTimeSplitTimer.isSome_values (hJ : J.SpanLaws) (timeSplitId : ℤ)
    (t : InsertableTimeSplitTimer J) (order : ℕ) : (t.values timeSplitId order).isSome := by
  rw [InsertableTimeSplitTimer.values, Interval.toSql_eq hJ]
  rfl

/-- The tuples of all timers of a new time split. -/
def timerValues (timeSplitId : ℤ) (timers : List (InsertableTimeSplitTimer J)) :
    Option (List TimeSplitTimerValues) :=
  timers.zipIdx.mapM fun t => t.1.values timeSplitId t.2

/-- `Deserialize for InsertableTimer`. -/
def TimerBody.parse (J : Jiff) (t : TimerBody) : Option (InsertableTimer J) := do
  let startTime ← deserialize J t.startTime
  let endTime ← deserialize J t.endTime
  return { timeSplitTimer := t.timeSplitTimer, startTime, endTime, tags := t.tags }

/-- The columns that `InsertableTimer` inserts or sets. -/
def InsertableTimer.values (t : InsertableTimer J) : Option TimesheetValues := do
  let startTime ← Timestamptz.toSql J t.startTime
  let endTime ← Timestamptz.toSql J t.endTime
  return { timeSplitTimer := t.timeSplitTimer, startTime, endTime, tags := t.tags }

theorem InsertableTimer.isSome_values (hJ : J.TimestampLaws) (t : InsertableTimer J) :
    t.values.isSome := by
  rw [InsertableTimer.values, Timestamptz.toSql_eq hJ, Timestamptz.toSql_eq hJ]
  rfl

/-! ### Tags -/

def createTag (db : DatabaseConnection) (tag : InsertableTag) : Handler (Reply J) := do
  let some user := db.user | fail "You need to be logged in to create a tag" .unauthorized
  let tagId ← query (.insertTag tag.name user.sub) "Failed to insert tag into database"
    .unprocessableEntity
  return .tagId tagId

def getTags (db : DatabaseConnection) : Handler (Reply J) := do
  let tags ← query (.selectTags [db.subject, Uuid.nil])
    "Failed to grab tags from database" .internalServerError
  return .tags (tags.map Tag.ofRow)

def modifyTag (id : ℤ) (tag : InsertableTag) : Handler (Reply J) := do
  let _ ← query (.updateTag id tag.name) "Failed to update tag in database" .unprocessableEntity
  return .unit

def deleteTag (id : ℤ) : Handler (Reply J) := do
  let _ ← query (.deleteTag id) "Failed to update tag in database" .unprocessableEntity
  return .unit

/-! ### Time splits -/

def createTimeSplit (db : DatabaseConnection) (body : InsertablePackagedTimeSplit J) :
    Handler (Reply J) := do
  let some user := db.user |
    fail "You need to be logged in to create a time split" .unauthorized
  let timeSplitId ←
    query (.insertTimeSplit body.timeSplit.name body.timeSplit.description user.sub)
      "Failed to insert time split into database" .unprocessableEntity
  let values ← orPanic (timerValues timeSplitId body.timers)
  let rows ← query (.insertTimeSplitTimers values)
    "Failed to insert time split timers into database" .unprocessableEntity
  let timers ← orPanic (rows.mapM TimeSplitTimer.ofRow)
  return .timeSplit
    { timeSplit :=
        { id := timeSplitId, name := body.timeSplit.name
          description := body.timeSplit.description }
      timers }

/-- `grouped[i].timers.push(child)`; `none` where `i` is out of bounds. -/
def pushTimer (grouped : List (PackagedTimeSplit J)) (i : ℕ) (child : TimeSplitTimer J) :
    Option (List (PackagedTimeSplit J)) :=
  if i < grouped.length then
    some (grouped.modify i fun p => { p with timers := p.timers ++ [child] })
  else none

/-- `id_indices`: the last index of every id. -/
def idIndices (timeSplits : List TimeSplit) : ℤ → Option ℕ :=
  timeSplits.zipIdx.foldl (fun m u => Function.update m u.1.id (some u.2)) fun _ => none

/-- The regrouping loop of `get_time_splits`. -/
def groupTimers (timeSplits : List TimeSplit) (timers : List (TimeSplitTimer J)) :
    Option (List (PackagedTimeSplit J)) :=
  (timers.filterMap fun child => (idIndices timeSplits child.timeSplitId).map (·, child)).foldlM
    (fun grouped child => pushTimer grouped child.1 child.2)
    (timeSplits.map fun timeSplit => { timeSplit, timers := [] })

theorem idIndices_lt {timeSplits : List TimeSplit} {id : ℤ} {i : ℕ}
    (h : idIndices timeSplits id = some i) : i < timeSplits.length := by
  have hloop : ∀ (l : List (TimeSplit × ℕ)) (m : ℤ → Option ℕ),
      (∀ u ∈ l, u.2 < timeSplits.length) → (∀ id i, m id = some i → i < timeSplits.length) →
      ∀ id i, l.foldl (fun (m : ℤ → Option ℕ) u => Function.update m u.1.id (some u.2)) m id =
        some i → i < timeSplits.length := by
    intro l
    induction l with
    | nil => exact fun m _ hm => hm
    | cons u l ih =>
        intro m hl hm
        refine ih _ (fun v hv => hl v (List.mem_cons_of_mem u hv)) fun id i hid => ?_
        change Function.update m u.1.id (some u.2) id = some i at hid
        by_cases hu : id = u.1.id
        · subst hu
          rw [Function.update_self] at hid
          exact Option.some.inj hid ▸ hl u List.mem_cons_self
        · rw [Function.update_of_ne hu] at hid
          exact hm id i hid
  refine hloop timeSplits.zipIdx (fun _ => none) (fun u hu => ?_) (fun _ _ h => by cases h) id i h
  exact (List.getElem?_eq_some_iff.mp (List.mem_zipIdx_iff_getElem?.mp hu)).1

/-- Every index of the regrouping loop is in bounds, whatever the two queries
have answered. -/
theorem exists_groupTimers (timeSplits : List TimeSplit) (timers : List (TimeSplitTimer J)) :
    ∃ grouped, groupTimers timeSplits timers = some grouped := by
  have hloop : ∀ (l : List (ℕ × TimeSplitTimer J)) (grouped : List (PackagedTimeSplit J)),
      (∀ child ∈ l, child.1 < grouped.length) →
      ∃ grouped', l.foldlM (fun grouped child => pushTimer grouped child.1 child.2) grouped =
        some grouped' := by
    intro l
    induction l with
    | nil => exact fun grouped _ => ⟨grouped, rfl⟩
    | cons child l ih =>
        intro grouped hl
        rw [List.foldlM_cons, pushTimer, if_pos (hl child List.mem_cons_self)]
        refine ih _ fun child' hchild' => ?_
        rw [List.length_modify]
        exact hl child' (List.mem_cons_of_mem child hchild')
  refine hloop _ _ fun child hchild => ?_
  obtain ⟨timer, -, htimer⟩ := List.mem_filterMap.mp hchild
  obtain ⟨i, hi, rfl⟩ := Option.map_eq_some_iff.mp htimer
  rw [List.length_map]
  exact idIndices_lt hi

def getTimeSplits (db : DatabaseConnection) : Handler (Reply J) := do
  let timeSplits ← query (.selectTimeSplits db.subject)
    "Failed to retreive time splits from database" .internalServerError
  let rows ←
    query (.selectTimeSplitTimers (timeSplits.map TimeSplitRow.id))
      "Failed to retreive time split timers from database" .internalServerError
  let timers ← orPanic (rows.mapM TimeSplitTimer.ofRow)
  let grouped ← orPanic (groupTimers (timeSplits.map TimeSplit.ofRow) timers)
  return .timeSplits grouped

def modifyTimeSplit (id : ℤ) (timeSplit : InsertableTimeSplit) : Handler (Reply J) := do
  let _ ← query (.updateTimeSplit id timeSplit.name timeSplit.description)
    "Failed to update time split in database" .unprocessableEntity
  return .unit

def deleteTimeSplit (id : ℤ) : Handler (Reply J) := do
  let _ ← query (.deleteTimeSplitTimers id) "Failed to delete time split timers in database"
    .internalServerError
  let _ ← query (.deleteTimeSplit id) "Failed to delete time split in database"
    .internalServerError
  return .unit

/-! ### Timers -/

/-- What `post_timer` and `modify_timer` share: they look up the timer of the
time split, where it is not deleted, and write the timesheet. -/
def writeTimer (write : Uuid → TimesheetValues → Stmt) (loginMessage grabContext : String)
    (writeContext : String) (db : DatabaseConnection) (timesheetData : InsertableTimer J) :
    Handler (Reply J) := do
  let some user := db.user | fail loginMessage .unauthorized
  let rows ← query (.selectTimeSplitData timesheetData.timeSplitTimer)
    grabContext .internalServerError
  let some row := rows.head? |
    fail "Couldn't find a time_split for that time_split_timer" .notFound
  let values ← orPanic timesheetData.values
  let _ ← query (write user.sub values) writeContext .unprocessableEntity
  return .timer
    { timeSplitTimer := some timesheetData.timeSplitTimer
      startTime := timesheetData.startTime
      endTime := timesheetData.endTime
      tags := timesheetData.tags.map some
      timeSplitData := { timeSplitId := row.timeSplitId, work := row.work } }

def postTimer (db : DatabaseConnection) (timesheetData : InsertableTimer J) : Handler (Reply J) :=
  writeTimer (fun userId values => .insertTimesheet values userId)
    "You need to be logged in to create a timer"
    "Failed to grab time_split for inserted timesheet"
    "Failed to insert timer into timesheet" db timesheetData

/-- `get_timers`; an anonymous request gets the latest timer of all users. -/
def getTimers (db : DatabaseConnection) : Handler (Reply J) := do
  let rows ←
    query (.selectTimers (db.user.map UserClaims.sub)) "Failed to get requested timers"
      .internalServerError
  let timers ← orPanic (rows.mapM Timer.ofRow)
  return .timers timers

def modifyTimer (db : DatabaseConnection) (timesheetData : InsertableTimer J) :
    Handler (Reply J) :=
  writeTimer (fun userId values => .updateTimesheet userId values.startTime values)
    "You need to be logged in to modify a timer"
    "Failed to grab time_split for updated timesheet"
    "Failed to update timer in timesheet" db timesheetData

/-- The handler of a request, with the extractor of its JSON body. -/
def handler (db : DatabaseConnection) : Request J → Handler (Reply J)
  | .createTag tag => createTag db tag
  | .getTags => getTags db
  | .modifyTag id tag => modifyTag id tag
  | .deleteTag id => deleteTag id
  | .createTimeSplit body => createTimeSplit db body
  | .getTimeSplits => getTimeSplits db
  | .modifyTimeSplit id timeSplit => modifyTimeSplit id timeSplit
  | .deleteTimeSplit id => deleteTimeSplit id
  | .postTimer timer => do
      let some timer := timer.parse J | throw .jsonRejection
      postTimer db timer
  | .getTimers => getTimers db
  | .modifyTimer timer => do
      let some timer := timer.parse J | throw .jsonRejection
      modifyTimer db timer

end Lockinspiel
