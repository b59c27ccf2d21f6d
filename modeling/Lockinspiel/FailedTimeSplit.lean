/-
Lockinspiel/FailedTimeSplit.lean

What a request for a time split leaves behind when it ends with an error.

`create_time_split` and `delete_time_split` write two tables with one statement
each, outside a transaction.  An error of the first statement leaves both tables
as they were.  An error of the second one does not: the new time split stays
without its timers, and the timers of the time split stay deleted.  So a request
leaves nothing behind exactly if its second statement is not the one that is
refused, or the first had nothing to do (`failed_leavesNothing`).
-/
import Lockinspiel.Accepted
import Lockinspiel.LatestTimer

namespace Lockinspiel

open Effects Sql

variable {J : Jiff} {decode : String → Except String UserClaims}

/-- If the outcome is an error, the two tables are as they were. -/
def LeavesNothing (o : Outcome J) (t t' : Tables) : Prop :=
  ∀ e, o = .error (.error e) →
    t'.timeSplit = t.timeSplit ∧ t'.timeSplitTimer = t.timeSplitTimer

/-- The first statement of a creation is refused. -/
def TimeSplitRefused (c : Choice) (t : Tables) (timeSplit : InsertableTimeSplit) : Prop :=
  c.fails = true ∨ ¬ Storable (timeSplit.name :: timeSplit.description.toList) ∨
    c.ids 0 ∈ t.timeSplit.map TimeSplitRow.id

/-- Its second statement is accepted. -/
def TimersAccepted (c : Choice) (t : Tables) (timers : List (InsertableTimeSplitTimer J)) :
    Prop :=
  c.fails = false ∧ (timers = [] ∨ 5 * timers.length ≤ maxBinds ∧
    Storable (timers.map InsertableTimeSplitTimer.name) ∧
    ((List.range timers.length).map c.ids).Nodup ∧
    ∀ n < timers.length, c.ids n ∉ t.timeSplitTimer.map TimeSplitTimerRow.id)

/-- What keeps an error of the request from leaving anything behind: for a
creation, that nobody is logged in, or that the first statement is refused, or
that the second one is not; for a deletion, that the second statement does not
fail, or that the timers which the first one deletes are deleted already. -/
def CannotHalve (decode : String → Except String UserClaims) (a : Arrival J) (c : ℕ → Choice)
    (t : Tables) : Prop :=
  match a.request with
  | .createTimeSplit body => loggedInAs decode a = none ∨
      TimeSplitRefused (c 0) t body.timeSplit ∨ TimersAccepted (c 1) t body.timers
  | .deleteTimeSplit _ => (c 1).fails = false ∨
      ∀ r ∈ t.timeSplitTimer, deletes decode a c t r = true → r.deleted = true
  | _ => True

/-! ### Deletions -/

theorem setDeleted_eq_self {p : TimeSplitTimerRow → Bool} {rows : List TimeSplitTimerRow} :
    setWhere p TimeSplitTimerRow.setDeleted rows = rows ↔
      ∀ r ∈ rows, p r = true → r.deleted = true := by
  refine setWhere_eq_self.trans (forall₃_congr fun r _ _ => ?_)
  constructor
  · intro h
    rw [← h]
    rfl
  · intro h
    rw [TimeSplitTimerRow.setDeleted, ← h]

/-- Deletions: the timers alone can have changed. -/
theorem leavesNothing_delete {a : Arrival J} {id : ℤ} (ha : a.request = .deleteTimeSplit id)
    (c : ℕ → Choice) (db : Db) :
    LeavesNothing (handle decode a c db).1 db.toTables (handle decode a c db).2.toTables ↔
      ((c 1).fails = false ∨
        ∀ r ∈ db.timeSplitTimer, deletes decode a c db.toTables r = true → r.deleted = true) := by
  obtain ⟨hnone, e, h⟩ | ⟨db₁, hdb₁, ⟨hfails, e, h⟩ | ⟨hfails, ho, -⟩⟩ :=
    handle_delete_cases decode ha c db
  · rw [h]
    refine iff_of_true (fun _ _ => ⟨rfl, rfl⟩) (.inr fun r _ hdeletes => ?_)
    rw [hnone r] at hdeletes
    cases hdeletes
  · rw [h, hdb₁, ← setDeleted_eq_self, or_iff_right (by rw [hfails]; exact Bool.noConfusion)]
    exact ⟨fun hsame => (hsame e rfl).2, fun hsame _ _ => ⟨rfl, hsame⟩⟩
  · refine iff_of_true ?_ (.inl hfails)
    intro e he
    rw [ho] at he
    cases he

/-! ### Creations -/

/-- The tuples of the timers of a new time split. -/
theorem exists_timerValues (hJ : J.SpanLaws) (id : ℤ)
    (timers : List (InsertableTimeSplitTimer J)) :
    ∃ values, timerValues id timers = some values ∧ values.length = timers.length ∧
      values.map TimeSplitTimerValues.name = timers.map InsertableTimeSplitTimer.name ∧
      ∀ v ∈ values, v.timeSplitId = id := by
  have hvalues : timerValues id timers = some _ :=
    mapM_eq_filterMap fun t _ => t.1.isSome_values hJ id t.2
  have hname : ∀ (t : InsertableTimeSplitTimer J × ℕ) v, t.1.values id t.2 = some v →
      v.name = t.1.name := by
    intro t v h
    obtain ⟨len, -, h⟩ := Option.bind_eq_some_iff.mp h
    obtain rfl := Option.some.inj h
    rfl
  have hnames := map_of_mapM (g := TimeSplitTimerValues.name)
    (h := InsertableTimeSplitTimer.name ∘ Prod.fst) hname hvalues
  rw [← List.map_map, List.zipIdx_map_fst] at hnames
  refine ⟨_, hvalues, ?_, hnames, (timerValues_spec hvalues).1⟩
  simpa using congrArg List.length hnames

section

variable {s : Session} {c : ℕ → Choice} {dbc : DatabaseConnection} {db : Db}

/-- The first statement of a creation. -/
theorem toBool_timeSplit {user : UserClaims} (hmay : s.mayWrite user.sub = true)
    (timeSplit : InsertableTimeSplit) (c : Choice) (db : Db) :
    ((Stmt.insertTimeSplit timeSplit.name timeSplit.description user.sub).exec s c
      db).1.toBool = true ↔ ¬ TimeSplitRefused c db.toTables timeSplit := by
  rw [Stmt.toBool_insertTimeSplit hmay, TimeSplitRefused, not_or, not_or, not_not,
    Bool.not_eq_true]

/-- The second statement of a creation, after the first has inserted the row. -/
theorem toBool_timers {db₁ : Db} {row : TimeSplitRow} (hmay : s.mayWrite row.userId = true)
    (hdb₁ : db₁.toTables = { db.toTables with timeSplit := db.timeSplit ++ [row] })
    {timers : List (InsertableTimeSplitTimer J)} {values : List TimeSplitTimerValues}
    (hlength : values.length = timers.length)
    (hnames : values.map TimeSplitTimerValues.name = timers.map InsertableTimeSplitTimer.name)
    (hid : ∀ v ∈ values, v.timeSplitId = row.id) (c : Choice) :
    ((Stmt.insertTimeSplitTimers values).exec s c db₁).1.toBool = true ↔
      TimersAccepted c db.toTables timers := by
  have hrole := (Session.mayWrite_eq_true.mp hmay).1
  have hnil : values = [] ↔ timers = [] := by
    rw [← List.length_eq_zero_iff, ← List.length_eq_zero_iff, hlength]
  have htimers : db₁.timeSplitTimer = db.timeSplitTimer := by rw [hdb₁]
  rw [Stmt.toBool_insertTimeSplitTimers (.inl hrole) hrole, hnil, hlength, hnames, htimers]
  · rfl
  · intro v hv
    -- the new time split is the user's own
    rw [hid v hv, Session.mayWriteTimers, hdb₁, List.any_append, Bool.or_eq_true]
    refine .inr ?_
    simp [hmay]

/-- The handler of a creation in the session of a user. -/
theorem runHandler_create_leavesNothing (hJ : J.SpanLaws) {user : UserClaims}
    (hu : dbc.user = some user) (hmay : s.mayWrite user.sub = true)
    (body : InsertablePackagedTimeSplit J) :
    LeavesNothing (runHandler s c (createTimeSplit dbc body) db).1 db.toTables
        (runHandler s c (createTimeSplit dbc body) db).2.toTables ↔
      TimeSplitRefused (c 0) db.toTables body.timeSplit ∨
        TimersAccepted (c 1) db.toTables body.timers := by
  have hs : s.LoggedIn := .inl (Session.mayWrite_eq_true.mp hmay).1
  have hfirst := toBool_timeSplit hmay body.timeSplit (c 0) db
  rw [createTimeSplit, hu]
  dsimp only
  rw [runHandler_query]
  obtain ⟨e, he⟩ | ⟨id, db₁, he, -, -, hdb₁⟩ := Stmt.exec_cases hs (c 0)
    (.insertTimeSplit body.timeSplit.name body.timeSplit.description user.sub) db
  · rw [he] at hfirst ⊢
    refine iff_of_true (fun _ _ => ⟨rfl, rfl⟩) (.inl ?_)
    by_contra hnot
    cases hfirst.mpr hnot
  · rw [he] at hfirst ⊢
    obtain ⟨values, hvalues, hlength, hnames, hids⟩ := exists_timerValues hJ id body.timers
    rw [or_iff_right (hfirst.mp rfl), ← toBool_timers hmay hdb₁ hlength hnames hids (c 1)]
    dsimp only
    rw [runHandler_orPanic, hvalues]
    dsimp only
    rw [runHandler_query]
    obtain ⟨e, he⟩ | ⟨rows, db₂, he, -⟩ :=
      Stmt.exec_cases hs (c 1) (.insertTimeSplitTimers values) db₁
    · rw [he]
      refine iff_of_false (fun h => ?_) Bool.noConfusion
      -- the new time split is there, and the request has ended with an error
      have hsplits := (h _ rfl).1
      rw [hdb₁] at hsplits
      simp at hsplits
    · rw [he]
      refine iff_of_true (fun e ho => ?_) rfl
      dsimp only at ho
      rw [runHandler_orPanic] at ho
      split at ho <;> cases ho

end

/-- Creations: a time split without its timers is what can be left. -/
theorem leavesNothing_create (hJ : J.SpanLaws) {a : Arrival J}
    {body : InsertablePackagedTimeSplit J} (ha : a.request = .createTimeSplit body)
    (c : ℕ → Choice) (db : Db) :
    LeavesNothing (handle decode a c db).1 db.toTables (handle decode a c db).2.toTables ↔
      (loggedInAs decode a = none ∨ TimeSplitRefused (c 0) db.toTables body.timeSplit ∨
        TimersAccepted (c 1) db.toTables body.timers) := by
  obtain ⟨hfailed, e, h⟩ | ⟨dbc, s, hid, hconn, h⟩ := handle_cases decode a
  · rw [h]
    exact iff_of_true (fun _ _ => ⟨rfl, rfl⟩) (.inl (loggedInAs_of_failed hfailed))
  rw [h, ha, handler, loggedInAs_eq hconn]
  cases hu : dbc.user with
  | none =>
      rw [createTimeSplit, hu]
      exact iff_of_true (fun _ _ => ⟨rfl, rfl⟩) (.inl rfl)
  | some user =>
      have hmay : s.mayWrite user.sub = true := hid.mayWrite_iff.mpr ⟨user, hu, rfl⟩
      rw [Option.map_some, or_iff_right (Option.some_ne_none _)]
      exact runHandler_create_leavesNothing hJ hu hmay body

/-- **When a failed request leaves nothing behind.**  In every database: an
error of `create_time_split` or `delete_time_split` leaves the time splits and
their timers as they were exactly if the request cannot fail halfway. -/
theorem failed_leavesNothing (hJ : J.SpanLaws) (decode : String → Except String UserClaims)
    (a : Arrival J)
    (ha : (∃ body, a.request = .createTimeSplit body) ∨ ∃ id, a.request = .deleteTimeSplit id)
    (c : ℕ → Choice) (db : Db) :
    LeavesNothing (handle decode a c db).1 db.toTables (handle decode a c db).2.toTables ↔
      CannotHalve decode a c db.toTables := by
  rw [CannotHalve]
  obtain ⟨body, ha⟩ | ⟨id, ha⟩ := ha
  · rw [leavesNothing_create hJ ha c db, ha]
  · rw [leavesNothing_delete ha c db, ha]

/-- A time split with a timer that Postgres cannot store. -/
def nulTimer : InsertablePackagedTimeSplit Jiff.reference where
  timeSplit := oneTimer.timeSplit
  timers := oneTimer.timers.map fun timer => { timer with name := String.singleton (Char.ofNat 0) }

/-- The database after user 1 has created time split 5 with timer 11. -/
def withOneTimer : Db :=
  (handle oneUser (byUser (.createTimeSplit oneTimer))
    (fun n => if n = 0 then drawing 5 else drawing 11) migrated).2

/-- A NUL character in the name of a timer leaves a time split without timers,
and a deletion whose second statement fails leaves a time split whose timers
are deleted. -/
theorem failed_leaves_half :
    let creation := handle oneUser (byUser (.createTimeSplit nulTimer)) (fun _ => drawing 5)
      migrated
    let deletion := handle oneUser (byUser (.deleteTimeSplit 5))
      (fun n => if n = 0 then {} else failing) withOneTimer
    ¬ LeavesNothing creation.1 migrated.toTables creation.2.toTables ∧
      ¬ LeavesNothing deletion.1 withOneTimer.toTables deletion.2.toTables := by
  refine ⟨fun h => ?_, fun h => ?_⟩
  · exact absurd (h _ rfl).1 (by decide)
  · exact absurd (h _ rfl).2 (by decide)

/-- The first statement of a creation fails, and nothing is left. -/
theorem failed_leavesNothing_first :
    let o := handle oneUser (byUser (.createTimeSplit oneTimer)) (fun _ => failing) migrated
    LeavesNothing o.1 migrated.toTables o.2.toTables :=
  (failed_leavesNothing Jiff.reference_spanLaws oneUser (byUser (.createTimeSplit oneTimer))
    (.inl ⟨oneTimer, rfl⟩) (fun _ => failing) migrated).mpr (.inr (.inl (.inl rfl)))

end Lockinspiel
