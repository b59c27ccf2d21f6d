/-
Lockinspiel/Schema.lean

The four tables of the timekeeper schema, as the migration leaves them: their
rows, their constraints, their grants and their row level security policies.

`Tables` are the rows alone.  A `Db` is tables that satisfy the primary keys,
the `UNIQUE` and the `REFERENCES` of the schema, so a statement whose result
would break one of them has no `Db` to end in: `commit` refuses it.

The ids of the `SERIAL` columns are not stored here; which ids a statement
draws is left open, and the primary key refuses those that are taken.  No
statement of the service uses `DELETE`, so its grants and policies are left
out.
-/
import Lockinspiel.Auth
import Lockinspiel.SqlTypes

namespace Lockinspiel

open Sql

/-! ### Rows -/

/-- A row of `timekeeper.time_split`. -/
structure TimeSplitRow where
  id : ℤ
  userId : Uuid
  name : String
  description : Option String
  deleted : Bool
deriving DecidableEq

/-- A row of `timekeeper.time_split_timer`. -/
structure TimeSplitTimerRow where
  id : ℤ
  orderIdx : ℤ
  timeSplitId : ℤ
  len : PgInterval
  name : String
  work : Bool
  deleted : Bool
deriving DecidableEq

/-- A row of `timekeeper.timesheet`.  The two times are the numbers stored for
a `TIMESTAMPTZ`. -/
structure TimesheetRow where
  startTime : ℤ
  endTime : ℤ
  userId : Uuid
  tags : List (Option ℤ)
  timeSplitTimer : Option ℤ
deriving DecidableEq

/-- A row of `timekeeper.tag`. -/
structure TagRow where
  id : ℤ
  name : String
  userId : Uuid
  deleted : Bool
deriving DecidableEq

/-! ### Tables and constraints -/

structure Tables where
  timeSplit : List TimeSplitRow
  timeSplitTimer : List TimeSplitTimerRow
  timesheet : List TimesheetRow
  tag : List TagRow
deriving DecidableEq

namespace Tables

/-- `PRIMARY KEY` and `UNIQUE`. -/
structure Keys (t : Tables) : Prop where
  timeSplit : (t.timeSplit.map TimeSplitRow.id).Nodup
  timeSplitTimer : (t.timeSplitTimer.map TimeSplitTimerRow.id).Nodup
  timesheet : (t.timesheet.map fun r => (r.userId, r.startTime)).Nodup
  tag : (t.tag.map TagRow.id).Nodup
  tagName : (t.tag.map TagRow.name).Nodup

/-- `REFERENCES`; a `NULL` refers to nothing. -/
structure References (t : Tables) : Prop where
  timeSplitTimer : ∀ r ∈ t.timeSplitTimer, r.timeSplitId ∈ t.timeSplit.map TimeSplitRow.id
  timesheet : ∀ r ∈ t.timesheet, ∀ i ∈ r.timeSplitTimer,
    i ∈ t.timeSplitTimer.map TimeSplitTimerRow.id

instance : DecidablePred Keys := fun t =>
  decidable_of_iff
    ((t.timeSplit.map TimeSplitRow.id).Nodup ∧
      (t.timeSplitTimer.map TimeSplitTimerRow.id).Nodup ∧
      (t.timesheet.map fun r => (r.userId, r.startTime)).Nodup ∧
      (t.tag.map TagRow.id).Nodup ∧ (t.tag.map TagRow.name).Nodup)
    ⟨fun ⟨h₁, h₂, h₃, h₄, h₅⟩ => ⟨h₁, h₂, h₃, h₄, h₅⟩,
      fun ⟨h₁, h₂, h₃, h₄, h₅⟩ => ⟨h₁, h₂, h₃, h₄, h₅⟩⟩

instance : DecidablePred References := fun t =>
  decidable_of_iff
    ((∀ r ∈ t.timeSplitTimer, r.timeSplitId ∈ t.timeSplit.map TimeSplitRow.id) ∧
      ∀ r ∈ t.timesheet, ∀ i ∈ r.timeSplitTimer,
        i ∈ t.timeSplitTimer.map TimeSplitTimerRow.id)
    ⟨fun ⟨h₁, h₂⟩ => ⟨h₁, h₂⟩, fun ⟨h₁, h₂⟩ => ⟨h₁, h₂⟩⟩

/-- Does `user` own the time split `id`? -/
def owns (t : Tables) (user : Uuid) (id : ℤ) : Bool :=
  t.timeSplit.any fun r => r.id == id && r.userId == user

end Tables

/-- Tables that satisfy the constraints of the schema. -/
structure Db extends Tables where
  keys : toTables.Keys
  references : toTables.References

theorem Db.ext {db db' : Db} (h : db.toTables = db'.toTables) : db = db' := by
  cases db
  cases db'
  cases h
  rfl

/-- The result of a statement, if the constraints hold of it. -/
def commit (t : Tables) : Except SqlError Db :=
  if keys : t.Keys then
    if references : t.References then .ok ⟨t, keys, references⟩
    else .error .foreignKeyViolation
  else .error .uniqueViolation

theorem commit_ok {t : Tables} {db : Db} (h : commit t = .ok db) : db.toTables = t := by
  unfold commit at h
  split at h
  · split at h
    · cases h
      rfl
    · cases h
  · cases h

/-! ### Grants and policies -/

/-- What the expressions of the policies read. -/
structure Env where
  session : Session
  tables : Tables

/-- `timekeeper.uid() = user_id`. -/
def uidIs (e : Env) (userId : Uuid) : Bool := e.session.timekeeperUid == some userId

/-- The grants of every table of the schema. -/
def grants : List (Command × Role) :=
  [(.insert, .authenticated), (.select, .authenticated), (.update, .authenticated),
    (.select, .anon)]

/-- A table whose rows are inserted and updated by `authenticated` where
`expr` holds of them, and seen by everybody. -/
def secured {ρ : Type} (expr : Env → ρ → Bool) : Table Role Env ρ where
  owner := .service
  grants := grants
  policies := some
    [{ command := .insert, grantee := .authenticated, check := expr },
      { command := .select, grantee := .anon },
      { command := .update, grantee := .authenticated, visible := expr, check := expr }]

/-- `timekeeper.time_split`. -/
def timeSplitTable : Table Role Env TimeSplitRow := secured fun e r => uidIs e r.userId

/-- `EXISTS (SELECT 1 FROM timekeeper.time_split WHERE id = time_split_id AND
user_id = timekeeper.uid())`, a query of its own under the policies of
`time_split`. -/
def existsTimeSplit (e : Env) (timeSplitId : ℤ) : Bool :=
  match timeSplitTable.select Role.member e.session.role e
      (fun r => r.id == timeSplitId && uidIs e r.userId) e.tables.timeSplit with
  | .ok rows => !rows.isEmpty
  | .error _ => false

/-- `timekeeper.time_split_timer`. -/
def timeSplitTimerTable : Table Role Env TimeSplitTimerRow :=
  secured fun e r => existsTimeSplit e r.timeSplitId

/-- `timekeeper.timesheet`: row level security is not enabled. -/
def timesheetTable : Table Role Env TimesheetRow where
  owner := .service
  grants := grants
  policies := none

/-- `timekeeper.tag`. -/
def tagTable : Table Role Env TagRow := secured fun e r => uidIs e r.userId

/-! ### What the policies come to, in the session of a request -/

/-- The session has a role that a login leaves. -/
def Session.LoggedIn (s : Session) : Prop := s.role = .authenticated ∨ s.role = .anon

section

variable {ρ : Type} {expr : Env → ρ → Bool} {e : Env} {s : Session} {p : ρ → Bool}
  {f : ρ → ρ} {rows rows' new : List ρ}

/-- Every row can be seen, and `authenticated` writes those that satisfy the
policy. -/
theorem secured_passes (hs : s.LoggedIn) (r : ρ) :
    (secured expr).passes Role.member s.role e .select Policy.visible r = true ∧
    (secured expr).passes Role.member s.role e .insert Policy.check r =
      (s.role == .authenticated && expr e r) ∧
    (secured expr).passes Role.member s.role e .update Policy.visible r =
      (s.role == .authenticated && expr e r) ∧
    (secured expr).passes Role.member s.role e .update Policy.check r =
      (s.role == .authenticated && expr e r) := by
  rcases hs with h | h <;> rw [h] <;>
    simp only [Table.passes, secured, List.any_cons, List.any_nil] <;>
    cases expr e r <;> decide

/-- Everybody who is logged in reads. -/
theorem granted_select {E : Type} (hs : s.LoggedIn) {T : Table Role E ρ}
    (hT : T.grants = grants) :
    T.granted Role.member s.role .select = true := by
  rcases hs with h | h <;> simp [Table.granted, hT, grants, h, Role.member]

/-- Only `authenticated` writes. -/
theorem granted_write {E : Type} (hs : s.LoggedIn) {T : Table Role E ρ} (hT : T.grants = grants)
    (hown : T.owner = .service) {c : Command} (hc : c ≠ .select) :
    T.granted Role.member s.role c = (s.role == .authenticated) := by
  rw [Table.granted, hT, hown]
  rcases hs with h | h <;> rw [h] <;> cases c
  case inl.select | inr.select => exact absurd rfl hc
  all_goals rfl

theorem exists_select (hs : s.LoggedIn) (T : Table Role Env ρ) (hT : T.grants = grants)
    (e : Env) (p : ρ → Bool) (rows : List ρ) :
    ∃ rows', T.select Role.member s.role e p rows = .ok rows' :=
  ⟨_, if_pos (granted_select hs hT)⟩

theorem secured_select (hs : s.LoggedIn) :
    (secured expr).select Role.member s.role e p rows = .ok (rows.filter p) := by
  rw [Table.select, granted_select hs rfl, if_pos rfl]
  simp only [(secured_passes hs _).1, Bool.true_and]

/-- An insert that goes through inserts rows that satisfy the policy. -/
theorem secured_insert_ok (hs : s.LoggedIn)
    (h : (secured expr).insert Role.member s.role e new rows = .ok rows') :
    s.role = .authenticated ∧ (∀ r ∈ new, expr e r = true) ∧ rows' = rows ++ new := by
  obtain ⟨hgrant, hcheck, rfl⟩ := Table.insert_ok h
  rw [granted_write hs rfl rfl (by decide), beq_iff_eq] at hgrant
  refine ⟨hgrant, fun r hr => ?_, rfl⟩
  have := hcheck r hr
  rw [(secured_passes hs r).2.1, Bool.and_eq_true] at this
  exact this.2

/-- An update of columns the policy does not read touches exactly the rows
that satisfy it. -/
theorem secured_update (hs : s.LoggedIn) (hrole : s.role = .authenticated)
    (hf : ∀ r, expr e (f r) = expr e r) :
    (secured expr).update Role.member s.role e p f rows =
      .ok ((rows.filter fun r => expr e r && p r).length,
        setWhere (fun r => expr e r && p r) f rows) := by
  refine Table.update_eq ?_ (granted_select hs rfl) (fun r => (secured_passes hs r).1) ?_ ?_ hf
  · rw [granted_write hs rfl rfl (by decide), hrole]
    rfl
  · intro r
    rw [(secured_passes hs r).2.2.1, hrole]
    rfl
  · intro r
    rw [(secured_passes hs r).2.2.2, hrole]
    rfl

/-- An update that goes through was made by `authenticated`. -/
theorem secured_update_ok (hs : s.LoggedIn) {n : ℕ}
    (h : (secured expr).update Role.member s.role e p f rows = .ok (n, rows'))
    (hf : ∀ r, expr e (f r) = expr e r) :
    s.role = .authenticated ∧ rows' = setWhere (fun r => expr e r && p r) f rows := by
  have hgrant := (Table.update_ok h).1
  rw [granted_write hs rfl rfl (by decide), beq_iff_eq] at hgrant
  rw [secured_update hs hgrant hf] at h
  exact ⟨hgrant, (Prod.mk.inj (Except.ok.inj h)).2.symm⟩

end

/-- The `EXISTS` of the policies of `time_split_timer`: the user of the
session owns the time split. -/
theorem existsTimeSplit_iff {s : Session} (hs : s.LoggedIn) {t : Tables} {id : ℤ} :
    existsTimeSplit ⟨s, t⟩ id = true ↔ ∃ u, s.timekeeperUid = some u ∧ t.owns u id = true := by
  rw [existsTimeSplit, timeSplitTable, secured_select hs]
  simp only [Bool.not_eq_true', List.isEmpty_eq_false_iff_exists_mem, List.mem_filter, uidIs,
    Bool.and_eq_true, beq_iff_eq, Tables.owns, List.any_eq_true]
  constructor
  · rintro ⟨r, hr, hid, hu⟩
    exact ⟨r.userId, hu, r, hr, hid, rfl⟩
  · rintro ⟨u, hu, r, hr, hid, rfl⟩
    exact ⟨r, hr, hid, hu⟩

/-! ### The migrated database -/

/-- The rows the migration inserts. -/
def seed : Tables where
  timeSplit :=
    [⟨0, Uuid.nil, "_paused_", none, false⟩,
      ⟨1, Uuid.nil, "Pomodoro", some "Classic, tried, and true", false⟩,
      ⟨2, Uuid.nil, "Time Magazine", some "Based on studies", false⟩,
      ⟨3, Uuid.nil, "Tyson Split", some "For those with extra dog in 'em", false⟩,
      ⟨4, Uuid.nil, "Build Night", some "We burnin' out tonight baby!", false⟩]
  timeSplitTimer :=
    [⟨1, 0, 1, minutes 25, "Work", true, false⟩,
      ⟨2, 1, 1, minutes 5, "Break", false, false⟩,
      ⟨3, 2, 1, minutes 25, "Work", true, false⟩,
      ⟨4, 3, 1, minutes 15, "Long Break", false, false⟩,
      ⟨5, 0, 2, minutes 52, "Work", true, false⟩,
      ⟨6, 1, 2, minutes 17, "Break", false, false⟩,
      ⟨7, 0, 3, minutes 90, "Work", true, false⟩,
      ⟨8, 1, 3, minutes 10, "Break", false, false⟩,
      ⟨9, 0, 4, minutes 120, "Work", true, false⟩,
      ⟨10, 1, 4, minutes 10, "Break", false, false⟩]
  timesheet := []
  tag := []
where
  /-- `INTERVAL '.. minutes'`. -/
  minutes (n : ℤ) : PgInterval := { microseconds := n * 60000000, days := 0, months := 0 }

/-- The migrated database. -/
def migrated : Db where
  toTables := seed
  keys := by decide
  references := by decide

end Lockinspiel
