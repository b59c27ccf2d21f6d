/-
Lockinspiel/Shelf.lean

The time splits of one user as a map, and what the requests do to it.

A time split is kept in two tables, and the two handlers that write both of
them do so in two statements with no transaction around them.  So what a
request does is a relation between shelves: a creation that fails can leave a
time split without its timers, one that cannot read its rows back leaves it
with them, and a deletion that fails can take the timers away
(`Shelf.Writes`).  Each statement is one operation on the shelf of its
user and none on the others, and from these the requests are put together
(`shelf_refines`).
-/
import Lockinspiel.Lib.Runs
import Lockinspiel.FailedTimeSplit
import Lockinspiel.Histories
import Lockinspiel.Isolation
import Lockinspiel.TimeSplitAnswers

namespace Lockinspiel

open Effects Sql Runs

variable {J : Jiff} {decode : String → Except String UserClaims}

/-! ### Shelves -/

/-- The requests that write time splits. -/
def Request.isTimeSplitWrite : Request J → Bool
  | .createTimeSplit _ | .modifyTimeSplit .. | .deleteTimeSplit _ => true
  | _ => false

/-- What a user keeps of a time split. -/
structure Shelved where
  name : String
  description : Option String
  timers : List TimeSplitTimerRow

/-- The live time splits of a user. -/
abbrev Shelf := ℤ → Option Shelved

/-- A time split is changed, or taken away, if it is there. -/
def Shelf.change (m : Shelf) (id : ℤ) (f : Shelved → Option Shelved) : Shelf :=
  Function.update m id ((m id).bind f)

def shelved (t : Tables) (r : TimeSplitRow) : Shelved := ⟨r.name, r.description, liveTimers t r.id⟩

/-- The shelf of a user in the tables. -/
def shelfOf (t : Tables) (u : Uuid) : Shelf := fun id =>
  ((shownTimeSplits t u).find? fun r => r.id == id).map (shelved t)

theorem Shelf.ext {m m' : Shelf} (h : ∀ id s, m id = some s ↔ m' id = some s) : m = m' :=
  funext fun id => Option.ext fun s => h id s

theorem Shelf.change_eq_some {m : Shelf} {id id' : ℤ} {f : Shelved → Option Shelved} {s : Shelved} :
    m.change id f id' = some s ↔
      (id' ≠ id ∧ m id' = some s) ∨ (id' = id ∧ ∃ s₀, m id = some s₀ ∧ f s₀ = some s) := by
  by_cases h : id' = id
  · subst h
    rw [change, Function.update_self, Option.bind_eq_some_iff]
    simp
  · rw [change, Function.update_of_ne h]
    simp [h]

theorem Shelf.change_change (m : Shelf) (id : ℤ) (f g : Shelved → Option Shelved) :
    (m.change id f).change id g = m.change id fun s => (f s).bind g := by
  rw [change, change, Function.update_self, Function.update_idem, Option.bind_assoc, change]

section

variable {db db' : Db} {u : Uuid} {id : ℤ}

theorem shelfOf_eq_some {s : Shelved} :
    shelfOf db.toTables u id = some s ↔
      ∃ r ∈ db.timeSplit, r.id = id ∧ r.userId = u ∧ r.deleted = false ∧
        s = shelved db.toTables r := by
  rw [shelfOf, Option.map_eq_some_iff]
  constructor
  · rintro ⟨r, hr, rfl⟩
    have hid := List.find?_some hr
    obtain ⟨hmem, hq⟩ := List.mem_filter.mp (List.mem_of_find?_eq_some hr)
    simp only [Bool.and_eq_true, Bool.not_eq_true', beq_iff_eq] at hq hid
    exact ⟨r, hmem, hid, hq.2, hq.1, rfl⟩
  · rintro ⟨r, hmem, rfl, rfl, hlive, rfl⟩
    have hshown : r ∈ shownTimeSplits db.toTables r.userId :=
      List.mem_filter.mpr ⟨hmem, by simp [hlive]⟩
    have hsome : ((shownTimeSplits db.toTables r.userId).find? fun r' => r'.id == r.id).isSome :=
      List.find?_isSome.mpr ⟨r, hshown, beq_self_eq_true _⟩
    obtain ⟨r', hr'⟩ := Option.isSome_iff_exists.mp hsome
    have hid := List.find?_some hr'
    rw [beq_iff_eq] at hid
    have hmem' := List.mem_of_mem_filter (List.mem_of_find?_eq_some hr')
    obtain rfl := List.inj_on_of_nodup_map db.keys.timeSplit hmem' hmem hid
    exact ⟨r', hr', rfl⟩

/-- Nothing stands where no time split has the id. -/
theorem shelfOf_eq_none (h : id ∉ db.timeSplit.map TimeSplitRow.id) :
    shelfOf db.toTables u id = none := by
  rcases hs : shelfOf db.toTables u id with - | s
  · rfl
  · obtain ⟨r, hr, rfl, -⟩ := shelfOf_eq_some.mp hs
    exact absurd (List.mem_map_of_mem hr) h

/-! ### The statements -/

theorem liveTimers_congr {t t' : Tables} (h : t'.timeSplitTimer = t.timeSplitTimer) (id : ℤ) :
    liveTimers t' id = liveTimers t id := by
  rw [liveTimers, liveTimers, timersOf_congr h]

/-- A new time split stands on the shelf without timers. -/
theorem shelfOf_insertTimeSplit {row : TimeSplitRow} (hu : row.userId = u)
    (hlive : row.deleted = false)
    (h : db'.toTables = { db.toTables with timeSplit := db.timeSplit ++ [row] }) :
    shelfOf db.toTables u row.id = none ∧ shelfOf db'.toTables u =
      Function.update (shelfOf db.toTables u) row.id (some ⟨row.name, row.description, []⟩) := by
  obtain ⟨hfresh, hempty⟩ := timersOf_inserted h
  refine ⟨shelfOf_eq_none hfresh, Shelf.ext fun id s => ?_⟩
  have hlives : ∀ id, liveTimers db'.toTables id = liveTimers db.toTables id :=
    liveTimers_congr (by rw [h])
  rw [shelfOf_eq_some]
  simp only [show db'.timeSplit = _ from congrArg Tables.timeSplit h, List.mem_append,
    List.mem_singleton, shelved, hlives]
  by_cases hid : id = row.id
  · subst hid
    rw [Function.update_self, Option.some.injEq]
    have hnone : liveTimers db.toTables row.id = [] := by
      rw [← hlives, liveTimers, hempty]
      rfl
    constructor
    · rintro ⟨r, hr | rfl, hid, -, -, rfl⟩
      · exact absurd (hid ▸ List.mem_map_of_mem hr) hfresh
      · rw [hnone]
    · rintro rfl
      exact ⟨row, .inr rfl, rfl, hu, hlive, by rw [hnone]⟩
  · rw [Function.update_of_ne hid, shelfOf_eq_some]
    constructor
    · rintro ⟨r, hr | rfl, rfl, hrest⟩
      · exact ⟨r, hr, rfl, hrest⟩
      · exact absurd rfl hid
    · rintro ⟨r, hr, hrest⟩
      exact ⟨r, .inl hr, hrest⟩

/-- An update of the rows of one id that are the user's. -/
theorem shelfOf_setWhere (id : ℤ) {p : TimeSplitRow → Bool} {f : TimeSplitRow → TimeSplitRow}
    {g : Shelved → Option Shelved}
    (h : db'.toTables = { db.toTables with timeSplit := setWhere p f db.timeSplit })
    (hp : ∀ r, r.userId = u → (p r = true ↔ r.id = id))
    (hf : ∀ r, (f r).id = r.id ∧ (f r).userId = r.userId)
    (hg : ∀ r timers, r.deleted = false → g ⟨r.name, r.description, timers⟩ =
      if (f r).deleted then none else some ⟨(f r).name, (f r).description, timers⟩)
    (hdel : ∀ r, r.deleted = true → (f r).deleted = true) :
    shelfOf db'.toTables u = (shelfOf db.toTables u).change id g := by
  have hlives : ∀ id, liveTimers db'.toTables id = liveTimers db.toTables id :=
    liveTimers_congr (by rw [h])
  refine Shelf.ext fun id' s => ?_
  rw [shelfOf_eq_some, Shelf.change_eq_some]
  simp only [show db'.timeSplit = _ from congrArg Tables.timeSplit h, mem_setWhere, shelved,
    hlives, shelfOf_eq_some]
  constructor
  · rintro ⟨r', ⟨r, hr, hpr, rfl⟩ | ⟨hr, hpr⟩, rfl, hu, hlive, rfl⟩
    · rw [(hf r).2] at hu
      have hid := (hp r hu).mp hpr
      have hold : r.deleted = false := by
        by_contra hno
        rw [hdel r (by simpa using hno)] at hlive
        cases hlive
      refine .inr ⟨(hf r).1.trans hid, _, ⟨r, hr, hid, hu, hold, rfl⟩, ?_⟩
      rw [hg r _ hold, hlive, (hf r).1]
      rfl
    · refine .inl ⟨fun hid => ?_, r', hr, rfl, hu, hlive, rfl⟩
      rw [(hp r' hu).mpr hid] at hpr
      cases hpr
  · rintro (⟨hne, r, hr, rfl, hu, hlive, rfl⟩ | ⟨rfl, s₀, ⟨r, hr, hid, hu, hlive, rfl⟩, hs⟩)
    · refine ⟨r, .inr ⟨hr, Bool.eq_false_iff.mpr fun hpr => ?_⟩, rfl, hu, hlive, rfl⟩
      exact hne ((hp r hu).mp hpr)
    · rw [hg r _ hlive] at hs
      split at hs
      · cases hs
      · rename_i hlive'
        obtain rfl := Option.some.inj hs
        refine ⟨f r, .inl ⟨r, hr, (hp r hu).mpr hid, rfl⟩, (hf r).1.trans hid,
          (hf r).2.trans hu, by simpa using hlive', ?_⟩
        rw [(hf r).1]

/-- The timers of one time split are changed. -/
theorem shelfOf_timers {g : List TimeSplitTimerRow → List TimeSplitTimerRow}
    (h : db'.timeSplit = db.timeSplit)
    (hself : ∀ r ∈ db.timeSplit, r.userId = u → r.id = id →
      liveTimers db'.toTables id = g (liveTimers db.toTables id))
    (hother : ∀ r ∈ db.timeSplit, r.userId = u → r.id ≠ id →
      liveTimers db'.toTables r.id = liveTimers db.toTables r.id) :
    shelfOf db'.toTables u =
      (shelfOf db.toTables u).change id fun s => some { s with timers := g s.timers } := by
  refine Shelf.ext fun id' s => ?_
  rw [shelfOf_eq_some, Shelf.change_eq_some, h]
  simp only [shelfOf_eq_some, Option.some.injEq]
  constructor
  · rintro ⟨r, hr, rfl, hu, hlive, rfl⟩
    by_cases hid : r.id = id
    · refine .inr ⟨hid, _, ⟨r, hr, hid, hu, hlive, rfl⟩, ?_⟩
      rw [shelved, shelved, hid, hself r hr hu hid]
    · refine .inl ⟨hid, r, hr, rfl, hu, hlive, ?_⟩
      rw [shelved, shelved, hother r hr hu hid]
  · rintro (⟨hne, r, hr, rfl, hu, hlive, rfl⟩ | ⟨rfl, s₀, ⟨r, hr, hid, hu, hlive, rfl⟩, rfl⟩)
    · refine ⟨r, hr, rfl, hu, hlive, ?_⟩
      rw [shelved, shelved, hother r hr hu hne]
    · refine ⟨r, hr, hid, hu, hlive, ?_⟩
      rw [shelved, shelved, hid, hself r hr hu hid]

theorem deleted_of_rows {ids : ℕ → ℤ} {values : List TimeSplitTimerValues} {r : TimeSplitTimerRow}
    (hr : r ∈ TimeSplitTimerValues.rows ids values) : r.deleted = false := by
  obtain ⟨n, hn, rfl⟩ := List.mem_mapIdx.mp hr
  rfl

/-- New timers stand behind those that are there. -/
theorem shelfOf_insertTimeSplitTimers {rows : List TimeSplitTimerRow}
    (hrows : ∀ r ∈ rows, r.timeSplitId = id ∧ r.deleted = false)
    (h : db'.toTables = { db.toTables with timeSplitTimer := db.timeSplitTimer ++ rows }) :
    shelfOf db'.toTables u =
      (shelfOf db.toTables u).change id fun s => some { s with timers := s.timers ++ rows } := by
  have htimers := timersOf_append (fun r hr => (hrows r hr).1)
    (congrArg Tables.timeSplitTimer h)
  refine shelfOf_timers (g := fun timers => timers ++ rows) (by rw [h])
    (fun _ _ _ _ => ?_) fun r _ _ hne => ?_
  · have hall : rows.filter (fun r => !r.deleted) = rows :=
      List.filter_eq_self.mpr fun r hr => by rw [(hrows r hr).2]; rfl
    rw [liveTimers, htimers, if_pos rfl, List.filter_append, hall, liveTimers]
  · rw [liveTimers, htimers, if_neg hne, List.append_nil, liveTimers]

/-- The timers of a time split of the session's user are deleted. -/
theorem shelfOf_deleteTimeSplitTimers {s : Session} (hmay : s.mayWrite u = true)
    (h : db'.toTables = { db.toTables with
      timeSplitTimer := setWhere
        (fun r => s.mayWriteTimers db.toTables r.timeSplitId && r.timeSplitId == id)
        TimeSplitTimerRow.setDeleted db.timeSplitTimer }) :
    shelfOf db'.toTables u =
      (shelfOf db.toTables u).change id fun s => some { s with timers := [] } := by
  have htimers := timersOf_setDeleted (congrArg Tables.timeSplitTimer h)
  refine shelfOf_timers (g := fun _ => []) (by rw [h]) ?_ ?_
  · rintro r hr hu rfl
    have hown : s.mayWriteTimers db.toTables r.id = true :=
      List.any_eq_true.mpr ⟨r, hr, by rw [hu, hmay, beq_self_eq_true]; rfl⟩
    rw [liveTimers, htimers, List.filter_eq_nil_iff]
    intro timer htimer
    obtain ⟨timer₀, -, -, rfl⟩ | ⟨hmem, hno⟩ := mem_setWhere.mp htimer
    · exact Bool.false_ne_true
    · -- all timers of the time split are deleted
      rw [(mem_timersOf.mp hmem).2, hown, beq_self_eq_true] at hno
      cases hno
  · intro r hr hu hne
    rw [liveTimers, htimers, liveTimers]
    refine filter_setWhere fun timer htimer hp => ?_
    rw [Bool.and_eq_true, beq_iff_eq, (mem_timersOf.mp htimer).2] at hp
    exact absurd hp.2 hne

/-- A session writes on the shelf of its own user alone. -/
theorem shelfOf_foreign {s : Session} {c : Choice} {st : Stmt} {ret : st.Ret}
    (hdoes : st.Does s c db.toTables ret db'.toTables) (hno : s.mayWrite u = false) :
    shelfOf db'.toTables u = shelfOf db.toTables u := by
  funext id
  rw [shelfOf, shelfOf, hdoes.shownTimeSplits_eq hno]
  refine Option.map_congr fun r hr => ?_
  obtain ⟨hmem, hown⟩ := List.mem_filter.mp (List.mem_of_find?_eq_some hr)
  rw [Bool.and_eq_true, beq_iff_eq] at hown
  have hlive : ∀ t, liveTimers t r.id = shownTimers t [r.id] := by
    intro t
    rw [liveTimers, timersOf, List.filter_filter, shownTimers]
    refine List.filter_congr fun timer _ => ?_
    by_cases hid : timer.timeSplitId = r.id <;> simp [hid]
  rw [shelved, shelved, hlive, hlive, hdoes.shownTimers_eq]
  -- the owner of the time split is the user, who is not the one of the session
  intro id' hid'
  rw [List.mem_singleton.mp hid', Session.mayWriteTimers, List.any_eq_false]
  intro r' hr' hp
  rw [Bool.and_eq_true, beq_iff_eq] at hp
  obtain rfl := List.inj_on_of_nodup_map db.keys.timeSplit hr' hmem hp.1
  rw [hown.2, hno] at hp
  cases hp.2

end

/-! ### The requests -/

/-- A user's own request that has ended: what it has done to their shelf. -/
inductive Shelf.Writes : Request J → Outcome J → Shelf → Shelf → Prop
  | created {body : InsertablePackagedTimeSplit J} {p : PackagedTimeSplit J} {m : Shelf}
      {ids values} (hfresh : m p.timeSplit.id = none)
      (hvalues : timerValues p.timeSplit.id body.timers = some values)
      (hread : (TimeSplitTimerValues.rows ids values).mapM TimeSplitTimer.ofRow = some p.timers)
      (hname : p.timeSplit.name = body.timeSplit.name)
      (hdescription : p.timeSplit.description = body.timeSplit.description) :
      Writes (.createTimeSplit body) (.ok (.timeSplit p)) m
        (Function.update m p.timeSplit.id (some ⟨body.timeSplit.name, body.timeSplit.description,
          TimeSplitTimerValues.rows ids values⟩))
  /-- The timers are there, and cannot be read back. -/
  | unreadable {body : InsertablePackagedTimeSplit J} {m : Shelf} {id ids values}
      (hfresh : m id = none) (hvalues : timerValues id body.timers = some values)
      (hread : (TimeSplitTimerValues.rows ids values).mapM
        (TimeSplitTimer.ofRow (J := J)) = none) :
      Writes (.createTimeSplit body) (.error .panic) m
        (Function.update m id (some ⟨body.timeSplit.name, body.timeSplit.description,
          TimeSplitTimerValues.rows ids values⟩))
  /-- The time split is there without its timers. -/
  | half {body : InsertablePackagedTimeSplit J} {m : Shelf} {id e} (hfresh : m id = none) :
      Writes (.createTimeSplit body) (.error e) m
        (Function.update m id (some ⟨body.timeSplit.name, body.timeSplit.description, []⟩))
  | modified {id timeSplit} {m : Shelf} :
      Writes (.modifyTimeSplit id timeSplit) (.ok .unit) m (m.change id fun s => some { s with
        name := timeSplit.name
        description := timeSplit.description.orElse fun _ => s.description })
  | deleted {id} {m : Shelf} :
      Writes (.deleteTimeSplit id) (.ok .unit) m (m.change id fun _ => none)
  /-- The timers are deleted, and the time split is not. -/
  | emptied {id e} {m : Shelf} :
      Writes (.deleteTimeSplit id) (.error e) m (m.change id fun s => some { s with timers := [] })
  | failed {r e m} : Writes r (.error e) m m
  | other {r : Request J} {o m} (hr : r.isTimeSplitWrite = false) : Writes r o m m

section

variable {dbc : DatabaseConnection} {s : Session} {c : ℕ → Choice} {db : Db} {user : UserClaims}

theorem writes_createTimeSplit (hs : s.LoggedIn) (hu : dbc.user = some user)
    (body : InsertablePackagedTimeSplit J) :
    let o := runHandler s c (createTimeSplit dbc body) db
    Shelf.Writes (.createTimeSplit body) o.1 (shelfOf db.toTables user.sub)
      (shelfOf o.2.toTables user.sub) := by
  intro o
  have ho : o = runHandler s c (createTimeSplit dbc body) db := rfl
  clear_value o
  rw [createTimeSplit, hu] at ho
  dsimp only at ho
  rw [runHandler_query] at ho
  obtain ⟨e, he⟩ | ⟨id, db₁, he, -, -, hdb₁⟩ := Stmt.exec_cases hs (c 0)
    (.insertTimeSplit body.timeSplit.name body.timeSplit.description user.sub) db
  · rw [ho, he]
    exact .failed
  · -- the first statement puts the time split on the shelf without timers
    obtain ⟨hfresh, hfirst⟩ := shelfOf_insertTimeSplit (u := user.sub) rfl rfl hdb₁
    rw [he] at ho
    dsimp only at ho
    rw [runHandler_orPanic] at ho
    cases hvalues : timerValues id body.timers with
    | none =>
        rw [ho, hvalues]
        dsimp only
        rw [hfirst]
        exact .half hfresh
    | some values =>
        rw [hvalues] at ho
        dsimp only at ho
        rw [runHandler_query] at ho
        obtain ⟨e, he⟩ | ⟨rows, db₂, he, rfl, -, -, hdb₂⟩ := Stmt.exec_cases hs
          (c (0 + 1)) (.insertTimeSplitTimers values) db₁
        · rw [ho, he]
          dsimp only
          rw [hfirst]
          exact .half hfresh
        · -- the second one puts all timers there, in one step
          have hrows : ∀ r ∈ TimeSplitTimerValues.rows (c (0 + 1)).ids values,
              r.timeSplitId = id := timeSplitId_of_rows (timerValues_spec hvalues).1
          have hsecond := shelfOf_insertTimeSplitTimers (u := user.sub)
            (fun r hr => ⟨hrows r hr, deleted_of_rows hr⟩) hdb₂
          rw [hfirst, Shelf.change, Function.update_self, Function.update_idem] at hsecond
          rw [he] at ho
          dsimp only at ho
          rw [runHandler_orPanic] at ho
          -- only then are the rows read back
          cases hread : (TimeSplitTimerValues.rows (c (0 + 1)).ids values).mapM
              (TimeSplitTimer.ofRow (J := J)) with
          | none =>
              rw [ho, hread]
              dsimp only
              rw [hsecond]
              exact .unreadable hfresh hvalues hread
          | some timers =>
              rw [ho, hread]
              dsimp only
              rw [runHandler_pure, hsecond]
              exact .created hfresh hvalues hread rfl rfl

theorem writes_modifyTimeSplit (hs : s.LoggedIn)
    (hmay : ∀ owner, s.mayWrite owner = (owner == user.sub)) (id : ℤ)
    (timeSplit : InsertableTimeSplit) :
    let o := runHandler s c (modifyTimeSplit (J := J) id timeSplit) db
    Shelf.Writes (.modifyTimeSplit id timeSplit) o.1 (shelfOf db.toTables user.sub)
      (shelfOf o.2.toTables user.sub) := by
  intro o
  have ho : o = runHandler s c (modifyTimeSplit id timeSplit) db := rfl
  clear_value o
  rw [modifyTimeSplit, runHandler_query] at ho
  obtain ⟨e, he⟩ | ⟨n, db', he, hdb'⟩ := Stmt.exec_cases hs (c 0)
    (.updateTimeSplit id timeSplit.name timeSplit.description) db
  · rw [ho, he]
    exact .failed
  · have htables : db'.toTables = _ := hdb'
    have hshelf := shelfOf_setWhere (u := user.sub) id (g := fun s => some { s with
        name := timeSplit.name
        description := timeSplit.description.orElse fun _ => s.description }) htables
      (fun r hr => by simp [hmay, hr]) (fun r => ⟨rfl, rfl⟩)
      (fun r timers hlive => by simp [TimeSplitRow.set, hlive]) fun r h => h
    rw [ho, he]
    dsimp only
    rw [runHandler_pure, hshelf]
    exact .modified

theorem writes_deleteTimeSplit (hs : s.LoggedIn)
    (hmay : ∀ owner, s.mayWrite owner = (owner == user.sub)) (id : ℤ) :
    let o := runHandler s c (deleteTimeSplit (J := J) id) db
    Shelf.Writes (.deleteTimeSplit id) o.1 (shelfOf db.toTables user.sub)
      (shelfOf o.2.toTables user.sub) := by
  intro o
  have ho : o = runHandler s c (deleteTimeSplit id) db := rfl
  clear_value o
  rw [deleteTimeSplit, runHandler_query] at ho
  obtain ⟨e, he⟩ | ⟨n, db₁, he, -, hdb₁⟩ := Stmt.exec_cases hs (c 0) (.deleteTimeSplitTimers id) db
  · rw [ho, he]
    exact .failed
  · have hfirst := shelfOf_deleteTimeSplitTimers (u := user.sub)
      (by rw [hmay, beq_self_eq_true]) hdb₁
    rw [he] at ho
    dsimp only at ho
    rw [runHandler_query] at ho
    obtain ⟨e, he⟩ | ⟨n, db₂, he, hdb₂⟩ := Stmt.exec_cases hs (c (0 + 1)) (.deleteTimeSplit id) db₁
    · rw [ho, he]
      dsimp only
      rw [hfirst]
      exact .emptied
    · have htables : db₂.toTables = _ := hdb₂
      have hsecond := shelfOf_setWhere (u := user.sub) id (g := fun _ => none) htables
        (fun r hr => by simp [hmay, hr]) (fun r => ⟨rfl, rfl⟩) (fun r timers _ => rfl)
        fun r _ => rfl
      rw [ho, he]
      dsimp only
      rw [runHandler_pure, hsecond, hfirst, Shelf.change_change]
      have hgone : (fun s : Shelved => (some { s with timers := [] }).bind
          fun _ => (none : Option Shelved)) = fun _ => none := rfl
      rw [hgone]
      exact .deleted

/-- Other requests ask no statement that is about time splits. -/
theorem shelfOf_other (hs : s.LoggedIn) {r : Request J} (hr : r.isTimeSplitWrite = false)
    (u : Uuid) :
    shelfOf (runHandler s c (handler dbc r) db).2.toTables u = shelfOf db.toTables u := by
  refine Program.run_follows (I := fun db' : Db => shelfOf db'.toTables u = shelfOf db.toTables u)
    ?_ _ [] c db (handler_follows dbc r) rfl
  intro past c st db' hasks hsame
  obtain ⟨e, he⟩ | ⟨ret, db'', he, hdoes⟩ := Stmt.exec_cases hs c st db' <;> rw [he]
  · exact hsame
  · rw [← hsame]
    have htables : db''.timeSplit = db'.timeSplit ∧ db''.timeSplitTimer = db'.timeSplitTimer := by
      cases hasks with
      | insertTimeSplit | insertTimeSplitTimers | updateTimeSplit | deleteTimeSplitTimers
      | deleteTimeSplit => cases hr
      | insertTag =>
          obtain ⟨-, -, htables⟩ := hdoes
          rw [htables]
          exact ⟨rfl, rfl⟩
      | updateTag | deleteTag =>
          have htables : db''.toTables = _ := hdoes
          rw [htables]
          exact ⟨rfl, rfl⟩
      | insertTimesheet | updateTimesheet =>
          obtain ⟨-, htables⟩ := hdoes
          rw [htables]
          exact ⟨rfl, rfl⟩
      | _ =>
          obtain ⟨htables, -⟩ := hdoes
          rw [htables]
          exact ⟨rfl, rfl⟩
    funext id
    rw [shelfOf, shelfOf, shownTimeSplits, htables.1, shownTimeSplits]
    refine Option.map_congr fun r _ => ?_
    rw [shelved, shelved, liveTimers_congr htables.2]

end

/-! ### What a user is shown -/

/-- A time split of the shelf, as it is answered. -/
def Shelved.pack (J : Jiff) (id : ℤ) (s : Shelved) : PackagedTimeSplit J where
  timeSplit := { id, name := s.name, description := s.description }
  timers := s.timers.filterMap TimeSplitTimer.ofRow

/-- The answer is the shelf: every time split once, with all of its timers. -/
structure Shelf.Lists (m : Shelf) (l : List (PackagedTimeSplit J)) : Prop where
  nodup : (l.map fun p => p.timeSplit.id).Nodup
  mem : ∀ p, p ∈ l ↔ ∃ s, m p.timeSplit.id = some s ∧ p = s.pack J p.timeSplit.id
  read : ∀ id s, m id = some s → ∀ r ∈ s.timers, (TimeSplitTimer.ofRow (J := J) r).isSome

/-- What `get_time_splits` answers the user of the shelf. -/
def Shelf.Shows (r : Request J) (o : Outcome J) (m : Shelf) : Prop :=
  match r, o with
  | .getTimeSplits, .ok reply => ∃ l, reply = .timeSplits l ∧ m.Lists l
  | _, _ => True

section

variable {db : Db} {u : Uuid}

theorem lists_shownTimeSplits (hread : ReadableFor J db.toTables u) {rows : List TimeSplitRow}
    (hrows : rows.Perm (shownTimeSplits db.toTables u)) :
    (shelfOf db.toTables u).Lists (rows.map (pack J db.toTables)) where
  nodup := by
    rw [List.map_map]
    exact nodup_shownTimeSplits db hrows
  mem := by
    intro p
    simp only [List.mem_map, hrows.mem_iff, shelfOf_eq_some]
    constructor
    · rintro ⟨r, hr, rfl⟩
      obtain ⟨hmem, hq⟩ := List.mem_filter.mp hr
      simp only [Bool.and_eq_true, Bool.not_eq_true', beq_iff_eq] at hq
      exact ⟨_, ⟨r, hmem, rfl, hq.2, hq.1, rfl⟩, rfl⟩
    · rintro ⟨s, ⟨r, hmem, hid, hu, hlive, rfl⟩, hp⟩
      refine ⟨r, List.mem_filter.mpr ⟨hmem, by simp [hu, hlive]⟩, ?_⟩
      rw [hp, ← hid]
      rfl
  read := by
    intro id s hs timer htimer
    obtain ⟨r, hmem, rfl, hu, hlive, rfl⟩ := shelfOf_eq_some.mp hs
    obtain ⟨htimer, hshown⟩ := List.mem_filter.mp htimer
    obtain ⟨htimer, hid⟩ := mem_timersOf.mp htimer
    refine TimeSplitTimer.isSome_ofRow.mpr (hread timer (List.mem_filter.mpr ⟨htimer, ?_⟩))
    have hr : r ∈ shownTimeSplits db.toTables u :=
      List.mem_filter.mpr ⟨hmem, by simp [hu, hlive]⟩
    rw [hshown, hid, Bool.true_and, List.contains_iff_mem]
    exact List.mem_map_of_mem hr

theorem shows_handle (hbatched : Batched db.toTables) {a : Arrival J}
    (hu : caller decode a = some u) (c : ℕ → Choice) :
    Shelf.Shows a.request (handle decode a c db).1 (shelfOf db.toTables u) := by
  obtain ⟨dbc, s, hid, rfl, hrun⟩ := handle_of_caller hu
  cases hreq : a.request with
  | getTimeSplits =>
      cases ho : (handle decode a c db).1 with
      | error e => exact trivial
      | ok reply =>
          rw [hrun, hreq, handler] at ho
          obtain ⟨hread, rows, hperm, rfl⟩ :=
            runHandler_getTimeSplits_ok hid.loggedIn hbatched (Prod.ext ho rfl)
          exact ⟨_, rfl, lists_shownTimeSplits hread hperm⟩
  | _ => exact trivial

end

/-! ### Runs -/

variable (decode) in
/-- One request, with its outcome, and the shelf of a user before and after
it. -/
structure Shelf.Next (u : Uuid) (h : Arrival J × Outcome J) (m m' : Shelf) : Prop where
  writes : loggedInAs decode h.1 = some u → Shelf.Writes h.1.request h.2 m m'
  foreign : loggedInAs decode h.1 ≠ some u → m' = m
  shows : caller decode h.1 = some u → Shelf.Shows h.1.request h.2 m

/-- A request of the user of the shelf. -/
theorem writes_handle {a : Arrival J} {u : Uuid} (hu : loggedInAs decode a = some u)
    (c : ℕ → Choice) (db : Db) :
    Shelf.Writes a.request (handle decode a c db).1 (shelfOf db.toTables u)
      (shelfOf (handle decode a c db).2.toTables u) := by
  obtain ⟨dbc, s, hid, hsub, hrun⟩ := handle_of_loggedIn hu
  obtain ⟨user, huser, rfl⟩ := Option.map_eq_some_iff.mp hsub
  have hmay := hid.mayWrite_eq huser
  rw [hrun]
  cases hreq : a.request with
  | createTimeSplit body => exact writes_createTimeSplit hid.loggedIn huser body
  | modifyTimeSplit id timeSplit => exact writes_modifyTimeSplit hid.loggedIn hmay id timeSplit
  | deleteTimeSplit id => exact writes_deleteTimeSplit hid.loggedIn hmay id
  | _ =>
      rw [shelfOf_other hid.loggedIn rfl]
      exact .other rfl

/-- A request of somebody else. -/
theorem shelfOf_handle {a : Arrival J} {u : Uuid} (hu : loggedInAs decode a ≠ some u)
    (c : ℕ → Choice) (db : Db) :
    shelfOf (handle decode a c db).2.toTables u = shelfOf db.toTables u := by
  obtain ⟨-, e, h⟩ | ⟨dbc, s, hid, hconn, hrun⟩ := handle_cases decode a
  · rw [h]
  · rw [loggedInAs_eq hconn] at hu
    have hno : s.mayWrite u = false := by
      rw [Bool.eq_false_iff]
      intro hmay
      obtain ⟨user, huser, rfl⟩ := hid.mayWrite_iff.mp hmay
      rw [huser] at hu
      exact hu rfl
    rw [hrun]
    refine Program.run_invariant
      (I := fun db' : Db => shelfOf db'.toTables u = shelfOf db.toTables u) ?_ _ c db rfl
    intro c st db' hsame
    obtain ⟨e, he⟩ | ⟨ret, db'', he, hdoes⟩ := Stmt.exec_cases hid.loggedIn c st db' <;> rw [he]
    · exact hsame
    · exact (shelfOf_foreign hdoes hno).trans hsame

/-- **The time splits of a user are a shelf.**  From every state that the
service can reach, requests of anybody that come one after the other change the
live time splits of a user as follows: a request of somebody else leaves them;
a request of the user writes what it has returned with its timers, or what its
error has left, and nothing else; and what the user is answered is what they
have. -/
theorem shelf_refines (decode : String → Except String UserClaims)
    (acts : List (Act (Arrival J) Choice)) (requests : List (Arrival J × (ℕ → Choice)))
    (u : Uuid) :
    let db := ((service decode).run acts initial).shared
    Path (Shelf.Next decode u) (outcomes decode requests db) (shelfOf db.toTables u)
      (shelfOf (handleAll decode requests db).toTables u) := by
  induction requests generalizing acts with
  | nil => exact rfl
  | cons r requests ih =>
      intro db
      have hcfg : Consistent decode ((service decode).run acts initial) := consistent_initial acts
      refine ⟨shelfOf (handle decode r.1 r.2 db).2.toTables u, ⟨fun hu => writes_handle hu _ db,
        fun hu => shelfOf_handle hu _ db, fun hu => shows_handle hcfg.store.1 hu _⟩, ?_⟩
      -- the state after the request is reachable as well
      obtain ⟨acts', hacts'⟩ :=
        exists_run_handleAll decode [r] ((service decode).run acts initial)
      have hrest := ih (acts ++ acts')
      rw [System.run_append, hacts'] at hrest
      exact hrest

end Lockinspiel
