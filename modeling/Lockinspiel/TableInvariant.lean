/-
Lockinspiel/TableInvariant.lean

What holds of the tables in every run of the service, under any schedule.

The timers of a time split are inserted by one statement, by the request that
has drawn the id of the split, so they form one batch numbered from 0
(`Batched`).  The proof follows every request that has drawn an id
(`drawnId`): the timers of that split are those the request has inserted, none
before its second statement, and no two requests have drawn the same id.  What
a batch is made of never changes afterwards, a deleted row stays deleted, and
no id changes hands.
-/
import Lockinspiel.Evolves

namespace Lockinspiel

open Effects Sql

variable {J : Jiff} {decode : String → Except String UserClaims}

/-! ### The batch of a time split -/

/-- The timers of a time split, in the order of their insertion. -/
def timersOf (t : Tables) (id : ℤ) : List TimeSplitTimerRow :=
  t.timeSplitTimer.filter fun r => r.timeSplitId == id

/-- A timer without its `deleted`. -/
def TimeSplitTimerRow.fixed (r : TimeSplitTimerRow) : TimeSplitTimerRow :=
  { r with deleted := false }

/-- `order_idx` counts the timers of a time split from 0. -/
def Batched (t : Tables) : Prop :=
  ∀ id, (timersOf t id).map TimeSplitTimerRow.orderIdx =
    (List.range (timersOf t id).length).map Nat.cast

/-- Every row of the timesheet names a timer. -/
def Linked (t : Tables) : Prop := ∀ r ∈ t.timesheet, ∃ id, r.timeSplitTimer = some id

/-- The id of the time split that an answer has created. -/
def drawn : sql.Event → Option ℤ
  | ⟨.insertTimeSplit _ _ _, .ok id⟩ => some id
  | _ => none

/-- The timers that an answer has inserted. -/
def inserted : sql.Event → List TimeSplitTimerRow
  | ⟨.insertTimeSplitTimers _, .ok rows⟩ => rows
  | _ => []

/-- The time split that a request has created. -/
def drawnId (t : Worker J) : Option ℤ := t.past.getLast?.bind drawn

/-- The timers that a request has inserted. -/
def insertedTimers (t : Worker J) : List TimeSplitTimerRow := t.past.head?.elim [] inserted

theorem mem_timersOf {t : Tables} {id : ℤ} {r : TimeSplitTimerRow} :
    r ∈ timersOf t id ↔ r ∈ t.timeSplitTimer ∧ r.timeSplitId = id := by
  rw [timersOf, List.mem_filter, beq_iff_eq]

theorem timersOf_congr {t t' : Tables} (h : t'.timeSplitTimer = t.timeSplitTimer) (id : ℤ) :
    timersOf t' id = timersOf t id := by
  rw [timersOf, h, timersOf]

/-- The tuples of a new time split belong to it, and are numbered from 0. -/
theorem timerValues_spec {id : ℤ} {timers : List (InsertableTimeSplitTimer J)}
    {values : List TimeSplitTimerValues} (h : timerValues id timers = some values) :
    (∀ v ∈ values, v.timeSplitId = id) ∧
      (5 * values.length ≤ maxBinds →
        values.map TimeSplitTimerValues.orderIdx = (List.range values.length).map Nat.cast) := by
  have hvalue : ∀ (t : InsertableTimeSplitTimer J × ℕ) v, t.1.values id t.2 = some v →
      v.timeSplitId = id ∧ v.orderIdx = asI32 t.2 := by
    intro t v hv
    obtain ⟨len, -, hv⟩ := Option.bind_eq_some_iff.mp hv
    obtain rfl := Option.some.inj hv
    exact ⟨rfl, by dsimp only⟩
  refine ⟨fun v hv => ?_, fun hlimit => ?_⟩
  · obtain ⟨t, -, ht⟩ := exists_of_mem_mapM h hv
    exact (hvalue t v ht).1
  · have hlen : values.length = timers.length := by
      rw [← (mapM_eq_some.mp h).length_eq, List.length_zipIdx]
    rw [map_of_mapM (fun t v hv => (hvalue t v hv).2) h, hlen]
    have horder : timers.zipIdx.map Prod.snd = List.range timers.length := by
      rw [List.zipIdx_map_snd, List.range_eq_range']
    rw [← horder, List.map_map]
    refine List.map_congr_left fun t ht => asI32_eq ?_
    have := List.snd_lt_of_mem_zipIdx ht
    rw [hlen, maxBinds] at hlimit
    omega

/-- Deleting timers leaves their fixed columns. -/
theorem timersOf_setDeleted {t t' : Tables} {p : TimeSplitTimerRow → Bool}
    (h : t'.timeSplitTimer = setWhere p TimeSplitTimerRow.setDeleted t.timeSplitTimer) (id : ℤ) :
    timersOf t' id = setWhere p TimeSplitTimerRow.setDeleted (timersOf t id) := by
  rw [timersOf, h]
  exact filter_setWhere_comm (f := TimeSplitTimerRow.setDeleted) (fun _ => rfl) _

theorem timeSplitId_of_rows {ids : ℕ → ℤ} {id : ℤ} {values : List TimeSplitTimerValues}
    (hid : ∀ v ∈ values, v.timeSplitId = id) :
    ∀ r ∈ TimeSplitTimerValues.rows ids values, r.timeSplitId = id := by
  intro r hr
  obtain ⟨n, hn, rfl⟩ := List.mem_mapIdx.mp hr
  exact hid _ (List.getElem_mem hn)

/-- New timers belong to their own time split alone. -/
theorem timersOf_append {t t' : Tables} {id : ℤ} {rows : List TimeSplitTimerRow}
    (hid : ∀ r ∈ rows, r.timeSplitId = id)
    (h : t'.timeSplitTimer = t.timeSplitTimer ++ rows) (id' : ℤ) :
    timersOf t' id' = timersOf t id' ++ if id' = id then rows else [] := by
  rw [timersOf, h, List.filter_append, timersOf]
  congr 1
  split
  · subst id'
    exact List.filter_eq_self.mpr fun r hr => beq_iff_eq.mpr (hid r hr)
  · rename_i hne
    refine List.filter_eq_nil_iff.mpr fun r hr heq => hne ?_
    rw [← beq_iff_eq.mp heq, hid r hr]

/-- A time split that does not exist has no timers. -/
theorem timersOf_eq_nil (db : Db) {id : ℤ} (h : id ∉ db.timeSplit.map TimeSplitRow.id) :
    timersOf db.toTables id = [] := by
  refine List.filter_eq_nil_iff.mpr fun r hr heq => h ?_
  exact beq_iff_eq.mp heq ▸ db.references.timeSplitTimer r hr

/-! ### The requests that create time splits -/

theorem drawn_eq_some {e : sql.Event} {id : ℤ} (h : drawn e = some id) :
    ∃ name description userId, e = ⟨.insertTimeSplit name description userId, .ok id⟩ := by
  unfold drawn at h
  split at h
  · obtain rfl := Option.some.inj h
    exact ⟨_, _, _, rfl⟩
  · cases h

/-- The first answer of a request says which time split it has created. -/
theorem drawnId_resume {l : Context J} {past : List sql.Event} {st : Stmt}
    {k : sql.Res st → Program sql (Outcome J)} {r : sql.Res st} {id : ℤ}
    (h : drawnId (System.resume l past st k r) = some id) :
    (past = [] ∧ drawn ⟨st, r⟩ = some id) ∨
      drawnId (⟨l, past, .call st k⟩ : Worker J) = some id := by
  cases past with
  | nil => exact .inl ⟨rfl, h⟩
  | cons e past => exact .inr h

theorem drawnId_arrive (a : Arrival J) : drawnId (arrive decode a) = none := by
  rw [drawnId, arrive_past]
  rfl

/-- A request that has created a time split and goes on inserts its timers. -/
theorem asks_of_drawnId {l : Context J} {past : List sql.Event} {st : Stmt}
    {k : sql.Res st → Program sql (Outcome J)} {id : ℤ}
    (h : Sound decode ⟨l, past, .call st k⟩)
    (hid : drawnId (⟨l, past, .call st k⟩ : Worker J) = some id) :
    ∃ values, st = .insertTimeSplitTimers values := by
  obtain ⟨db, -, hasks⟩ := h.working
  replace hid : past.getLast?.bind drawn = some id := hid
  generalize l.arrival.request = req at hasks
  cases hasks with
  | insertTimeSplitTimers => exact ⟨_, rfl⟩
  | _ => cases hid

/-- A request that is about to insert timers has just created their time
split. -/
theorem drawnId_insert {l : Context J} {past : List sql.Event}
    {values : List TimeSplitTimerValues}
    {k : sql.Res (.insertTimeSplitTimers values) → Program sql (Outcome J)}
    (h : Sound decode ⟨l, past, .call (.insertTimeSplitTimers values) k⟩) :
    ∃ (id : ℤ) (timers : List (InsertableTimeSplitTimer J)),
      drawnId ⟨l, past, .call (.insertTimeSplitTimers values) k⟩ = some id ∧
        insertedTimers ⟨l, past, .call (.insertTimeSplitTimers values) k⟩ = [] ∧
        timerValues id timers = some values := by
  obtain ⟨db, -, hasks⟩ := h.working
  generalize hr : l.arrival.request = r at hasks
  cases hasks with
  | insertTimeSplitTimers hu hvalues => exact ⟨_, _, rfl, rfl, hvalues⟩

/-- What is asserted of a request: the time split it has created is there, with
the timers it has inserted. -/
def Owning (decode : String → Except String UserClaims) (t : Worker J) (db : Db) : Prop :=
  Sound decode t ∧ ∀ id, drawnId t = some id →
    id ∈ db.timeSplit.map TimeSplitRow.id ∧
      (timersOf db.toTables id).map TimeSplitTimerRow.fixed = insertedTimers t

/-- No two requests have created the same time split. -/
def Apart (t u : Worker J) : Prop := ∀ id, drawnId t = some id → drawnId u ≠ some id

section

variable {l : Context J} {past : List sql.Event} {st : Stmt}
  {k : sql.Res st → Program sql (Outcome J)} {c : Choice} {db db' : Db} {ret : st.Ret}

/-- Before a request inserts its timers, their time split has none. -/
theorem Owning.timersOf_eq_nil {values : List TimeSplitTimerValues}
    {k : sql.Res (.insertTimeSplitTimers values) → Program sql (Outcome J)}
    (h : Owning decode ⟨l, past, .call (.insertTimeSplitTimers values) k⟩ db) :
    ∃ (id : ℤ) (timers : List (InsertableTimeSplitTimer J)),
      drawnId ⟨l, past, .call (.insertTimeSplitTimers values) k⟩ = some id ∧
        timersOf db.toTables id = [] ∧ timerValues id timers = some values := by
  obtain ⟨id, timers, hdrawn, hnone, hvalues⟩ := drawnId_insert h.1
  refine ⟨id, timers, hdrawn, ?_, hvalues⟩
  rw [← List.map_eq_nil_iff, (h.2 id hdrawn).2, hnone]

/-- A statement keeps the batches. -/
theorem batched_does (hdoes : st.Does l.session c db.toTables ret db'.toTables)
    (hB : Batched db.toTables) (hW : Owning decode ⟨l, past, .call st k⟩ db) :
    Batched db'.toTables := by
  intro id
  obtain heq | ⟨values, rfl, hlimit, -, heq⟩ | ⟨id', rfl, heq⟩ := hdoes.timeSplitTimer_cases
  · rw [timersOf_congr heq]
    exact hB id
  · obtain ⟨id', timers, -, hempty, hvalues⟩ := hW.timersOf_eq_nil
    obtain ⟨hid, horder⟩ := timerValues_spec hvalues
    rw [timersOf_append (timeSplitId_of_rows hid) heq]
    split
    · -- the first timers of this time split
      rename_i h
      have hrows : (TimeSplitTimerValues.rows c.ids values).map TimeSplitTimerRow.orderIdx =
          values.map TimeSplitTimerValues.orderIdx :=
        List.ext_getElem (by simp [TimeSplitTimerValues.rows])
          fun n _ _ => by simp [TimeSplitTimerValues.rows]
      rw [h, hempty, List.nil_append, hrows, horder hlimit]
      simp [TimeSplitTimerValues.rows]
    · rw [List.append_nil]
      exact hB id
  · rw [timersOf_setDeleted heq, length_setWhere,
      map_setWhere (f := TimeSplitTimerRow.setDeleted) fun _ => rfl]
    exact hB id

/-- A statement keeps the timesheet linked. -/
theorem linked_does (hdoes : st.Does l.session c db.toTables ret db'.toTables)
    (hL : Linked db.toTables) : Linked db'.toTables := by
  intro r hr
  obtain heq | ⟨values, userId, -, heq⟩ | ⟨userId, startTime, values, -, heq⟩ :=
    hdoes.timesheet_cases <;> rw [heq] at hr
  · exact hL r hr
  · rcases List.mem_append.mp hr with hr | hr
    · exact hL r hr
    · rw [List.mem_singleton.mp hr]
      exact ⟨_, rfl⟩
  · obtain ⟨r₀, -, -, rfl⟩ | ⟨hr, -⟩ := mem_setWhere.mp hr
    · exact ⟨_, rfl⟩
    · exact hL r hr

/-- A time split that has just been inserted has no timers. -/
theorem timersOf_inserted {row : TimeSplitRow}
    (heq : db'.toTables = { db.toTables with timeSplit := db.timeSplit ++ [row] }) :
    row.id ∉ db.timeSplit.map TimeSplitRow.id ∧ timersOf db'.toTables row.id = [] := by
  have hfresh : row.id ∉ db.timeSplit.map TimeSplitRow.id := by
    have hnodup := db'.keys.timeSplit
    rw [congrArg Tables.timeSplit heq, List.map_append, List.nodup_append] at hnodup
    intro hmem
    exact hnodup.2.2 _ hmem _ (List.mem_singleton_self _) rfl
  refine ⟨hfresh, ?_⟩
  rw [timersOf_congr (congrArg Tables.timeSplitTimer heq)]
  exact timersOf_eq_nil db hfresh

/-- New timers are not deleted. -/
theorem map_fixed_rows (ids : ℕ → ℤ) (values : List TimeSplitTimerValues) :
    (TimeSplitTimerValues.rows ids values).map TimeSplitTimerRow.fixed =
      TimeSplitTimerValues.rows ids values := by
  refine (List.map_congr_left fun r hr => ?_).trans (List.map_id _)
  obtain ⟨n, -, rfl⟩ := List.mem_mapIdx.mp hr
  rfl

/-- A time split is still there after a statement. -/
theorem mem_timeSplit_does (hdoes : st.Does l.session c db.toTables ret db'.toTables) {id : ℤ}
    (hmem : id ∈ db.timeSplit.map TimeSplitRow.id) : id ∈ db'.timeSplit.map TimeSplitRow.id := by
  obtain ⟨r, hr, rfl⟩ := List.mem_map.mp hmem
  obtain ⟨r', hr', hsucc⟩ := hdoes.evolves.timeSplit r hr
  exact hsucc.1 ▸ List.mem_map_of_mem hr'

/-- Timers of another time split than the one a request has created keep their
columns when it goes on. -/
theorem map_fixed_does (hdoes : st.Does l.session c db.toTables ret db'.toTables)
    (hW : Owning decode ⟨l, past, .call st k⟩ db) {id : ℤ}
    (hne : drawnId (⟨l, past, .call st k⟩ : Worker J) ≠ some id) :
    (timersOf db'.toTables id).map TimeSplitTimerRow.fixed =
      (timersOf db.toTables id).map TimeSplitTimerRow.fixed := by
  obtain heq | ⟨values, rfl, -, -, heq⟩ | ⟨id', rfl, heq⟩ := hdoes.timeSplitTimer_cases
  · rw [timersOf_congr heq]
  · obtain ⟨id', timers, hdrawn, -, hvalues⟩ := hW.timersOf_eq_nil
    have hne' : id ≠ id' := by
      rintro rfl
      exact hne hdrawn
    have hrows := (timerValues_spec hvalues).1
    rw [timersOf_append (timeSplitId_of_rows hrows) heq, if_neg hne', List.append_nil]
  · rw [timersOf_setDeleted heq]
    exact map_setWhere (f := TimeSplitTimerRow.setDeleted) (fun _ => rfl) _

/-- A statement keeps what is asserted of its own request. -/
theorem owning_does (hdoes : st.Does l.session c db.toTables ret db'.toTables)
    (hW : Owning decode ⟨l, past, .call st k⟩ db) :
    Owning decode (System.resume l past st k (.ok ret)) db' := by
  refine ⟨hW.1.resume _, fun id hid => ?_⟩
  obtain ⟨rfl, hdrawn⟩ | hdrawn := drawnId_resume hid
  · -- the first statement: a time split without timers
    obtain ⟨name, description, userId, hevent⟩ := drawn_eq_some hdrawn
    cases hevent
    obtain ⟨-, -, heq⟩ := hdoes
    constructor
    · rw [congrArg Tables.timeSplit heq, List.map_append]
      exact List.mem_append_right _ (List.mem_singleton_self _)
    · rw [(timersOf_inserted heq).2]
      rfl
  · -- the second statement: its timers
    refine ⟨mem_timeSplit_does hdoes (hW.2 id hdrawn).1, ?_⟩
    obtain ⟨values, rfl⟩ := asks_of_drawnId hW.1 hdrawn
    obtain ⟨id', timers, hdrawn', hempty, hvalues⟩ := hW.timersOf_eq_nil
    obtain rfl := Option.some.inj (hdrawn'.symm.trans hdrawn)
    obtain ⟨hret, -, -, heq⟩ := hdoes
    rw [timersOf_append (timeSplitId_of_rows (timerValues_spec hvalues).1)
      (congrArg Tables.timeSplitTimer heq), hempty, if_pos rfl, List.nil_append, map_fixed_rows]
    exact hret.symm

/-- ... and so does one that fails. -/
theorem owning_error {e : SqlError} (hW : Owning decode ⟨l, past, .call st k⟩ db) :
    Owning decode (System.resume l past st k (.error e)) db := by
  refine ⟨hW.1.resume _, fun id hid => ?_⟩
  obtain ⟨rfl, hdrawn⟩ | hdrawn := drawnId_resume hid
  · obtain ⟨name, description, userId, hevent⟩ := drawn_eq_some hdrawn
    cases hevent
  · refine ⟨(hW.2 id hdrawn).1, ?_⟩
    obtain ⟨values, rfl⟩ := asks_of_drawnId hW.1 hdrawn
    obtain ⟨id', timers, hdrawn', hempty, -⟩ := hW.timersOf_eq_nil
    obtain rfl := Option.some.inj (hdrawn'.symm.trans hdrawn)
    rw [hempty]
    rfl

/-- A statement keeps what is asserted of a request that it is apart from. -/
theorem owning_other {u : Worker J} (hdoes : st.Does l.session c db.toTables ret db'.toTables)
    (hW : Owning decode ⟨l, past, .call st k⟩ db) (hU : Owning decode u db)
    (hX : Apart ⟨l, past, .call st k⟩ u) : Owning decode u db' := by
  refine ⟨hU.1, fun id hid => ?_⟩
  obtain ⟨hmem, htimers⟩ := hU.2 id hid
  refine ⟨mem_timeSplit_does hdoes hmem, ?_⟩
  rw [map_fixed_does hdoes hW fun h => hX id h hid, htimers]

/-- A statement keeps its request apart from the others. -/
theorem apart_does {u : Worker J} (hdoes : st.Does l.session c db.toTables ret db'.toTables)
    (hU : Owning decode u db) (hX : Apart ⟨l, past, .call st k⟩ u) :
    Apart (System.resume l past st k (.ok ret)) u := by
  intro id hid hid'
  obtain ⟨rfl, hdrawn⟩ | hdrawn := drawnId_resume hid
  · obtain ⟨name, description, userId, hevent⟩ := drawn_eq_some hdrawn
    cases hevent
    obtain ⟨-, -, heq⟩ := hdoes
    exact (timersOf_inserted heq).1 (hU.2 id hid').1
  · exact hX id hdrawn hid'

/-- A time split that has timers keeps them as they are, but for `deleted`. -/
def BatchesKept (t t' : Tables) : Prop :=
  ∀ id, timersOf t id ≠ [] →
    (timersOf t' id).map TimeSplitTimerRow.fixed = (timersOf t id).map TimeSplitTimerRow.fixed

theorem BatchesKept.trans {t₁ t₂ t₃ : Tables} (h : BatchesKept t₁ t₂)
    (h' : BatchesKept t₂ t₃) : BatchesKept t₁ t₃ := by
  intro id hne
  have hne' : timersOf t₂ id ≠ [] := by
    intro hnil
    have hsame := h id hne
    rw [hnil, List.map_nil, eq_comm, List.map_eq_nil_iff] at hsame
    exact hne hsame
  rw [h' id hne', h id hne]

theorem batchesKept_does (hdoes : st.Does l.session c db.toTables ret db'.toTables)
    (hW : Owning decode ⟨l, past, .call st k⟩ db) :
    BatchesKept db.toTables db'.toTables := by
  intro id hne
  apply map_fixed_does hdoes hW
  -- a request that has created a time split has not inserted its timers yet
  intro hdrawn
  obtain ⟨values, rfl⟩ := asks_of_drawnId hW.1 hdrawn
  obtain ⟨id', timers, hdrawn', hempty, -⟩ := hW.timersOf_eq_nil
  obtain rfl := Option.some.inj (hdrawn'.symm.trans hdrawn)
  exact hne hempty

end

/-! ### All runs -/

/-- The tables are batched and linked, and the requests have created different
time splits. -/
abbrev Consistent (decode : String → Except String UserClaims) : ServiceState J → Prop :=
  System.Safe (fun db => Batched db.toTables ∧ Linked db.toTables) (Owning decode) Apart

theorem consistent_run (acts : List (Act (Arrival J) Choice)) (cfg : ServiceState J)
    (hcfg : Consistent decode cfg) :
    Consistent decode ((service decode).run acts cfg) ∧
      BatchesKept cfg.shared.toTables ((service decode).run acts cfg).shared.toTables := by
  refine System.interference_free (G := fun db db' => BatchesKept db.toTables db'.toTables)
    (fun _ _ _ => rfl) .trans ?_ ?_ ?_ ?_ acts cfg hcfg
  · intro t u h id hu ht
    exact h id ht hu
  · intro a db _
    have hnone : ∀ id, drawnId ((service decode).start a) ≠ some id := fun id hid => by
      rw [service_start, drawnId_arrive] at hid
      cases hid
    exact ⟨⟨sound_arrive a, fun id hid => absurd hid (hnone id)⟩,
      fun t id hid => absurd hid (hnone id)⟩
  · rintro l past st k c db ⟨hB, hL⟩ hW
    obtain ⟨e, h⟩ | ⟨ret, db', h, hdoes⟩ :=
      service_cases decode hW.1.loggedIn c st db <;> rw [h]
    · exact ⟨⟨hB, hL⟩, fun _ _ => rfl, owning_error hW⟩
    · exact ⟨⟨batched_does hdoes hB hW, linked_does hdoes hL⟩, batchesKept_does hdoes hW,
        owning_does hdoes hW⟩
  · intro l past st k c db u _ hW hU hX
    obtain ⟨e, h⟩ | ⟨ret, db', h, hdoes⟩ :=
      service_cases decode hW.1.loggedIn c st db <;> rw [h]
    · refine ⟨hU, fun id hid => ?_⟩
      obtain ⟨rfl, hdrawn⟩ | hdrawn := drawnId_resume hid
      · obtain ⟨name, description, userId, hevent⟩ := drawn_eq_some hdrawn
        cases hevent
      · exact hX id hdrawn
    · exact ⟨owning_other hdoes hW hU hX, apart_does hdoes hU hX⟩

theorem batched_migrated : Batched migrated.toTables := by
  intro id
  have hseed : ∀ r ∈ seed.timeSplitTimer,
      (timersOf seed r.timeSplitId).map TimeSplitTimerRow.orderIdx =
        (List.range (timersOf seed r.timeSplitId).length).map Nat.cast := by decide
  have hmigrated : timersOf migrated.toTables id = timersOf seed id := rfl
  rw [hmigrated]
  rcases h : timersOf seed id with - | ⟨r, rest⟩
  · rfl
  · obtain ⟨hr, rfl⟩ := mem_timersOf.mp (h ▸ List.mem_cons_self : r ∈ timersOf seed id)
    rw [← h]
    exact hseed r hr

theorem consistent_initial (acts : List (Act (Arrival J) Choice)) :
    Consistent decode ((service decode).run acts initial) :=
  (consistent_run acts initial
    ⟨⟨batched_migrated, fun _ h => (by cases h)⟩, fun _ _ h => (by cases h),
      fun _ _ _ _ _ h _ => (by cases h)⟩).1

/-! ### What is deleted stays deleted -/

section

variable {t t' t'' : Tables}

/-- A tag that is no longer shown is never shown again. -/
theorem shownTags_gone (h : Evolves t t') (h' : Evolves t' t'')
    (hkeys : (t''.tag.map TagRow.id).Nodup) {userIds : List Uuid} {id : ℤ}
    (hshown : id ∈ (shownTags t userIds).map TagRow.id)
    (hgone : id ∉ (shownTags t' userIds).map TagRow.id) :
    id ∉ (shownTags t'' userIds).map TagRow.id :=
  h.tag.gone h'.tag hkeys And.left (fun hsucc => by rw [hsucc.2.1]) (fun hsucc => hsucc.2.2)
    hshown hgone

/-- A time split that is no longer shown is never shown again. -/
theorem shownTimeSplits_gone (h : Evolves t t') (h' : Evolves t' t'')
    (hkeys : (t''.timeSplit.map TimeSplitRow.id).Nodup) {userId : Uuid} {id : ℤ}
    (hshown : id ∈ (shownTimeSplits t userId).map TimeSplitRow.id)
    (hgone : id ∉ (shownTimeSplits t' userId).map TimeSplitRow.id) :
    id ∉ (shownTimeSplits t'' userId).map TimeSplitRow.id :=
  h.timeSplit.gone h'.timeSplit hkeys And.left (fun hsucc => by rw [hsucc.2.1])
    (fun hsucc => hsucc.2.2) hshown hgone

end

/-- **The table invariant.**  After any run of the service, and any run after
it:

* the timers of every time split are one batch numbered from 0, and once there
  are any they keep their columns but for `deleted`;
* every row of the three tables that are shown is still there, deleted if it
  was, and its id belongs to no other row; what is no longer shown to a user is
  never shown again;
* every timer refers to a time split, and every row of the timesheet to a
  timer. -/
theorem table_invariant (decode : String → Except String UserClaims)
    (acts acts' acts'' : List (Act (Arrival J) Choice)) :
    let cfg := (service decode).run acts initial
    let cfg' := (service decode).run acts' cfg
    let cfg'' := (service decode).run acts'' cfg'
    let t := cfg.shared.toTables
    let t' := cfg'.shared.toTables
    let t'' := cfg''.shared.toTables
    (∀ id, (timersOf t id).map TimeSplitTimerRow.orderIdx =
        (List.range (timersOf t id).length).map Nat.cast ∧
      (timersOf t id ≠ [] → (timersOf t' id).map TimeSplitTimerRow.fixed =
        (timersOf t id).map TimeSplitTimerRow.fixed)) ∧
    ((∀ r ∈ t.timeSplit, ∃ r' ∈ t'.timeSplit, r.Succ r' ∧
        ∀ u ∈ t'.timeSplit, u.id = r.id → u = r') ∧
      (∀ r ∈ t.timeSplitTimer, ∃ r' ∈ t'.timeSplitTimer, r.Succ r' ∧
        ∀ u ∈ t'.timeSplitTimer, u.id = r.id → u = r') ∧
      (∀ r ∈ t.tag, ∃ r' ∈ t'.tag, r.Succ r' ∧ ∀ u ∈ t'.tag, u.id = r.id → u = r') ∧
      (∀ userIds id, id ∈ (shownTags t userIds).map TagRow.id →
        id ∉ (shownTags t' userIds).map TagRow.id →
        id ∉ (shownTags t'' userIds).map TagRow.id) ∧
      ∀ userId id, id ∈ (shownTimeSplits t userId).map TimeSplitRow.id →
        id ∉ (shownTimeSplits t' userId).map TimeSplitRow.id →
        id ∉ (shownTimeSplits t'' userId).map TimeSplitRow.id) ∧
    (∀ r ∈ t.timeSplitTimer, ∃ u ∈ t.timeSplit, u.id = r.timeSplitId) ∧
    ∀ r ∈ t.timesheet, ∃ u ∈ t.timeSplitTimer, r.timeSplitTimer = some u.id := by
  intro cfg cfg' cfg'' t t' t''
  -- the numbers and the references are invariants, the rest is how rows succeed one another
  have hsafe : Consistent decode cfg := consistent_initial acts
  obtain ⟨-, hkept⟩ := consistent_run acts' cfg hsafe
  have hsound : ∀ u ∈ cfg.threads, Sound decode u := sound_initial acts
  have hev : Evolves t t' := evolves_run acts' cfg hsound
  have hev' : Evolves t' t'' := evolves_run acts'' cfg' (sound_run acts' cfg hsound)
  refine ⟨fun id => ⟨hsafe.store.1 id, hkept id⟩, ⟨fun r hr => ?_, fun r hr => ?_, fun r hr => ?_,
    fun userIds id => shownTags_gone hev hev' cfg''.shared.keys.tag,
    fun userId id => shownTimeSplits_gone hev hev' cfg''.shared.keys.timeSplit⟩,
    fun r hr => ?_, fun r hr => ?_⟩
  · -- the primary key makes the successor the only row with the id
    obtain ⟨r', hr', hsucc⟩ := hev.timeSplit r hr
    exact ⟨r', hr', hsucc, fun u hu huid =>
      List.inj_on_of_nodup_map cfg'.shared.keys.timeSplit hu hr' (huid.trans hsucc.1.symm)⟩
  · obtain ⟨r', hr', hsucc⟩ := hev.timeSplitTimer r hr
    exact ⟨r', hr', hsucc, fun u hu huid =>
      List.inj_on_of_nodup_map cfg'.shared.keys.timeSplitTimer hu hr'
        (huid.trans hsucc.id_eq.symm)⟩
  · obtain ⟨r', hr', hsucc⟩ := hev.tag r hr
    exact ⟨r', hr', hsucc, fun u hu huid =>
      List.inj_on_of_nodup_map cfg'.shared.keys.tag hu hr' (huid.trans hsucc.1.symm)⟩
  · exact List.mem_map.mp (cfg.shared.references.timeSplitTimer r hr)
  · obtain ⟨id, hid⟩ := hsafe.store.2 r hr
    obtain ⟨u, hu, rfl⟩ := List.mem_map.mp (cfg.shared.references.timesheet r hr id hid)
    exact ⟨u, hu, hid⟩

end Lockinspiel
