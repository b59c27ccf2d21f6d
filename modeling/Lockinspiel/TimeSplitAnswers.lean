/-
Lockinspiel/TimeSplitAnswers.lean

Which time splits `get_time_splits` answers, and what it answers after
`modify_time_split`.

The default time splits of the migration belong to the nil UUID, the column
`user_id` being `NOT NULL`; the filter of `get_time_splits` looks for a `NULL`.
So a caller with an id of their own is shown the defaults only where there are
none (`getTimeSplits_visible`).

`InsertableTimeSplit` is both the row of a creation and the changeset of a
modification, and diesel leaves a column alone where a changeset holds `None`.
So a modification without a description keeps the old one
(`modifyTimeSplit_replaces`).
-/
import Lockinspiel.ReadTimeSplits

namespace Lockinspiel

open Effects Sql

variable {J : Jiff} {decode : String → Except String UserClaims}

variable (decode) in
/-- The user id the database sees for a request, where its login succeeds. -/
def caller (a : Arrival J) : Option Uuid :=
  (arrive decode a).loc.connection.map DatabaseConnection.subject

theorem caller_of_loggedIn {a : Arrival J} {u : Uuid} (h : loggedInAs decode a = some u) :
    caller decode a = some u := by
  obtain ⟨dbc, hconn, h⟩ := Option.map_eq_some_iff.mp h
  obtain ⟨dbc', hconn', huser⟩ := Option.bind_eq_some_iff.mp hconn
  rw [caller, hconn', Option.map_some, DatabaseConnection.subject_eq (u := u)]
  rw [huser, Option.map_some, h]

/-- A request whose login succeeds is its handler alone, in a session of its
caller. -/
theorem handle_of_caller {a : Arrival J} {u : Uuid} (h : caller decode a = some u) :
    ∃ dbc s, Identified decode a.login.header dbc s ∧ dbc.subject = u ∧
      ∀ c db, handle decode a c db = runHandler s c (handler dbc a.request) db := by
  obtain ⟨hfailed, -⟩ | ⟨dbc, s, hid, hconn, hrun⟩ := handle_cases decode a
  · rw [caller, hfailed] at h
    cases h
  · rw [caller, hconn] at h
    exact ⟨dbc, s, hid, Option.some.inj h, hrun⟩

section

variable {g : Arrival J} {u : Uuid} {c : ℕ → Choice} {db : Db}

/-- `get_time_splits` with nobody in between, where it answers. -/
theorem handle_getTimeSplits_ok (hg : g.request = .getTimeSplits) (hu : caller decode g = some u)
    (hbatched : Batched db.toTables) {l : List (PackagedTimeSplit J)}
    (h : (handle decode g c db).1 = .ok (.timeSplits l)) :
    ReadableFor J db.toTables u ∧
      l.Perm ((shownTimeSplits db.toTables u).map (pack J db.toTables)) := by
  obtain ⟨dbc, s, hid, rfl, hrun⟩ := handle_of_caller hu
  rw [hrun, hg, handler] at h
  obtain ⟨hread, rows, hperm, hreply⟩ :=
    runHandler_getTimeSplits_ok hid.loggedIn hbatched (Prod.ext h rfl)
  obtain rfl := Reply.timeSplits.inj hreply
  exact ⟨hread, hperm.map _⟩

/-- ... and when it answers. -/
theorem exists_getTimeSplits (hg : g.request = .getTimeSplits) (hu : caller decode g = some u)
    (hbatched : Batched db.toTables) (hread : ReadableFor J db.toTables u)
    (h₀ : (c 0).fails = false) (h₁ : (c 1).fails = false) :
    ∃ l, (handle decode g c db).1 = .ok (.timeSplits l) := by
  obtain ⟨dbc, s, hid, rfl, hrun⟩ := handle_of_caller hu
  obtain ⟨rows, -, h⟩ := runHandler_getTimeSplits dbc hid.loggedIn h₀ h₁ hbatched hread
  exact ⟨_, by rw [hrun, hg, handler, h]⟩

end

/-! ### The default time splits -/

/-- The live time splits of a caller and those of the nil UUID. -/
def visibleTimeSplits (t : Tables) (u : Uuid) : List TimeSplitRow :=
  t.timeSplit.filter fun r => !r.deleted && (r.userId == u || r.userId == Uuid.nil)

/-- The caller is shown the default time splits too exactly if they are the
caller's, or there are none. -/
theorem perm_visible_iff {db : Db} {u : Uuid} :
    ((shownTimeSplits db.toTables u).map (pack J db.toTables)).Perm
        ((visibleTimeSplits db.toTables u).map (pack J db.toTables)) ↔
      (u = Uuid.nil ∨ ∀ r ∈ db.timeSplit, r.userId = Uuid.nil → r.deleted = true) := by
  constructor
  · intro h
    by_contra hnot
    rw [not_or] at hnot
    obtain ⟨hu, hlive⟩ := hnot
    push Not at hlive
    obtain ⟨r, hr, hnil, hdel⟩ := hlive
    have hvisible : r ∈ visibleTimeSplits db.toTables u := by
      simp [visibleTimeSplits, hr, hnil, hdel]
    -- the default is visible, and the row that shows it is a row of the caller
    obtain ⟨r', hr', hpack⟩ := List.mem_map.mp (h.symm.subset (List.mem_map_of_mem hvisible))
    obtain ⟨hr', hown⟩ := List.mem_filter.mp hr'
    have hid : r'.id = r.id := congrArg (fun p => p.timeSplit.id) hpack
    rw [List.inj_on_of_nodup_map db.keys.timeSplit hr' hr hid, Bool.and_eq_true, beq_iff_eq]
      at hown
    exact hu (hown.2.symm.trans hnil)
  · intro h
    have hsame : visibleTimeSplits db.toTables u = shownTimeSplits db.toTables u := by
      refine List.filter_congr fun r hr => ?_
      obtain rfl | hdeleted := h
      · rw [Bool.or_self]
      · by_cases hnil : r.userId = Uuid.nil
        · rw [hdeleted r hr hnil]
          rfl
        · rw [beq_eq_false_iff_ne.mpr hnil, Bool.or_false]
    rw [hsame]

/-- **When the defaults are visible to everybody.**  In every state that the
service can reach, `get_time_splits` answers exactly the live time splits of its
caller and of the nil UUID, each once, if and only if the caller is the nil UUID
or no default time split is live; and it does answer, where nothing fails and
the timers can be read. -/
theorem getTimeSplits_visible (decode : String → Except String UserClaims)
    (acts : List (Act (Arrival J) Choice)) (g : Arrival J) (hg : g.request = .getTimeSplits)
    (u : Uuid) (hu : caller decode g = some u) (c : ℕ → Choice) :
    let db := ((service decode).run acts initial).shared
    (∀ l, (handle decode g c db).1 = .ok (.timeSplits l) →
      (l.Perm ((visibleTimeSplits db.toTables u).map (pack J db.toTables)) ↔
        (u = Uuid.nil ∨ ∀ r ∈ db.timeSplit, r.userId = Uuid.nil → r.deleted = true))) ∧
    (ReadableFor J db.toTables u → (c 0).fails = false → (c 1).fails = false →
      ∃ l, (handle decode g c db).1 = .ok (.timeSplits l)) := by
  intro db
  have hcfg : Consistent decode ((service decode).run acts initial) := consistent_initial acts
  have hbatched : Batched db.toTables := hcfg.store.1
  refine ⟨fun l hl => ?_, exists_getTimeSplits hg hu hbatched⟩
  rw [← perm_visible_iff (J := J)]
  have hperm := (handle_getTimeSplits_ok hg hu hbatched hl).2
  exact ⟨hperm.symm.trans, hperm.trans⟩

/-- An anonymous request. -/
def anonymous (request : Request Jiff.reference) : Arrival Jiff.reference :=
  ⟨⟨true, .absent, fun _ => false⟩, ⟨.anon, none⟩, request⟩

/-- On the migrated database user 1 is answered no time split, while those of
the migration are there. -/
theorem getTimeSplits_hides_defaults :
    (handle oneUser (byUser .getTimeSplits) (fun _ => {}) migrated).1 = .ok (.timeSplits []) ∧
      ¬ ([] : List (PackagedTimeSplit Jiff.reference)).Perm
        ((visibleTimeSplits migrated.toTables 1).map (pack _ migrated.toTables)) := by
  refine ⟨rfl, fun h => ?_⟩
  have hlength : (visibleTimeSplits migrated.toTables 1).length = 5 := by decide
  have hperm := h.length_eq
  rw [List.length_map, hlength] at hperm
  cases hperm

/-- An anonymous caller is shown the default time splits. -/
theorem getTimeSplits_visible_anonymous :
    ∃ l, (handle oneUser (anonymous .getTimeSplits) (fun _ => {}) migrated).1 =
        .ok (.timeSplits l) ∧
      l.Perm ((visibleTimeSplits migrated.toTables Uuid.nil).map
        (pack Jiff.reference migrated.toTables)) := by
  obtain ⟨hexact, hanswered⟩ := getTimeSplits_visible oneUser [] (anonymous .getTimeSplits) rfl
    Uuid.nil (by decide) (fun _ => {})
  obtain ⟨l, hl⟩ :=
    hanswered (readableFor_migrated Jiff.reference_spanLaws _) rfl rfl
  exact ⟨l, hl, (hexact l hl).mpr (.inl rfl)⟩

/-! ### Modified time splits -/

/-- The answer with the fields of the body in the time split `id`. -/
def PackagedTimeSplit.replace (id : ℤ) (body : InsertableTimeSplit) (p : PackagedTimeSplit J) :
    PackagedTimeSplit J :=
  if p.timeSplit.id = id then
    { p with timeSplit := { p.timeSplit with
        name := body.name, description := body.description } }
  else p

@[simp] theorem PackagedTimeSplit.id_replace (id : ℤ) (body : InsertableTimeSplit)
    (p : PackagedTimeSplit J) : (p.replace id body).timeSplit.id = p.timeSplit.id := by
  unfold replace
  split <;> rfl

section

variable {m : Arrival J} {u : Uuid} {c : ℕ → Choice} {db : Db} {id : ℤ}
  {body : InsertableTimeSplit}

/-- `modify_time_split` with nobody in between, where it returns. -/
theorem handle_modifyTimeSplit_ok (hm : m.request = .modifyTimeSplit id body)
    (hu : loggedInAs decode m = some u) {reply : Reply J} {db' : Db}
    (h : handle decode m c db = (.ok reply, db')) :
    db'.toTables = { db.toTables with
      timeSplit := setWhere (fun r => r.userId == u && r.id == id)
        (TimeSplitRow.set body.name body.description) db.timeSplit } := by
  obtain ⟨dbc, s, hid, hsub, hrun⟩ := handle_of_loggedIn hu
  obtain ⟨user, huser, rfl⟩ := Option.map_eq_some_iff.mp hsub
  rw [hrun, hm, handler, modifyTimeSplit] at h
  obtain ⟨n, db₁, hdoes, h⟩ := runHandler_query_ok hid.loggedIn h
  rw [runHandler_pure] at h
  obtain rfl := (Prod.mk.inj h).2
  have hdb₁ : db₁.toTables = _ := hdoes
  simp only [hid.mayWrite_eq huser] at hdb₁
  exact hdb₁

/-- The rows that a user is shown after one of them has been modified. -/
theorem shownTimeSplits_modify {db' : Db} (hdb' : db'.toTables = { db.toTables with
    timeSplit := setWhere (fun r => r.userId == u && r.id == id)
      (TimeSplitRow.set body.name body.description) db.timeSplit }) :
    shownTimeSplits db'.toTables u = (shownTimeSplits db.toTables u).map fun r =>
      if r.id = id then r.set body.name body.description else r := by
  rw [shownTimeSplits, hdb']
  refine (filter_setWhere_comm (f := TimeSplitRow.set body.name body.description)
    (fun _ => rfl) _).trans (List.map_congr_left fun r hr => ?_)
  -- a row that is shown is the user's own
  have hown := (List.mem_filter.mp hr).2
  rw [Bool.and_eq_true] at hown
  by_cases hid : r.id = id <;> simp [hown.2, hid]

@[simp] theorem id_pack (t : Tables) (r : TimeSplitRow) : (pack J t r).timeSplit.id = r.id := rfl

/-- Timers are not modified. -/
theorem pack_modify {db' : Db} (htimers : db'.timeSplitTimer = db.timeSplitTimer)
    (r : TimeSplitRow) :
    pack J db'.toTables r = { pack J db.toTables r with timeSplit := TimeSplit.ofRow r } := by
  rw [pack, pack, liveTimers, liveTimers, timersOf_congr htimers]

end

/-- The description that a changeset leaves. -/
theorem set_description (name : String) {description : Option String} {r : TimeSplitRow} :
    (r.set name description).description = description ↔
      (description.isSome ∨ r.description = none) := by
  cases description <;> simp [TimeSplitRow.set]

section

variable {t : Tables} {rows : List TimeSplitRow} {r : TimeSplitRow} {body : InsertableTimeSplit}

/-- One row of the answer after a modification. -/
def packSet (J : Jiff) (t : Tables) (id : ℤ) (body : InsertableTimeSplit) (x : TimeSplitRow) :
    PackagedTimeSplit J :=
  { pack J t x with
    timeSplit := TimeSplit.ofRow (if x.id = id then x.set body.name body.description else x) }

/-- The modified row, in the answer and in the answer before it. -/
theorem packSet_eq_replace :
    packSet J t r.id body r = (pack J t r).replace r.id body ↔
      (r.set body.name body.description).description = body.description := by
  rw [packSet, if_pos rfl, PackagedTimeSplit.replace, id_pack, if_pos rfl]
  simp [pack, TimeSplit.ofRow, TimeSplitRow.set]

theorem packSet_of_ne {x : TimeSplitRow} (h : x.id ≠ r.id) :
    packSet J t r.id body x = (pack J t x).replace r.id body := by
  rw [packSet, if_neg h, PackagedTimeSplit.replace, id_pack, if_neg h]
  rfl

/-- The answer after a modification is the answer before it with the fields
replaced exactly if the changeset has left the description of the body. -/
theorem perm_replace_iff (hids : ∀ x ∈ rows, x.id = r.id → x = r) (hr : r ∈ rows) :
    (rows.map (packSet J t r.id body)).Perm
        ((rows.map (pack J t)).map (PackagedTimeSplit.replace r.id body)) ↔
      (body.description.isSome ∨ r.description = none) := by
  rw [List.map_map, ← set_description body.name, ← packSet_eq_replace (J := J) (t := t)]
  constructor
  · intro h
    -- what the modified row becomes was replaced, and its id says from which row
    obtain ⟨x, hx, heq⟩ := List.mem_map.mp (h.subset (List.mem_map_of_mem hr))
    have hid : x.id = r.id := by
      have hsame := congrArg (fun p => p.timeSplit.id) heq
      simp only [Function.comp_apply, PackagedTimeSplit.id_replace, packSet, if_true] at hsame
      exact hsame
    rw [hids x hx hid] at heq
    exact heq.symm
  · intro h
    refine List.Perm.of_eq (List.map_congr_left fun x hx => ?_)
    by_cases hid : x.id = r.id
    · rw [hids x hx hid]
      exact h
    · exact packSet_of_ne hid

end

section

variable {u : Uuid} {db db' : Db} {id : ℤ} {body : InsertableTimeSplit}
  (hdb' : db'.toTables = { db.toTables with
    timeSplit := setWhere (fun r => r.userId == u && r.id == id)
      (TimeSplitRow.set body.name body.description) db.timeSplit })
include hdb'

/-- What a user is shown after a modification of theirs. -/
theorem shown_pack_modify : (shownTimeSplits db'.toTables u).map (pack J db'.toTables) =
    (shownTimeSplits db.toTables u).map (packSet J db.toTables id body) := by
  have htimers : db'.timeSplitTimer = db.timeSplitTimer := by rw [hdb']
  rw [shownTimeSplits_modify hdb', List.map_map]
  refine List.map_congr_left fun r _ => ?_
  rw [Function.comp_apply, pack_modify htimers, packSet]
  split <;> rfl

/-- The timers that are shown are the same. -/
theorem readableFor_modify (h : ReadableFor J db.toTables u) : ReadableFor J db'.toTables u := by
  have htimers : db'.timeSplitTimer = db.timeSplitTimer := by rw [hdb']
  have hids : (shownTimeSplits db'.toTables u).map TimeSplitRow.id =
      (shownTimeSplits db.toTables u).map TimeSplitRow.id := by
    rw [shownTimeSplits_modify hdb', List.map_map]
    refine List.map_congr_left fun r _ => ?_
    rw [Function.comp_apply]
    split <;> rfl
  intro r hr
  rw [hids, shownTimers, htimers] at hr
  exact h r hr

end

/-- A modification after another one of the same time split. -/
theorem setWhere_modify_iff {rows : List TimeSplitRow} {r : TimeSplitRow} {u : Uuid}
    {body : InsertableTimeSplit} (hids : (rows.map TimeSplitRow.id).Nodup) (hr : r ∈ rows)
    (hown : r.userId = u) (name : String) {description : Option String} :
    setWhere (fun x => x.userId == u && x.id == r.id) (TimeSplitRow.set body.name body.description)
        (setWhere (fun x => x.id == r.id) (fun x => { x with name, description }) rows) =
      setWhere (fun x => x.userId == u && x.id == r.id)
        (TimeSplitRow.set body.name body.description) rows ↔
      (body.description.isSome ∨ description = r.description) := by
  rw [setWhere, setWhere, setWhere, List.map_map, List.map_inj_left]
  constructor
  · intro h
    have hrow := congrArg TimeSplitRow.description (h r hr)
    simp only [Function.comp_apply, beq_self_eq_true, hown, Bool.and_self, if_true,
      TimeSplitRow.set] at hrow
    cases hdesc : body.description with
    | some d => exact .inl rfl
    | none =>
        rw [hdesc] at hrow
        exact .inr hrow
  · intro h x hx
    by_cases hid : x.id = r.id
    · obtain rfl := List.inj_on_of_nodup_map hids hx hr hid
      simp only [Function.comp_apply, beq_self_eq_true, hown, Bool.and_self, if_true,
        TimeSplitRow.set]
      obtain h | rfl := h
      · obtain ⟨d, hd⟩ := Option.isSome_iff_exists.mp h
        rw [hd]
        rfl
      · rfl
    · simp only [Function.comp_apply, beq_eq_false_iff_ne.mpr hid, Bool.false_eq_true, if_false]

/-- **When a modification replaces the fields.**  In every state that the
service can reach, for a live time split of a user and a modification of it that
returns: the next answer of `get_time_splits` shows the time split with the name
and the description of the body, its timers and everything else as before, if
and only if the body has a description or the time split had none.  And two
states that differ in the old name and description of the time split become
equal if and only if the body has a description or the old ones agree. -/
theorem modifyTimeSplit_replaces (decode : String → Except String UserClaims)
    (acts : List (Act (Arrival J) Choice)) (u : Uuid) (m g g' : Arrival J)
    (hm : loggedInAs decode m = some u) (hg : g.request = .getTimeSplits)
    (hgu : loggedInAs decode g = some u) (hg' : g'.request = .getTimeSplits)
    (hgu' : loggedInAs decode g' = some u) (body : InsertableTimeSplit) :
    let db := ((service decode).run acts initial).shared
    ∀ r ∈ db.timeSplit, r.userId = u → r.deleted = false →
      m.request = .modifyTimeSplit r.id body →
      ∀ c reply db', handle decode m c db = (.ok reply, db') →
      (∀ c₀ c₁ before, (handle decode g c₀ db).1 = .ok (.timeSplits before) →
        ((c₁ 0).fails = false → (c₁ 1).fails = false →
          ∃ after, (handle decode g' c₁ db').1 = .ok (.timeSplits after)) ∧
        ∀ after, (handle decode g' c₁ db').1 = .ok (.timeSplits after) →
          (after.Perm (before.map (PackagedTimeSplit.replace r.id body)) ↔
            (body.description.isSome ∨ r.description = none))) ∧
      ∀ (other : Db) name description, other.toTables = { db.toTables with
          timeSplit := setWhere (fun x => x.id == r.id) (fun x => { x with name, description })
            db.timeSplit } →
        ∀ c' reply' other', handle decode m c' other = (.ok reply', other') →
          (other'.toTables = db'.toTables ↔
            (body.description.isSome ∨ description = r.description)) := by
  intro db r hr hown hlive hrequest c reply db' hdb'
  have htables := handle_modifyTimeSplit_ok hrequest hm hdb'
  refine ⟨fun c₀ c₁ before hbefore => ?_, fun other name description hother c' reply' other'
    hother' => ?_⟩
  · have hcfg : Consistent decode ((service decode).run acts initial) := consistent_initial acts
    have hbatched : Batched db.toTables := hcfg.store.1
    have hbatched' : Batched db'.toTables := by
      have hstore := batched_handle decode acts m c
      rw [hdb'] at hstore
      exact hstore
    obtain ⟨hread, hperm⟩ := handle_getTimeSplits_ok hg (caller_of_loggedIn hgu) hbatched hbefore
    refine ⟨exists_getTimeSplits hg' (caller_of_loggedIn hgu') hbatched' ?_, fun after hafter => ?_⟩
    · exact readableFor_modify htables hread
    · have hperm' :=
        (handle_getTimeSplits_ok hg' (caller_of_loggedIn hgu') hbatched' hafter).2
      rw [shown_pack_modify htables] at hperm'
      have hmem : r ∈ shownTimeSplits db.toTables u :=
        List.mem_filter.mpr ⟨hr, by rw [hlive, hown, beq_self_eq_true]; rfl⟩
      -- the ids are different, so the packages differ at this time split or nowhere
      rw [← perm_replace_iff (J := J) (t := db.toTables) (fun x hx hid =>
        List.inj_on_of_nodup_map db.keys.timeSplit (List.mem_of_mem_filter hx) hr hid) hmem]
      have hbefore' := hperm.map (PackagedTimeSplit.replace r.id body)
      exact ⟨fun h => hperm'.symm.trans (h.trans hbefore'),
        fun h => hperm'.trans (h.trans hbefore'.symm)⟩
  · rw [handle_modifyTimeSplit_ok hrequest hm hother', htables, hother]
    rw [← setWhere_modify_iff db.keys.timeSplit hr hown name, Tables.mk.injEq]
    simp

/-- User 1 creates a time split with a description and without timers. -/
def withDescription : List (Act (Arrival Jiff.reference) Choice) :=
  [.arrive (byUser (.createTimeSplit ⟨⟨"Pomodoro", some "Classic"⟩, []⟩)), .step 0 (drawing 5),
    .step 0 {}]

/-- The time split of `withDescription` in an answer, with a name. -/
def classic (name : String) : PackagedTimeSplit Jiff.reference :=
  ⟨⟨5, name, some "Classic"⟩, []⟩

/-- A modification of it. -/
def modifying (body : InsertableTimeSplit) : Outcome Jiff.reference × Db :=
  handle oneUser (byUser (.modifyTimeSplit 5 body)) (fun _ => {})
    ((service oneUser).run withDescription initial).shared

/-- A modification without a description keeps the old one. -/
theorem modifyTimeSplit_keeps :
    (handle oneUser (byUser .getTimeSplits) (fun _ => {})
        ((service oneUser).run withDescription initial).shared).1 =
        .ok (.timeSplits [classic "Pomodoro"]) ∧
      (modifying ⟨"Focus", none⟩).1 = .ok .unit ∧
      (handle oneUser (byUser .getTimeSplits) (fun _ => {}) (modifying ⟨"Focus", none⟩).2).1 =
        .ok (.timeSplits [classic "Focus"]) ∧
      ¬ [classic "Focus"].Perm
        ([classic "Pomodoro"].map (PackagedTimeSplit.replace 5 ⟨"Focus", none⟩)) := by
  refine ⟨rfl, rfl, rfl, fun h => ?_⟩
  have heq := List.singleton_perm_singleton.mp h
  cases congrArg (fun p => p.timeSplit.description) heq

/-- A modification with a description replaces both fields. -/
theorem modifyTimeSplit_replaces_description :
    ∃ after, (handle oneUser (byUser .getTimeSplits) (fun _ => {})
        (modifying ⟨"Focus", some "New"⟩).2).1 = .ok (.timeSplits after) ∧
      after.Perm
        ([classic "Pomodoro"].map (PackagedTimeSplit.replace 5 ⟨"Focus", some "New"⟩)) := by
  have hreads := (modifyTimeSplit_replaces oneUser withDescription 1
    (byUser (.modifyTimeSplit 5 ⟨"Focus", some "New"⟩)) (byUser .getTimeSplits)
    (byUser .getTimeSplits) (by decide) rfl (by decide) rfl (by decide) ⟨"Focus", some "New"⟩
    ⟨5, 1, "Pomodoro", some "Classic", false⟩ (by decide) rfl rfl rfl (fun _ => {}) .unit
    (modifying ⟨"Focus", some "New"⟩).2 (Prod.ext rfl rfl)).1
  obtain ⟨hanswered, hexact⟩ :=
    hreads (fun _ => {}) (fun _ => {}) [classic "Pomodoro"] rfl
  obtain ⟨after, hafter⟩ := hanswered rfl rfl
  exact ⟨after, hafter, (hexact after hafter).mpr (.inl rfl)⟩

end Lockinspiel
