/-
Lockinspiel/ReadTimeSplits.lean

What `get_time_splits` answers.

The handler reads the time splits of the user, then the timers of all of them
in one list ordered by `order_idx`, and distributes the timers over the time
splits by the index that a hash map keeps for every id.  Where the ids are
different every time split gets its own timers (`groupTimers_eq`), and where
the timers of a time split are numbered in the order of their insertion they
come out of the common list in that order, whatever stands between them
(`filter_timerRows`).  So the answer is the time splits of the user, in some
order, each packed with its timers (`pack`).

A length that cannot be read back is a panic, and a creation inserts its timers
before it reads them.  While such a timer is live, the reads of its owner panic
(`create_then_read`).
-/
import Lockinspiel.SoftDelete

namespace Lockinspiel

open Effects Sql

variable {J : Jiff} {decode : String → Except String UserClaims}

/-! ### The regrouping loop -/

/-- What a hash map holds for an id after insertions at different ids: what was
inserted there, or what it held before. -/
theorem foldl_update_eq_some {id : ℤ} {i : ℕ} (l : List (TimeSplit × ℕ)) (m : ℤ → Option ℕ)
    (hl : (l.map fun u => u.1.id).Nodup) :
    l.foldl (fun (m : ℤ → Option ℕ) u => Function.update m u.1.id (some u.2)) m id = some i ↔
      (∃ u, (u, i) ∈ l ∧ u.id = id) ∨ (m id = some i ∧ ∀ u ∈ l, u.1.id ≠ id) := by
  induction l generalizing m with
  | nil => simp
  | cons u l ih =>
      rw [List.map_cons, List.nodup_cons] at hl
      rw [List.foldl_cons, ih _ hl.2]
      obtain ⟨u, j⟩ := u
      by_cases hid : u.id = id
      · subst hid
        -- no later insertion is at the id of this one
        have hrest : ∀ v ∈ l, v.1.id ≠ u.id := by
          intro v hv hvid
          exact hl.1 (List.mem_map.mpr ⟨v, hv, hvid⟩)
        rw [Function.update_self, Option.some.injEq]
        constructor
        · rintro (⟨v, hv, hvid⟩ | ⟨rfl, -⟩)
          · exact absurd hvid (hrest _ hv)
          · exact .inl ⟨u, List.mem_cons_self, rfl⟩
        · rintro (⟨v, hv, hvid⟩ | ⟨-, hnone⟩)
          · obtain heq | hv := List.mem_cons.mp hv
            · exact .inr ⟨(Prod.mk.inj heq).2.symm, hrest⟩
            · exact absurd hvid (hrest _ hv)
          · exact absurd rfl (hnone (u, j) List.mem_cons_self)
      · rw [Function.update_of_ne (Ne.symm hid)]
        simp [hid, or_and_right, exists_or, and_assoc]

/-- The index that the hash map keeps for an id, where the ids are
different. -/
theorem idIndices_eq_some {timeSplits : List TimeSplit}
    (hnodup : (timeSplits.map TimeSplit.id).Nodup) {id : ℤ} {i : ℕ} :
    idIndices timeSplits id = some i ↔ ∃ u, timeSplits[i]? = some u ∧ u.id = id := by
  have hids : (timeSplits.zipIdx.map fun u => u.1.id) = timeSplits.map TimeSplit.id := by
    conv_rhs => rw [← List.zipIdx_map_fst 0 timeSplits, List.map_map]
    rfl
  rw [idIndices, foldl_update_eq_some _ _ (hids ▸ hnodup)]
  simp [List.mem_zipIdx_iff_getElem?]

/-- One turn of the loop: the timer goes to the time split with its id, if it
is there. -/
theorem pushTimer_eq {grouped : List (PackagedTimeSplit J)} {i : ℕ} {u : TimeSplit}
    (hnodup : (grouped.map fun p => p.timeSplit.id).Nodup)
    (hi : (grouped.map PackagedTimeSplit.timeSplit)[i]? = some u) (child : TimeSplitTimer J)
    (hid : u.id = child.timeSplitId) :
    pushTimer grouped i child = some (grouped.map fun p =>
      if child.timeSplitId = p.timeSplit.id then { p with timers := p.timers ++ [child] }
      else p) := by
  rw [List.getElem?_map, Option.map_eq_some_iff] at hi
  obtain ⟨p, hi, rfl⟩ := hi
  obtain ⟨hlt, hget⟩ := List.getElem?_eq_some_iff.mp hi
  rw [pushTimer, if_pos hlt, Option.some.injEq]
  apply List.ext_getElem
  · simp
  · intro j hj hj'
    have hj : j < grouped.length := by simpa using hj
    rw [List.getElem_modify, List.getElem_map]
    by_cases hij : i = j
    · subst hij
      rw [if_pos rfl, if_pos]
      rw [hget, hid]
    · -- another group has another id
      rw [if_neg hij, if_neg]
      intro heq
      have hlti : i < (grouped.map fun p => p.timeSplit.id).length := by simpa using hlt
      have hltj : j < (grouped.map fun p => p.timeSplit.id).length := by simpa using hj
      have hsame : (grouped.map fun p => p.timeSplit.id)[i] =
          (grouped.map fun p => p.timeSplit.id)[j] := by
        simp [hget, hid, heq]
      exact hij (hnodup.getElem_inj_iff.mp hsame)

/-- A time split with its own among some timers. -/
def withTimers (timers : List (TimeSplitTimer J)) (u : TimeSplit) : PackagedTimeSplit J where
  timeSplit := u
  timers := timers.filter fun t => u.id == t.timeSplitId

/-- The loop invariant: the turns for `timers` append to every group those of
them that are its own. -/
theorem foldlM_pushTimer {timeSplits : List TimeSplit}
    (hnodup : (timeSplits.map TimeSplit.id).Nodup) (timers : List (TimeSplitTimer J))
    (grouped : List (PackagedTimeSplit J))
    (hgrouped : grouped.map PackagedTimeSplit.timeSplit = timeSplits) :
    (timers.filterMap fun child =>
      (idIndices timeSplits child.timeSplitId).map (·, child)).foldlM
        (fun grouped child => pushTimer grouped child.1 child.2) grouped =
      some (grouped.map fun p => { p with
        timers := p.timers ++ (withTimers timers p.timeSplit).timers }) := by
  induction timers generalizing grouped with
  | nil => simp [withTimers]
  | cons child timers ih =>
      rw [List.filterMap_cons]
      rcases h : idIndices timeSplits child.timeSplitId with - | i
      · -- no time split has this id
        rw [Option.map_none, ih grouped hgrouped, Option.some.injEq]
        refine List.map_congr_left fun p hp => ?_
        have hno : p.timeSplit.id ≠ child.timeSplitId := by
          intro hid
          obtain ⟨i, hi⟩ := List.mem_iff_getElem?.mp (hgrouped ▸ List.mem_map_of_mem hp)
          rw [(idIndices_eq_some hnodup).mpr ⟨_, hi, hid⟩] at h
          cases h
        simp [withTimers, hno]
      · obtain ⟨u, hi, hid⟩ := (idIndices_eq_some hnodup).mp h
        have hids : (grouped.map fun p => p.timeSplit.id).Nodup := by
          rw [← hgrouped, List.map_map] at hnodup
          exact hnodup
        have hpush := pushTimer_eq hids (hgrouped ▸ hi) child hid
        rw [Option.map_some, List.foldlM_cons, hpush, Option.bind_eq_bind, Option.bind_some,
          ih, Option.some.injEq, List.map_map]
        · refine List.map_congr_left fun p _ => ?_
          by_cases hp : child.timeSplitId = p.timeSplit.id
          · simp [withTimers, hp]
          · simp [withTimers, hp, Ne.symm hp]
        · rw [List.map_map, ← hgrouped]
          refine List.map_congr_left fun p _ => ?_
          simp only [Function.comp_apply]
          split <;> rfl

/-- **The regrouping loop** gives every time split its own timers, in the order
in which they come. -/
theorem groupTimers_eq {timeSplits : List TimeSplit}
    (hnodup : (timeSplits.map TimeSplit.id).Nodup) (timers : List (TimeSplitTimer J)) :
    groupTimers timeSplits timers = some (timeSplits.map (withTimers timers)) := by
  rw [groupTimers, foldlM_pushTimer hnodup timers _ (by simp [Function.comp_def]), List.map_map]
  rfl

/-- **Regrouping is filtering.**  From timers in ascending `order_idx` the loop
gives the time splits as they were, each with its own timers in ascending
`order_idx`, and these are together the timers whose time split is there. -/
theorem groupTimers_regroups (timeSplits : List TimeSplit)
    (hnodup : (timeSplits.map TimeSplit.id).Nodup) (timers : List (TimeSplitTimer J))
    (hsorted : timers.Pairwise fun a b => a.orderIdx ≤ b.orderIdx) :
    ∃ grouped, groupTimers timeSplits timers = some grouped ∧
      grouped.map PackagedTimeSplit.timeSplit = timeSplits ∧
      (∀ p ∈ grouped, p.timers = timers.filter (fun t => p.timeSplit.id == t.timeSplitId) ∧
        p.timers.Pairwise fun a b => a.orderIdx ≤ b.orderIdx) ∧
      (grouped.flatMap PackagedTimeSplit.timers).Perm
        (timers.filter fun t => t.timeSplitId ∈ timeSplits.map TimeSplit.id) := by
  refine ⟨_, groupTimers_eq hnodup timers, ?_, fun p hp => ?_, ?_⟩
  · rw [List.map_map]
    exact List.map_id _
  · obtain ⟨u, -, rfl⟩ := List.mem_map.mp hp
    exact ⟨rfl, hsorted.filter _⟩
  · have hperm := flatMap_filter_perm hnodup TimeSplitTimer.timeSplitId timers
    rw [List.flatMap_map] at hperm ⊢
    exact hperm

/-- The timers of two time splits, and one of a third, in one list. -/
theorem groupTimers_regroups_two :
    ∃ grouped : List (PackagedTimeSplit Jiff.reference),
      groupTimers [⟨7, "a", "b"⟩, ⟨8, "c", none⟩]
        [⟨1, 8, 0, Jiff.reference.newSpan, "d", true⟩, ⟨2, 9, 0, Jiff.reference.newSpan, "e", true⟩,
          ⟨3, 7, 0, Jiff.reference.newSpan, "f", true⟩,
          ⟨4, 8, 1, Jiff.reference.newSpan, "g", false⟩] = some grouped ∧
      (grouped.flatMap PackagedTimeSplit.timers).Perm
        [⟨1, 8, 0, Jiff.reference.newSpan, "d", true⟩, ⟨3, 7, 0, Jiff.reference.newSpan, "f", true⟩,
          ⟨4, 8, 1, Jiff.reference.newSpan, "g", false⟩] := by
  obtain ⟨grouped, hgrouped, -, -, hperm⟩ :=
    groupTimers_regroups (J := Jiff.reference) [⟨7, "a", "b"⟩, ⟨8, "c", none⟩] (by decide)
      [⟨1, 8, 0, Jiff.reference.newSpan, "d", true⟩, ⟨2, 9, 0, Jiff.reference.newSpan, "e", true⟩,
        ⟨3, 7, 0, Jiff.reference.newSpan, "f", true⟩,
        ⟨4, 8, 1, Jiff.reference.newSpan, "g", false⟩] (by simp)
  exact ⟨grouped, hgrouped, hperm⟩

/-! ### The answer -/

/-- The timers of a time split that are not deleted. -/
def liveTimers (t : Tables) (id : ℤ) : List TimeSplitTimerRow :=
  (timersOf t id).filter fun r => !r.deleted

/-- A time split packed with its timers. -/
def pack (J : Jiff) (t : Tables) (u : TimeSplitRow) : PackagedTimeSplit J where
  timeSplit := TimeSplit.ofRow u
  timers := (liveTimers t u.id).filterMap TimeSplitTimer.ofRow

theorem TimeSplitTimer.ofRow_eq_some {r : TimeSplitTimerRow} {timer : TimeSplitTimer J} :
    TimeSplitTimer.ofRow r = some timer ↔ ∃ len, Interval.fromSql J r.len = some len ∧
      timer = ⟨r.id, r.timeSplitId, r.orderIdx, len, r.name, r.work⟩ := by
  rw [TimeSplitTimer.ofRow, Option.bind_eq_bind, Option.bind_eq_some_iff]
  refine exists_congr fun len => and_congr_right fun _ => ?_
  rw [Option.pure_def, Option.some.injEq, eq_comm]

/-- The live timers of a time split are numbered upwards. -/
theorem liveTimers_strict {t : Tables} (hbatched : Batched t) (id : ℤ) :
    (liveTimers t id).Pairwise fun a b => a.orderIdx < b.orderIdx := by
  refine List.Pairwise.filter _ (List.pairwise_map.mp ?_)
  show ((timersOf t id).map TimeSplitTimerRow.orderIdx).Pairwise (· < ·)
  rw [hbatched id, List.pairwise_map]
  exact List.pairwise_lt_range.imp Int.ofNat_lt.mpr

/-- In the common list of timers those of one time split stand in the order of
their insertion. -/
theorem filter_timerRows {t : Tables} (hbatched : Batched t) (plan : List ℕ) {ids : List ℤ}
    {id : ℤ} (hid : id ∈ ids) :
    (orderBy TimeSplitTimerRow.orderIdx (pick plan (shownTimers t ids))).filter
      (fun r => r.timeSplitId == id) = liveTimers t id := by
  apply filter_orderBy _ (liveTimers_strict hbatched id)
  have hshown : (shownTimers t ids).filter (fun r => r.timeSplitId == id) = liveTimers t id := by
    rw [shownTimers, liveTimers, timersOf, List.filter_filter, List.filter_filter]
    refine List.filter_congr fun r _ => ?_
    by_cases hr : r.timeSplitId = id
    · simp [hr, hid]
    · rw [beq_eq_false_iff_ne.mpr hr, Bool.false_and, Bool.and_false]
  rw [← hshown]
  exact (pick_perm plan _).filter _

/-- **The answer of `get_time_splits`**: every time split of the first query,
packed with its live timers at the second query. -/
theorem packages_eq {t : Tables} (hbatched : Batched t) {rows : List TimeSplitRow}
    (hnodup : (rows.map TimeSplitRow.id).Nodup) {plan : List ℕ}
    {timers : List (TimeSplitTimer J)} {grouped : List (PackagedTimeSplit J)}
    (htimers : (orderBy TimeSplitTimerRow.orderIdx
      (pick plan (shownTimers t (rows.map TimeSplitRow.id)))).mapM TimeSplitTimer.ofRow =
        some timers)
    (hgrouped : groupTimers (rows.map TimeSplit.ofRow) timers = some grouped) :
    grouped = rows.map (pack J t) := by
  have hids : ((rows.map TimeSplit.ofRow).map TimeSplit.id).Nodup := by
    rw [List.map_map]
    exact hnodup
  rw [groupTimers_eq hids, Option.some.injEq, List.map_map] at hgrouped
  rw [← hgrouped]
  refine List.map_congr_left fun u hu => ?_
  have hcol : ∀ (r : TimeSplitTimerRow) (timer : TimeSplitTimer J),
      TimeSplitTimer.ofRow r = some timer →
        (u.id == timer.timeSplitId) = (r.timeSplitId == u.id) := by
    intro r timer h
    obtain ⟨len, -, rfl⟩ := TimeSplitTimer.ofRow_eq_some.mp h
    exact Bool.beq_comm
  show withTimers timers (TimeSplit.ofRow u) = pack J t u
  rw [withTimers, pack, PackagedTimeSplit.mk.injEq, ← (mapM_isSome htimers).1]
  refine ⟨rfl, ?_⟩
  rw [← filter_timerRows hbatched plan (List.mem_map_of_mem hu)]
  exact filter_filterMap_comm hcol _

/-! ### Timers that can be read -/

/-- The length of every timer that is shown to a user can be read back. -/
def ReadableFor (J : Jiff) (t : Tables) (u : Uuid) : Prop :=
  ∀ r ∈ shownTimers t ((shownTimeSplits t u).map TimeSplitRow.id), (Interval.fromSql J r.len).isSome

theorem TimeSplitTimer.isSome_ofRow {r : TimeSplitTimerRow} :
    (TimeSplitTimer.ofRow (J := J) r).isSome ↔ (Interval.fromSql J r.len).isSome := by
  rw [Option.isSome_iff_exists, Option.isSome_iff_exists]
  constructor
  · rintro ⟨timer, h⟩
    obtain ⟨len, hlen, -⟩ := TimeSplitTimer.ofRow_eq_some.mp h
    exact ⟨len, hlen⟩
  · rintro ⟨len, hlen⟩
    exact ⟨_, TimeSplitTimer.ofRow_eq_some.mpr ⟨len, hlen, rfl⟩⟩

/-- The timers of the migration can be read. -/
theorem readableFor_migrated (hJ : J.SpanLaws) (u : Uuid) :
    ReadableFor J migrated.toTables u := by
  intro r hr
  have hseed : ∀ r ∈ seed.timeSplitTimer, |r.len.microseconds| ≤ Jiff.maxMicroseconds ∧
      |r.len.days| ≤ Jiff.maxDays ∧ |r.len.months| ≤ Jiff.maxMonths := by
    decide
  exact (Interval.isSome_fromSql hJ _).mpr (hseed r (List.mem_of_mem_filter hr))

/-- The timers of the second query are turned into values exactly if all that
are shown to the user can be read. -/
theorem readableFor_iff {t : Tables} {u : Uuid} {rows : List TimeSplitRow}
    (hperm : rows.Perm (shownTimeSplits t u)) (plan : List ℕ) :
    ReadableFor J t u ↔ ∃ timers, (orderBy TimeSplitTimerRow.orderIdx
      (pick plan (shownTimers t (rows.map TimeSplitRow.id)))).mapM
        (TimeSplitTimer.ofRow (J := J)) = some timers := by
  rw [ReadableFor, ← shownTimers_congr t (hperm.map TimeSplitRow.id)]
  constructor
  · intro h
    exact ⟨_, mapM_eq_filterMap fun r hr =>
      TimeSplitTimer.isSome_ofRow.mpr (h r (mem_pick.mp (mem_orderBy.mp hr)))⟩
  · rintro ⟨timers, htimers⟩ r hr
    exact TimeSplitTimer.isSome_ofRow.mp
      ((mapM_isSome htimers).2 r (mem_orderBy.mpr (mem_pick.mpr hr)))

/-! ### Reading and creating alone -/

section

variable {s : Session} {c : ℕ → Choice} {dbc : DatabaseConnection} {db db' : Db}

theorem nodup_shownTimeSplits (db : Db) {u : Uuid} {rows : List TimeSplitRow}
    (h : rows.Perm (shownTimeSplits db.toTables u)) : (rows.map TimeSplitRow.id).Nodup :=
  (h.map _).nodup_iff.mpr (db.keys.timeSplit.sublist (List.filter_sublist.map _))

section

variable (dbc) (hs : s.LoggedIn) (h₀ : (c 0).fails = false) (h₁ : (c 1).fails = false)
include hs h₀ h₁

/-- `get_time_splits` with nobody in between. -/
theorem runHandler_getTimeSplits (hbatched : Batched db.toTables)
    (hread : ReadableFor J db.toTables dbc.subject) :
    ∃ rows : List TimeSplitRow, rows.Perm (shownTimeSplits db.toTables dbc.subject) ∧
      runHandler s c (getTimeSplits (J := J) dbc) db =
        (.ok (.timeSplits (rows.map (pack J db.toTables))), db) := by
  have hperm := pick_perm (c 0).plan (shownTimeSplits db.toTables dbc.subject)
  have hnodup := nodup_shownTimeSplits db hperm
  obtain ⟨timers, htimers⟩ := (readableFor_iff hperm (c 1).plan).mp hread
  obtain ⟨grouped, hgrouped⟩ := exists_groupTimers
    ((pick (c 0).plan (shownTimeSplits db.toTables dbc.subject)).map TimeSplit.ofRow) timers
  refine ⟨_, hperm, ?_⟩
  rw [getTimeSplits, runHandler_query, Stmt.exec_selectTimeSplits hs, h₀]
  simp only [Bool.false_eq_true, if_false]
  rw [runHandler_query, Stmt.exec_selectTimeSplitTimers hs, h₁]
  simp only [Bool.false_eq_true, if_false, runHandler_orPanic, htimers, hgrouped]
  rw [packages_eq hbatched hnodup htimers hgrouped]
  rfl

/-- A timer that is shown and cannot be read is a panic. -/
theorem runHandler_getTimeSplits_panic (hread : ¬ ReadableFor J db.toTables dbc.subject) :
    runHandler s c (getTimeSplits (J := J) dbc) db = (.error .panic, db) := by
  have hperm := pick_perm (c 0).plan (shownTimeSplits db.toTables dbc.subject)
  rw [getTimeSplits, runHandler_query, Stmt.exec_selectTimeSplits hs, h₀]
  simp only [Bool.false_eq_true, if_false]
  rw [runHandler_query, Stmt.exec_selectTimeSplitTimers hs, h₁]
  simp only [Bool.false_eq_true, if_false, runHandler_orPanic]
  split
  · rename_i timers htimers
    exact absurd ((readableFor_iff hperm _).mpr ⟨timers, htimers⟩) hread
  · rfl

end

/-- Whenever it answers, it has answered the time splits of the user, and their
timers could be read. -/
theorem runHandler_getTimeSplits_ok (hs : s.LoggedIn) (hbatched : Batched db.toTables)
    {reply : Reply J} (h : runHandler s c (getTimeSplits dbc) db = (.ok reply, db')) :
    ReadableFor J db.toTables dbc.subject ∧ ∃ rows : List TimeSplitRow,
      rows.Perm (shownTimeSplits db.toTables dbc.subject) ∧
        reply = .timeSplits (rows.map (pack J db.toTables)) := by
  rw [getTimeSplits] at h
  obtain ⟨rows, db₁, ⟨hdb₁, hrows⟩, h⟩ := runHandler_query_ok hs h
  obtain ⟨timerRows, db₂, ⟨-, htimerRows⟩, h⟩ := runHandler_query_ok hs h
  obtain ⟨timers, htimers, h⟩ := runHandler_orPanic_ok h
  obtain ⟨grouped, hgrouped, h⟩ := runHandler_orPanic_ok h
  rw [runHandler_pure] at h
  have hperm : List.Perm rows (shownTimeSplits db.toTables dbc.subject) :=
    hrows ▸ pick_perm _ _
  rw [hdb₁] at htimerRows
  rw [htimerRows] at htimers
  refine ⟨(readableFor_iff hperm _).mpr ⟨timers, htimers⟩, rows, hperm, ?_⟩
  rw [← Except.ok.inj (Prod.mk.inj h).1,
    packages_eq hbatched (nodup_shownTimeSplits db hperm) htimers hgrouped]

/-- A timer as it was submitted at place `n` of a time split, and as it is
returned. -/
def Stores (id : ℤ) (t : InsertableTimeSplitTimer J) (n : ℕ) (timer : TimeSplitTimer J) : Prop :=
  timer.timeSplitId = id ∧ timer.orderIdx = n ∧ timer.name = t.name ∧ timer.work = t.work ∧
    ∃ pg, Interval.toSql J t.len = some pg ∧ Interval.fromSql J pg = some timer.len

/-- The rows that are inserted for the timers of a time split are read back as
the timers that were submitted. -/
theorem stores_of_rows {id : ℤ} {timers : List (InsertableTimeSplitTimer J)}
    {values : List TimeSplitTimerValues} (hvalues : timerValues id timers = some values)
    (hlimit : 5 * values.length ≤ maxBinds) {ids : ℕ → ℤ} {read : List (TimeSplitTimer J)}
    (hread : (TimeSplitTimerValues.rows ids values).mapM TimeSplitTimer.ofRow = some read) :
    List.Forall₂ (fun t timer => Stores id t.1 t.2 timer) timers.zipIdx read := by
  have hv := mapM_eq_some.mp hvalues
  have hr := mapM_eq_some.mp hread
  rw [List.forall₂_iff_get] at hv hr ⊢
  obtain ⟨hvlen, hv⟩ := hv
  obtain ⟨hrlen, hr⟩ := hr
  have hrows : (TimeSplitTimerValues.rows ids values).length = values.length :=
    List.length_mapIdx
  refine ⟨by omega, fun n hn hn' => ?_⟩
  have hvn := hv n hn (by omega)
  have hrn := hr n (by omega) hn'
  obtain ⟨pg, hpg, hvn⟩ := Option.bind_eq_some_iff.mp hvn
  obtain ⟨len, hlen, hrn⟩ := TimeSplitTimer.ofRow_eq_some.mp hrn
  rw [hrn]
  simp only [List.get_eq_getElem, TimeSplitTimerValues.rows, List.getElem_mapIdx,
    List.getElem_zipIdx] at hvn hpg hlen ⊢
  -- the limit of bind parameters keeps the cast of the place exact
  have horder : asI32 (0 + n) = ((0 + n : ℕ) : ℤ) := by
    rw [maxBinds] at hlimit
    exact asI32_eq (by omega)
  rw [Option.pure_def, Option.some.injEq, horder] at hvn
  rw [← hvn] at hlen ⊢
  exact ⟨rfl, rfl, rfl, rfl, pg, hpg, hlen⟩

/-- What a creation leaves: a new time split and its timers, which can be read
and are what it has returned. -/
structure Created (db db' : Db) (row : TimeSplitRow) (rows : List TimeSplitTimerRow)
    (r : PackagedTimeSplit J) : Prop where
  fresh : row.id ∉ db.timeSplit.map TimeSplitRow.id
  shown : row.deleted = false
  timers : ∀ t ∈ rows, t.timeSplitId = row.id ∧ t.deleted = false
  tables : db'.toTables = { db.toTables with
    timeSplit := db.timeSplit ++ [row], timeSplitTimer := db.timeSplitTimer ++ rows }
  timeSplit_eq : r.timeSplit = TimeSplit.ofRow row
  read : rows.mapM TimeSplitTimer.ofRow = some r.timers

/-- `create_time_split` with nobody in between, where it returns the new time
split. -/
theorem runHandler_createTimeSplit_ok (hs : s.LoggedIn)
    {body : InsertablePackagedTimeSplit J} {reply : Reply J}
    (h : runHandler s c (createTimeSplit dbc body) db = (.ok reply, db')) :
    ∃ (user : UserClaims) (row : TimeSplitRow) (rows : List TimeSplitTimerRow)
      (r : PackagedTimeSplit J), dbc.user = some user ∧ reply = .timeSplit r ∧
      row.userId = user.sub ∧ Created db db' row rows r ∧
      r.timeSplit.name = body.timeSplit.name ∧
      r.timeSplit.description = body.timeSplit.description ∧
      List.Forall₂ (fun t timer => Stores r.timeSplit.id t.1 t.2 timer) body.timers.zipIdx
        r.timers := by
  rw [createTimeSplit] at h
  cases hu : dbc.user with
  | none =>
      rw [hu] at h
      cases h
  | some user =>
      rw [hu] at h
      obtain ⟨id, db₁, ⟨-, -, hdb₁⟩, h⟩ := runHandler_query_ok hs h
      obtain ⟨values, hvalues, h⟩ := runHandler_orPanic_ok h
      obtain ⟨rows, db₂, ⟨hrows, hlimit, -, hdb₂⟩, h⟩ := runHandler_query_ok hs h
      obtain ⟨timers, htimers, h⟩ := runHandler_orPanic_ok h
      rw [runHandler_pure] at h
      obtain ⟨hreply, rfl⟩ := Prod.mk.inj h
      obtain rfl := Except.ok.inj hreply
      have hmem : ∀ t ∈ rows, t.timeSplitId = id ∧ t.deleted = false := by
        intro t ht
        rw [hrows] at ht
        obtain ⟨n, hn, rfl⟩ := List.mem_mapIdx.mp ht
        exact ⟨(timerValues_spec hvalues).1 _ (List.getElem_mem hn), rfl⟩
      refine ⟨user, _, rows, _, rfl, rfl, rfl,
        ⟨(timersOf_inserted hdb₁).1, rfl, hmem, ?_, rfl, htimers⟩, rfl, rfl, ?_⟩
      · rw [hdb₂, hdb₁, hrows]
      · rw [hrows] at htimers
        exact stores_of_rows hvalues hlimit htimers

section

variable {row : TimeSplitRow} {rows : List TimeSplitTimerRow} {r : PackagedTimeSplit J}

/-- The other time splits are packed as before. -/
theorem Created.pack_other (h : Created db db' row rows r) {u : TimeSplitRow}
    (hu : u ∈ db.timeSplit) : pack J db'.toTables u = pack J db.toTables u := by
  have hne : u.id ≠ row.id := by
    intro heq
    exact h.fresh (heq ▸ List.mem_map_of_mem hu)
  have htimers := timersOf_append (fun t ht => (h.timers t ht).1)
    (congrArg Tables.timeSplitTimer h.tables)
  rw [pack, pack, liveTimers, liveTimers, htimers, if_neg hne, List.append_nil]

/-- The new time split is packed as it was returned. -/
theorem Created.pack_row (h : Created db db' row rows r) : pack J db'.toTables row = r := by
  have htimers := timersOf_append (fun t ht => (h.timers t ht).1)
    (congrArg Tables.timeSplitTimer h.tables)
  have hlive : liveTimers db'.toTables row.id = rows := by
    rw [liveTimers, htimers, timersOf_eq_nil db h.fresh, if_pos rfl, List.nil_append]
    refine List.filter_eq_self.mpr fun t ht => ?_
    rw [(h.timers t ht).2]
    rfl
  rw [pack, hlive, (mapM_isSome h.read).1, ← h.timeSplit_eq]

/-- The new time split is shown to its owner, after the others. -/
theorem Created.shownTimeSplits_eq (h : Created db db' row rows r) :
    shownTimeSplits db'.toTables row.userId = shownTimeSplits db.toTables row.userId ++ [row] := by
  rw [shownTimeSplits, congrArg Tables.timeSplit h.tables, List.filter_append, shownTimeSplits]
  simp [h.shown]

/-- The new timers can be read, so the timers of the owner can be read exactly
if they could before. -/
theorem Created.readableFor_iff (h : Created db db' row rows r) :
    ReadableFor J db'.toTables row.userId ↔ ReadableFor J db.toTables row.userId := by
  have hmem : ∀ t, t ∈ shownTimers db'.toTables
      ((shownTimeSplits db'.toTables row.userId).map TimeSplitRow.id) ↔
      t ∈ shownTimers db.toTables ((shownTimeSplits db.toTables row.userId).map TimeSplitRow.id) ∨
        t ∈ rows := by
    intro t
    rw [h.shownTimeSplits_eq, List.map_append, shownTimers, congrArg Tables.timeSplitTimer h.tables,
      List.filter_append, List.mem_append, shownTimers, List.mem_filter, List.mem_filter,
      List.mem_filter]
    -- an old timer refers to an old time split, a new one to the new one
    have hold : t ∈ db.timeSplitTimer → t.timeSplitId ≠ row.id := by
      intro ht heq
      exact h.fresh (heq ▸ db.references.timeSplitTimer t ht)
    have hnew : t ∈ rows → t.timeSplitId = row.id ∧ t.deleted = false := h.timers t
    constructor
    · rintro (⟨ht, hshown⟩ | ⟨ht, -⟩)
      · exact .inl ⟨ht, by simpa [hold ht] using hshown⟩
      · exact .inr ht
    · rintro (⟨ht, hshown⟩ | ht)
      · exact .inl ⟨ht, by simpa [hold ht] using hshown⟩
      · exact .inr ⟨ht, by simp [hnew ht]⟩
  constructor
  · exact fun hread t ht => hread t ((hmem t).mpr (.inl ht))
  · intro hread t ht
    obtain ht | ht := (hmem t).mp ht
    · exact hread t ht
    · exact TimeSplitTimer.isSome_ofRow.mp ((mapM_isSome h.read).2 t ht)

/-- A reader with the same user is shown one time split more. -/
theorem Created.perm (h : Created db db' row rows r) {rows₀ rows₁ : List TimeSplitRow}
    (h₀ : rows₀.Perm (shownTimeSplits db.toTables row.userId))
    (h₁ : rows₁.Perm (shownTimeSplits db'.toTables row.userId)) :
    (rows₁.map (pack J db'.toTables)).Perm (r :: rows₀.map (pack J db.toTables)) := by
  have hsame : (shownTimeSplits db.toTables row.userId).map (pack J db'.toTables) =
      (shownTimeSplits db.toTables row.userId).map (pack J db.toTables) :=
    List.map_congr_left fun u hu => h.pack_other (List.mem_of_mem_filter hu)
  rw [h.shownTimeSplits_eq] at h₁
  refine (h₁.map _).trans ?_
  rw [List.map_append, List.map_singleton, h.pack_row, hsame]
  exact (List.perm_append_singleton _ _).trans (((h₀.map _).symm).cons _)

/-- No time split that was there has the id of the new one. -/
theorem Created.filter_id (h : Created db db' row rows r) {rows₀ : List TimeSplitRow}
    {after : List (PackagedTimeSplit J)} (h₀ : ∀ u ∈ rows₀, u ∈ db.timeSplit)
    (hafter : after.Perm (r :: rows₀.map (pack J db.toTables))) :
    after.filter (fun p => p.timeSplit.id == r.timeSplit.id) = [r] := by
  have hold : (rows₀.map (pack J db.toTables)).filter
      (fun p => p.timeSplit.id == r.timeSplit.id) = [] := by
    apply List.filter_eq_nil_iff.mpr
    intro p hp
    obtain ⟨u, hu, rfl⟩ := List.mem_map.mp hp
    have hne : u.id ≠ r.timeSplit.id := by
      rw [h.timeSplit_eq]
      intro (heq : u.id = row.id)
      exact h.fresh (heq ▸ List.mem_map_of_mem (h₀ u hu))
    simpa [pack, TimeSplit.ofRow] using hne
  rw [← List.perm_singleton]
  refine (hafter.filter _).trans ?_
  rw [List.filter_cons_of_pos (by simp), hold]

end

end

variable (decode) in
/-- The timers stay numbered in the state after one request more. -/
theorem batched_handle (acts : List (Act (Arrival J) Choice)) (a : Arrival J) (c : ℕ → Choice) :
    Batched (handle decode a c ((service decode).run acts initial).shared).2.toTables := by
  obtain ⟨acts', hacts'⟩ :=
    exists_run_handleAll decode [(a, c)] ((service decode).run acts initial)
  have hcfg : Consistent decode ((service decode).run acts initial) := consistent_initial acts
  have hstore := (consistent_run acts' _ hcfg).1.store.1
  rw [hacts'] at hstore
  exact hstore

/-- What a reader is answered before and after the creation of `r`: the same, and
`r` once, as it was returned. -/
def ReadsBack (before after : Outcome J) (r : PackagedTimeSplit J) : Prop :=
  ∃ old new, before = .ok (.timeSplits old) ∧ after = .ok (.timeSplits new) ∧
    new.Perm (r :: old) ∧ new.filter (fun p => p.timeSplit.id == r.timeSplit.id) = [r]

/-- **When creating and then reading agree.**  In every state that the service
can reach, for a creation that returned `r` and a read of the same user after
it: what was returned is what was submitted, the timers in order; and the read
answers what it would have answered before and `r`, once, exactly if the timers
that were shown to the user before can be read.  If one cannot, the read
panics. -/
theorem create_then_read (decode : String → Except String UserClaims)
    (acts : List (Act (Arrival J) Choice)) (u : Uuid) (creates reads : Arrival J)
    (body : InsertablePackagedTimeSplit J) (hcreates : creates.request = .createTimeSplit body)
    (hreads : reads.request = .getTimeSplits) (hcreator : loggedInAs decode creates = some u)
    (hreader : loggedInAs decode reads = some u) (c c₀ c₁ : ℕ → Choice)
    (hc₀ : ∀ n, (c₀ n).fails = false) (hc₁ : ∀ n, (c₁ n).fails = false)
    (r : PackagedTimeSplit J) (db' : Db)
    (hr : handle decode creates c ((service decode).run acts initial).shared =
      (.ok (.timeSplit r), db')) :
    let db := ((service decode).run acts initial).shared
    (ReadsBack (handle decode reads c₀ db).1 (handle decode reads c₁ db').1 r ↔
      ReadableFor J db.toTables u) ∧
    (¬ ReadableFor J db.toTables u → (handle decode reads c₁ db').1 = .error .panic) ∧
    r.timeSplit.name = body.timeSplit.name ∧
    r.timeSplit.description = body.timeSplit.description ∧
    List.Forall₂ (fun t timer => Stores r.timeSplit.id t.1 t.2 timer) body.timers.zipIdx
      r.timers := by
  intro db
  have hcfg : Consistent decode ((service decode).run acts initial) := consistent_initial acts
  have hbatched : Batched db.toTables := hcfg.store.1
  -- the state after the creation is reachable as well
  have hbatched' : Batched db'.toTables := by
    have hstore := batched_handle decode acts creates c
    rw [hr] at hstore
    exact hstore
  obtain ⟨dbc, s, hid, hsub, h⟩ := handle_of_loggedIn hcreator
  rw [h, hcreates, handler] at hr
  obtain ⟨user, row, rows, r', hu, hreply, huser, hcreated, hname, hdesc, hstores⟩ :=
    runHandler_createTimeSplit_ok hid.loggedIn hr
  cases hreply
  obtain rfl : user.sub = u := by
    rw [hu] at hsub
    exact Option.some.inj hsub
  rw [← huser]
  obtain ⟨dbc', s', hid', hsub', h'⟩ := handle_of_loggedIn hreader
  have hsubject : dbc'.subject = row.userId :=
    (DatabaseConnection.subject_eq hsub').trans huser.symm
  rw [h', h', hreads, handler, ← hsubject]
  have hread' := hcreated.readableFor_iff
  rw [← hsubject] at hread'
  refine ⟨⟨?_, fun hread => ?_⟩, fun hread => ?_, hname, hdesc, hstores⟩
  · rintro ⟨old, new, hold, -⟩
    exact (runHandler_getTimeSplits_ok hid'.loggedIn hbatched (Prod.ext hold rfl)).1
  · obtain ⟨rows₀, hperm₀, hget₀⟩ :=
      runHandler_getTimeSplits dbc' hid'.loggedIn (hc₀ 0) (hc₀ 1) hbatched hread
    obtain ⟨rows₁, hperm₁, hget₁⟩ :=
      runHandler_getTimeSplits dbc' hid'.loggedIn (hc₁ 0) (hc₁ 1) hbatched' (hread'.mpr hread)
    rw [hsubject] at hperm₀ hperm₁
    have hnew := hcreated.perm hperm₀ hperm₁
    have hold : ∀ x ∈ rows₀, x ∈ db.timeSplit :=
      fun x hx => List.mem_of_mem_filter (hperm₀.subset hx)
    rw [hget₀, hget₁]
    exact ⟨_, _, rfl, rfl, hnew, hcreated.filter_id hold hnew⟩
  · rw [runHandler_getTimeSplits_panic dbc' hid'.loggedIn (hc₁ 0) (hc₁ 1)
      (fun h => hread (hread'.mp h))]

/-- The time split of `oneTimer` as it is returned with the ids `id` and
`timerId`. -/
def oneTimerCreated (id timerId : ℤ) : PackagedTimeSplit Jiff.reference where
  timeSplit := { id, name := "Pomodoro", description := none }
  timers :=
    [{ id := timerId, timeSplitId := id, orderIdx := 0
       len := ⟨1, { microseconds := 1500000000 }, by decide⟩, name := "Work", work := true }]

/-- User 1 creates a time split with one timer and reads it. -/
theorem create_then_read_oneTimer :
    let db' := (handle oneUser (byUser (.createTimeSplit oneTimer))
      (fun n => if n = 0 then drawing 5 else drawing 11) migrated).2
    ReadsBack (handle oneUser (byUser .getTimeSplits) (fun _ => {}) migrated).1
      (handle oneUser (byUser .getTimeSplits) (fun _ => {}) db').1 (oneTimerCreated 5 11) := by
  intro db'
  obtain ⟨hexact, -⟩ :=
    create_then_read oneUser [] 1 (byUser (.createTimeSplit oneTimer)) (byUser .getTimeSplits)
      oneTimer rfl rfl (by decide) (by decide)
      (fun n => if n = 0 then drawing 5 else drawing 11) (fun _ => {}) (fun _ => {})
      (fun _ => rfl) (fun _ => rfl) (oneTimerCreated 5 11) db' (Prod.ext rfl rfl)
  exact hexact.mpr (readableFor_migrated Jiff.reference_spanLaws 1)

/-- The database after the creation of the long time split. -/
def withLongTimer : Db := ((service oneUser).run longCreated initial).shared

/-- Then the creation of another time split returns it, and the read after it
panics. -/
theorem create_then_read_longTimer :
    ∃ db', handle oneUser (byUser (.createTimeSplit oneTimer))
        (fun n => if n = 0 then drawing 6 else drawing 12) withLongTimer =
        (.ok (.timeSplit (oneTimerCreated 6 12)), db') ∧
      (handle oneUser (byUser .getTimeSplits) (fun _ => {}) db').1 = .error .panic ∧
      ¬ ReadsBack (handle oneUser (byUser .getTimeSplits) (fun _ => {}) withLongTimer).1
        (handle oneUser (byUser .getTimeSplits) (fun _ => {}) db').1 (oneTimerCreated 6 12) := by
  refine ⟨_, Prod.ext rfl rfl, rfl, ?_⟩
  rintro ⟨old, new, -, hnew, -⟩
  cases hnew

end Lockinspiel
