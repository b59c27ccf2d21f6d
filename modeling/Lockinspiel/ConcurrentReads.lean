/-
Lockinspiel/ConcurrentReads.lean

What a reader sees of time splits that others create or delete meanwhile.

`get_time_splits` lists the time splits in one query and their timers in
another.  A time split is listed as soon as the first statement of its creation
has gone through, and its timers are gone as soon as the first statement of its
deletion has: a reader whose second query falls there is answered with the time
split and without its timers (`readsWhole_fails`).

`Unhurried` says of one step that it is no such second query.  In a run of such
steps every time split a reader is answered with carries the timers that its
creation returned (`readsWhole`).
-/
import Lockinspiel.ReadTimeSplits

namespace Lockinspiel

open Effects Sql

variable {J : Jiff} {decode : String → Except String UserClaims}

/-! ### Whole time splits -/

/-- The time split that a request has returned. -/
def createdSplit (t : Worker J) : Option (PackagedTimeSplit J) :=
  match t.prog with
  | .done (.ok (.timeSplit p)) => some p
  | _ => none

/-- The time splits that a reader was answered with. -/
def listedSplits (t : Worker J) : Option (List (PackagedTimeSplit J)) :=
  match t.prog with
  | .done (.ok (.timeSplits ps)) => some ps
  | _ => none

/-- The time splits whose timers a statement reads. -/
def Stmt.reads : Stmt → List ℤ
  | .selectTimeSplitTimers ids => ids
  | _ => []

/-- The time splits whose timers a request is about to read. -/
def reading (t : Worker J) : List ℤ := t.prog.next.elim [] Stmt.reads

/-- The timers are those with which the time split was created, by a request or
by the migration. -/
def CreatedWith (cfg : ServiceState J) (p : PackagedTimeSplit J) : Prop :=
  (∃ t ∈ cfg.threads, ∃ r ∈ createdSplit t,
    r.timeSplit.id = p.timeSplit.id ∧ p.timers = r.timers) ∨
  p.timeSplit.id ∈ seed.timeSplit.map TimeSplitRow.id ∧
    (timersOf seed p.timeSplit.id).mapM TimeSplitTimer.ofRow = some p.timers

/-- Every time split a reader was answered with has the timers with which it
was created. -/
def ReadsWhole (cfg : ServiceState J) : Prop :=
  ∀ t ∈ cfg.threads, ∀ ps ∈ listedSplits t, ∀ p ∈ ps, CreatedWith cfg p

/-- The creation of the time split has returned, or it is one of the
migration, and none of its timers is deleted. -/
def Whole (cfg : ServiceState J) (id : ℤ) : Prop :=
  ((∃ t ∈ cfg.threads, ∃ r ∈ createdSplit t, r.timeSplit.id = id) ∨
    id ∈ seed.timeSplit.map TimeSplitRow.id) ∧
  ∀ r ∈ timersOf cfg.shared.toTables id, r.deleted = false

/-- Timers are read only of time splits that are whole. -/
def Unhurried (cfg : ServiceState J) : Act (Arrival J) Choice → Prop
  | .arrive _ => True
  | .step i c => ∀ t ∈ cfg.threads[i]?,
      goesThrough t.loc.session c (.selectTimeSplitTimers (reading t)) cfg.shared = true →
        ∀ id ∈ reading t, Whole cfg id

instance (cfg : ServiceState J) : DecidablePred (Whole cfg) := fun id => by
  unfold Whole
  infer_instance

instance (cfg : ServiceState J) : DecidablePred (Unhurried cfg)
  | .arrive _ => inferInstanceAs (Decidable True)
  | .step i c => by
      unfold Unhurried
      infer_instance

/-! ### What finished requests have asked -/

theorem prog_of_created {t : Worker J} {r : PackagedTimeSplit J} (h : createdSplit t = some r) :
    t.prog = .done (.ok (.timeSplit r)) := by
  unfold createdSplit at h
  split at h
  · rename_i heq
    rw [heq, Option.some.inj h]
  · cases h

theorem prog_of_listed {t : Worker J} {ps : List (PackagedTimeSplit J)}
    (h : listedSplits t = some ps) : t.prog = .done (.ok (.timeSplits ps)) := by
  unfold listedSplits at h
  split at h
  · rename_i heq
    rw [heq, Option.some.inj h]
  · cases h

/-- A request that has returned a time split has inserted the timers it
returned. -/
theorem created_of_sound {t : Worker J} (h : Sound decode t) {r : PackagedTimeSplit J}
    (hr : createdSplit t = some r) :
    drawnId t = some r.timeSplit.id ∧
      (insertedTimers t).mapM TimeSplitTimer.ofRow = some r.timers := by
  obtain ⟨l, past, prog⟩ := t
  obtain rfl : prog = _ := prog_of_created hr
  obtain ⟨db, hw⟩ | ⟨-, e, he⟩ := h
  · have hf : Replies db l.arrival.request past _ := hw.follows
    generalize l.arrival.request = req at hf
    cases hf with
    | created hu hvalues htimers => exact ⟨rfl, htimers⟩
    | other hpast hcreated hlisted => exact absurd rfl (hcreated r)
  · cases he

/-- A reader that was answered has asked two queries. -/
theorem listed_of_sound {t : Worker J} (h : Sound decode t) {ps : List (PackagedTimeSplit J)}
    (hps : listedSplits t = some ps) :
    ∃ (user : Uuid) (rows : List TimeSplitRow) (timerRows : List TimeSplitTimerRow)
      (timers : List (TimeSplitTimer J)),
      t.past = [⟨.selectTimeSplitTimers (rows.map TimeSplitRow.id), .ok timerRows⟩,
        ⟨.selectTimeSplits user, .ok rows⟩] ∧
      timerRows.mapM TimeSplitTimer.ofRow = some timers ∧
      groupTimers (rows.map TimeSplit.ofRow) timers = some ps := by
  obtain ⟨l, past, prog⟩ := t
  obtain rfl : prog = _ := prog_of_listed hps
  obtain ⟨db, hw⟩ | ⟨-, e, he⟩ := h
  · have hf : Replies db l.arrival.request past _ := hw.follows
    show ∃ user rows timerRows timers, past = _ ∧ _
    generalize l.arrival.request = req at hf
    cases hf with
    | listed htimers hgrouped => exact ⟨_, _, _, _, rfl, htimers, hgrouped⟩
    | other hpast hcreated hlisted => exact absurd rfl (hlisted ps)
  · cases he

/-- The time split is there, and nobody is about to insert timers for it. -/
structure Closed (decode : String → Except String UserClaims) (id : ℤ) (cfg : ServiceState J) :
    Prop where
  consistent : Consistent decode cfg
  mem : id ∈ cfg.shared.timeSplit.map TimeSplitRow.id
  done : ∀ t ∈ cfg.threads, drawnId t = some id → t.prog.next = none

theorem Closed.arrive {id : ℤ} {cfg : ServiceState J} (h : Closed decode id cfg) (a : Arrival J) :
    Closed decode id { cfg with threads := cfg.threads ++ [(service decode).start a] } := by
  refine ⟨(consistent_run [.arrive a] cfg h.consistent).1, h.mem, fun t ht hdrawn => ?_⟩
  obtain ht | ht := List.mem_append.mp ht
  · exact h.done t ht hdrawn
  · rw [List.mem_singleton.mp ht, service_start, drawnId_arrive] at hdrawn
    cases hdrawn

/-- No statement changes what the timers of a closed time split are made of. -/
theorem Closed.answer {id : ℤ} {cfg : ServiceState J} (h : Closed decode id cfg) {i : ℕ}
    {c : Choice} {l : Context J} {past : List sql.Event} {st : Stmt}
    {k : sql.Res st → Program sql (Outcome J)}
    (hi : cfg.threads[i]? = some ⟨l, past, .call st k⟩) :
    let cfg' := (service decode).answer cfg i c l past st k
    Closed decode id cfg' ∧
      (timersOf cfg'.shared.toTables id).map TimeSplitTimerRow.fixed =
        (timersOf cfg.shared.toTables id).map TimeSplitTimerRow.fixed := by
  intro cfg'
  have hconsistent : Consistent decode cfg' := by
    have hrun := (consistent_run [.step i c] cfg h.consistent).1
    rwa [System.run_cons, System.run_nil, (service decode).act_of_call hi] at hrun
  have hW := h.consistent.thread i _ hi
  -- the request that moves has not created this time split
  have hne : drawnId (⟨l, past, .call st k⟩ : Worker J) ≠ some id := by
    intro hdrawn
    cases h.done _ (List.mem_of_getElem? hi) hdrawn
  have hset : ∀ {r : sql.Res st}, drawn ⟨st, r⟩ ≠ some id →
      ∀ t ∈ cfg.threads.set i (System.resume l past st k r),
        drawnId t = some id → t.prog.next = none := by
    intro r hnew t ht hdrawn
    obtain ht | rfl := List.mem_or_eq_of_mem_set ht
    · exact h.done t ht hdrawn
    · obtain ⟨-, hdrawn⟩ | hdrawn := drawnId_resume hdrawn
      · exact absurd hdrawn hnew
      · exact absurd hdrawn hne
  unfold cfg' System.answer at hconsistent ⊢
  obtain ⟨e, he⟩ | ⟨ret, db', he, hdoes⟩ :=
    service_cases decode hW.1.loggedIn c st cfg.shared <;> rw [he] at hconsistent ⊢
  · refine ⟨⟨hconsistent, h.mem, hset fun hdrawn => ?_⟩, rfl⟩
    obtain ⟨name, description, userId, hevent⟩ := drawn_eq_some hdrawn
    cases hevent
  · refine ⟨⟨hconsistent, mem_timeSplit_does hdoes h.mem, hset fun hdrawn => ?_⟩,
      map_fixed_does hdoes hW hne⟩
    -- the sequence does not draw an id that is in the table
    obtain ⟨name, description, userId, hevent⟩ := drawn_eq_some hdrawn
    cases hevent
    obtain ⟨-, -, heq⟩ := hdoes
    exact (timersOf_inserted heq).1 h.mem

/-- A time split keeps its timers, but for `deleted`, while no request is about
to insert timers for it. -/
theorem timersOf_kept (acts : List (Act (Arrival J) Choice)) (cfg : ServiceState J) {id : ℤ}
    (h : Closed decode id cfg) :
    (timersOf ((service decode).run acts cfg).shared.toTables id).map TimeSplitTimerRow.fixed =
      (timersOf cfg.shared.toTables id).map TimeSplitTimerRow.fixed := by
  refine (System.run_invariant (I := fun cfg' => Closed decode id cfg' ∧
    (timersOf cfg'.shared.toTables id).map TimeSplitTimerRow.fixed =
      (timersOf cfg.shared.toTables id).map TimeSplitTimerRow.fixed)
    ?_ ?_ acts cfg (System.meets_true acts cfg) ⟨h, rfl⟩).2
  · exact fun cfg' a h => ⟨h.1.arrive a, h.2⟩
  · rintro cfg' i c l past st k hi - ⟨hclosed, hkept⟩
    obtain ⟨hclosed', hfixed⟩ := hclosed.answer (c := c) hi
    exact ⟨hclosed', hfixed.trans hkept⟩

/-- The time splits of the migration keep their timers. -/
theorem timersOf_seed (acts : List (Act (Arrival J) Choice)) {id : ℤ}
    (hid : id ∈ seed.timeSplit.map TimeSplitRow.id) :
    (timersOf ((service decode).run acts initial).shared.toTables id).map
      TimeSplitTimerRow.fixed = timersOf seed id := by
  have hseed : ∀ id ∈ seed.timeSplit.map TimeSplitRow.id,
      (timersOf seed id).map TimeSplitTimerRow.fixed = timersOf seed id := by
    decide
  rw [timersOf_kept acts initial ⟨consistent_initial [], hid, fun _ ht => by cases ht⟩]
  exact hseed id hid

/-! ### Readers -/

/-- A time split that is whole is packed with the timers of its creation. -/
theorem createdWith_pack {acts : List (Act (Arrival J) Choice)} {cfg : ServiceState J}
    (hcfg : cfg = (service decode).run acts initial) {u : TimeSplitRow} (hwhole : Whole cfg u.id)
    (hread : ∀ r ∈ liveTimers cfg.shared.toTables u.id,
      (TimeSplitTimer.ofRow (J := J) r).isSome) :
    CreatedWith cfg (pack J cfg.shared.toTables u) := by
  obtain ⟨hcreated, hlive⟩ := hwhole
  -- nothing is deleted, so what is read are the rows as they were inserted
  have hall : liveTimers cfg.shared.toTables u.id =
      (timersOf cfg.shared.toTables u.id).map TimeSplitTimerRow.fixed := by
    have hself : liveTimers cfg.shared.toTables u.id = timersOf cfg.shared.toTables u.id := by
      refine List.filter_eq_self.mpr fun r hr => ?_
      rw [hlive r hr]
      rfl
    rw [hself]
    symm
    refine (List.map_congr_left fun r hr => ?_).trans (List.map_id _)
    show { r with deleted := false } = r
    rw [← hlive r hr]
  have hconsistent : Consistent decode cfg := hcfg ▸ consistent_initial acts
  obtain ⟨t, ht, r, hr, hid⟩ | hseed := hcreated
  · refine .inl ⟨t, ht, r, hr, hid, ?_⟩
    obtain ⟨i, hi⟩ := List.mem_iff_getElem?.mp ht
    have hW := hconsistent.thread i t hi
    obtain ⟨hdrawn, htimers⟩ := created_of_sound hW.1 hr
    show (liveTimers cfg.shared.toTables u.id).filterMap TimeSplitTimer.ofRow = r.timers
    rw [hall, ← hid, (hW.2 _ hdrawn).2, (mapM_isSome htimers).1]
  · -- the time splits of the migration have the timers of the migration
    refine .inr ⟨hseed, ?_⟩
    have hkept : (timersOf cfg.shared.toTables u.id).map TimeSplitTimerRow.fixed =
        timersOf seed u.id := by
      rw [hcfg]
      exact timersOf_seed acts hseed
    rw [hall, hkept] at hread
    show (timersOf seed u.id).mapM TimeSplitTimer.ofRow = some
      ((liveTimers cfg.shared.toTables u.id).filterMap TimeSplitTimer.ofRow)
    rw [hall, hkept]
    exact mapM_eq_filterMap hread

/-- What a reader was answered stays what it is while others go on. -/
theorem CreatedWith.set {cfg : ServiceState J} {p : PackagedTimeSplit J}
    (h : CreatedWith cfg p) {i : ℕ} {x : Worker J} (hi : cfg.threads[i]? = some x)
    (hx : createdSplit x = none) (x' : Worker J) (db' : Db) :
    CreatedWith ⟨db', cfg.threads.set i x'⟩ p := by
  refine h.imp (fun ⟨t, ht, r, hr, hsame⟩ => ⟨t, ?_, r, hr, hsame⟩) id
  refine mem_set_of_eraseIdx x' (mem_eraseIdx_of_ne ht hi ?_)
  rintro rfl
  cases hr.symm.trans hx

/-- The rows that a reader has listed have different ids. -/
def ListedOnce (t : Worker J) : Prop :=
  ∀ (user : Uuid) (rows : List TimeSplitRow),
    ⟨.selectTimeSplits user, .ok rows⟩ ∈ t.past → (rows.map TimeSplitRow.id).Nodup

section

variable {cfg : ServiceState J} {i : ℕ} {c : Choice} {l : Context J} {past : List sql.Event}
  {st : Stmt} {k : sql.Res st → Program sql (Outcome J)}

theorem ListedOnce.resume (hl : l.session.LoggedIn)
    (h : ListedOnce (⟨l, past, .call st k⟩ : Worker J)) (db : Db) :
    ListedOnce (System.resume l past st k ((service decode).exec l c st db).1) := by
  intro user rows hmem
  obtain hevent | hmem := List.mem_cons.mp hmem
  · obtain rfl : .selectTimeSplits user = st := congrArg Sigma.fst hevent
    have hrows := eq_of_heq (Sigma.mk.inj hevent).2
    obtain ⟨e, he⟩ | ⟨ret, db', he, hdoes⟩ := service_cases decode hl c (.selectTimeSplits user) db
    · rw [he] at hrows
      cases hrows
    · rw [he] at hrows
      cases hrows
      -- the rows are some of the rows of the table
      obtain ⟨-, hret⟩ := hdoes
      rw [hret]
      refine (((pick_perm _ _).map _).nodup_iff).mpr ?_
      exact db.keys.timeSplit.sublist (List.filter_sublist.map _)
  · exact h user rows hmem

/-- A reader that has asked its second query is answered with whole time
splits. -/
theorem createdWith_resume {acts : List (Act (Arrival J) Choice)}
    (hcfg : cfg = (service decode).run acts initial)
    (hi : cfg.threads[i]? = some ⟨l, past, .call st k⟩) (hok : Unhurried cfg (.step i c))
    (honce : ListedOnce (⟨l, past, .call st k⟩ : Worker J))
    {ps : List (PackagedTimeSplit J)}
    (hps : listedSplits
      (System.resume l past st k ((service decode).exec l c st cfg.shared).1) = some ps) :
    ∀ p ∈ ps, CreatedWith cfg p := by
  have hconsistent : Consistent decode cfg := hcfg ▸ consistent_initial acts
  have hx := (hconsistent.thread i _ hi).1
  obtain ⟨user, rows, timerRows, timers, hpast, htimers, hgrouped⟩ :=
    listed_of_sound (hx.resume _) hps
  obtain ⟨hevent, rfl⟩ := List.cons.inj hpast
  obtain rfl : st = .selectTimeSplitTimers (rows.map TimeSplitRow.id) :=
    congrArg Sigma.fst hevent
  have hanswer := eq_of_heq (Sigma.mk.inj hevent).2
  obtain ⟨e, he⟩ | ⟨ret, db', he, hdoes⟩ := service_cases decode hx.loggedIn c
    (.selectTimeSplitTimers (rows.map TimeSplitRow.id)) cfg.shared
  · rw [he] at hanswer
    cases hanswer
  · -- the query went through, so the condition on the step applies
    have hthrough : goesThrough l.session c
        (.selectTimeSplitTimers (rows.map TimeSplitRow.id)) cfg.shared = true :=
      goesThrough_eq he
    rw [he] at hanswer
    cases hanswer
    obtain ⟨-, rfl⟩ := hdoes
    have hnodup := honce user rows (List.mem_singleton_self _)
    rw [packages_eq hconsistent.store.1 hnodup htimers hgrouped]
    intro p hp
    obtain ⟨u, hu, rfl⟩ := List.mem_map.mp hp
    have hid : u.id ∈ rows.map TimeSplitRow.id := List.mem_map_of_mem hu
    refine createdWith_pack hcfg (hok _ hi hthrough u.id hid) fun r hr => ?_
    rw [← filter_timerRows hconsistent.store.1 c.plan hid] at hr
    exact (mapM_isSome htimers).2 r (List.mem_of_mem_filter hr)

end

/-- A state of the service in which every reader was answered with whole time
splits. -/
structure Serving (decode : String → Except String UserClaims) (cfg : ServiceState J) : Prop where
  reached : ∃ acts, cfg = (service decode).run acts initial
  listedOnce : ∀ t ∈ cfg.threads, ListedOnce t
  whole : ReadsWhole cfg

theorem Serving.arrive {cfg : ServiceState J} (h : Serving decode cfg) (a : Arrival J) :
    Serving decode { cfg with threads := cfg.threads ++ [(service decode).start a] } := by
  obtain ⟨⟨acts, hcfg⟩, honce, hwhole⟩ := h
  refine ⟨⟨acts ++ [.arrive a], ?_⟩, fun t ht => ?_, fun t ht ps hps => ?_⟩
  · rw [System.run_append, ← hcfg]
    rfl
  · obtain ht | ht := List.mem_append.mp ht
    · exact honce t ht
    · intro user rows hmem
      rw [List.mem_singleton.mp ht, service_start, arrive_past] at hmem
      cases hmem
  · obtain ht | ht := List.mem_append.mp ht
    · intro p hp
      exact (hwhole t ht ps hps p hp).imp
        (fun ⟨u, hu, hcreated⟩ => ⟨u, List.mem_append_left _ hu, hcreated⟩) id
    · -- a request that has just arrived has no answer
      exfalso
      rw [List.mem_singleton.mp ht] at hps
      obtain ⟨user, rows, timerRows, timers, hpast, -⟩ := listed_of_sound (sound_arrive a) hps
      rw [arrive_past] at hpast
      cases hpast

theorem Serving.answer {cfg : ServiceState J} (h : Serving decode cfg) {i : ℕ} {c : Choice}
    {l : Context J} {past : List sql.Event} {st : Stmt} {k : sql.Res st → Program sql (Outcome J)}
    (hi : cfg.threads[i]? = some ⟨l, past, .call st k⟩) (hok : Unhurried cfg (.step i c)) :
    Serving decode ((service decode).answer cfg i c l past st k) := by
  obtain ⟨⟨acts, hcfg⟩, honce, hwhole⟩ := h
  have hconsistent : Consistent decode cfg := hcfg ▸ consistent_initial acts
  have hx := (hconsistent.thread i _ hi).1
  have hlisted := honce _ (List.mem_of_getElem? hi)
  refine ⟨⟨acts ++ [.step i c], ?_⟩, fun t ht => ?_, fun t ht ps hps p hp => ?_⟩
  · rw [System.run_append, ← hcfg, System.run_cons, System.run_nil,
      (service decode).act_of_call hi]
  · obtain ht | rfl := List.mem_or_eq_of_mem_set ht
    · exact honce t ht
    · exact hlisted.resume hx.loggedIn cfg.shared
  · -- an earlier answer, or the one that the step has given
    obtain ht | rfl := List.mem_or_eq_of_mem_set ht
    · exact (hwhole t ht ps hps p hp).set hi rfl _ _
    · exact (createdWith_resume hcfg hi hok hlisted hps p hp).set hi rfl _ _

/-- **When readers see whole time splits.**  In a run in which timers are read
only of time splits whose creation has returned and none of whose timers is
deleted, every time split that a reader was answered with carries the timers
with which it was created. -/
theorem readsWhole (decode : String → Except String UserClaims)
    (acts : List (Act (Arrival J) Choice))
    (hok : (service decode).Meets Unhurried acts initial) :
    ReadsWhole ((service decode).run acts initial) := by
  have hinitial : Serving decode (initial : ServiceState J) :=
    ⟨⟨[], rfl⟩, fun _ ht => (by cases ht), fun _ ht => (by cases ht)⟩
  have hserving : Serving decode ((service decode).run acts initial) :=
    System.run_invariant (I := Serving decode) (fun _ a h => h.arrive a)
      (fun _ _ _ _ _ _ _ hi hok h => h.answer hi hok) acts initial hok hinitial
  exact hserving.whole

/-! ### Readers that come too early or too late -/

section

instance : DecidableEq Jiff.reference.Span := inferInstanceAs (DecidableEq Jiff.RefSpan)

instance [DecidableEq J.Span] : DecidableEq (TimeSplitTimer J) := fun a b =>
  decidable_of_iff (a.id = b.id ∧ a.timeSplitId = b.timeSplitId ∧ a.orderIdx = b.orderIdx ∧
    a.len = b.len ∧ a.name = b.name ∧ a.work = b.work) (by cases a; cases b; simp)

instance [DecidableEq J.Span] (cfg : ServiceState J) : DecidablePred (CreatedWith cfg) :=
  fun p => by
    unfold CreatedWith
    infer_instance

instance [DecidableEq J.Span] : DecidablePred (ReadsWhole (J := J)) := fun cfg => by
  unfold ReadsWhole
  infer_instance

/-- The reader comes between the two statements of a creation. -/
def readEarly : List (Act (Arrival Jiff.reference) Choice) :=
  [.arrive (byUser (.createTimeSplit oneTimer)), .step 0 (drawing 5),
    .arrive (byUser .getTimeSplits), .step 1 {}, .step 1 {}, .step 0 (drawing 11)]

/-- The reader has listed the time split, and then its deletion begins. -/
def readLate : List (Act (Arrival Jiff.reference) Choice) :=
  [.arrive (byUser (.createTimeSplit oneTimer)), .step 0 (drawing 5), .step 0 (drawing 11),
    .arrive (byUser .getTimeSplits), .step 1 {}, .arrive (byUser (.deleteTimeSplit 5)),
    .step 2 {}, .step 1 {}, .step 2 {}]

/-- The reader comes after the creation. -/
def readOnce : List (Act (Arrival Jiff.reference) Choice) :=
  [.arrive (byUser (.createTimeSplit oneTimer)), .step 0 (drawing 5), .step 0 (drawing 11),
    .arrive (byUser .getTimeSplits), .step 1 {}, .step 1 {}]

/-- Both readers are answered with half a time split. -/
theorem readsWhole_fails :
    ¬ ReadsWhole ((service oneUser).run readEarly initial) ∧
      ¬ ReadsWhole ((service oneUser).run readLate initial) := by
  decide

/-- A reader that comes after the creation is answered with its timers. -/
theorem readsWhole_readOnce : ReadsWhole ((service oneUser).run readOnce initial) :=
  readsWhole oneUser readOnce (by decide)

end

end Lockinspiel
