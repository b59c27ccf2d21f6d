/-
Lockinspiel/SoftDelete.lean

When the `deleted` of a timer is that of its time split.

`delete_time_split` deletes the timers first and the time split second, and
`create_time_split` inserts the time split first and its timers second, with
no transaction around either.  So the two can come apart: the second statement
of the deletion fails, or a deletion runs between the two statements of the
creation (`softDelete_apart`).

`Undisturbed` says of one step that it is neither.  In a run of such steps a
timer can differ from its time split only while a request of the owner stands
between the two statements of the deletion, and then the timers are ahead
(`Settled`); so when nobody is midway the two agree (`softDelete_agrees`).
-/
import Lockinspiel.TableInvariant

namespace Lockinspiel

open Effects Sql

variable {J : Jiff} {decode : String → Except String UserClaims}

/-! ### Requests midway -/

/-- The time split that a statement deletes. -/
def Stmt.deletes : Stmt → Option ℤ
  | .deleteTimeSplit id => some id
  | _ => none

/-- The timers that a statement inserts. -/
def Stmt.inserts : Stmt → List TimeSplitTimerValues
  | .insertTimeSplitTimers values => values
  | _ => []

/-- The time split that a request is about to delete, after its timers. -/
def deleting (t : Worker J) : Option ℤ := t.prog.next.bind Stmt.deletes

/-- The timers that a request is about to insert. -/
def inserting (t : Worker J) : List TimeSplitTimerValues := t.prog.next.elim [] Stmt.inserts

/-- The request stands between the two statements of a deletion of `p`, which
it may write. -/
def Deleting (t : Worker J) (p : TimeSplitRow) : Prop :=
  deleting t = some p.id ∧ t.loc.session.mayWrite p.userId = true

instance (t : Worker J) : DecidablePred (Deleting t) := fun p => by
  unfold Deleting
  infer_instance

/-- No request has asked some of its statements and not yet all. -/
def Idle (cfg : ServiceState J) : Prop :=
  ∀ t ∈ cfg.threads, t.past = [] ∨ t.prog.next = none

/-- A timer is deleted if and only if its time split is. -/
def Agree (t : Tables) : Prop :=
  ∀ p ∈ t.timeSplit, ∀ r ∈ timersOf t p.id, r.deleted = true ↔ p.deleted = true

/-- Does the statement go through? -/
def goesThrough (s : Session) (c : Choice) (st : Stmt) (db : Db) : Bool :=
  (st.exec s c db).1.toBool

theorem goesThrough_eq {s : Session} {c : Choice} {st : Stmt} {db : Db}
    {x : Except SqlError st.Ret × Db} (h : st.exec s c db = x) :
    goesThrough s c st db = x.1.toBool := by
  rw [goesThrough, h]

/-- Timers are inserted only while their time split is not deleted and nobody
is deleting it, and the second statement of a deletion does not fail, unless it
has nothing to do: the time split is not the request's own, is deleted already,
has no timers, or is being deleted by another request as well. -/
def Undisturbed (cfg : ServiceState J) : Act (Arrival J) Choice → Prop
  | .arrive _ => True
  | .step i c => ∀ t ∈ cfg.threads[i]?,
      (∀ v ∈ inserting t,
        goesThrough t.loc.session c (.insertTimeSplitTimers (inserting t)) cfg.shared = true →
        ∀ p ∈ cfg.shared.timeSplit, p.id = v.timeSplitId →
          p.deleted = false ∧ ∀ u ∈ cfg.threads, ¬ Deleting u p) ∧
      ∀ id ∈ deleting t, goesThrough t.loc.session c (.deleteTimeSplit id) cfg.shared = false →
        ∀ p ∈ cfg.shared.timeSplit, Deleting t p →
          p.deleted = true ∨ timersOf cfg.shared.toTables p.id = [] ∨
            ∃ u ∈ cfg.threads.eraseIdx i, Deleting u p

instance (cfg : ServiceState J) : DecidablePred (Undisturbed cfg)
  | .arrive _ => inferInstanceAs (Decidable True)
  | .step i c => by
      unfold Undisturbed
      infer_instance

section

variable {l : Context J} {past : List sql.Event} {st : Stmt}
  {k : sql.Res st → Program sql (Outcome J)}

theorem deleting_call {id : ℤ} :
    deleting (⟨l, past, .call st k⟩ : Worker J) = some id ↔ st = .deleteTimeSplit id := by
  show st.deletes = some id ↔ _
  cases st <;> simp [Stmt.deletes]

/-- A request stands before the second statement of a deletion only after the
first. -/
theorem past_of_deleting {t : Worker J} (h : Sound decode t) {id : ℤ}
    (hid : deleting t = some id) :
    ∃ n : ℕ, t.past = [⟨.deleteTimeSplitTimers id, .ok n⟩] := by
  obtain ⟨l, past, a | ⟨st, k⟩⟩ := t
  · cases hid
  · obtain rfl := deleting_call.mp hid
    obtain ⟨db, -, hasks⟩ := h.working
    show ∃ n : ℕ, past = _
    generalize l.arrival.request = req at hasks
    cases hasks with
    | deleteTimeSplit => exact ⟨_, rfl⟩

/-- ... and it stands there whenever the first one went through. -/
theorem deleting_resume_ok {id : ℤ}
    {k : sql.Res (.deleteTimeSplitTimers id) → Program sql (Outcome J)}
    (h : Sound decode ⟨l, past, .call (.deleteTimeSplitTimers id) k⟩) (n : ℕ) :
    deleting (System.resume l past (.deleteTimeSplitTimers id) k (.ok n)) = some id := by
  obtain ⟨db, hw, -⟩ := h.working
  have hf := hw.follows.2 (.ok n)
  unfold System.resume
  generalize l.arrival.request = req at hf
  rcases hk : k (.ok n) with a | ⟨st', k'⟩
  · -- the handler does not end here
    rw [hk] at hf
    cases hf with
    | other hpast => cases hpast
  · rw [hk] at hf
    cases hf.1 with
    | deleteTimeSplit => rfl

end

/-! ### The invariant -/

/-- The timers of a time split agree with it, or its owner is deleting it; and
who deletes a time split has deleted its timers. -/
structure Settled (decode : String → Except String UserClaims) (cfg : ServiceState J) :
    Prop where
  sound : ∀ t ∈ cfg.threads, Sound decode t
  agree : ∀ p ∈ cfg.shared.timeSplit, ∀ r ∈ timersOf cfg.shared.toTables p.id,
    r.deleted = p.deleted ∨ ∃ t ∈ cfg.threads, Deleting t p
  ahead : ∀ t ∈ cfg.threads, ∀ p ∈ cfg.shared.timeSplit, Deleting t p →
    ∀ r ∈ timersOf cfg.shared.toTables p.id, r.deleted = true

/-- When nobody is midway, the timers agree with their time splits. -/
theorem Settled.agrees {cfg : ServiceState J} (h : Settled decode cfg) (hidle : Idle cfg) :
    Agree cfg.shared.toTables := by
  intro p hp r hr
  obtain heq | ⟨t, ht, hdel, -⟩ := h.agree p hp r hr
  · rw [heq]
  · -- a request before the second statement of a deletion is midway
    exfalso
    obtain ⟨n, hpast⟩ := past_of_deleting (h.sound t ht) hdel
    obtain hnil | hnone := hidle t ht
    · rw [hnil] at hpast
      cases hpast
    · rw [deleting, hnone] at hdel
      cases hdel

/-! ### One step -/

/-- Another request than the one that moves is still there. -/
theorem mem_set_of_eraseIdx {α : Type} {l : List α} {i : ℕ} {x : α} (a : α)
    (h : x ∈ l.eraseIdx i) : x ∈ l.set i a := by
  obtain ⟨j, hne, hj⟩ := List.mem_eraseIdx_iff_getElem?.mp h
  exact List.mem_of_getElem? ((List.getElem?_set_ne hne.symm).trans hj)

theorem mem_eraseIdx_of_ne {α : Type} {l : List α} {i : ℕ} {x y : α} (hx : x ∈ l)
    (hi : l[i]? = some y) (hne : x ≠ y) : x ∈ l.eraseIdx i := by
  obtain ⟨j, hj⟩ := List.mem_iff_getElem?.mp hx
  refine List.mem_eraseIdx_iff_getElem?.mpr ⟨j, ?_, hj⟩
  rintro rfl
  exact hne (Option.some.inj (hj.symm.trans hi))

section

variable {cfg : ServiceState J} {i : ℕ} {x x' : Worker J} {db' : Db}

/-- Who deletes a time split goes on with it while another request moves. -/
theorem exists_deleting (hi : cfg.threads[i]? = some x) {t : Worker J} {p : TimeSplitRow}
    (ht : t ∈ cfg.threads) (hdel : Deleting t p) (hno : ¬ Deleting x p) :
    ∃ u ∈ cfg.threads.set i x', Deleting u p := by
  refine ⟨t, mem_set_of_eraseIdx x' (mem_eraseIdx_of_ne ht hi ?_), hdel⟩
  rintro rfl
  exact hno hdel

/-- Who deletes a time split after a step that begins no deletion did before
it. -/
theorem mem_of_deleting {t : Worker J} {p : TimeSplitRow} (ht : t ∈ cfg.threads.set i x')
    (hdel : Deleting t p) (hno' : ¬ Deleting x' p) : t ∈ cfg.threads := by
  obtain ht | rfl := List.mem_or_eq_of_mem_set ht
  · exact ht
  · exact absurd hdel hno'

theorem Settled.sound_set (h : Settled decode cfg) (hx' : Sound decode x') :
    ∀ t ∈ cfg.threads.set i x', Sound decode t := by
  intro t ht
  obtain ht | rfl := List.mem_or_eq_of_mem_set ht
  · exact h.sound t ht
  · exact hx'

/-- A step keeps the invariant if it changes no timer's `deleted` and no time
split's, adds no timer, and neither starts nor ends the second half of a
deletion. -/
theorem Settled.of_same (h : Settled decode cfg) (hi : cfg.threads[i]? = some x)
    (hx' : Sound decode x') (hno : ∀ p, ¬ Deleting x p) (hno' : ∀ p, ¬ Deleting x' p)
    (hsplit : ∀ p' ∈ db'.timeSplit, timersOf db'.toTables p'.id = [] ∨
      ∃ p ∈ cfg.shared.timeSplit, p.id = p'.id ∧ p.userId = p'.userId ∧ p.deleted = p'.deleted)
    (htimer : ∀ id, timersOf db'.toTables id = timersOf cfg.shared.toTables id) :
    Settled decode ⟨db', cfg.threads.set i x'⟩ := by
  refine ⟨h.sound_set hx', fun p' hp' r hr => ?_, fun t ht p' hp' hdel r hr => ?_⟩
  · obtain hnil | ⟨p, hp, hid, huser, hdeleted⟩ := hsplit p' hp'
    · rw [hnil] at hr
      cases hr
    · rw [htimer, ← hid] at hr
      obtain heq | ⟨t, ht, hdel⟩ := h.agree p hp r hr
      · exact .inl (heq.trans hdeleted)
      · rw [Deleting, hid, huser] at hdel
        exact .inr (exists_deleting hi ht hdel (hno p'))
  · obtain hnil | ⟨p, hp, hid, huser, -⟩ := hsplit p' hp'
    · rw [hnil] at hr
      cases hr
    · have ht' := mem_of_deleting ht hdel (hno' p')
      rw [htimer, ← hid] at hr
      rw [Deleting, ← hid, ← huser] at hdel
      exact h.ahead t ht' p hp hdel r hr

/-- The first statement of a deletion puts the timers ahead. -/
theorem Settled.deleteTimeSplitTimers (h : Settled decode cfg) (hi : cfg.threads[i]? = some x)
    (hx' : Sound decode x') (hno : ∀ p, ¬ Deleting x p) {id : ℤ}
    (hdel : ∀ p, Deleting x' p ↔ p.id = id ∧ x.loc.session.mayWrite p.userId = true)
    (hdb' : db'.toTables = { cfg.shared.toTables with
      timeSplitTimer := setWhere (fun r =>
        x.loc.session.mayWriteTimers cfg.shared.toTables r.timeSplitId && r.timeSplitId == id)
        TimeSplitTimerRow.setDeleted cfg.shared.timeSplitTimer }) :
    Settled decode ⟨db', cfg.threads.set i x'⟩ := by
  have hsplits : db'.timeSplit = cfg.shared.timeSplit := by rw [hdb']
  have htimers := timersOf_setDeleted (congrArg Tables.timeSplitTimer hdb')
  have hlt : i < cfg.threads.length := (List.getElem?_eq_some_iff.mp hi).1
  -- the timers of a time split of the session's own are all deleted
  have hown : ∀ p ∈ cfg.shared.timeSplit, Deleting x' p →
      ∀ r ∈ timersOf db'.toTables p.id, r.deleted = true := by
    intro p hp hmine r hr
    obtain ⟨hid, hw⟩ := (hdel p).mp hmine
    rw [htimers] at hr
    obtain ⟨r₀, -, -, rfl⟩ | ⟨hr, hnot⟩ := mem_setWhere.mp hr
    · rfl
    · exfalso
      have hmay : x.loc.session.mayWriteTimers cfg.shared.toTables r.timeSplitId = true := by
        rw [Session.mayWriteTimers, List.any_eq_true]
        refine ⟨p, hp, ?_⟩
        rw [(mem_timersOf.mp hr).2, hw]
        simp
      rw [hmay, (mem_timersOf.mp hr).2, hid] at hnot
      simp at hnot
  -- the timers of any other one are as they were
  have hother : ∀ p ∈ cfg.shared.timeSplit, ¬ Deleting x' p →
      ∀ r ∈ timersOf db'.toTables p.id, r ∈ timersOf cfg.shared.toTables p.id := by
    intro p hp hnot r hr
    rw [htimers] at hr
    obtain ⟨r₀, hr₀, hq, rfl⟩ | ⟨hr, -⟩ := mem_setWhere.mp hr
    · exfalso
      rw [Bool.and_eq_true, beq_iff_eq, (mem_timersOf.mp hr₀).2, Session.mayWriteTimers,
        List.any_eq_true] at hq
      obtain ⟨⟨p', hp', hw⟩, hid⟩ := hq
      rw [Bool.and_eq_true, beq_iff_eq] at hw
      obtain rfl := List.inj_on_of_nodup_map cfg.shared.keys.timeSplit hp' hp hw.1
      exact hnot ((hdel p').mpr ⟨hid, hw.2⟩)
    · exact hr
  refine ⟨h.sound_set hx', fun p hp r hr => ?_, fun t ht p hp hdelt r hr => ?_⟩
  · rw [hsplits] at hp
    -- either the request itself is midway now, or the row is judged as before
    by_cases hmine : Deleting x' p
    · exact .inr ⟨x', List.mem_set hlt x', hmine⟩
    · obtain heq | ⟨t, ht, hdelt⟩ := h.agree p hp r (hother p hp hmine r hr)
      · exact .inl heq
      · exact .inr (exists_deleting hi ht hdelt (hno p))
  · rw [hsplits] at hp
    by_cases hmine : Deleting x' p
    · exact hown p hp hmine r hr
    · exact h.ahead t (mem_of_deleting ht hdelt hmine) p hp hdelt r (hother p hp hmine r hr)

/-- The second statement of a deletion lets the time split catch up. -/
theorem Settled.deleteTimeSplit (h : Settled decode cfg) (hi : cfg.threads[i]? = some x)
    (hx' : Sound decode x') (hno' : ∀ p, ¬ Deleting x' p) {id : ℤ}
    (hdel : ∀ p, Deleting x p ↔ p.id = id ∧ x.loc.session.mayWrite p.userId = true)
    (hdb' : db'.toTables = { cfg.shared.toTables with
      timeSplit := setWhere (fun r => x.loc.session.mayWrite r.userId && r.id == id)
        TimeSplitRow.setDeleted cfg.shared.timeSplit }) :
    Settled decode ⟨db', cfg.threads.set i x'⟩ := by
  have htimers : ∀ id, timersOf db'.toTables id = timersOf cfg.shared.toTables id :=
    timersOf_congr (by rw [hdb'])
  have hx : x ∈ cfg.threads := List.mem_of_getElem? hi
  -- a row of the request's own is deleted now, any other one is as it was
  have hrow : ∀ p' ∈ db'.timeSplit, ∃ p ∈ cfg.shared.timeSplit, p.id = p'.id ∧
      p.userId = p'.userId ∧ if Deleting x p then p'.deleted = true else p' = p := by
    intro p' hp'
    rw [congrArg Tables.timeSplit hdb'] at hp'
    obtain ⟨p, hp, hq, rfl⟩ | ⟨hp, hq⟩ := mem_setWhere.mp hp'
    · rw [Bool.and_eq_true, beq_iff_eq] at hq
      refine ⟨p, hp, rfl, rfl, ?_⟩
      rw [if_pos ((hdel p).mpr ⟨hq.2, hq.1⟩)]
      rfl
    · refine ⟨p', hp, rfl, rfl, ?_⟩
      rw [if_neg]
      intro hmine
      obtain ⟨hid, hw⟩ := (hdel p').mp hmine
      rw [hid, hw] at hq
      simp at hq
  refine ⟨h.sound_set hx', fun p' hp' r hr => ?_, fun t ht p' hp' hdelt r hr => ?_⟩
  · obtain ⟨p, hp, hid, huser, hchange⟩ := hrow p' hp'
    rw [htimers, ← hid] at hr
    by_cases hmine : Deleting x p
    · rw [if_pos hmine] at hchange
      exact .inl ((h.ahead x hx p hp hmine r hr).trans hchange.symm)
    · rw [if_neg hmine] at hchange
      subst hchange
      obtain heq | ⟨t, ht, hdelt⟩ := h.agree p' hp r hr
      · exact .inl heq
      · exact .inr (exists_deleting hi ht hdelt hmine)
  · obtain ⟨p, hp, hid, huser, -⟩ := hrow p' hp'
    have ht' := mem_of_deleting ht hdelt (hno' p')
    rw [htimers, ← hid] at hr
    rw [Deleting, ← hid, ← huser] at hdelt
    exact h.ahead t ht' p hp hdelt r hr

/-- A second statement of a deletion that fails leaves the time split to
others, if there is something to do. -/
theorem Settled.refused (h : Settled decode cfg) (hi : cfg.threads[i]? = some x)
    (hx' : Sound decode x') (hno' : ∀ p, ¬ Deleting x' p)
    (hleft : ∀ p ∈ cfg.shared.timeSplit, Deleting x p →
      p.deleted = true ∨ timersOf cfg.shared.toTables p.id = [] ∨
        ∃ u ∈ cfg.threads.eraseIdx i, Deleting u p) :
    Settled decode ⟨cfg.shared, cfg.threads.set i x'⟩ := by
  refine ⟨h.sound_set hx', fun p hp r hr => ?_, fun t ht p hp hdelt r hr =>
    h.ahead t (mem_of_deleting ht hdelt (hno' p)) p hp hdelt r hr⟩
  obtain heq | ⟨t, ht, hdelt⟩ := h.agree p hp r hr
  · exact .inl heq
  · by_cases hmine : Deleting x p
    · obtain hdeleted | hnil | ⟨u, hu, hdelu⟩ := hleft p hp hmine
      · exact .inl ((h.ahead t ht p hp hdelt r hr).trans hdeleted.symm)
      · rw [hnil] at hr
        cases hr
      · exact .inr ⟨u, mem_set_of_eraseIdx x' hu, hdelu⟩
    · exact .inr (exists_deleting hi ht hdelt hmine)

/-- Timers are inserted under a time split that is not deleted and that nobody
is deleting. -/
theorem Settled.insertTimeSplitTimers (h : Settled decode cfg) (hi : cfg.threads[i]? = some x)
    (hx' : Sound decode x') (hno : ∀ p, ¬ Deleting x p) (hno' : ∀ p, ¬ Deleting x' p)
    {ids : ℕ → ℤ} {values : List TimeSplitTimerValues}
    (hlive : ∀ v ∈ values, ∀ p ∈ cfg.shared.timeSplit, p.id = v.timeSplitId →
      p.deleted = false ∧ ∀ u ∈ cfg.threads, ¬ Deleting u p)
    (hdb' : db'.toTables = { cfg.shared.toTables with
      timeSplitTimer := cfg.shared.timeSplitTimer ++ TimeSplitTimerValues.rows ids values }) :
    Settled decode ⟨db', cfg.threads.set i x'⟩ := by
  have hsplits : db'.timeSplit = cfg.shared.timeSplit := by rw [hdb']
  -- a timer of a time split was there before, or is a new one of a live time split
  have hrow : ∀ p ∈ cfg.shared.timeSplit, ∀ r ∈ timersOf db'.toTables p.id,
      r ∈ timersOf cfg.shared.toTables p.id ∨
        (r.deleted = p.deleted ∧ ∀ u ∈ cfg.threads, ¬ Deleting u p) := by
    intro p hp r hr
    obtain ⟨hr, hid⟩ := mem_timersOf.mp hr
    rw [congrArg Tables.timeSplitTimer hdb'] at hr
    obtain hr | hr := List.mem_append.mp hr
    · exact .inl (mem_timersOf.mpr ⟨hr, hid⟩)
    · obtain ⟨n, hn, rfl⟩ := List.mem_mapIdx.mp hr
      obtain ⟨hdeleted, hnobody⟩ := hlive _ (List.getElem_mem hn) p hp hid.symm
      exact .inr ⟨hdeleted.symm, hnobody⟩
  refine ⟨h.sound_set hx', fun p hp r hr => ?_, fun t ht p hp hdelt r hr => ?_⟩
  · rw [hsplits] at hp
    obtain hr | ⟨heq, -⟩ := hrow p hp r hr
    · obtain heq | ⟨t, ht, hdelt⟩ := h.agree p hp r hr
      · exact .inl heq
      · exact .inr (exists_deleting hi ht hdelt (hno p))
    · exact .inl heq
  · rw [hsplits] at hp
    have ht' := mem_of_deleting ht hdelt (hno' p)
    obtain hr | ⟨-, hnobody⟩ := hrow p hp r hr
    · exact h.ahead t ht' p hp hdelt r hr
    · exact absurd hdelt (hnobody t ht')

end

/-- A request that arrives keeps the invariant. -/
theorem Settled.arrive {cfg : ServiceState J} (h : Settled decode cfg) (a : Arrival J) :
    Settled decode { cfg with threads := cfg.threads ++ [arrive decode a] } := by
  have hnew : ∀ p, ¬ Deleting (Lockinspiel.arrive decode a) p := by
    intro p hdel
    obtain ⟨n, hpast⟩ := past_of_deleting (sound_arrive a) hdel.1
    rw [arrive_past] at hpast
    cases hpast
  refine ⟨fun t ht => ?_, fun p hp r hr => ?_, fun t ht p hp hdel => ?_⟩
  · obtain ht | ht := List.mem_append.mp ht
    · exact h.sound t ht
    · rw [List.mem_singleton.mp ht]
      exact sound_arrive a
  · obtain heq | ⟨t, ht, hdel⟩ := h.agree p hp r hr
    · exact .inl heq
    · exact .inr ⟨t, List.mem_append_left _ ht, hdel⟩
  · obtain ht | ht := List.mem_append.mp ht
    · exact h.ahead t ht p hp hdel
    · rw [List.mem_singleton.mp ht] at hdel
      exact absurd hdel (hnew p)

section

variable {cfg : ServiceState J} {i : ℕ} {c : Choice} {l : Context J} {past : List sql.Event}
  {st : Stmt} {k : sql.Res st → Program sql (Outcome J)}

/-- A statement that goes through keeps the invariant. -/
theorem settled_does (hi : cfg.threads[i]? = some ⟨l, past, .call st k⟩)
    (h : Settled decode cfg) {ret : st.Ret} {db' : Db}
    (hdoes : st.Does l.session c cfg.shared.toTables ret db'.toTables)
    (hlive : ∀ v ∈ st.inserts, ∀ p ∈ cfg.shared.timeSplit, p.id = v.timeSplitId →
      p.deleted = false ∧ ∀ u ∈ cfg.threads, ¬ Deleting u p) :
    Settled decode ⟨db', cfg.threads.set i (System.resume l past st k (.ok ret))⟩ := by
  have hx : Sound decode ⟨l, past, .call st k⟩ := h.sound _ (List.mem_of_getElem? hi)
  have hx' : Sound decode (System.resume l past st k (.ok ret)) := hx.resume _
  have hno : (∀ id, st ≠ .deleteTimeSplit id) →
      ∀ p, ¬ Deleting (⟨l, past, .call st k⟩ : Worker J) p :=
    fun hst p hdel => hst _ (deleting_call.mp hdel.1)
  have hno' : (∀ id, st ≠ .deleteTimeSplitTimers id) →
      ∀ p, ¬ Deleting (System.resume l past st k (.ok ret)) p := by
    intro hst p hdel
    obtain ⟨n, hpast⟩ := past_of_deleting hx' hdel.1
    exact hst _ (congrArg Sigma.fst (List.cons.inj hpast).1)
  -- what most statements have in common: neither table changes
  have hkeep : ∀ p' ∈ cfg.shared.timeSplit, timersOf db'.toTables p'.id = [] ∨
      ∃ p ∈ cfg.shared.timeSplit, p.id = p'.id ∧ p.userId = p'.userId ∧ p.deleted = p'.deleted :=
    fun p' hp' => .inr ⟨p', hp', rfl, rfl, rfl⟩
  have hrest : (∀ id, st ≠ .deleteTimeSplit id) → (∀ id, st ≠ .deleteTimeSplitTimers id) →
      db'.timeSplit = cfg.shared.timeSplit → db'.timeSplitTimer = cfg.shared.timeSplitTimer →
      Settled decode ⟨db', cfg.threads.set i (System.resume l past st k (.ok ret))⟩ :=
    fun hst hst' hsplits htimers => h.of_same hi hx' (hno hst) (hno' hst')
      (fun p' hp' => hkeep p' (hsplits ▸ hp')) (timersOf_congr htimers)
  cases st with
  | deleteTimeSplitTimers id =>
      obtain ⟨-, hdb'⟩ := hdoes
      refine h.deleteTimeSplitTimers hi hx' (hno fun _ h => by cases h) (fun p => ?_) hdb'
      rw [Deleting, deleting_resume_ok hx ret, Option.some.injEq]
      exact and_congr_left fun _ => eq_comm
  | deleteTimeSplit id =>
      refine h.deleteTimeSplit hi hx' (hno' fun _ h => by cases h) (fun p => ?_) hdoes
      rw [Deleting, deleting_call, Stmt.deleteTimeSplit.injEq]
      exact and_congr_left fun _ => eq_comm
  | insertTimeSplitTimers values =>
      obtain ⟨-, -, -, hdb'⟩ := hdoes
      exact h.insertTimeSplitTimers hi hx' (hno fun _ h => by cases h)
        (hno' fun _ h => by cases h) hlive hdb'
  | insertTimeSplit name description userId =>
      obtain ⟨-, -, hdb'⟩ := hdoes
      refine h.of_same hi hx' (hno fun _ h => by cases h) (hno' fun _ h => by cases h) ?_
        (timersOf_congr (by rw [hdb']))
      intro p' hp'
      rw [congrArg Tables.timeSplit hdb'] at hp'
      obtain hp' | hp' := List.mem_append.mp hp'
      · exact hkeep p' hp'
      · -- a new time split has no timers yet
        obtain rfl := List.mem_singleton.mp hp'
        exact .inl (timersOf_inserted hdb').2
  | updateTimeSplit id name description =>
      refine h.of_same hi hx' (hno fun _ h => by cases h) (hno' fun _ h => by cases h) ?_
        (timersOf_congr (by rw [hdoes]))
      intro p' hp'
      rw [congrArg Tables.timeSplit hdoes] at hp'
      obtain ⟨p, hp, -, rfl⟩ | ⟨hp', -⟩ := mem_setWhere.mp hp'
      · exact .inr ⟨p, hp, rfl, rfl, rfl⟩
      · exact hkeep p' hp'
  | updateTag | deleteTag =>
      exact hrest (fun _ h => by cases h) (fun _ h => by cases h) (by rw [hdoes]) (by rw [hdoes])
  | insertTag =>
      obtain ⟨-, -, hdb'⟩ := hdoes
      exact hrest (fun _ h => by cases h) (fun _ h => by cases h) (by rw [hdb']) (by rw [hdb'])
  | insertTimesheet | updateTimesheet =>
      obtain ⟨-, hdb'⟩ := hdoes
      exact hrest (fun _ h => by cases h) (fun _ h => by cases h) (by rw [hdb']) (by rw [hdb'])
  | selectTags | selectTimeSplits | selectTimeSplitTimers | selectTimeSplitData | selectTimers =>
      obtain ⟨hdb', -⟩ := hdoes
      exact hrest (fun _ h => by cases h) (fun _ h => by cases h) (by rw [hdb']) (by rw [hdb'])

/-- An undisturbed step keeps the invariant. -/
theorem settled_answer (hi : cfg.threads[i]? = some ⟨l, past, .call st k⟩)
    (hok : Undisturbed cfg (.step i c)) (h : Settled decode cfg) :
    Settled decode ((service decode).answer cfg i c l past st k) := by
  have hx : Sound decode ⟨l, past, .call st k⟩ := h.sound _ (List.mem_of_getElem? hi)
  obtain ⟨hlive, hleft⟩ := hok _ hi
  unfold System.answer
  obtain ⟨e, he⟩ | ⟨ret, db', he, hdoes⟩ := service_cases decode hx.loggedIn c st cfg.shared <;>
    rw [he]
  · -- a statement that fails matters only as the second half of a deletion
    refine h.refused hi (hx.resume _) (fun p hdel => ?_) fun p hp hdel => ?_
    · obtain ⟨n, hpast⟩ := past_of_deleting (hx.resume _) hdel.1
      cases (List.cons.inj hpast).1
    · obtain rfl := deleting_call.mp hdel.1
      have hfails : goesThrough l.session c (.deleteTimeSplit p.id) cfg.shared = false :=
        goesThrough_eq he
      exact hleft p.id hdel.1 hfails p hp hdel
  · refine settled_does hi h hdoes fun v hv => hlive v hv ?_
    cases st with
    | insertTimeSplitTimers values => exact goesThrough_eq he
    | _ => cases hv

end

/-! ### All runs -/

theorem settled_initial : Settled (J := J) decode initial where
  sound := fun _ ht => by cases ht
  agree := by
    intro p hp r hr
    have hseed : ∀ p ∈ seed.timeSplit, ∀ r ∈ timersOf seed p.id, r.deleted = p.deleted := by
      decide
    exact .inl (hseed p hp r hr)
  ahead := fun _ ht => by cases ht

/-- **When soft deletion is consistent.**  After a run of undisturbed steps, in
which nobody is midway, a timer is deleted exactly if its time split is. -/
theorem softDelete_agrees (decode : String → Except String UserClaims)
    (acts : List (Act (Arrival J) Choice))
    (hok : (service decode).Meets Undisturbed acts initial)
    (hidle : Idle ((service decode).run acts initial)) :
    Agree ((service decode).run acts initial).shared.toTables := by
  have hsettled : Settled decode ((service decode).run acts initial) := by
    refine System.run_invariant (I := Settled decode) ?_ ?_ acts initial hok settled_initial
    · intro cfg a h
      exact h.arrive a
    · intro cfg i c l past st k hi hok h
      exact settled_answer hi hok h
  exact hsettled.agrees hidle

/-! ### Runs in which the two come apart -/

section

/-- Time split 5 is created, and then the second statement of its deletion
fails. -/
def halfDeleted : List (Act (Arrival Jiff.reference) Choice) :=
  [.arrive (byUser (.createTimeSplit oneTimer)), .step 0 (drawing 5), .step 0 (drawing 11),
    .arrive (byUser (.deleteTimeSplit 5)), .step 1 {}, .step 1 failing]

/-- Time split 5 is deleted before its timers are inserted. -/
def overtaken : List (Act (Arrival Jiff.reference) Choice) :=
  [.arrive (byUser (.createTimeSplit oneTimer)), .step 0 (drawing 5),
    .arrive (byUser (.deleteTimeSplit 5)), .step 1 {}, .step 1 {}, .step 0 (drawing 11)]

/-- Time split 5 is created and then deleted. -/
def fullyDeleted : List (Act (Arrival Jiff.reference) Choice) :=
  [.arrive (byUser (.createTimeSplit oneTimer)), .step 0 (drawing 5), .step 0 (drawing 11),
    .arrive (byUser (.deleteTimeSplit 5)), .step 1 {}, .step 1 {}]

instance : DecidablePred Agree := fun t => by
  unfold Agree
  infer_instance

instance : DecidablePred (Idle (J := J)) := fun cfg => by
  unfold Idle
  infer_instance

/-- The timer is deleted and its time split is not, or the other way round,
although nobody is midway. -/
theorem softDelete_apart :
    (Idle ((service oneUser).run halfDeleted initial) ∧
      ¬ Agree ((service oneUser).run halfDeleted initial).shared.toTables) ∧
    Idle ((service oneUser).run overtaken initial) ∧
      ¬ Agree ((service oneUser).run overtaken initial).shared.toTables := by
  decide

/-- An undisturbed run deletes both. -/
theorem softDelete_agrees_fullyDeleted :
    Agree ((service oneUser).run fullyDeleted initial).shared.toTables :=
  softDelete_agrees oneUser fullyDeleted (by decide) (by decide)

end

end Lockinspiel
