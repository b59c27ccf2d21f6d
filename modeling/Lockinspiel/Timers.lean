/-
Lockinspiel/Timers.lean

The timesheet as one map, which the requests about timers read and write one at
a time.

`post_timer` and `modify_timer` look up a timer first and write last, so other
requests can come between the two.  What they write does not depend on what
they looked up, and so the table is still what they have made of it in the
order in which they ended (`timers_linearizable`): a map from users and start
times, in which a user writes their own entries alone, although `timesheet` has
no row level security.  What a client reads of it are the microseconds that
were sent.
-/
import Lockinspiel.Histories
import Lockinspiel.LatestTimer

namespace Lockinspiel

open Effects Sql Runs

variable {J : Jiff} {decode : String → Except String UserClaims}

/-! ### The book of timers -/

/-- The entries of all users. -/
abbrev TimerBook := Uuid × ℤ → Option Entry

/-- The row of an entry. -/
def TimerBook.row (k : Uuid × ℤ) (e : Entry) : TimesheetRow := e.row k.1 k.2

/-- A client reads the timer as this entry. -/
structure Timer.Shows (t : Timer J) (startTime : ℤ) (e : Entry) : Prop where
  timeSplitTimer : t.timeSplitTimer = some e.timeSplitTimer
  startTime : serialize J t.startTime = startTime
  endTime : serialize J t.endTime = e.endTime
  tags : t.tags = e.tags.map some

/-- The requests about timers. -/
def Request.isTimer : Request J → Bool
  | .postTimer _ | .getTimers | .modifyTimer _ => true
  | _ => false

namespace TimerBook

def empty : TimerBook := fun _ => none

/-- What a request that has ended does to the book. -/
def record (b : TimerBook) (h : Context J × Outcome J) : TimerBook :=
  match h.1.arrival.request, h.2, h.1.user with
  | .postTimer body, .ok _, some u =>
      Function.update b (u, body.startTime) (some body.entry)
  | .modifyTimer body, .ok _, some u =>
      Function.update b (u, body.startTime) ((b (u, body.startTime)).map fun _ => body.entry)
  | _, _, _ => b

/-- Entries that a request reads: those of its user, or of everybody where
nobody is logged in. -/
def Reads (l : Context J) (u : Uuid) : Prop := ∀ v, l.user = some v → v = u

/-- How a request can end when the book is this one. -/
def Allows (b : TimerBook) (h : Context J × Outcome J) : Prop :=
  match h.1.arrival.request, h.2 with
  | .postTimer body, .ok reply =>
      ∃ u t, h.1.user = some u ∧ reply = .timer t ∧ t.Shows body.startTime body.entry ∧
        b (u, body.startTime) = none
  | .modifyTimer body, .ok reply =>
      ∃ u t, h.1.user = some u ∧ reply = .timer t ∧ t.Shows body.startTime body.entry
  | .getTimers, .ok reply =>
      ∃ timers, reply = .timers timers ∧ timers.length ≤ 1 ∧
        ∀ t ∈ timers, ∃ u startTime e, b (u, startTime) = some e ∧ Reads h.1 u ∧
          t.Shows startTime e ∧
          -- no entry with the same timer is later
          ∀ v startTime' e', b (v, startTime') = some e' → Reads h.1 v →
            e'.timeSplitTimer = e.timeSplitTimer → startTime' ≤ startTime
  | _, _ => True

theorem error (b : TimerBook) (l : Context J) (e : Stop) :
    b.record (l, .error e) = b ∧ b.Allows (l, .error e) := by
  rw [record, Allows]
  cases l.arrival.request <;> exact ⟨rfl, trivial⟩

theorem other (b : TimerBook) {l : Context J} (hr : l.arrival.request.isTimer = false)
    (o : Outcome J) : b.record (l, o) = b ∧ b.Allows (l, o) := by
  rw [record, Allows]
  cases hreq : l.arrival.request with
  | postTimer | getTimers | modifyTimer =>
      rw [hreq] at hr
      cases hr
  | _ => exact ⟨rfl, trivial⟩

end TimerBook

/-! ### The table and the book -/

/-- The rows of the table are the entries of the book, which were all parsed
from a body. -/
structure TimersAre (J : Jiff) (db : Db) (b : TimerBook) : Prop where
  rows : Represents TimerBook.row db.timesheet b
  parsed : ∀ k e, b k = some e →
    (∃ t, deserialize J k.2 = some t) ∧ ∃ t, deserialize J e.endTime = some t

section

variable {db db' : Db} {b : TimerBook} {l : Context J}

theorem TimersAre.congr (h : TimersAre J db b) (hsheet : db'.timesheet = db.timesheet) :
    TimersAre J db' b :=
  ⟨hsheet ▸ h.rows, h.parsed⟩

theorem parsed_of_parse {body : TimerBody} {timer : InsertableTimer J}
    (h : body.parse J = some timer) :
    deserialize J body.startTime = some timer.startTime ∧
      deserialize J body.endTime = some timer.endTime ∧
      timer.timeSplitTimer = body.timeSplitTimer ∧ timer.tags = body.tags := by
  obtain ⟨startTime, hstart, h⟩ := Option.bind_eq_some_iff.mp h
  obtain ⟨endTime, hend, h⟩ := Option.bind_eq_some_iff.mp h
  obtain rfl := Option.some.inj h
  exact ⟨hstart, hend, rfl, rfl⟩

/-- The response to a timer that was written shows its body. -/
theorem shows_written (hJ : J.TimestampLaws) {body : TimerBody} {timer : InsertableTimer J}
    (h : body.parse J = some timer) (data : TimeSplitData) :
    (timer.written data).Shows body.startTime body.entry := by
  obtain ⟨hstart, hend, htimer, htags⟩ := parsed_of_parse h
  exact ⟨congrArg some htimer, Timestamptz.serialize_deserialize hJ hstart,
    Timestamptz.serialize_deserialize hJ hend, congrArg _ htags⟩

/-- The entry of a body that was parsed takes a place. -/
theorem TimersAre.update (h : TimersAre J db b) {body : TimerBody} {timer : InsertableTimer J}
    (hparse : body.parse J = some timer) {u : Uuid} {o : Option Entry}
    (ho : ∀ e ∈ o, e = body.entry)
    (hrows : Represents TimerBook.row db'.timesheet
      (Function.update b (u, body.startTime) o)) :
    TimersAre J db' (Function.update b (u, body.startTime) o) := by
  refine ⟨hrows, fun k e he => ?_⟩
  obtain ⟨hstart, hend, -, -⟩ := parsed_of_parse hparse
  by_cases hk : k = (u, body.startTime)
  · subst hk
    rw [Function.update_self] at he
    rw [ho e he]
    exact ⟨⟨_, hstart⟩, _, hend⟩
  · rw [Function.update_of_ne hk] at he
    exact h.parsed k e he

/-- A row that is added has a key that no row had. -/
theorem TimersAre.post (h : TimersAre J db b) {body : TimerBody} {timer : InsertableTimer J}
    (hparse : body.parse J = some timer) {u : Uuid}
    (hsheet : db'.timesheet = db.timesheet ++ [body.entry.row u body.startTime]) :
    TimersAre J db' (Function.update b (u, body.startTime) (some body.entry)) ∧
      b (u, body.startTime) = none := by
  have hkeys := db'.keys.timesheet
  rw [hsheet, List.map_append, List.nodup_append] at hkeys
  have habsent : b (u, body.startTime) = none := by
    rcases he : b (u, body.startTime) with - | e
    · rfl
    · have hmem : TimerBook.row (u, body.startTime) e ∈ db.timesheet :=
        (h.rows _).mpr ⟨_, e, he, rfl⟩
      exact absurd rfl
        (hkeys.2.2 _ (List.mem_map_of_mem hmem) _ (List.mem_singleton_self _))
  refine ⟨h.update hparse (fun e he => (Option.some.inj he).symm) ?_, habsent⟩
  rw [hsheet]
  exact h.rows.append habsent body.entry

/-- A row that is updated is the entry of its key. -/
theorem TimersAre.modify (h : TimersAre J db b) {body : TimerBody} {timer : InsertableTimer J}
    (hparse : body.parse J = some timer) {u : Uuid}
    (hsheet : db'.timesheet = setWhere
      (fun r => r.userId == u && r.startTime == body.startTime - Timestamptz.epochMicros)
      (fun r => body.entry.row r.userId body.startTime) db.timesheet) :
    TimersAre J db' (Function.update b (u, body.startTime)
      ((b (u, body.startTime)).map fun _ => body.entry)) := by
  refine h.update hparse (fun e he => ?_) ?_
  · obtain ⟨-, -, rfl⟩ := Option.map_eq_some_iff.mp he
    rfl
  · rw [hsheet]
    refine h.rows.modify (q := fun _ => true) (g := fun _ => body.entry) (fun k e => ?_)
      fun e => rfl
    simp only [TimerBook.row, Entry.row, Bool.and_eq_true, beq_iff_eq, sub_left_inj, and_true,
      Prod.ext_iff]

end

/-! ### Requests -/

/-- A row of the timesheet was written. -/
def wrote : sql.Event → Bool
  | ⟨.insertTimesheet .., .ok _⟩ | ⟨.updateTimesheet .., .ok _⟩ => true
  | _ => false

/-- Nothing is asked after the row was written. -/
def BeforeWrite (past : List sql.Event) (_ : Stmt) : Prop := past.any wrote = false

/-- A request ends with its timer if it has written the row, and with an error
otherwise. -/
def WrittenAs (timer : InsertableTimer J) (past : List sql.Event) (o : Outcome J) : Prop :=
  if past.any wrote then ∃ data, o = .ok (.timer (timer.written data)) else ∃ e, o = .error e

theorem writtenAs_error {timer : InsertableTimer J} {past : List sql.Event} {e : Stop}
    (h : past.any wrote = false) : WrittenAs timer past (.error e) := by
  rw [WrittenAs, h]
  exact ⟨e, rfl⟩

theorem wrote_error (st : Stmt) (e : SqlError) :
    wrote ⟨st, (.error e : Except SqlError st.Ret)⟩ = false := by
  cases st <;> rfl

/-- `post_timer` and `modify_timer` write last. -/
theorem follows_writtenAs {dbc : DatabaseConnection} {timer : InsertableTimer J}
    {write : Uuid → TimesheetValues → Stmt} {m₁ m₂ m₃ : String}
    (hwrite : ∀ u values (n : (write u values).Ret), wrote ⟨write u values, .ok n⟩ = true) :
    (writeTimer write m₁ m₂ m₃ dbc timer).run.Follows BeforeWrite (WrittenAs timer) [] := by
  rw [writeTimer]
  cases hu : dbc.user with
  | none => exact writtenAs_error rfl
  | some user =>
      refine ⟨rfl, fun a => ?_⟩
      cases a with
      | error e => exact writtenAs_error rfl
      | ok rows =>
          change List TimeSplitTimerRow at rows
          cases rows with
          | nil => exact writtenAs_error rfl
          | cons row rows =>
              cases hv : timer.values with
              | none => exact writtenAs_error rfl
              | some values =>
                  refine ⟨rfl, fun a => ?_⟩
                  cases a with
                  | error e => exact writtenAs_error (by rw [List.any_cons, wrote_error]; rfl)
                  | ok n =>
                      have hlast : wrote ⟨write user.sub values, .ok n⟩ = true := hwrite _ _ n
                      show WrittenAs timer _ (.ok _)
                      rw [WrittenAs, List.any_cons, hlast]
                      exact ⟨_, rfl⟩

/-- The handler of a body that was parsed. -/
theorem handler_writtenAs {dbc : DatabaseConnection} {r : Request J} {body : TimerBody}
    (hr : r = .postTimer body ∨ r = .modifyTimer body) {timer : InsertableTimer J}
    (hparse : body.parse J = some timer) :
    (handler dbc r).run.Follows BeforeWrite (WrittenAs timer) [] := by
  rcases hr with rfl | rfl <;> rw [handler, hparse] <;> exact follows_writtenAs fun _ _ _ => rfl

section

variable {l : Context J} {past : List sql.Event} {st : Stmt}
  {k : sql.Res st → Program sql (Outcome J)}
  {c : Choice} {db : Db} {b : TimerBook}

/-- What is left of a request that writes a timer. -/
theorem written_resume (hstand : Standing decode ⟨l, past, .call st k⟩) {body : TimerBody}
    (hr : l.arrival.request = .postTimer body ∨ l.arrival.request = .modifyTimer body)
    {timer : InsertableTimer J} (hparse : body.parse J = some timer) (r : sql.Res st) :
    past.any wrote = false ∧
      (k r).Follows BeforeWrite (WrittenAs timer) (⟨st, r⟩ :: past) := by
  obtain ⟨dbc, -, -, hafter⟩ := hstand.handler
  exact ⟨(hafter.follows (handler_writtenAs hr hparse)).1,
    (hafter.follows (handler_writtenAs hr hparse)).2 r⟩

/-- The answer to a statement that has written nothing is followed by an error,
or by another statement. -/
theorem timersAre_unwritten (hstand : Standing decode ⟨l, past, .call st k⟩) {body : TimerBody}
    (hr : l.arrival.request = .postTimer body ∨ l.arrival.request = .modifyTimer body)
    {timer : InsertableTimer J} (hparse : body.parse J = some timer) {r : sql.Res st}
    (hno : wrote ⟨st, r⟩ = false) (h : TimersAre J db b) :
    TimersAre J db (System.recorded TimerBook.record b (System.resume l past st k r)) ∧
      ∀ v ∈ (System.resume l past st k r).ended, b.Allows v := by
  obtain ⟨hpast, hfollows⟩ := written_resume hstand hr hparse r
  show TimersAre J db (System.recorded TimerBook.record b ⟨l, ⟨st, r⟩ :: past, k r⟩) ∧
    ∀ v ∈ Thread.ended ⟨l, ⟨st, r⟩ :: past, k r⟩, b.Allows v
  cases hk : k r with
  | done o =>
      rw [hk] at hfollows
      obtain ⟨e, rfl⟩ : ∃ e, o = .error e := by
        change WrittenAs timer _ o at hfollows
        rwa [WrittenAs, List.any_cons, hno, hpast] at hfollows
      refine System.recorded_of_done rfl ⟨?_, (TimerBook.error b l e).2⟩
      rw [(TimerBook.error b l e).1]
      exact h
  | call st' k' => exact ⟨h, fun _ hv => by cases hv⟩

/-- The answer to a statement that has written the row is followed by the
timer. -/
theorem ended_written (hstand : Standing decode ⟨l, past, .call st k⟩) {body : TimerBody}
    (hr : l.arrival.request = .postTimer body ∨ l.arrival.request = .modifyTimer body)
    {timer : InsertableTimer J} (hparse : body.parse J = some timer) {r : sql.Res st}
    (hwrote : wrote ⟨st, r⟩ = true) : ∃ data, k r = .done (.ok (.timer (timer.written data))) := by
  obtain ⟨-, hfollows⟩ := written_resume hstand hr hparse r
  cases hk : k r with
  | done o =>
      rw [hk] at hfollows
      obtain ⟨data, rfl⟩ : ∃ data, o = .ok (.timer (timer.written data)) := by
        change WrittenAs timer _ o at hfollows
        rwa [WrittenAs, List.any_cons, hwrote] at hfollows
      exact ⟨data, rfl⟩
  | call st' k' =>
      rw [hk] at hfollows
      have hbefore : (⟨st, r⟩ :: past).any wrote = false := hfollows.1
      rw [List.any_cons, hwrote] at hbefore
      cases hbefore

end

/-- The other requests leave the timesheet alone. -/
theorem timesheet_of_asks {dbc : DatabaseConnection} {r : Request J} {past : List sql.Event}
    {st : Stmt} (hasks : Asks dbc r past st)
    (hr : ∀ body, r ≠ .postTimer body ∧ r ≠ .modifyTimer body) {s : Session} {c : Choice}
    {t t' : Tables} {ret : st.Ret} (hdoes : st.Does s c t ret t') : t'.timesheet = t.timesheet := by
  obtain heq | ⟨values, u, rfl, -⟩ | ⟨u, startTime, values, rfl, -⟩ := hdoes.timesheet_cases
  · exact heq
  · exfalso
    cases hasks with
    | insertTimesheet => exact (hr _).1 rfl
  · exfalso
    cases hasks with
    | updateTimesheet => exact (hr _).2 rfl

section

variable {l : Context J} {past : List sql.Event} {st : Stmt}
  {k : sql.Res st → Program sql (Outcome J)}
  {db : Db} {b : TimerBook}

/-- The look-up of a timer leaves the timesheet alone. -/
theorem timesheet_lookup (hs : l.session.LoggedIn) (c : Choice) (timer : ℤ) :
    ((Stmt.selectTimeSplitData timer).exec l.session c db).2.timesheet = db.timesheet := by
  obtain ⟨e, he⟩ | ⟨rows, db', he, hsame, -⟩ :=
    Stmt.exec_cases hs c (.selectTimeSplitData timer) db <;> rw [he]
  exact congrArg Tables.timesheet hsame

/-- What `post_timer` does and answers is what the book records and allows. -/
theorem timersAre_postTimer (hJ : J.TimestampLaws) (hstand : Standing decode ⟨l, past, .call st k⟩)
    {body : TimerBody} (hreq : l.arrival.request = .postTimer body) (c : Choice)
    (h : TimersAre J db b) :
    let t := System.resume l past st k (st.exec l.session c db).1
    TimersAre J (st.exec l.session c db).2 (System.recorded TimerBook.record b t) ∧
      ∀ v ∈ t.ended, b.Allows v := by
  obtain ⟨dbc, hconn, hs, hasks⟩ := hstand.asks
  generalize hr : l.arrival.request = request at hasks
  cases hasks with
  | selectTimeSplitData hbody hu hparse =>
      rw [← hr] at hbody
      exact timersAre_unwritten hstand hbody hparse rfl (h.congr (timesheet_lookup hs c _))
  | insertTimesheet hu hparse hrow hvalues =>
      rename_i body' user timer rows row values
      obtain rfl : body = body' := by simpa using hreq.symm.trans hr
      obtain ⟨e, he⟩ | ⟨n, db', he, -, hdb'⟩ :=
        Stmt.exec_cases hs c (.insertTimesheet values user.sub) db <;> rw [he]
      · exact timersAre_unwritten hstand (.inl hreq) hparse rfl h
      · obtain ⟨values', hvalues', -, -, hvrow⟩ := values_of_parse hJ hparse
        obtain rfl := Option.some.inj (hvalues.symm.trans hvalues')
        obtain ⟨hpost, habsent⟩ := h.post hparse
          ((congrArg Tables.timesheet hdb').trans (by rw [hvrow user.sub]))
        obtain ⟨data, hdone⟩ := ended_written hstand (.inl hreq) hparse (r := .ok n) rfl
        have hlu : l.user = some user.sub := by rw [l.user_eq hconn, hu]; rfl
        refine System.recorded_of_done hdone ⟨?_, ?_⟩
        · rw [TimerBook.record]
          simp only [hreq, hlu]
          exact hpost
        · rw [TimerBook.Allows]
          simp only [hreq, hlu]
          exact ⟨user.sub, _, rfl, rfl, shows_written hJ hparse data, habsent⟩
  | _ => cases hreq.symm.trans hr

/-- What `modify_timer` does and answers is what the book records and
allows. -/
theorem timersAre_modifyTimer (hJ : J.TimestampLaws)
    (hstand : Standing decode ⟨l, past, .call st k⟩) {body : TimerBody}
    (hreq : l.arrival.request = .modifyTimer body) (c : Choice) (h : TimersAre J db b) :
    let t := System.resume l past st k (st.exec l.session c db).1
    TimersAre J (st.exec l.session c db).2 (System.recorded TimerBook.record b t) ∧
      ∀ v ∈ t.ended, b.Allows v := by
  obtain ⟨dbc, hconn, hs, hasks⟩ := hstand.asks
  generalize hr : l.arrival.request = request at hasks
  cases hasks with
  | selectTimeSplitData hbody hu hparse =>
      rw [← hr] at hbody
      exact timersAre_unwritten hstand hbody hparse rfl (h.congr (timesheet_lookup hs c _))
  | updateTimesheet hu hparse hrow hvalues =>
      rename_i body' user timer rows row values
      obtain rfl : body = body' := by simpa using hreq.symm.trans hr
      obtain ⟨e, he⟩ | ⟨n, db', he, -, hdb'⟩ := Stmt.exec_cases hs c
        (.updateTimesheet user.sub values.startTime values) db <;> rw [he]
      · exact timersAre_unwritten hstand (.inr hreq) hparse rfl h
      · obtain ⟨values', hvalues', -, hstart, hvrow⟩ := values_of_parse hJ hparse
        obtain rfl := Option.some.inj (hvalues.symm.trans hvalues')
        have hmodify : TimersAre J db' _ := h.modify (u := user.sub) hparse
          ((congrArg Tables.timesheet hdb').trans (by simp only [hstart, hvrow]))
        obtain ⟨data, hdone⟩ := ended_written hstand (.inr hreq) hparse (r := .ok n) rfl
        have hlu : l.user = some user.sub := by rw [l.user_eq hconn, hu]; rfl
        refine System.recorded_of_done hdone ⟨?_, ?_⟩
        · rw [TimerBook.record]
          simp only [hreq, hlu]
          exact hmodify
        · rw [TimerBook.Allows]
          simp only [hreq, hlu]
          exact ⟨user.sub, _, rfl, rfl, shows_written hJ hparse data⟩
  | _ => cases hreq.symm.trans hr

/-- A row of the timesheet that is read as a timer shows its entry. -/
theorem TimersAre.shows (hJ : J.TimestampLaws) (h : TimersAre J db b) {k : Uuid × ℤ} {e : Entry}
    (he : b k = some e) {timer : TimeSplitTimerRow} {t : Timer J}
    (ht : Timer.ofRow (TimerBook.row k e, timer) = some t) : t.Shows k.2 e := by
  obtain ⟨⟨startTime, hstart⟩, endTime, hend⟩ := h.parsed k e he
  have hstart' : Timestamptz.fromSql J (TimerBook.row k e).startTime = some startTime :=
    Timestamptz.fromSql_deserialize hJ hstart
  have hend' : Timestamptz.fromSql J (TimerBook.row k e).endTime = some endTime :=
    Timestamptz.fromSql_deserialize hJ hend
  rw [Timer.ofRow, hstart', hend'] at ht
  cases ht
  exact ⟨rfl, Timestamptz.serialize_deserialize hJ hstart,
    Timestamptz.serialize_deserialize hJ hend, rfl⟩

/-- The row that the query of `get_timers` answers is an entry that the request
may read, and the latest one of its timer. -/
theorem TimersAre.latest (h : TimersAre J db b) {u : Option Uuid} (plan : List ℕ)
    {p : TimesheetRow × TimeSplitTimerRow}
    (hp : p ∈ (orderBy (fun r => -r.1.startTime) (pick plan (join
      { db.toTables with
        timesheet := db.timesheet.filter fun r => u.all fun v => r.userId == v
        timeSplitTimer := db.timeSplitTimer.filter fun r => !r.deleted }))).take 1) :
    ∃ k e, b k = some e ∧ p.1 = TimerBook.row k e ∧ (∀ v, u = some v → v = k.1) ∧
      ∀ k' e', b k' = some e' → (∀ v, u = some v → v = k'.1) →
        e'.timeSplitTimer = e.timeSplitTimer → k'.2 ≤ k.2 := by
  have hreads : ∀ k e, (u.all fun v => (TimerBook.row k e).userId == v) = true ↔
      ∀ v, u = some v → v = k.1 := by
    intro k e
    cases u with
    | none => simp
    | some v => simpa [TimerBook.row, Entry.row] using eq_comm
  rw [List.take_one, Option.mem_toList] at hp
  have hsorted := orderBy_sorted (fun r => -r.1.startTime) (pick plan (join
    { db.toTables with
      timesheet := db.timesheet.filter fun r => u.all fun v => r.userId == v
      timeSplitTimer := db.timeSplitTimer.filter fun r => !r.deleted }))
  obtain ⟨rest, hrest⟩ := List.head?_eq_some_iff.mp hp
  have hmem := mem_join.mp (mem_pick.mp (mem_orderBy.mp (hrest ▸ List.mem_cons_self)))
  obtain ⟨hrow, htimer, hid⟩ := hmem
  obtain ⟨hrow, hfilter⟩ := List.mem_filter.mp hrow
  obtain ⟨k, e, he, hke⟩ := (h.rows _).mp hrow
  rw [← hke] at hfilter hid
  refine ⟨k, e, he, hke.symm, (hreads k e).mp hfilter, fun k' e' he' hk' hsame => ?_⟩
  -- the other entry is joined with the same timer
  have hother : (TimerBook.row k' e', p.2) ∈ p :: rest := by
    rw [← hrest, mem_orderBy, mem_pick, mem_join]
    refine ⟨List.mem_filter.mpr ⟨(h.rows _).mpr ⟨k', e', he', rfl⟩, (hreads k' e').mpr hk'⟩,
      htimer, ?_⟩
    show some e'.timeSplitTimer = _
    rw [hsame]
    exact hid
  rw [hrest] at hsorted
  have hle : p.1.startTime ≥ (TimerBook.row k' e').startTime := by
    rcases List.mem_cons.mp hother with heq | htail
    · rw [← heq]
    · exact Int.neg_le_neg_iff.mp (List.rel_of_pairwise_cons hsorted htail)
  rw [← hke] at hle
  exact Int.sub_le_sub_right_iff.mp hle

/-- What `get_timers` answers is what the book allows. -/
theorem timersAre_getTimers (hJ : J.TimestampLaws) (hstand : Standing decode ⟨l, past, .call st k⟩)
    (hreq : l.arrival.request = .getTimers) (c : Choice) (h : TimersAre J db b) :
    let t := System.resume l past st k (st.exec l.session c db).1
    TimersAre J (st.exec l.session c db).2 (System.recorded TimerBook.record b t) ∧
      ∀ v ∈ t.ended, b.Allows v := by
  obtain ⟨dbc, hconn, hid, hafter⟩ := hstand.handler
  rw [hreq] at hafter
  -- the rows are decoded after the only statement
  have hdecode : ∀ rows : List (TimesheetRow × TimeSplitTimerRow), ∃ o,
      (do let timers ← orPanic (rows.mapM (Timer.ofRow (J := J)))
          return Reply.timers timers : Handler (Reply J)).run = .done o ∧
        ((∃ e, o = .error e) ∨
          ∃ timers, rows.mapM Timer.ofRow = some timers ∧ o = .ok (.timers timers)) := by
    intro rows
    cases hm : rows.mapM (Timer.ofRow (J := J)) with
    | none => exact ⟨_, rfl, .inl ⟨_, rfl⟩⟩
    | some timers => exact ⟨_, rfl, .inr ⟨timers, rfl, rfl⟩⟩
  have hcall := (hafter.of_single fun r => by
    cases r with
    | error e => exact ⟨_, rfl⟩
    | ok rows =>
        obtain ⟨o, ho, -⟩ := hdecode rows
        exact ⟨o, ho⟩).2
  cases hcall
  rw [Stmt.exec_selectTimers hid.loggedIn]
  cases hf : c.fails with
  | true =>
      refine System.recorded_of_done (a := .error _) rfl ⟨?_, (TimerBook.error b l _).2⟩
      rw [(TimerBook.error b l _).1]
      exact h
  | false =>
      obtain ⟨o, ho, ⟨e, rfl⟩ | ⟨timers, htimers, rfl⟩⟩ := hdecode _
      · refine System.recorded_of_done ho ⟨?_, (TimerBook.error b l e).2⟩
        rw [(TimerBook.error b l e).1]
        exact h
      · refine System.recorded_of_done ho ⟨?_, ?_⟩
        · rw [TimerBook.record]
          simp only [hreq]
          exact h
        · rw [TimerBook.Allows]
          simp only [hreq]
          refine ⟨timers, rfl, ?_, fun t ht => ?_⟩
          · rw [← (mapM_eq_some.mp htimers).length_eq]
            exact List.length_take_le _ _
          · obtain ⟨p, hp, hpt⟩ := exists_of_mem_mapM htimers ht
            obtain ⟨key, e, he, hrow, hreads, hlast⟩ := h.latest c.plan hp
            have hread : Timer.ofRow (TimerBook.row key e, p.2) = some t := by
              rw [← hrow]
              exact hpt
            rw [← l.user_eq hconn] at hreads hlast
            exact ⟨key.1, key.2, e, he, hreads, h.shows hJ he hread,
              fun v startTime' e' he' hv => hlast (v, startTime') e' he' hv⟩

end

/-- What a request does and answers is what the book records and allows. -/
theorem timersAre_answer (hJ : J.TimestampLaws) {l : Context J} {past : List sql.Event} {st : Stmt}
    {k : sql.Res st → Program sql (Outcome J)} (hstand : Standing decode ⟨l, past, .call st k⟩)
    (c : Choice) {db : Db} {b : TimerBook} (h : TimersAre J db b) :
    let t := System.resume l past st k (st.exec l.session c db).1
    TimersAre J (st.exec l.session c db).2 (System.recorded TimerBook.record b t) ∧
      ∀ v ∈ t.ended, b.Allows v := by
  cases hreq : l.arrival.request with
  | postTimer body => exact timersAre_postTimer hJ hstand hreq c h
  | modifyTimer body => exact timersAre_modifyTimer hJ hstand hreq c h
  | getTimers => exact timersAre_getTimers hJ hstand hreq c h
  | _ =>
      obtain ⟨dbc, -, hs, hasks⟩ := hstand.asks
      have hother : l.arrival.request.isTimer = false := by rw [hreq]; rfl
      refine System.recorded_of_other ?_ (TimerBook.other b hother)
      obtain ⟨e, he⟩ | ⟨ret, db', he, hdoes⟩ := Stmt.exec_cases hs c st db <;> rw [he]
      · exact h
      · refine h.congr (timesheet_of_asks hasks (fun body => ?_) hdoes)
        rw [hreq]
        exact ⟨fun h => (by cases h), fun h => by cases h⟩

variable (decode) in
/-- The book of a run. -/
theorem timersAre_run (hJ : J.TimestampLaws) (acts : List (Act (Arrival J) Choice)) :
    let h := (service decode).history acts initial
    (System.finished ((service decode).run acts initial)).Perm h ∧
      TimersAre J ((service decode).run acts initial).shared
        (h.foldl TimerBook.record TimerBook.empty) ∧
      EachStep TimerBook.record TimerBook.Allows h TimerBook.empty :=
  refines_history (R := TimersAre J) TimerBook.error
    (fun _ _ _ _ c _ _ hstand h => timersAre_answer hJ hstand c h) acts
    ⟨represents_nil, fun _ _ h => by cases h⟩

/-- **The timesheet is linearizable.**  In every interleaving of all requests,
with statements that fail or not, the rows of the timesheet are the record of
the requests about timers in the order in which they ended.  A timer is posted
only where its user has none; what is answered has the times that were sent; and
`get_timers` answers at most one timer, which is an entry of its user, or of
anybody if nobody is logged in, and the latest one with its timer. -/
theorem timers_linearizable (hJ : J.TimestampLaws) (decode : String → Except String UserClaims)
    (acts : List (Act (Arrival J) Choice)) :
    let h := (service decode).history acts initial
    (System.finished ((service decode).run acts initial)).Perm h ∧
      Represents TimerBook.row ((service decode).run acts initial).shared.timesheet
        (h.foldl TimerBook.record TimerBook.empty) ∧
      EachStep TimerBook.record TimerBook.Allows h TimerBook.empty := by
  intro h
  obtain ⟨hperm, hrows, hallowed⟩ := timersAre_run decode hJ acts
  exact ⟨hperm, hrows.rows, hallowed⟩

/-- User 1 modifies a timer before it is posted, between the two statements
that post it. -/
def modifiedTooEarly : List (Act (Arrival Jiff.reference) Choice) :=
  [.arrive (byUser (.postTimer ⟨1, 0, 1500000000, []⟩)),
    .arrive (byUser (.modifyTimer ⟨1, 0, 1600000000, [7]⟩)),
    .step 0 {}, .step 1 {}, .step 1 {}, .step 0 {}]

theorem timers_linearizable_modifiedTooEarly :
    let h := (service oneUser).history modifiedTooEarly initial
    h.foldl TimerBook.record TimerBook.empty (1, 0) = some ⟨1, 1500000000, []⟩ ∧
      Represents TimerBook.row
        ((service oneUser).run modifiedTooEarly initial).shared.timesheet
        (h.foldl TimerBook.record TimerBook.empty) :=
  ⟨by decide, (timers_linearizable Jiff.reference_timestampLaws oneUser modifiedTooEarly).2.1⟩

end Lockinspiel
