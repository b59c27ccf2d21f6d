/-
Lockinspiel/Endings.lean

How a request ends, and what it has done by then.

`Ends` is read off the handlers once (`handler_ends`): an error with a source
is that of the last statement, with the status code of the statement, and
nothing is asked after it; the errors without a source are those of a request
that asked nothing, or whose look-up was empty; a panic is a value of the last
answer that could not be converted; and a reply means that every statement was
answered.  Only creations and deletions of time splits can have written
something when they fail, and what a request writes can always be converted
(`not_unstorable`), so a panic is a row that cannot be read.

So the requests that read, those of nobody, and the other requests that failed
leave no trace: they can be taken out of a run, and the requests that are left
cannot tell (`silent_erasable`).
-/
import Lockinspiel.Lib.Erase
import Lockinspiel.Histories

namespace Lockinspiel

open Effects Sql

variable {J : Jiff} {decode : String → Except String UserClaims}

/-! ### Requests and statements -/

/-- The requests that read only. -/
def Request.isRead : Request J → Bool
  | .getTags | .getTimeSplits | .getTimers => true
  | _ => false

/-- The requests that write in two statements. -/
def Request.writesTwice : Request J → Bool
  | .createTimeSplit _ | .deleteTimeSplit _ => true
  | _ => false

/-- The requests whose handlers ask for a user themselves. -/
def Request.needsUser : Request J → Bool
  | .createTag _ | .createTimeSplit _ | .postTimer _ | .modifyTimer _ => true
  | _ => false

/-- The statement went through. -/
def answered : sql.Event → Bool
  | ⟨_, .ok _⟩ => true
  | ⟨_, .error _⟩ => false

/-- The statement has left the database as it was. -/
def silent : sql.Event → Bool
  | ⟨st, .ok _⟩ => st.isSelect
  | ⟨_, .error _⟩ => true

/-- The status code of a request whose last statement failed. -/
def Stmt.failure : Stmt → StatusCode
  | .selectTags _ | .selectTimeSplits _ | .selectTimeSplitTimers _ | .selectTimeSplitData _
  | .selectTimers _ | .deleteTimeSplitTimers _ | .deleteTimeSplit _ => .internalServerError
  | _ => .unprocessableEntity

/-! ### How handlers end -/

/-- The answer holds a row that `from_sql` refuses. -/
inductive Unreadable (J : Jiff) : sql.Event → Prop
  | selected {ids rows row} (hrow : row ∈ rows)
      (h : (TimeSplitTimer.ofRow row : Option (TimeSplitTimer J)) = none) :
      Unreadable J ⟨.selectTimeSplitTimers ids, .ok rows⟩
  | inserted {values rows row} (hrow : row ∈ rows)
      (h : (TimeSplitTimer.ofRow row : Option (TimeSplitTimer J)) = none) :
      Unreadable J ⟨.insertTimeSplitTimers values, .ok rows⟩
  | timers {user rows row} (hrow : row ∈ rows) (h : (Timer.ofRow row : Option (Timer J)) = none) :
      Unreadable J ⟨.selectTimers user, .ok rows⟩

/-- After the answer, the request has something to write that `to_sql`
refuses. -/
inductive Unstorable : Request J → sql.Event → Prop
  | timeSplit {body : InsertablePackagedTimeSplit J} {name description user id}
      (h : timerValues id body.timers = none) :
      Unstorable (.createTimeSplit body) ⟨.insertTimeSplit name description user, .ok id⟩
  | timer {r : Request J} {body : TimerBody} {timer : InsertableTimer J} {rows}
      (hr : r = .postTimer body ∨ r = .modifyTimer body) (hparse : body.parse J = some timer)
      (h : timer.values = none) :
      Unstorable r ⟨.selectTimeSplitData timer.timeSplitTimer, .ok rows⟩

/-- A handler that has asked `past`, the last first, ends in this way. -/
inductive Ends (dbc : DatabaseConnection) (r : Request J) : List sql.Event → Outcome J → Prop
  | rejected {body : TimerBody} (hr : r = .postTimer body ∨ r = .modifyTimer body)
      (hparse : body.parse J = none) : Ends dbc r [] (.error .jsonRejection)
  | unauthorized {message} (hu : dbc.user = none) (hr : r.needsUser = true) :
      Ends dbc r [] (.error (.error ⟨.unauthorized, ⟨[message], none⟩⟩))
  | notFound {body : TimerBody} {timer : InsertableTimer J} {message}
      (hr : r = .postTimer body ∨ r = .modifyTimer body) (hparse : body.parse J = some timer) :
      Ends dbc r [⟨.selectTimeSplitData timer.timeSplitTimer,
          (.ok [] : Except SqlError (List TimeSplitTimerRow))⟩]
        (.error (.error ⟨.notFound, ⟨[message], none⟩⟩))
  | failed {st e past message} (hanswered : ∀ e ∈ past, answered e = true)
      (hsilent : r.writesTwice = false → ∀ e ∈ past, silent e = true)
      (hread : r.isRead = true → st.isSelect = true) :
      Ends dbc r (⟨st, (.error e : Except SqlError st.Ret)⟩ :: past)
        (.error (.error ⟨st.failure, ⟨[message], some e⟩⟩))
  | panicked {e past} (hanswered : ∀ e' ∈ e :: past, answered e' = true)
      (hsilent : r.writesTwice = false → ∀ e' ∈ e :: past, silent e' = true)
      (hcause : Unreadable J e ∨ Unstorable r e) :
      Ends dbc r (e :: past) (.error .panic)
  | replied {st ret past reply} (hanswered : ∀ e ∈ past, answered e = true)
      (hsilent : r.writesTwice = false → ∀ e ∈ past, silent e = true)
      (hwrites : st.isSelect = r.isRead) :
      Ends dbc r (⟨st, (.ok ret : Except SqlError st.Ret)⟩ :: past) (.ok reply)

/-- What a handler has asked before a statement: all of it was answered, and
only a creation or deletion of a time split has written. -/
def Goes (r : Request J) (past : List sql.Event) (st : Stmt) : Prop :=
  (∀ e ∈ past, answered e = true) ∧
    (r.writesTwice = false → ∀ e ∈ past, silent e = true) ∧
    (r.isRead = true → st.isSelect = true)

section

variable {dbc : DatabaseConnection} {r : Request J} {past : List sql.Event} {st : Stmt}

/-- The first statement. -/
theorem Goes.first (h : r.isRead = true → st.isSelect = true) : Goes r [] st :=
  ⟨fun _ h => (by cases h), fun _ _ h => (by cases h), h⟩

/-- A statement after one that went through. -/
theorem Goes.next (h : Goes r past st) (ret : st.Ret) (st' : Stmt)
    (hst : r.writesTwice = true ∨ st.isSelect = true) (hr : r.isRead = true → st'.isSelect = true) :
    Goes r (⟨st, (.ok ret : Except SqlError st.Ret)⟩ :: past) st' := by
  refine ⟨fun e he => ?_, fun hr e he => ?_, hr⟩
  · rcases List.mem_cons.mp he with rfl | he
    · rfl
    · exact h.1 e he
  · rcases List.mem_cons.mp he with rfl | he
    · exact hst.resolve_left (by rw [hr]; exact Bool.false_ne_true)
    · exact h.2.1 hr e he

/-- The handler replies when its last statement went through. -/
theorem Goes.replied (h : Goes r past st) (hst : st.isSelect = r.isRead) {ret : st.Ret}
    {reply : Reply J} :
    Ends dbc r (⟨st, (.ok ret : Except SqlError st.Ret)⟩ :: past) (.ok reply) :=
  .replied h.1 h.2.1 hst

/-- A statement of a handler: the handler ends where it fails. -/
theorem ends_query {context : String} {status : StatusCode} {f : st.Ret → Handler (Reply J)}
    (hgoes : Goes r past st) (hstatus : st.failure = status)
    (h : ∀ ret, (f ret).run.Follows (Goes r) (Ends dbc r)
      (⟨st, (.ok ret : Except SqlError st.Ret)⟩ :: past)) :
    (query st context status >>= f : Handler (Reply J)).run.Follows (Goes r) (Ends dbc r)
      past := by
  subst hstatus
  refine ⟨hgoes, fun a => ?_⟩
  cases a with
  | error e => exact .failed hgoes.1 hgoes.2.1 hgoes.2.2
  | ok ret => exact h ret

/-- A value that is computed after a statement that went through. -/
theorem ends_orPanic {β : Type} {x : Option β} {f : β → Handler (Reply J)} {ret : st.Ret}
    (hgoes : Goes r past st) (hst : r.writesTwice = true ∨ st.isSelect = true)
    (hcause : x = none → Unreadable J ⟨st, .ok ret⟩ ∨ Unstorable r ⟨st, .ok ret⟩)
    (h : ∀ b, x = some b → (f b).run.Follows (Goes r) (Ends dbc r)
      (⟨st, (.ok ret : Except SqlError st.Ret)⟩ :: past)) :
    (orPanic x >>= f : Handler (Reply J)).run.Follows (Goes r) (Ends dbc r)
      (⟨st, (.ok ret : Except SqlError st.Ret)⟩ :: past) := by
  cases x with
  | none =>
      have hnext := hgoes.next ret st hst hgoes.2.2
      exact .panicked hnext.1 hnext.2.1 (hcause rfl)
  | some b => exact h b rfl

/-- The part that `post_timer` and `modify_timer` share. -/
theorem ends_writeTimer {body : TimerBody} {timer : InsertableTimer J}
    {write : Uuid → TimesheetValues → Stmt} {m₁ m₂ m₃ : String}
    (hr : r = .postTimer body ∨ r = .modifyTimer body) (hparse : body.parse J = some timer)
    (hwrite : ∀ user values, (write user values).isSelect = false ∧
      (write user values).failure = .unprocessableEntity) :
    (writeTimer write m₁ m₂ m₃ dbc timer).run.Follows (Goes r) (Ends dbc r) [] := by
  have hread : r.isRead = false := by
    rcases hr with rfl | rfl <;> rfl
  have hfirst : Goes r [] (.selectTimeSplitData timer.timeSplitTimer) := .first fun _ => rfl
  rw [writeTimer]
  cases hu : dbc.user with
  | none => exact .unauthorized hu (by rcases hr with rfl | rfl <;> rfl)
  | some user =>
      refine ends_query hfirst rfl fun rows => ?_
      cases rows with
      | nil => exact .notFound hr hparse
      | cons row rows =>
          refine ends_orPanic hfirst (.inr rfl) (fun h => .inr (.timer hr hparse h))
            fun values _ => ?_
          obtain ⟨hselect, hfailure⟩ := hwrite user.sub values
          have hsecond := hfirst.next (row :: rows) (write user.sub values) (.inr rfl)
            fun h => by rw [hread] at h; cases h
          exact ends_query hsecond hfailure fun ret =>
            hsecond.replied (hselect.trans hread.symm)

end

/-- **How the handlers end.** -/
theorem handler_ends (dbc : DatabaseConnection) (r : Request J) :
    (handler dbc r).run.Follows (Goes r) (Ends dbc r) [] := by
  cases r with
  | createTag tag =>
      rw [handler, createTag]
      cases hu : dbc.user with
      | none => exact .unauthorized hu rfl
      | some user =>
          have hfirst : Goes (.createTag tag : Request J) [] (.insertTag tag.name user.sub) :=
            .first fun h => by cases h
          exact ends_query hfirst rfl fun ret => hfirst.replied rfl
  | getTags =>
      have hfirst : Goes (.getTags : Request J) [] (.selectTags [dbc.subject, Uuid.nil]) :=
        .first fun _ => rfl
      exact ends_query hfirst rfl fun ret => hfirst.replied rfl
  | modifyTag id tag =>
      have hfirst : Goes (.modifyTag id tag : Request J) [] (.updateTag id tag.name) :=
        .first fun h => by cases h
      exact ends_query hfirst rfl fun ret => hfirst.replied rfl
  | deleteTag id =>
      have hfirst : Goes (.deleteTag id : Request J) [] (.deleteTag id) :=
        .first fun h => by cases h
      exact ends_query hfirst rfl fun ret => hfirst.replied rfl
  | modifyTimeSplit id timeSplit =>
      have hfirst : Goes (.modifyTimeSplit id timeSplit : Request J) []
          (.updateTimeSplit id timeSplit.name timeSplit.description) := .first fun h => by cases h
      exact ends_query hfirst rfl fun ret => hfirst.replied rfl
  -- two statements, each of which may fail, and two conversions
  | createTimeSplit body =>
      rw [handler, createTimeSplit]
      cases hu : dbc.user with
      | none => exact .unauthorized hu rfl
      | some user =>
          have hfirst : Goes (.createTimeSplit body) [] (.insertTimeSplit body.timeSplit.name
              body.timeSplit.description user.sub) := .first fun h => by cases h
          refine ends_query hfirst rfl fun id => ends_orPanic hfirst (.inl rfl)
            (fun h => .inr (.timeSplit h)) fun values _ => ?_
          have hsecond := hfirst.next id (.insertTimeSplitTimers values) (.inl rfl)
            fun h => by cases h
          refine ends_query hsecond rfl fun rows => ends_orPanic hsecond (.inl rfl) (fun h => ?_)
            fun timers _ => hsecond.replied rfl
          -- the rows that were inserted are read back
          obtain ⟨row, hrow, hnone⟩ := exists_of_mapM_eq_none h
          exact .inl (.inserted hrow hnone)
  | getTimeSplits =>
      have hfirst : Goes (.getTimeSplits : Request J) [] (.selectTimeSplits dbc.subject) :=
        .first fun _ => rfl
      refine ends_query hfirst rfl fun rows => ?_
      have hsecond := hfirst.next rows (.selectTimeSplitTimers (rows.map TimeSplitRow.id))
        (.inr rfl) fun _ => rfl
      refine ends_query hsecond rfl fun timerRows => ends_orPanic hsecond (.inr rfl) (fun h => ?_)
        fun timers _ => ?_
      · obtain ⟨row, hrow, hnone⟩ := exists_of_mapM_eq_none h
        exact .inl (.selected hrow hnone)
      · -- the regrouping loop is never out of bounds
        obtain ⟨grouped, hgrouped⟩ := exists_groupTimers (rows.map TimeSplit.ofRow) timers
        rw [hgrouped]
        exact hsecond.replied rfl
  | deleteTimeSplit id =>
      have hfirst : Goes (.deleteTimeSplit id : Request J) [] (.deleteTimeSplitTimers id) :=
        .first fun h => by cases h
      refine ends_query hfirst rfl fun n => ?_
      have hsecond := hfirst.next n (.deleteTimeSplit id) (.inl rfl)
        fun h => by cases h
      exact ends_query hsecond rfl fun ret => hsecond.replied rfl
  | postTimer body =>
      rw [handler]
      cases hparse : body.parse J with
      | none => exact .rejected (.inl rfl) hparse
      | some timer => exact ends_writeTimer (.inl rfl) hparse fun _ _ => ⟨rfl, rfl⟩
  | getTimers =>
      have hfirst : Goes (.getTimers : Request J) []
          (.selectTimers (dbc.user.map UserClaims.sub)) := .first fun _ => rfl
      refine ends_query hfirst rfl fun rows => ends_orPanic hfirst (.inr rfl) (fun h => ?_)
        fun timers _ => hfirst.replied rfl
      obtain ⟨row, hrow, hnone⟩ := exists_of_mapM_eq_none h
      exact .inl (.timers hrow hnone)
  | modifyTimer body =>
      rw [handler]
      cases hparse : body.parse J with
      | none => exact .rejected (.inr rfl) hparse
      | some timer => exact ends_writeTimer (.inr rfl) hparse fun _ _ => ⟨rfl, rfl⟩

section

variable {dbc : DatabaseConnection} {r : Request J} {past : List sql.Event} {o : Outcome J}

theorem Ends.silent (h : Ends dbc r past o) (hr : r.writesTwice = false)
    (ho : r.isRead = true ∨ ∃ e, o = .error e) : ∀ e ∈ past, silent e = true := by
  cases h with
  | rejected | unauthorized => exact fun _ h => by cases h
  | notFound =>
      intro e he
      rw [List.mem_singleton.mp he]
      rfl
  | failed hanswered hsilent hread =>
      intro e he
      rcases List.mem_cons.mp he with rfl | he
      · rfl
      · exact hsilent hr e he
  | panicked hanswered hsilent hcause => exact hsilent hr
  | replied hanswered hsilent hwrites =>
      obtain hread | ⟨e, he⟩ := ho
      · intro e he
        rcases List.mem_cons.mp he with rfl | he
        · exact hwrites.trans hread
        · exact hsilent hr e he
      · cases he

theorem Request.not_writesTwice (hr : r.isRead = true) : r.writesTwice = false := by
  cases r <;> simp_all [Request.isRead, Request.writesTwice]

/-- What was answered and left the database as it was is a SELECT. -/
theorem isSelect_of_silent {e : sql.Event} (hanswered : answered e = true)
    (hsilent : silent e = true) : e.1.isSelect = true := by
  obtain ⟨st, e | ret⟩ := e
  · cases hanswered
  · exact hsilent

/-- A request that reads asks SELECTs only, also where it fails. -/
theorem Ends.isSelect (h : Ends dbc r past o) (hr : r.isRead = true) :
    ∀ e ∈ past, e.1.isSelect = true := by
  have htwice := Request.not_writesTwice hr
  cases h with
  | rejected | unauthorized => exact fun _ h => by cases h
  | notFound =>
      intro e he
      rw [List.mem_singleton.mp he]
      rfl
  | failed hanswered hsilent hread =>
      intro e he
      rcases List.mem_cons.mp he with rfl | he
      · exact hread hr
      · exact isSelect_of_silent (hanswered e he) (hsilent htwice e he)
  | panicked hanswered hsilent hcause =>
      exact fun e he => isSelect_of_silent (hanswered e he) (hsilent htwice e he)
  | replied hanswered hsilent hwrites =>
      intro e he
      rcases List.mem_cons.mp he with rfl | he
      · exact hwrites.trans hr
      · exact isSelect_of_silent (hanswered e he) (hsilent htwice e he)

/-- Every value of a request can be stored. -/
theorem not_unstorable (hJ : J.SpanLaws) (hT : J.TimestampLaws) (e : sql.Event) :
    ¬ Unstorable r e := by
  rintro (⟨h⟩ | ⟨hr, hparse, h⟩)
  · obtain ⟨t, -, ht⟩ := exists_of_mapM_eq_none h
    exact absurd (t.1.isSome_values hJ _ t.2) (by rw [ht]; exact Bool.false_ne_true)
  · exact absurd (InsertableTimer.isSome_values hT _) (by rw [h]; exact Bool.false_ne_true)

/-- So a panic is a row that cannot be read. -/
theorem Ends.unreadable (hJ : J.SpanLaws) (hT : J.TimestampLaws)
    (h : Ends dbc r past (.error .panic)) : ∃ e past', past = e :: past' ∧ Unreadable J e := by
  cases h with
  | panicked hanswered hsilent hcause =>
      exact ⟨_, _, rfl, hcause.resolve_right (not_unstorable hJ hT _)⟩

end

/-! ### Every request of every run -/

/-- The request came to its end, or is on its way there. -/
def Ending (decode : String → Except String UserClaims) (t : Worker J) : Prop :=
  (∃ e s, login decode t.loc.arrival.login t.loc.arrival.session = (.error e, s) ∧
    t.loc.connection = none ∧ t.past = [] ∧ t.prog = .done (.error (.error (.ofLogin e)))) ∨
  ∃ dbc, t.loc.connection = some dbc ∧
    t.prog.Follows (Goes t.loc.arrival.request) (Ends dbc t.loc.arrival.request) t.past

theorem ending_arrive (a : Arrival J) : Ending decode (arrive decode a) := by
  rw [Ending, arrival_arrive]
  rcases h : login decode a.login a.session with ⟨e | dbc, s⟩
  · refine .inl ⟨e, s, rfl, ?_⟩
    rw [arrive, h]
    exact ⟨rfl, rfl, rfl⟩
  · refine .inr ⟨dbc, ?_⟩
    rw [arrive, h]
    exact ⟨rfl, handler_ends dbc a.request⟩

theorem ending_run (acts : List (Act (Arrival J) Choice)) :
    ∀ t ∈ ((service decode).run acts initial).threads, Ending decode t := by
  refine System.thread_invariant ending_arrive ?_ acts initial fun _ h => by cases h
  rintro l past st k (⟨e, s, -, -, -, hprog⟩ | ⟨dbc, hconn, hfollows⟩) a
  · cases hprog
  · exact .inr ⟨dbc, hconn, hfollows.2 a⟩

/-- **Every outcome is honest.**  In every interleaving, a request that has
ended has failed to log in, with the error of its login and before it asked
anything, or it ends as `Ends` says.  If it reads, it has asked SELECTs only; if
it failed and does not write twice, it has left the database as it was; and if
it panicked, its last answer holds a row that cannot be read. -/
theorem outcome_honest (decode : String → Except String UserClaims)
    (acts : List (Act (Arrival J) Choice)) :
    ∀ t ∈ ((service decode).run acts initial).threads, ∀ o, t.prog = .done o →
      ((∃ e s, login decode t.loc.arrival.login t.loc.arrival.session = (.error e, s) ∧
          t.past = [] ∧ o = .error (.error (.ofLogin e))) ∨
        ∃ dbc, t.loc.connection = some dbc ∧ Ends dbc t.loc.arrival.request t.past o) ∧
      (t.loc.arrival.request.isRead = true → ∀ e ∈ t.past, e.1.isSelect = true) ∧
      (t.loc.arrival.request.writesTwice = false → (∃ e, o = .error e) →
        ∀ e ∈ t.past, silent e = true) ∧
      (J.SpanLaws → J.TimestampLaws → o = .error .panic →
        ∃ e past, t.past = e :: past ∧ Unreadable J e) := by
  intro t ht o ho
  obtain ⟨e, s, hlogin, -, hpast, hprog⟩ | ⟨dbc, hconn, hfollows⟩ := ending_run acts t ht
  · -- the login has failed
    obtain rfl := Program.done.inj (ho.symm.trans hprog)
    rw [hpast]
    exact ⟨.inl ⟨e, s, hlogin, rfl, rfl⟩, fun _ _ h => (by cases h), fun _ _ _ h => (by cases h),
      fun _ _ h => (by cases h)⟩
  · rw [ho] at hfollows
    have hends : Ends dbc t.loc.arrival.request t.past o := hfollows
    refine ⟨.inr ⟨dbc, hconn, hends⟩, hends.isSelect, fun hr he => hends.silent hr (.inr he), ?_⟩
    rintro hJ hT rfl
    exact hends.unreadable hJ hT

/-- A deletion that fails half-way, and a creation whose length cannot be read
back. -/
theorem outcome_honest_halfDeleted :
    let deletion := [.arrive (byUser (.deleteTimeSplit 1)), .step 0 {}, .step 0 failing]
    (∃ t ∈ ((service oneUser).run deletion initial).threads, ∃ dbc o, t.prog = .done o ∧
      t.past.length = 2 ∧ Ends dbc (.deleteTimeSplit 1) t.past o) ∧
    ∃ t ∈ ((service oneUser).run longCreated initial).threads, ∃ e past,
      t.prog = .done (.error .panic) ∧ t.past = e :: past ∧ Unreadable Jiff.reference e := by
  intro deletion
  constructor
  · obtain ⟨⟨e, s, -, hpast, -⟩ | ⟨dbc, -, hends⟩, -⟩ :=
      outcome_honest oneUser deletion _ List.mem_cons_self _ rfl
    · cases hpast
    · exact ⟨_, List.mem_cons_self, dbc, _, rfl, rfl, hends⟩
  · have hprog : (((service oneUser).run longCreated initial).threads[0]?.map Thread.prog) =
        some (.done (.error .panic)) := rfl
    obtain ⟨t, ht, hdone⟩ := Option.map_eq_some_iff.mp hprog
    have hmem := List.mem_of_getElem? ht
    obtain ⟨-, -, -, hpanic⟩ := outcome_honest oneUser longCreated t hmem _ hdone
    obtain ⟨e, past, hpast, hrow⟩ :=
      hpanic Jiff.reference_spanLaws Jiff.reference_timestampLaws rfl
    exact ⟨t, hmem, e, past, hdone, hpast, hrow⟩

/-! ### Requests without a trace -/

section

variable {s : Session} {c : Choice} {t t' : Tables} {st : Stmt} {ret : st.Ret}

theorem Stmt.Does.of_isSelect (h : st.Does s c t ret t') (hst : st.isSelect = true) : t' = t := by
  cases st with
  | selectTags | selectTimeSplits | selectTimeSplitTimers | selectTimeSplitData | selectTimers =>
      exact h.1
  | _ => cases hst

/-- A session of nobody writes nothing. -/
theorem Stmt.Does.of_nobody (h : st.Does s c t ret t') (hrole : s.role ≠ .authenticated) :
    t' = t := by
  have hno : ∀ u, s.mayWrite u = false := by
    intro u
    rw [Session.mayWrite, beq_false_of_ne hrole, Bool.false_and]
  have hnot : ∀ id, s.mayWriteTimers t id = false := by
    intro id
    simp [Session.mayWriteTimers, hno]
  cases st with
  | insertTag | insertTimeSplit =>
      obtain ⟨hmay, -⟩ := h
      rw [hno] at hmay
      cases hmay
  | updateTag | deleteTag | updateTimeSplit | deleteTimeSplit =>
      refine Eq.trans h ?_
      rw [setWhere_false fun r => by rw [hno, Bool.false_and]]
  | insertTimeSplitTimers values =>
      obtain ⟨-, -, hmay, rfl⟩ := h
      cases values with
      | nil => rw [show TimeSplitTimerValues.rows c.ids [] = [] from rfl, List.append_nil]
      | cons v values =>
          have hv := hmay v List.mem_cons_self
          rw [hnot] at hv
          cases hv
  | deleteTimeSplitTimers | insertTimesheet | updateTimesheet => exact absurd h.1 hrole
  | selectTags | selectTimeSplits | selectTimeSplitTimers | selectTimeSplitData | selectTimers =>
      exact h.1

end

/-- The statement of the request has left the database as it was. -/
def Quiet (l : Context J) (e : sql.Event) : Prop := l.user = none ∨ silent e = true

theorem exec_of_quiet {l : Context J} {past : List sql.Event} {st : Stmt}
    {k : sql.Res st → Program sql (Outcome J)} (h : Standing decode ⟨l, past, .call st k⟩)
    (c : Choice) (db : Db) (hquiet : Quiet l ⟨st, (st.exec l.session c db).1⟩) :
    (st.exec l.session c db).2 = db := by
  obtain ⟨dbc, hconn, hid, -⟩ := h.handler
  obtain ⟨e, he⟩ | ⟨ret, db', he, hdoes⟩ := Stmt.exec_cases hid.loggedIn c st db <;>
    rw [he] at hquiet ⊢
  rcases hquiet with hnobody | hselect
  · refine Db.ext (hdoes.of_nobody ?_)
    rw [l.user_eq hconn, Option.map_eq_none_iff] at hnobody
    rw [hid.session_eq, hnobody]
    exact fun h => by cases h
  · exact Db.ext (hdoes.of_isSelect hselect)

/-- The request has ended with an error. -/
def failed (t : Worker J) : Bool :=
  match t.prog with
  | .done (.error _) => true
  | _ => false

/-- The request may have written: it does not only read, somebody is logged in,
and it has not failed, or it writes twice. -/
def leavesTrace (t : Worker J) : Bool :=
  !t.loc.arrival.request.isRead && t.loc.user.isSome &&
    (t.loc.arrival.request.writesTwice || !failed t)

/-- What a request has asked that leaves no trace. -/
theorem quiet_of_not_leavesTrace {t : Worker J} (h : Ending decode t)
    (ht : leavesTrace t = false) : ∀ e ∈ t.past, Quiet t.loc e := by
  obtain ⟨l, past, p⟩ := t
  obtain ⟨e, s, -, -, rfl, -⟩ | ⟨dbc, -, hfollows⟩ := h
  · exact fun _ h => by cases h
  · cases hu : l.user with
    | none => exact fun _ _ => .inl hu
    | some u =>
        refine fun e he => .inr ?_
        have hread : l.arrival.request.isRead = true → l.arrival.request.writesTwice = false :=
          Request.not_writesTwice
        rw [leavesTrace, hu] at ht
        cases p with
        | call st k =>
            refine hfollows.1.2.1 (hread ?_) e he
            simpa [failed] using ht
        | done o =>
            rcases o with e' | reply
            · refine Ends.silent hfollows ?_ (.inr ⟨e', rfl⟩) e he
              cases hr : l.arrival.request.isRead with
              | true => exact hread hr
              | false => simpa [failed, hr] using ht
            · have hr : l.arrival.request.isRead = true := by simpa [failed] using ht
              exact Ends.silent hfollows (hread hr) (.inl hr) e he

/-- **Requests without a trace can be struck out.**  For every interleaving
there is one of the other requests alone that leaves the same database, with
the same answers to each of them: requests that read, requests of nobody, and
failed requests that do not write twice. -/
theorem silent_erasable (decode : String → Except String UserClaims)
    (acts : List (Act (Arrival J) Choice)) :
    ∃ acts', (service decode).run acts' initial =
      ⟨((service decode).run acts initial).shared,
        ((service decode).run acts initial).threads.filter leavesTrace⟩ := by
  let keep (i : ℕ) : Bool := ((service decode).run acts initial).threads[i]?.all leavesTrace
  obtain ⟨acts', h⟩ : ∃ acts', (service decode).run acts' ⟨initial.shared, sift keep []⟩ = _ :=
    System.exists_erased (P := Standing decode) (Q := Quiet) keep standing_arrive
      (fun _ _ _ _ hstand r => hstand.resume r)
      (fun _ _ _ _ c db hstand hquiet => exec_of_quiet hstand c db hquiet) acts initial
      (fun _ h => by cases h) fun i t hi hkeep => by
        refine quiet_of_not_leavesTrace (ending_run acts t (List.mem_of_getElem? hi)) ?_
        simpa only [keep, hi, Option.all_some] using hkeep
  refine ⟨acts', h.trans ?_⟩
  rw [sift_eq_filter (q := leavesTrace) fun i t hi => by simp only [keep, hi, Option.all_some]]

end Lockinspiel
