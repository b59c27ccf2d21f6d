/-
Lockinspiel/TimerAnswers.lean

Whether the timer that `post_timer` or `modify_timer` returns is in the
timesheet.

Both build their response from the body of the request.  `post_timer` has
inserted that row; `modify_timer` has updated the rows of the user at the start
time, of which there is one or none, and does not ask how many they were.  So
its response agrees with the table exactly if the user had a row at the start
time (`timer_answer_agrees`).
-/
import Lockinspiel.LatestTimer

namespace Lockinspiel

open Effects Sql

variable {J : Jiff} {decode : String → Except String UserClaims}

/-- The user has a row at the start time. -/
def HasRow (t : Tables) (u : Uuid) (startTime : ℤ) : Prop :=
  ∃ r ∈ t.timesheet, r.userId = u ∧ r.startTime = startTime - Timestamptz.epochMicros

/-- The user has a row that reads as the timer. -/
def HoldsTimer (t : Tables) (u : Uuid) (timer : Timer J) : Prop :=
  ∃ r ∈ t.timesheet, r.userId = u ∧ Timestamptz.fromSql J r.startTime = some timer.startTime ∧
    Timestamptz.fromSql J r.endTime = some timer.endTime ∧
    r.timeSplitTimer = timer.timeSplitTimer ∧ r.tags = timer.tags

/-- Answer and table agree: a timer that is answered is in the timesheet, and a
modification without a row to modify is an error. -/
def Agrees (u : Uuid) (request : Request J) (o : Outcome J) (t t' : Tables) : Prop :=
  (∀ timer, o = .ok (.timer timer) → HoldsTimer t' u timer) ∧
    ∀ body, request = .modifyTimer body → ¬ HasRow t u body.startTime → ∃ e, o = .error e

/-- The row of a body reads as the timer that is answered for it. -/
theorem holdsTimer_row (hJ : J.TimestampLaws) {body : TimerBody} {timer : InsertableTimer J}
    (hparse : body.parse J = some timer) {t : Tables} {u : Uuid}
    (hrow : body.entry.row u body.startTime ∈ t.timesheet) (data : TimeSplitData) :
    HoldsTimer t u (timer.written data) := by
  obtain ⟨startTime, hstart, hparse⟩ := Option.bind_eq_some_iff.mp hparse
  obtain ⟨endTime, hend, hparse⟩ := Option.bind_eq_some_iff.mp hparse
  obtain rfl := Option.some.inj hparse
  exact ⟨_, hrow, rfl, Timestamptz.fromSql_deserialize hJ hstart,
    Timestamptz.fromSql_deserialize hJ hend, rfl, rfl⟩

/-- A stored row that reads as the timer of a body stands at its start time. -/
theorem startTime_of_reads (hJ : J.TimestampLaws) {body : TimerBody} {timer : InsertableTimer J}
    (hparse : body.parse J = some timer) {r : TimesheetRow} (hrec : Recorded J r)
    (h : Timestamptz.fromSql J r.startTime = some timer.startTime) :
    r.startTime = body.startTime - Timestamptz.epochMicros := by
  obtain ⟨startTime, hstart, hback⟩ := hrec.startTime
  obtain rfl := Option.some.inj (h.symm.trans hstart)
  obtain ⟨startTime, hdeser, hparse⟩ := Option.bind_eq_some_iff.mp hparse
  obtain ⟨endTime, -, hparse⟩ := Option.bind_eq_some_iff.mp hparse
  obtain rfl := Option.some.inj hparse
  exact Option.some.inj (hback.symm.trans (Timestamptz.toSql_deserialize hJ hdeser))

/-- After a modification the timer is there exactly if a row was there
before. -/
theorem holdsTimer_modify_iff (hJ : J.TimestampLaws) {body : TimerBody}
    {timer : InsertableTimer J} (hparse : body.parse J = some timer) {t t' : Tables} {u : Uuid}
    (hrec : ∀ r ∈ t.timesheet, Recorded J r) (hwrites : Writes (J := J) u (.modifyTimer body) t t')
    (data : TimeSplitData) :
    HoldsTimer t' u (timer.written data) ↔ HasRow t u body.startTime := by
  have hrows : t'.timesheet = _ := hwrites
  constructor
  · rintro ⟨r, hr, hu, hstart, -⟩
    rw [hrows, mem_setWhere] at hr
    obtain ⟨r₀, hr₀, hp, -⟩ | ⟨hr, -⟩ := hr
    · rw [Bool.and_eq_true, beq_iff_eq, beq_iff_eq] at hp
      exact ⟨r₀, hr₀, hp⟩
    · exact ⟨r, hr, hu, startTime_of_reads hJ hparse (hrec r hr) hstart⟩
  · rintro ⟨r, hr, rfl, hstart⟩
    refine holdsTimer_row hJ hparse ?_ data
    rw [hrows, mem_setWhere]
    exact .inl ⟨r, hr, by rw [hstart, beq_self_eq_true, beq_self_eq_true]; rfl, rfl⟩

/-- **When answer and table agree.**  In every state that the service can reach,
for a request to write a timer that returns one: the timesheet holds the timer
afterwards, and no modification without a row is answered, exactly if the
request posts the timer or the user has a row at its start time. -/
theorem timer_answer_agrees (hJ : J.TimestampLaws) (decode : String → Except String UserClaims)
    (acts : List (Act (Arrival J) Choice)) (a : Arrival J) (body : TimerBody)
    (ha : a.request = .postTimer body ∨ a.request = .modifyTimer body) (u : Uuid)
    (hu : loggedInAs decode a = some u) (c : ℕ → Choice) (timer : Timer J)
    (h : (handle decode a c ((service decode).run acts initial).shared).1 = .ok (.timer timer)) :
    let db := ((service decode).run acts initial).shared
    Agrees u a.request (handle decode a c db).1 db.toTables (handle decode a c db).2.toTables ↔
      (a.request = .postTimer body ∨ HasRow db.toTables u body.startTime) := by
  intro db
  obtain ⟨e, he, -⟩ | ⟨v, t, data, hv, hparse, hok, -, hwrites⟩ :=
    handle_timerBody decode hJ ha c db
  · rw [h] at he
    cases he
  obtain rfl := Option.some.inj (hu.symm.trans hv)
  have hholds : HoldsTimer (handle decode a c db).2.toTables u (t.written data) ↔
      (a.request = .postTimer body ∨ HasRow db.toTables u body.startTime) := by
    obtain ha | ha := ha
    · rw [ha] at hwrites
      have hrows : (handle decode a c db).2.timesheet = _ := hwrites
      refine iff_of_true (holdsTimer_row hJ hparse ?_ data) (.inl ha)
      rw [hrows]
      exact List.mem_append_right _ (List.mem_singleton_self _)
    · rw [ha] at hwrites
      have hrec : ∀ r ∈ db.timesheet, Recorded J r := recorded_run hJ acts
      rw [holdsTimer_modify_iff hJ hparse hrec hwrites, ha]
      simp
  rw [← hholds, hok]
  constructor
  · intro hagrees
    exact hagrees.1 _ rfl
  · intro hrow
    refine ⟨fun timer' htimer => ?_, fun body' hbody hno => ?_⟩
    · cases htimer
      exact hrow
    · -- the request modifies, and the row it needs is there
      obtain hpost | hrow := hholds.mp hrow
      · rw [hpost] at hbody
        cases hbody
      · obtain ha | ha := ha
        · rw [ha] at hbody
          cases hbody
        · obtain rfl := Request.modifyTimer.inj (ha.symm.trans hbody)
          exact absurd hrow hno

/-- On the migrated database user 1 modifies a timer that was never posted: it
is answered, and the timesheet stays empty. -/
theorem timer_answer_without_row :
    let o := handle oneUser (byUser (.modifyTimer ⟨1, 0, 1500000000, []⟩)) (fun _ => {}) migrated
    o.1.toBool = true ∧ o.2.timesheet = [] ∧
      ¬ Agrees 1 (.modifyTimer ⟨1, 0, 1500000000, []⟩) o.1 migrated.toTables o.2.toTables := by
  intro o
  have hok : o.1.toBool = true := by decide
  refine ⟨hok, by decide, fun h => ?_⟩
  obtain ⟨e, he⟩ := h.2 _ rfl (fun ⟨r, hr, _⟩ => by cases hr)
  rw [he] at hok
  cases hok

/-- A timer that was posted agrees. -/
theorem timer_answer_agrees_post :
    let o := handle oneUser (byUser (.postTimer ⟨1, 0, 1500000000, []⟩)) (fun _ => {}) migrated
    Agrees 1 (.postTimer ⟨1, 0, 1500000000, []⟩) o.1 migrated.toTables o.2.toTables := by
  intro o
  have hok : o.1.toBool = true := by decide
  obtain ⟨e, he, -⟩ | ⟨u, t, data, -, -, h, -⟩ := handle_timerBody oneUser
    Jiff.reference_timestampLaws (a := byUser (.postTimer ⟨1, 0, 1500000000, []⟩)) (.inl rfl)
    (fun _ => {}) migrated
  · rw [show o.1 = _ from he] at hok
    cases hok
  · exact (timer_answer_agrees Jiff.reference_timestampLaws oneUser []
      (byUser (.postTimer ⟨1, 0, 1500000000, []⟩)) ⟨1, 0, 1500000000, []⟩ (.inl rfl) 1 (by decide)
      (fun _ => {}) (t.written data) h).mpr (.inl rfl)

end Lockinspiel
