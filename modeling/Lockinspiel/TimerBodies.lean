/-
Lockinspiel/TimerBodies.lean

The JSON of the timers: what a client is answered can be sent again.

`Timer` and `InsertableTimer` are different types with different members, and a
client that modifies a timer sends back what it was answered.  Written as JSON,
every timer is read as the body of a request: the answer to a timer that is
written as its own body, and the one that `get_timers` answers as the body of
the last request that has written it (`timers_read_back`).  Sent to
`modify_timer`, such a body changes nothing (`timer_put_back`).
-/
import Lockinspiel.Lib.Serde
import Lockinspiel.Timers

namespace Lockinspiel

open Effects Sql Runs Serde

variable {J : Jiff} {decode : String → Except String UserClaims}

/-! ### JSON -/

/-- `Option<i32>`. -/
def optionI32 : Codec (Option ℤ) := (Codec.int 31).option fun _ h => nomatch h.1

namespace TimerBody

/-- The members of an `InsertableTimer`. -/
def members : Members (ℤ × ℤ × ℤ × List ℤ × Unit) :=
  .cons (.required "time_split_timer" (.int 31)) <|
    .cons (.required "start_time" (.int 63)) <|
    .cons (.required "end_time" (.int 63)) <|
    .cons (.required "tags" (.list (.int 31))) .nil

theorem nodup_names : members.names.Nodup := by decide

/-- `Deserialize for InsertableTimer`, before the times are parsed. -/
def json : Codec TimerBody := (Codec.record members nodup_names).equiv
  { toFun := fun a => ⟨a.1, a.2.1, a.2.2.1, a.2.2.2.1⟩
    invFun := fun b => (b.timeSplitTimer, b.startTime, b.endTime, b.tags, ())
    left_inv := fun _ => rfl
    right_inv := fun _ => rfl }

end TimerBody

namespace Timer

/-- The members of a `Timer`. -/
def members (t : Timer J) : List (String × Json) :=
  [("time_split_timer", optionI32.encode t.timeSplitTimer),
    ("start_time", .number (serialize J t.startTime)),
    ("end_time", .number (serialize J t.endTime)),
    ("tags", optionI32.list.encode t.tags),
    ("time_split_data", .object
      [("time_split_id", .number t.timeSplitData.timeSplitId),
        ("work", .bool t.timeSplitData.work)])]

/-- `Serialize for Timer`. -/
def json (t : Timer J) : Json := .object t.members

/-- A timer that shows a body is read as it, where it is one at all: there is one
member more than a body has. -/
theorem Shows.decode_json {t : Timer J} {body : TimerBody} (h : t.Shows body.startTime body.entry)
    (hvalid : TimerBody.json.Valid body) : TimerBody.json.decode t.json = some body := by
  have hnames : (t.members.map Prod.fst).Nodup := by
    show ["time_split_timer", "start_time", "end_time", "tags", "time_split_data"].Nodup
    decide
  rw [TimerBody.json.decode_iff]
  refine ⟨_, TimerBody.members.shows_of_mem hnames hvalid ?_⟩
  have htimer : optionI32.encode t.timeSplitTimer = .number body.timeSplitTimer := by
    rw [h.timeSplitTimer]
    rfl
  have htags : optionI32.list.encode t.tags = (Codec.int 31).list.encode body.tags := by
    rw [h.tags]
    exact congrArg Json.array (List.map_map ..)
  show ∀ m ∈ [("time_split_timer", Json.number body.timeSplitTimer),
    ("start_time", .number body.startTime), ("end_time", .number body.endTime),
    ("tags", (Codec.int 31).list.encode body.tags)], m ∈ t.members
  rw [members, htimer, htags, h.startTime, h.endTime]
  simp [TimerBody.entry]

end Timer

/-- The body of the request was read from some JSON. -/
def Request.Received : Request J → Prop
  | .postTimer body | .modifyTimer body => ∃ j, TimerBody.json.decode j = some body
  | _ => True

theorem TimerBody.valid_of_decode {j : Json} {body : TimerBody}
    (h : TimerBody.json.decode j = some body) : TimerBody.json.Valid body :=
  TimerBody.json.valid_of_shows body j ((TimerBody.json.decode_iff j body).mp h)

/-! ### The last write -/

/-- The request has ended, with the body written for the user. -/
structure Sent (v : Context J × Outcome J) (u : Uuid) (body : TimerBody) : Prop where
  user : v.1.user = some u
  request : v.1.arrival.request = .postTimer body ∨ v.1.arrival.request = .modifyTimer body
  reply : ∃ reply, v.2 = .ok reply

namespace TimerBook

/-- An entry was written by the request, or was there and is of another key. -/
theorem record_cases {b : TimerBook} {v : Context J × Outcome J} {k : Uuid × ℤ} {e : Entry}
    (h : b.record v k = some e) :
    (∃ body, Sent v k.1 body ∧ body.startTime = k.2 ∧ body.entry = e) ∨
      (b k = some e ∧ ∀ body, Sent v k.1 body → body.startTime ≠ k.2) := by
  obtain ⟨l, o⟩ := v
  by_cases hsent : ∃ u body, Sent (l, o) u body
  · obtain ⟨u, body, hsent⟩ := hsent
    obtain ⟨hu, hrequest, reply, rfl⟩ := hsent
    have hrecord : ∃ o, (∀ e ∈ o, e = body.entry) ∧
        b.record (l, .ok reply) = Function.update b (u, body.startTime) o := by
      rw [record]
      obtain hrequest | hrequest := hrequest <;> simp only at hu hrequest <;>
        simp only [hu, hrequest]
      · exact ⟨_, fun e he => (Option.some.inj he).symm, rfl⟩
      · refine ⟨_, fun e he => ?_, rfl⟩
        obtain ⟨-, -, rfl⟩ := Option.map_eq_some_iff.mp he
        rfl
    obtain ⟨o, ho, hrecord⟩ := hrecord
    rw [hrecord] at h
    by_cases hk : k = (u, body.startTime)
    · subst hk
      rw [Function.update_self] at h
      exact .inl ⟨body, ⟨hu, hrequest, reply, rfl⟩, rfl, (ho e h).symm⟩
    · rw [Function.update_of_ne hk] at h
      refine .inr ⟨h, fun body' hsent hstart => hk ?_⟩
      obtain rfl : u = k.1 := Option.some.inj (hu.symm.trans hsent.user)
      have hbody : body = body' := by
        obtain hrequest | hrequest := hrequest <;>
        · have hrequest' := hsent.request
          rw [show l.arrival.request = _ from hrequest] at hrequest'
          simpa using hrequest'
      rw [hbody, hstart]
  · have hrecord : b.record (l, o) = b := by
      rw [record]
      split
      · next body reply u hrequest ho hu =>
          exact absurd ⟨u, body, hu, .inl hrequest, reply, ho⟩ hsent
      · next body reply u hrequest ho hu =>
          exact absurd ⟨u, body, hu, .inr hrequest, reply, ho⟩ hsent
      · rfl
    rw [hrecord] at h
    exact .inr ⟨h, fun body hbody => absurd ⟨k.1, body, hbody⟩ hsent⟩

/-- An entry is the body that was written last under its key. -/
theorem last_sent {h : List (Context J × Outcome J)} {k : Uuid × ℤ} {e : Entry}
    (he : h.foldl record empty k = some e) :
    ∃ earlier v later body, h = earlier ++ v :: later ∧ Sent v k.1 body ∧
      body.startTime = k.2 ∧ body.entry = e ∧
      ∀ w ∈ later, ∀ body', Sent w k.1 body' → body'.startTime ≠ k.2 := by
  induction h using List.reverseRecOn with
  | nil => cases he
  | append_singleton h v ih =>
      rw [List.foldl_append, List.foldl_cons, List.foldl_nil] at he
      obtain ⟨body, hsent, hstart, hentry⟩ | ⟨he, hother⟩ := record_cases he
      · exact ⟨h, v, [], body, rfl, hsent, hstart, hentry, fun _ hw => by cases hw⟩
      · obtain ⟨earlier, w, later, body, rfl, hsent, hstart, hentry, hlater⟩ := ih he
        refine ⟨earlier, w, later ++ [v], body, by simp, hsent, hstart, hentry, ?_⟩
        intro w' hw'
        rcases List.mem_append.mp hw' with hw' | hw'
        · exact hlater w' hw'
        · rw [List.mem_singleton.mp hw']
          exact hother

end TimerBook

/-! ### Every answer of every run -/

section

variable {acts : List (Act (Arrival J) Choice)}

theorem arrive_of_thread : ∀ t ∈ ((service decode).run acts initial).threads,
    .arrive t.loc.arrival ∈ acts := by
  refine System.exec_invariant (P := fun t => .arrive t.loc.arrival ∈ acts) acts ?_
    (fun _ _ _ _ _ _ h => h) initial fun _ h => by cases h
  intro a ha
  rw [service_start, arrival_arrive]
  exact ha

/-- What ends has arrived. -/
theorem received_of_history (hacts : ∀ a, .arrive a ∈ acts → a.request.Received) :
    ∀ v ∈ (service decode).history acts initial, v.1.arrival.request.Received := by
  intro v hv
  have hended : v ∈ System.finished ((service decode).run acts initial) :=
    (System.history_perm acts initial).mem_iff.mpr (List.mem_append_right _ hv)
  obtain ⟨⟨l, past, o | _⟩, ht, hv⟩ := List.mem_filterMap.mp hended
  · cases hv
    exact hacts _ (arrive_of_thread _ ht)
  · cases hv

/-- The body that was written last under the key of an entry, which any timer that
shows the entry is read as. -/
theorem exists_sent {h : List (Context J × Outcome J)}
    (hreceived : ∀ v ∈ h, v.1.arrival.request.Received) {k : Uuid × ℤ} {e : Entry}
    (he : h.foldl TimerBook.record TimerBook.empty k = some e) {t : Timer J}
    (ht : t.Shows k.2 e) :
    ∃ earlier v later body, h = earlier ++ v :: later ∧ Sent v k.1 body ∧
      TimerBody.json.decode t.json = some body ∧ body.startTime = k.2 ∧ body.entry = e ∧
      ∀ w ∈ later, ∀ body', Sent w k.1 body' → body'.startTime ≠ body.startTime := by
  obtain ⟨earlier, v, later, body, rfl, hsent, hstart, rfl, hlater⟩ := TimerBook.last_sent he
  have hvalid : TimerBody.json.Valid body := by
    have hv := hreceived v (List.mem_append_right _ List.mem_cons_self)
    obtain hrequest | hrequest := hsent.request <;>
    · rw [hrequest] at hv
      obtain ⟨j, hj⟩ := hv
      exact TimerBody.valid_of_decode hj
  rw [← hstart] at ht hlater
  exact ⟨earlier, v, later, body, rfl, hsent, ht.decode_json hvalid, hstart, rfl, hlater⟩

end

/-- **Timers are read back.**  In every interleaving of requests whose bodies were
read from JSON, each at the moment at which it ends: a timer that was posted or
modified is answered as its own body; and the timer that `get_timers` answers is
the body of a request that has ended before, of the user who asks if anybody is
logged in, and the last one of that request's user with its start time. -/
theorem timers_read_back (hJ : J.TimestampLaws) (decode : String → Except String UserClaims)
    (acts : List (Act (Arrival J) Choice))
    (hacts : ∀ a, .arrive a ∈ acts → a.request.Received) :
    let h := (service decode).history acts initial
    (System.finished ((service decode).run acts initial)).Perm h ∧
      ∀ before l reply after, h = before ++ (l, .ok reply) :: after →
        (∀ body, l.arrival.request = .postTimer body ∨ l.arrival.request = .modifyTimer body →
          ∃ t, reply = .timer t ∧ TimerBody.json.decode t.json = some body) ∧
        (l.arrival.request = .getTimers → ∃ timers, reply = .timers timers ∧
          ∀ t ∈ timers, ∃ u earlier v later body, before = earlier ++ v :: later ∧
            Sent v u body ∧ (∀ w, l.user = some w → w = u) ∧
            TimerBody.json.decode t.json = some body ∧
            ∀ w ∈ later, ∀ body', Sent w u body' → body'.startTime ≠ body.startTime) := by
  intro h
  obtain ⟨hperm, -, hallowed⟩ := timersAre_run decode hJ acts
  have hreceived : ∀ v ∈ h, v.1.arrival.request.Received := received_of_history hacts
  refine ⟨hperm, fun before l reply after hsplit => ⟨fun body hrequest => ?_, fun hrequest => ?_⟩⟩
  · have hv := hreceived (l, .ok reply) (hsplit ▸ List.mem_append_right _ List.mem_cons_self)
    have hallows := hallowed before _ after hsplit
    rw [TimerBook.Allows] at hallows
    obtain hrequest | hrequest := hrequest <;> simp only [hrequest] at hallows hv
    · obtain ⟨j, hj⟩ := hv
      obtain ⟨-, t, -, rfl, hshows, -⟩ := hallows
      exact ⟨t, rfl, hshows.decode_json (TimerBody.valid_of_decode hj)⟩
    · obtain ⟨j, hj⟩ := hv
      obtain ⟨-, t, -, rfl, hshows⟩ := hallows
      exact ⟨t, rfl, hshows.decode_json (TimerBody.valid_of_decode hj)⟩
  · have hallows := hallowed before _ after hsplit
    rw [TimerBook.Allows] at hallows
    simp only [hrequest] at hallows
    obtain ⟨timers, rfl, -, hread⟩ := hallows
    refine ⟨timers, rfl, fun t ht => ?_⟩
    obtain ⟨u, startTime, e, he, hu, hshows, -⟩ := hread t ht
    obtain ⟨earlier, v, later, body, hbefore, hsent, hdecode, -, -, hlater⟩ :=
      exists_sent (fun v hv => hreceived v (hsplit ▸ List.mem_append_left _ hv)) he hshows
    exact ⟨u, earlier, v, later, body, hbefore, hsent, hu, hdecode, hlater⟩

/-- User 1 posts a timer and gets it. -/
def postedAndRead : List (Act (Arrival Jiff.reference) Choice) :=
  [.arrive (byUser (.postTimer ⟨1, 0, 1500000000, [7]⟩)), .step 0 {}, .step 0 {},
    .arrive (byUser .getTimers), .step 1 {}]

theorem received_postedAndRead : ∀ a, .arrive a ∈ postedAndRead → a.request.Received := by
  intro a ha
  simp only [postedAndRead, List.mem_cons, List.not_mem_nil, Act.arrive.injEq, reduceCtorEq,
    or_false, false_or] at ha
  rcases ha with rfl | rfl
  · exact ⟨TimerBody.json.encode ⟨1, 0, 1500000000, [7]⟩, rfl⟩
  · trivial

theorem timers_read_back_posted :
    ∃ before l timers, (service oneUser).history postedAndRead initial =
        before ++ [(l, .ok (.timers timers))] ∧ timers.length = 1 ∧
      ∀ t ∈ timers, ∃ u body, TimerBody.json.decode t.json = some body ∧
        ∃ v ∈ before, Sent v u body := by
  have hsplit : (service oneUser).history postedAndRead initial =
      [_] ++ (_, .ok (.timers [_])) :: [] := rfl
  obtain ⟨-, h⟩ := timers_read_back Jiff.reference_timestampLaws oneUser postedAndRead
    received_postedAndRead
  obtain ⟨timers, htimers, hread⟩ := (h _ _ _ _ hsplit).2 rfl
  obtain rfl := Reply.timers.inj htimers
  refine ⟨_, _, _, hsplit, rfl, fun t ht => ?_⟩
  obtain ⟨u, earlier, v, later, body, hbefore, hsent, -, hdecode, -⟩ := hread t ht
  exact ⟨u, body, hdecode, v, hbefore ▸ List.mem_append_right _ List.mem_cons_self, hsent⟩

/-! ### Timers that are sent back -/

section

variable {db : Db} {u : Uuid} {c : ℕ → Choice} {t : Timer J}

/-- What `get_timers` answers to a user was read off a row of theirs and a live
timer. -/
theorem exists_row_of_getTimers {g : Arrival J} (hg : g.request = .getTimers)
    (hu : loggedInAs decode g = some u) {timers : List (Timer J)}
    (h : (handle decode g c db).1 = .ok (.timers timers)) (ht : t ∈ timers) :
    ∃ p, Timer.ofRow p = some t ∧ p ∈ posted db.toTables u ∧ p.2.deleted = false := by
  obtain ⟨dbc, s, hid, hsub, hhandle⟩ := handle_of_loggedIn hu
  rw [hhandle, hg] at h
  have hrun : runHandler s c (getTimers dbc) db =
      (.ok (.timers timers), (runHandler s c (getTimers dbc) db).2) := Prod.ext h rfl
  obtain ⟨rows, db₁, hdoes, hrest⟩ := runHandler_query_ok hid.loggedIn hrun
  obtain ⟨timers', hread, hrest⟩ := runHandler_orPanic_ok hrest
  cases hrest
  obtain ⟨p, hp, hpt⟩ := exists_of_mem_mapM hread ht
  rw [hdoes.2] at hp
  obtain ⟨hrow, htimer, hid⟩ := mem_join.mp (mem_pick.mp (mem_orderBy.mp (List.mem_of_mem_take hp)))
  obtain ⟨htimer, hlive⟩ := List.mem_filter.mp htimer
  rw [hsub] at hrow
  exact ⟨p, hpt, mem_posted.mpr ⟨hrow, htimer, hid⟩, by simpa using hlive⟩

/-- A timer that was read off the row of a body is the one that is answered when
the body is written. -/
theorem written_of_ofRow (hJ : J.TimestampLaws) {body : TimerBody} {timer : InsertableTimer J}
    (hparse : body.parse J = some timer) {row : TimeSplitTimerRow}
    (h : Timer.ofRow (body.entry.row u body.startTime, row) = some t) :
    t = timer.written ⟨row.timeSplitId, row.work⟩ := by
  obtain ⟨hstart, hend, htimer, htags⟩ := parsed_of_parse hparse
  have hstart' : Timestamptz.fromSql J (body.entry.row u body.startTime).startTime =
      some timer.startTime := Timestamptz.fromSql_deserialize hJ hstart
  have hend' : Timestamptz.fromSql J (body.entry.row u body.startTime).endTime =
      some timer.endTime := Timestamptz.fromSql_deserialize hJ hend
  rw [Timer.ofRow, hstart', hend'] at h
  cases h
  rw [InsertableTimer.written, htimer, htags]
  rfl

/-- An entry that is written as it is changes no row. -/
theorem TimersAre.setWhere_eq_self {b : TimerBook} (h : TimersAre J db b) {body : TimerBody}
    (he : b (u, body.startTime) = some body.entry) :
    setWhere (fun r => r.userId == u && r.startTime == body.startTime - Timestamptz.epochMicros)
      (fun r => body.entry.row r.userId body.startTime) db.timesheet = db.timesheet := by
  refine Sql.setWhere_eq_self.mpr fun r hr hp => ?_
  obtain ⟨⟨v, startTime⟩, e, he', rfl⟩ := (h.rows r).mp hr
  rw [Bool.and_eq_true, beq_iff_eq, beq_iff_eq] at hp
  obtain rfl : v = u := hp.1
  obtain rfl : startTime = body.startTime := sub_left_inj.mp hp.2
  obtain rfl := Option.some.inj (he.symm.trans he')
  rfl

end

/-- **A timer can be put back.**  In every state that the service can reach by
requests whose bodies were read from JSON, a timer that `get_timers` answers to a
user is read as a body, and a request of the user with this body changes nothing,
whatever fails in it: sent to `modify_timer` it fails or is answered the same
timer, and sent to `post_timer` it fails. -/
theorem timer_put_back (hJ : J.TimestampLaws) (decode : String → Except String UserClaims)
    (acts : List (Act (Arrival J) Choice))
    (hacts : ∀ a, .arrive a ∈ acts → a.request.Received) (g m : Arrival J) (u : Uuid)
    (hg : g.request = .getTimers) (hgu : loggedInAs decode g = some u)
    (hmu : loggedInAs decode m = some u) (c c' : ℕ → Choice) (timers : List (Timer J)) :
    let db := ((service decode).run acts initial).shared
    (handle decode g c db).1 = .ok (.timers timers) → ∀ t ∈ timers,
      ∃ body, TimerBody.json.decode t.json = some body ∧
        (m.request = .modifyTimer body → (handle decode m c' db).2 = db ∧
          ((∃ e, (handle decode m c' db).1 = .error e) ∨
            (handle decode m c' db).1 = .ok (.timer t))) ∧
        (m.request = .postTimer body → (handle decode m c' db).2 = db ∧
          ∃ e, (handle decode m c' db).1 = .error e) := by
  intro db hget t ht
  obtain ⟨-, hbook, -⟩ := timersAre_run decode hJ acts
  obtain ⟨⟨r, row⟩, hrow, hposted, hlive⟩ := exists_row_of_getTimers hg hgu hget ht
  obtain ⟨hr, hrowmem, hid⟩ := mem_posted.mp hposted
  obtain ⟨hr, hru⟩ := List.mem_filter.mp hr
  obtain ⟨⟨v, startTime⟩, e, he, rfl⟩ := (hbook.rows r).mp hr
  obtain rfl : v = u := by simpa [TimerBook.row, Entry.row] using hru
  obtain ⟨-, -, -, body, -, -, hdecode, rfl, rfl, -⟩ :=
    exists_sent (received_of_history hacts) he (hbook.shows hJ he hrow)
  obtain ⟨dbc, s, hid', hsub, hhandle⟩ := handle_of_loggedIn hmu
  refine ⟨body, hdecode, fun hm => ?_, fun hm => ?_⟩
  · rw [hhandle, hm]
    rcases hrun : runHandler s c' (handler dbc (.modifyTimer body)) db with ⟨o, db'⟩
    obtain ⟨e, rfl, rfl⟩ | ⟨user, timer, row', hu, hparse, rfl, hlive', hwrites, hframe⟩ :=
      runHandler_timerBody_row hJ hid'.loggedIn (.inr rfl) hrun
    · exact ⟨rfl, .inl ⟨e, rfl⟩⟩
    · obtain rfl : user.sub = v := by simpa [hu] using hsub
      have hsame : db'.timesheet = db.timesheet :=
        Eq.trans hwrites (hbook.setWhere_eq_self he)
      refine ⟨Db.ext (by rw [hframe, hsame]), .inr ?_⟩
      -- the same timer was looked up
      obtain rfl : row' = row := List.inj_on_of_nodup_map db.keys.timeSplitTimer hlive'.1 hrowmem
        (hlive'.2.1.trans (Option.some.inj hid))
      rw [written_of_ofRow hJ hparse hrow]
  · rw [hhandle, hm]
    rcases hrun : runHandler s c' (handler dbc (.postTimer body)) db with ⟨o, db'⟩
    obtain ⟨e, rfl, rfl⟩ | ⟨user, timer, row', hu, hparse, rfl, hlive', hwrites, hframe⟩ :=
      runHandler_timerBody_row hJ hid'.loggedIn (.inl rfl) hrun
    · exact ⟨rfl, e, rfl⟩
    · -- the key is taken
      obtain rfl : user.sub = v := by simpa [hu] using hsub
      obtain ⟨-, habsent⟩ := hbook.post hparse hwrites
      cases he.symm.trans habsent

/-- User 1 sends back what they posted. -/
theorem timer_put_back_posted :
    let db := ((service oneUser).run postedAndRead initial).shared
    let m := byUser (.modifyTimer ⟨1, 0, 1500000000, [7]⟩)
    ∃ t, (handle oneUser (byUser .getTimers) (fun _ => {}) db).1 = .ok (.timers [t]) ∧
      ∃ body, TimerBody.json.decode t.json = some body ∧
        (m.request = .modifyTimer body → (handle oneUser m (fun _ => {}) db).2 = db) := by
  intro db m
  have hget : (handle oneUser (byUser .getTimers) (fun _ => {}) db).1 = .ok (.timers [_]) := rfl
  obtain ⟨body, hdecode, hmodify, -⟩ := timer_put_back Jiff.reference_timestampLaws oneUser
    postedAndRead received_postedAndRead (byUser .getTimers) m 1 rfl rfl rfl _ (fun _ => {}) _ hget
    _ (List.mem_singleton_self _)
  exact ⟨_, hget, body, hdecode, fun hm => (hmodify hm).1⟩

end Lockinspiel
