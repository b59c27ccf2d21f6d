/-
Lockinspiel/Isolation.lean

Accounts are isolated from each other.

A row of `time_split` or `tag` is inserted or changed only in a session that
may write rows of its owner, and a row of `time_split_timer` only in one that
may write rows of the owner of its time split; by the login, such a session
belongs to a request with a valid token of that owner.  No handler checks
owners itself: the argument is about the policies alone, so it is the same for
all statements.

What `get_tags` and `get_time_splits` answer a user depends on the rows of that
user and of the default user only, so no request of anybody else changes it.
-/
import Lockinspiel.Evolves

namespace Lockinspiel

open Effects Sql

variable {J : Jiff} {decode : String → Except String UserClaims}

/-! ### What one statement writes -/

section

variable {s : Session} {c : Choice} {t t' : Tables} {st : Stmt} {ret : st.Ret}

theorem mem_new_setWhere {ρ : Type} {p : ρ → Bool} {f : ρ → ρ} {rows : List ρ} {r : ρ}
    (hr : r ∈ setWhere p f rows) (hnew : r ∉ rows) : ∃ r₀ ∈ rows, p r₀ = true ∧ f r₀ = r := by
  rcases mem_setWhere.mp hr with h | ⟨hr, -⟩
  · exact h
  · exact absurd hr hnew

/-- A new or changed time split is the session's own. -/
theorem Stmt.Does.mayWrite_timeSplit (h : st.Does s c t ret t') {r : TimeSplitRow}
    (hr : r ∈ t'.timeSplit) (hnew : r ∉ t.timeSplit) : s.mayWrite r.userId = true := by
  obtain heq | ⟨row, hrow, -, heq⟩ | ⟨id, f, heq, hf⟩ := h.timeSplit_cases <;> rw [heq] at hr
  · exact absurd hr hnew
  · rcases List.mem_append.mp hr with hr | hr
    · exact absurd hr hnew
    · rw [List.mem_singleton.mp hr]
      exact hrow
  · obtain ⟨r₀, -, hp, rfl⟩ := mem_new_setWhere hr hnew
    rw [Bool.and_eq_true] at hp
    rw [(hf r₀).2.1]
    exact hp.1

/-- A new or changed timer belongs to a time split of the session's own. -/
theorem Stmt.Does.mayWrite_timeSplitTimer (h : st.Does s c t ret t') {r : TimeSplitTimerRow}
    (hr : r ∈ t'.timeSplitTimer) (hnew : r ∉ t.timeSplitTimer) :
    s.mayWriteTimers t r.timeSplitId = true := by
  obtain heq | ⟨values, -, -, hw, heq⟩ | ⟨id, -, heq⟩ := h.timeSplitTimer_cases <;>
    rw [heq] at hr
  · exact absurd hr hnew
  · rcases List.mem_append.mp hr with hr | hr
    · exact absurd hr hnew
    · obtain ⟨n, hn, rfl⟩ := List.mem_mapIdx.mp hr
      exact hw _ (List.getElem_mem hn)
  · obtain ⟨r₀, -, hp, rfl⟩ := mem_new_setWhere hr hnew
    rw [Bool.and_eq_true] at hp
    exact hp.1

/-- A new or changed tag is the session's own. -/
theorem Stmt.Does.mayWrite_tag (h : st.Does s c t ret t') {r : TagRow}
    (hr : r ∈ t'.tag) (hnew : r ∉ t.tag) : s.mayWrite r.userId = true := by
  obtain heq | ⟨row, hrow, -, heq⟩ | ⟨id, f, heq, hf⟩ := h.tag_cases <;> rw [heq] at hr
  · exact absurd hr hnew
  · rcases List.mem_append.mp hr with hr | hr
    · exact absurd hr hnew
    · rw [List.mem_singleton.mp hr]
      exact hrow
  · obtain ⟨r₀, -, hp, rfl⟩ := mem_new_setWhere hr hnew
    rw [Bool.and_eq_true] at hp
    rw [(hf r₀).2.1]
    exact hp.1

/-- Every new or changed row of the three tables with owners is one that `W`
allows: a timer is owned by the owner of its time split. -/
structure WrittenBy (W : Uuid → Prop) (t t' : Tables) : Prop where
  timeSplit : ∀ r ∈ t'.timeSplit, r ∉ t.timeSplit → W r.userId
  timeSplitTimer : ∀ r ∈ t'.timeSplitTimer, r ∉ t.timeSplitTimer →
    ∃ u ∈ t'.timeSplit, u.id = r.timeSplitId ∧ W u.userId
  tag : ∀ r ∈ t'.tag, r ∉ t.tag → W r.userId

theorem WrittenBy.refl (W : Uuid → Prop) (t : Tables) : WrittenBy W t t :=
  ⟨fun _ hr hnew => absurd hr hnew, fun _ hr hnew => absurd hr hnew,
    fun _ hr hnew => absurd hr hnew⟩

theorem WrittenBy.trans {W : Uuid → Prop} {t'' : Tables} (h : WrittenBy W t t')
    (h' : WrittenBy W t' t'') (hev : Evolves t' t'') : WrittenBy W t t'' := by
  refine ⟨fun r hr hnew => ?_, fun r hr hnew => ?_, fun r hr hnew => ?_⟩
  · by_cases hr' : r ∈ t'.timeSplit
    · exact h.timeSplit r hr' hnew
    · exact h'.timeSplit r hr hr'
  · by_cases hr' : r ∈ t'.timeSplitTimer
    · obtain ⟨u, hu, hid, hW⟩ := h.timeSplitTimer r hr' hnew
      obtain ⟨u', hu', hid', huser, -⟩ := hev.timeSplit u hu
      exact ⟨u', hu', hid'.trans hid, huser ▸ hW⟩
    · exact h'.timeSplitTimer r hr hr'
  · by_cases hr' : r ∈ t'.tag
    · exact h.tag r hr' hnew
    · exact h'.tag r hr hr'

theorem Stmt.Does.writtenBy (h : st.Does s c t ret t') :
    WrittenBy (fun owner => s.mayWrite owner = true) t t' := by
  refine ⟨fun r => h.mayWrite_timeSplit, fun r hr hnew => ?_, fun r => h.mayWrite_tag⟩
  have hw := h.mayWrite_timeSplitTimer hr hnew
  rw [Session.mayWriteTimers, List.any_eq_true] at hw
  obtain ⟨u, hu, hw⟩ := hw
  rw [Bool.and_eq_true, beq_iff_eq] at hw
  obtain ⟨u', hu', hid, huser, -⟩ := h.evolves.timeSplit u hu
  exact ⟨u', hu', hid.trans hw.1, huser ▸ hw.2⟩

/-! ### What others are shown -/

/-- Tags of users the session may not write are shown as before. -/
theorem Stmt.Does.shownTags_eq (h : st.Does s c t ret t') {userIds : List Uuid}
    (hno : ∀ u ∈ userIds, s.mayWrite u = false) : shownTags t' userIds = shownTags t userIds := by
  have hnot : ∀ u, s.mayWrite u = true → userIds.contains u = false := by
    intro u hu
    rw [Bool.eq_false_iff]
    intro hmem
    rw [hno u (by simpa using hmem)] at hu
    cases hu
  rw [shownTags, shownTags]
  obtain heq | ⟨row, hrow, -, heq⟩ | ⟨id, f, heq, hf⟩ := h.tag_cases <;> rw [heq]
  · rw [List.filter_append, List.filter_singleton, hnot _ hrow]
    simp
  · refine filter_setWhere fun r _ hp => ?_
    rw [Bool.and_eq_true] at hp
    rw [(hf r).2.1, hnot _ hp.1]
    simp

/-- Time splits of a user the session may not write are shown as before. -/
theorem Stmt.Does.shownTimeSplits_eq (h : st.Does s c t ret t') {user : Uuid}
    (hno : s.mayWrite user = false) : shownTimeSplits t' user = shownTimeSplits t user := by
  have hnot : ∀ u, s.mayWrite u = true → (u == user) = false := by
    intro u hu
    rw [beq_eq_false_iff_ne]
    rintro rfl
    rw [hno] at hu
    cases hu
  rw [shownTimeSplits, shownTimeSplits]
  obtain heq | ⟨row, hrow, -, heq⟩ | ⟨id, f, heq, hf⟩ := h.timeSplit_cases <;> rw [heq]
  · rw [List.filter_append, List.filter_singleton, hnot _ hrow]
    simp
  · refine filter_setWhere fun r _ hp => ?_
    rw [Bool.and_eq_true] at hp
    rw [(hf r).2.1, hnot _ hp.1]
    simp

/-- Timers of time splits the session may not write are shown as before. -/
theorem Stmt.Does.shownTimers_eq (h : st.Does s c t ret t') {ids : List ℤ}
    (hno : ∀ id ∈ ids, s.mayWriteTimers t id = false) :
    shownTimers t' ids = shownTimers t ids := by
  have hnot : ∀ id, s.mayWriteTimers t id = true → ids.contains id = false := by
    intro id hid
    rw [Bool.eq_false_iff]
    intro hmem
    rw [hno id (by simpa using hmem)] at hid
    cases hid
  rw [shownTimers, shownTimers]
  obtain heq | ⟨values, -, -, hw, heq⟩ | ⟨id, -, heq⟩ := h.timeSplitTimer_cases <;> rw [heq]
  · rw [List.filter_append]
    refine (congrArg _ (List.filter_eq_nil_iff.mpr fun r hr => ?_)).trans (List.append_nil _)
    obtain ⟨n, hn, rfl⟩ := List.mem_mapIdx.mp hr
    rw [hnot _ (hw _ (List.getElem_mem hn)), Bool.and_false]
    exact Bool.false_ne_true
  · refine filter_setWhere fun r _ hp => ?_
    rw [Bool.and_eq_true] at hp
    simp only [TimeSplitTimerRow.setDeleted, hnot _ hp.1, Bool.and_false, and_self]

end

/-! ### Requests -/

/-- The request has a token that is valid for `owner`. -/
def AuthorizedBy (decode : String → Except String UserClaims) (a : Arrival J) (owner : Uuid) :
    Prop :=
  ∃ token claims, a.login.header = .bearer token ∧ decode token = .ok claims ∧ claims.sub = owner

/-- Only requests with a token of the owner are in a session that may write
their rows. -/
theorem Identified.authorizedBy {a : Arrival J} {dbc : DatabaseConnection} {s : Session}
    (h : Identified decode a.login.header dbc s) {owner : Uuid} (hw : s.mayWrite owner = true) :
    AuthorizedBy decode a owner := by
  obtain ⟨user, hu, hsub⟩ := h.mayWrite_iff.mp hw
  obtain ⟨token, hheader, hdecode⟩ := h.bearer hu
  exact ⟨token, user, hheader, hdecode, hsub⟩

/-- A step of the service writes only what its request is authorized for. -/
theorem step_writtenBy {cfg : ServiceState J} (hsound : ∀ t ∈ cfg.threads, Sound decode t)
    (i : ℕ) (c : Choice) (x : Worker J) (hx : cfg.threads[i]? = some x) :
    WrittenBy (AuthorizedBy decode x.loc.arrival) cfg.shared.toTables
      ((service decode).act cfg (.step i c)).shared.toTables := by
  obtain ⟨l, past, st, k, hi, hact⟩ | hact := (service decode).act_step_cases cfg i c
  · obtain rfl := Option.some.inj (hx.symm.trans hi)
    obtain ⟨dbc, hw, -⟩ := (hsound _ (List.mem_of_getElem? hi)).working
    rw [hact, System.answer]
    obtain ⟨e, h⟩ | ⟨ret, db', h, hdoes⟩ :=
      service_cases decode hw.loggedIn c st cfg.shared <;> rw [h]
    · exact .refl _ _
    · obtain ⟨h₁, h₂, h₃⟩ := hdoes.writtenBy
      refine ⟨fun r hr hnew => hw.identified.authorizedBy (h₁ r hr hnew), fun r hr hnew => ?_,
        fun r hr hnew => hw.identified.authorizedBy (h₃ r hr hnew)⟩
      obtain ⟨u, hu, hid, huw⟩ := h₂ r hr hnew
      exact ⟨u, hu, hid, hw.identified.authorizedBy huw⟩
  · rw [hact]
    exact .refl _ _

/-- A handler alone writes only what its session may write. -/
theorem runHandler_writtenBy {α : Type} {s : Session} (hs : s.LoggedIn) (c : ℕ → Choice)
    (h : Handler α) (db : Db) :
    Evolves db.toTables (runHandler s c h db).2.toTables ∧
      WrittenBy (fun owner => s.mayWrite owner = true) db.toTables
        (runHandler s c h db).2.toTables := by
  refine Program.run_invariant (I := fun db' => Evolves db.toTables db'.toTables ∧
    WrittenBy (fun owner => s.mayWrite owner = true) db.toTables db'.toTables) ?_ h.run c db
    ⟨.refl _, .refl _ _⟩
  rintro c st db' ⟨hev, hw⟩
  obtain ⟨e, h⟩ | ⟨ret, db'', h, hdoes⟩ := Stmt.exec_cases hs c st db' <;> rw [h]
  · exact ⟨hev, hw⟩
  · exact ⟨hev.trans hdoes.evolves, hw.trans hdoes.writtenBy hdoes.evolves⟩

/-- What a user is shown depends on rows the session may not write. -/
theorem runHandler_shown {α : Type} {s : Session} (hs : s.LoggedIn) (c : ℕ → Choice)
    (h : Handler α) (db : Db) {user : Uuid} (huser : s.mayWrite user = false)
    (hnil : s.mayWrite Uuid.nil = false) :
    let t := db.toTables
    let t' := (runHandler s c h db).2.toTables
    shownTags t' [user, Uuid.nil] = shownTags t [user, Uuid.nil] ∧
      shownTimeSplits t' user = shownTimeSplits t user ∧
      shownTimers t' ((shownTimeSplits t user).map TimeSplitRow.id) =
        shownTimers t ((shownTimeSplits t user).map TimeSplitRow.id) := by
  refine Program.run_invariant (I := fun db' =>
    shownTags db'.toTables [user, Uuid.nil] = shownTags db.toTables [user, Uuid.nil] ∧
      shownTimeSplits db'.toTables user = shownTimeSplits db.toTables user ∧
      shownTimers db'.toTables ((shownTimeSplits db.toTables user).map TimeSplitRow.id) =
        shownTimers db.toTables ((shownTimeSplits db.toTables user).map TimeSplitRow.id))
    ?_ h.run c db ⟨rfl, rfl, rfl⟩
  rintro c st db' ⟨htags, hsplits, htimers⟩
  obtain ⟨e, h⟩ | ⟨ret, db'', h, hdoes⟩ := Stmt.exec_cases hs c st db' <;> rw [h]
  · exact ⟨htags, hsplits, htimers⟩
  · refine ⟨(hdoes.shownTags_eq ?_).trans htags, (hdoes.shownTimeSplits_eq huser).trans hsplits,
      (hdoes.shownTimers_eq fun id hid => ?_).trans htimers⟩
    · intro u hu
      rcases List.mem_cons.mp hu with rfl | hu
      · exact huser
      · rw [List.mem_singleton.mp hu]
        exact hnil
    · -- the only time split with this id is one of `user`
      rw [← hsplits] at hid
      obtain ⟨r, hr, rfl⟩ := List.mem_map.mp hid
      obtain ⟨hr, hq⟩ := List.mem_filter.mp hr
      rw [Bool.and_eq_true, beq_iff_eq] at hq
      rw [Session.mayWriteTimers, List.any_eq_false]
      intro r' hr' hw
      rw [Bool.and_eq_true, beq_iff_eq] at hw
      have hsame := List.inj_on_of_nodup_map db'.keys.timeSplit hr' hr hw.1
      rw [hsame, hq.2, huser] at hw
      exact Bool.false_ne_true hw.2

/-- The answers of the readers depend on what is shown alone. -/
theorem runHandler_reader {s : Session} (hs : s.LoggedIn) (c : ℕ → Choice)
    {dbc : DatabaseConnection} {r : Request J} (hr : r = .getTags ∨ r = .getTimeSplits)
    {db db' : Db}
    (htags : shownTags db'.toTables [dbc.subject, Uuid.nil] =
      shownTags db.toTables [dbc.subject, Uuid.nil])
    (hsplits : shownTimeSplits db'.toTables dbc.subject = shownTimeSplits db.toTables dbc.subject)
    (htimers : shownTimers db'.toTables
        ((shownTimeSplits db.toTables dbc.subject).map TimeSplitRow.id) =
      shownTimers db.toTables ((shownTimeSplits db.toTables dbc.subject).map TimeSplitRow.id)) :
    (runHandler s c (handler dbc r) db').1 = (runHandler s c (handler dbc r) db).1 := by
  rcases hr with rfl | rfl
  · rw [handler, getTags, runHandler_query, runHandler_query, Stmt.exec_selectTags hs,
      Stmt.exec_selectTags hs, htags]
    cases (c 0).fails <;> rfl
  · rw [handler, getTimeSplits, runHandler_query, runHandler_query,
      Stmt.exec_selectTimeSplits hs, Stmt.exec_selectTimeSplits hs, hsplits]
    cases (c 0).fails with
    | true => rfl
    | false =>
        -- the second query depends on the ids of the first, not on their order
        have hids := (pick_perm (c 0).plan (shownTimeSplits db.toTables dbc.subject)).map
          TimeSplitRow.id
        simp only [Bool.false_eq_true, if_false]
        rw [runHandler_query, runHandler_query, Stmt.exec_selectTimeSplitTimers hs,
          Stmt.exec_selectTimeSplitTimers hs, shownTimers_congr _ hids, shownTimers_congr _ hids,
          htimers]
        cases (c 1).fails with
        | true => rfl
        | false =>
            simp only [Bool.false_eq_true, if_false, runHandler_orPanic]
            cases (orderBy TimeSplitTimerRow.orderIdx (pick (c 1).plan (shownTimers db.toTables
              ((shownTimeSplits db.toTables dbc.subject).map TimeSplitRow.id)))).mapM
              (TimeSplitTimer.ofRow (J := J)) with
            | none => rfl
            | some timers =>
                dsimp only
                cases groupTimers ((pick (c 0).plan
                  (shownTimeSplits db.toTables dbc.subject)).map TimeSplit.ofRow) timers <;> rfl

/-- A request changes nothing of what another user is shown, nor of what an
anonymous request is. -/
theorem handle_reader (hnil : ∀ token claims, decode token = .ok claims → claims.sub ≠ Uuid.nil)
    (a b : Arrival J) (c c' : ℕ → Choice) (db : Db)
    (hb : b.request = .getTags ∨ b.request = .getTimeSplits)
    (hne : loggedInAs decode a ≠ some ((loggedInAs decode b).getD Uuid.nil)) :
    (handle decode b c' (handle decode a c db).2).1 = (handle decode b c' db).1 := by
  obtain ⟨-, e, h⟩ | ⟨dbc, s, hid, hconn, h⟩ := handle_cases decode a
  · rw [h]
  obtain ⟨-, e', h'⟩ | ⟨dbc', s', hid', hconn', h'⟩ := handle_cases decode b
  · rw [h', h']
  have hsubject : dbc'.subject = (loggedInAs decode b).getD Uuid.nil := by
    rw [loggedInAs, hconn', DatabaseConnection.subject]
    cases h : dbc'.user <;> simp [h]
  -- the session of `a` may write neither the rows of `b` nor the shared ones
  have huser : s.mayWrite dbc'.subject = false := by
    rw [Bool.eq_false_iff, ne_eq, hid.mayWrite_iff]
    rintro ⟨user, hu, hsub⟩
    apply hne
    rw [← hsubject, ← hsub, loggedInAs, hconn]
    simp [hu]
  have hnil' : s.mayWrite Uuid.nil = false := by
    rw [Bool.eq_false_iff, ne_eq, hid.mayWrite_iff]
    rintro ⟨user, hu, hsub⟩
    obtain ⟨token, -, hdecode⟩ := hid.bearer hu
    exact hnil token user hdecode hsub
  obtain ⟨htags, hsplits, htimers⟩ :=
    runHandler_shown hid.loggedIn c (handler dbc a.request) db huser hnil'
  rw [h, h', h']
  exact runHandler_reader hid'.loggedIn c' hb htags hsplits htimers

/-- **Accounts are isolated.**  In every state the service can reach:

* whatever statement a request takes next, and whatever a request does alone,
  it inserts or changes rows only of an owner it has a valid token of;
* the owner of a row never changes, nor does the time split of a timer;
* a request leaves what `get_tags` and `get_time_splits` answer everybody else
  as it was.

It is assumed that no token is valid for the nil UUID. -/
theorem write_isolation (decode : String → Except String UserClaims)
    (hnil : ∀ token claims, decode token = .ok claims → claims.sub ≠ Uuid.nil)
    (acts : List (Act (Arrival J) Choice)) :
    let cfg := (service decode).run acts initial
    let t := cfg.shared.toTables
    (∀ i c x, cfg.threads[i]? = some x → WrittenBy (AuthorizedBy decode x.loc.arrival) t
      ((service decode).act cfg (.step i c)).shared.toTables) ∧
    (∀ (a : Arrival J) c, WrittenBy (AuthorizedBy decode a) t
      (handle decode a c cfg.shared).2.toTables) ∧
    (∀ acts', let t' := ((service decode).run acts' cfg).shared.toTables
      (∀ r ∈ t.timeSplit, ∀ r' ∈ t'.timeSplit, r'.id = r.id → r'.userId = r.userId) ∧
      (∀ r ∈ t.timeSplitTimer, ∀ r' ∈ t'.timeSplitTimer, r'.id = r.id →
        r'.timeSplitId = r.timeSplitId) ∧
      ∀ r ∈ t.tag, ∀ r' ∈ t'.tag, r'.id = r.id → r'.userId = r.userId) ∧
    ∀ (a b : Arrival J) c c', (b.request = .getTags ∨ b.request = .getTimeSplits) →
      loggedInAs decode a ≠ some ((loggedInAs decode b).getD Uuid.nil) →
      (handle decode b c' (handle decode a c cfg.shared).2).1 =
        (handle decode b c' cfg.shared).1 := by
  intro cfg t
  have hsound : ∀ x ∈ cfg.threads, Sound decode x := sound_initial acts
  refine ⟨fun i c x hx => step_writtenBy hsound i c x hx, fun a c => ?_, fun acts' => ?_,
    fun a b c c' => handle_reader hnil a b c c' cfg.shared⟩
  · obtain ⟨-, e, h⟩ | ⟨dbc, s, hid, -, h⟩ := handle_cases decode a <;> rw [h]
    · exact .refl _ _ -- the login has failed
    · obtain ⟨h₁, h₂, h₃⟩ := (runHandler_writtenBy hid.loggedIn c _ cfg.shared).2
      refine ⟨fun r hr hnew => hid.authorizedBy (h₁ r hr hnew), fun r hr hnew => ?_,
        fun r hr hnew => hid.authorizedBy (h₃ r hr hnew)⟩
      obtain ⟨u, hu, hid', hw⟩ := h₂ r hr hnew
      exact ⟨u, hu, hid', hid.authorizedBy hw⟩
  · intro t'
    have hev : Evolves t t' := evolves_run acts' cfg hsound
    have hkeys := ((service decode).run acts' cfg).shared.keys
    refine ⟨fun r hr r' hr' hid => ?_, fun r hr r' hr' hid => ?_, fun r hr r' hr' hid => ?_⟩
    · exact (hev.timeSplit.of_key hkeys.timeSplit And.left hr hr' hid).2.1
    · exact (hev.timeSplitTimer.of_key hkeys.timeSplitTimer TimeSplitTimerRow.Succ.id_eq hr hr'
        hid).timeSplitId_eq
    · exact (hev.tag.of_key hkeys.tag And.left hr hr' hid).2.1

/-- Two users: the second reads the same before and after the first has tried
to delete a time split. -/
theorem write_isolation_two_users :
    let decode : String → Except String UserClaims := fun token =>
      if token = "first" then .ok ⟨⟨"first"⟩, 0, 1⟩
      else if token = "second" then .ok ⟨⟨"second"⟩, 0, 2⟩
      else .error "unknown"
    let deletes : Arrival Jiff.reference :=
      ⟨⟨true, .bearer "first", fun _ => false⟩, ⟨.anon, none⟩, .deleteTimeSplit 1⟩
    let reads : Arrival Jiff.reference :=
      ⟨⟨true, .bearer "second", fun _ => false⟩, ⟨.anon, none⟩, .getTimeSplits⟩
    (handle decode reads (fun _ => {}) (handle decode deletes (fun _ => {}) migrated).2).1 =
      (handle decode reads (fun _ => {}) migrated).1 := by
  intro decode deletes reads
  refine (write_isolation decode ?_ []).2.2.2 deletes reads _ _ (.inr rfl) (by decide)
  intro token claims h
  simp only [decode] at h
  split at h
  · cases h
    decide
  · split at h
    · cases h
      decide
    · cases h

end Lockinspiel
