/-
Lockinspiel/Histories.lean

What the clients of the timekeeper service see of a run: its requests with
their outcomes, in the order in which they end.

`Standing` is what every request at work satisfies: its program is what its
handler has become after the answers it got.  `refines_history` is the rule of
`Lib/History.lean` for the service: it is enough to look at the statements that
a request asks, since a request that ends where it arrives ends with an error.
-/
import Lockinspiel.Lib.History
import Lockinspiel.Evolves

namespace Lockinspiel

open Effects Sql Runs

variable {J : Jiff} {decode : String → Except String UserClaims}

/-! ### Requests at work -/

/-- The user a request is logged in as. -/
def Context.user (l : Context J) : Option Uuid :=
  (l.connection.bind DatabaseConnection.user).map UserClaims.sub

/-- The request is what its handler has become. -/
structure Standing (decode : String → Except String UserClaims) (t : Worker J) : Prop where
  loc : t.loc = (arrive decode t.loc.arrival).loc
  after : Program.After (arrive decode t.loc.arrival).prog t.past t.prog

theorem arrival_arrive (a : Arrival J) : (arrive decode a).loc.arrival = a := by
  rw [arrive]
  split <;> rfl

theorem standing_arrive (a : Arrival J) : Standing decode (arrive decode a) where
  loc := by rw [arrival_arrive]
  after := by
    rw [arrival_arrive, arrive_past]
    exact .start

section

variable {l : Context J} {past : List sql.Event} {st : Stmt}
  {k : sql.Res st → Program sql (Outcome J)}

theorem Standing.resume (h : Standing decode ⟨l, past, .call st k⟩) (r : sql.Res st) :
    Standing decode (System.resume l past st k r) :=
  ⟨h.loc, h.after.answer r⟩

/-- A request that asks a statement has logged in. -/
theorem Standing.handler (h : Standing decode ⟨l, past, .call st k⟩) :
    ∃ dbc, l.connection = some dbc ∧ Identified decode l.arrival.login.header dbc l.session ∧
      Program.After (handler dbc l.arrival.request).run past (.call st k) := by
  have hloc := h.loc
  have hafter := h.after
  obtain ⟨e, s, harrive⟩ | ⟨dbc, s, harrive, hid⟩ := arrive_cases decode l.arrival
  · rw [harrive] at hafter
    cases hafter.of_done.2
  · rw [harrive] at hafter hloc
    change l = _ at hloc
    refine ⟨dbc, ?_, ?_, hafter⟩ <;> rw [hloc]
    exact hid

theorem Standing.asks (h : Standing decode ⟨l, past, .call st k⟩) :
    ∃ dbc, l.connection = some dbc ∧ l.session.LoggedIn ∧
      Asks dbc l.arrival.request past st := by
  obtain ⟨dbc, hconn, hid, hafter⟩ := h.handler
  exact ⟨dbc, hconn, hid.loggedIn, (hafter.follows (handler_follows dbc l.arrival.request)).1⟩

theorem Context.user_eq {dbc : DatabaseConnection} (h : l.connection = some dbc) :
    l.user = dbc.user.map UserClaims.sub := by
  rw [Context.user, h]
  rfl

theorem DatabaseConnection.subject_eq_getD (dbc : DatabaseConnection) :
    dbc.subject = (dbc.user.map UserClaims.sub).getD Uuid.nil := by
  rw [subject]
  cases dbc.user <;> rfl

/-- A session may write the rows of its user. -/
theorem Identified.mayWrite_user {dbc : DatabaseConnection}
    (hid : Identified decode l.arrival.login.header dbc l.session)
    (h : l.connection = some dbc) (owner : Uuid) :
    l.session.mayWrite owner = true ↔ l.user = some owner := by
  rw [hid.mayWrite_iff, l.user_eq h, Option.map_eq_some_iff]

end

/-! ### Requests that end -/

/-- A handler that asks nothing ends with an error. -/
theorem error_of_handler {dbc : DatabaseConnection} {r : Request J} {o : Outcome J}
    (h : (handler dbc r).run = .done o) : ∃ e, o = .error e := by
  cases r with
  | createTag tag =>
      rw [handler, createTag] at h
      cases hu : dbc.user <;> rw [hu] at h <;> cases h
      exact ⟨_, rfl⟩
  | createTimeSplit body =>
      rw [handler, createTimeSplit] at h
      cases hu : dbc.user <;> rw [hu] at h <;> cases h
      exact ⟨_, rfl⟩
  | postTimer body =>
      rw [handler] at h
      cases hparse : body.parse J <;> rw [hparse] at h
      · cases h
        exact ⟨_, rfl⟩
      · dsimp only at h
        rw [postTimer, writeTimer] at h
        cases hu : dbc.user <;> rw [hu] at h <;> cases h
        exact ⟨_, rfl⟩
  | modifyTimer body =>
      rw [handler] at h
      cases hparse : body.parse J <;> rw [hparse] at h
      · cases h
        exact ⟨_, rfl⟩
      · dsimp only at h
        rw [modifyTimer, writeTimer] at h
        cases hu : dbc.user <;> rw [hu] at h <;> cases h
        exact ⟨_, rfl⟩
  | getTags | modifyTag | deleteTag | getTimeSplits | modifyTimeSplit | deleteTimeSplit
  | getTimers => cases h

/-- A request that ends where it arrives ends with an error. -/
theorem error_of_arrive {a : Arrival J} {v : Context J × Outcome J}
    (h : v ∈ (arrive decode a).ended) : ∃ e, v.2 = .error e := by
  obtain ⟨e, s, harrive⟩ | ⟨dbc, s, harrive, -⟩ := arrive_cases decode a <;> rw [harrive] at h
  · cases h
    exact ⟨_, rfl⟩
  · cases hrun : (handler dbc a.request).run with
    | done o =>
        rw [hrun] at h
        cases h
        exact error_of_handler hrun
    | call st k =>
        rw [hrun] at h
        cases h

/-- **Linearization**, for the service over the migrated database: an abstract
state that ignores errors and follows every statement. -/
theorem refines_history {β : Type} {R : Db → β → Prop} {record : β → Context J × Outcome J → β}
    {Allowed : β → Context J × Outcome J → Prop}
    (herror : ∀ b l e, record b (l, .error e) = b ∧ Allowed b (l, .error e))
    (hanswer : ∀ (l : Context J) past (st : Stmt) k c db b,
      Standing decode ⟨l, past, .call st k⟩ → R db b →
      let t := System.resume l past st k (st.exec l.session c db).1
      R (st.exec l.session c db).2 (System.recorded record b t) ∧ ∀ v ∈ t.ended, Allowed b v)
    (acts : List (Act (Arrival J) Choice)) {b : β} (hR : R migrated b) :
    let h := (service decode).history acts initial
    (System.finished ((service decode).run acts initial)).Perm h ∧
      R ((service decode).run acts initial).shared (h.foldl record b) ∧
      EachStep record Allowed h b := by
  intro h
  refine ⟨System.history_perm acts initial, ?_⟩
  refine System.history_refines (P := Standing decode) standing_arrive
    (fun _ _ _ _ hstand r => hstand.resume r) ?_ ?_ acts initial b ?_ hR
  · rintro a db b hb ⟨l, o⟩ hv
    obtain ⟨e, rfl⟩ := error_of_arrive hv
    rw [(herror b l e).1]
    exact ⟨hb, (herror b l e).2⟩
  · intro l past st k c db b hstand hb
    exact hanswer l past st k c db b hstand hb
  · intro t ht
    cases ht

end Lockinspiel
