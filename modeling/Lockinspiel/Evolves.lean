/-
Lockinspiel/Evolves.lean

What the statements do to the rows of each table, and what they keep.

No statement deletes a row.  Each table is left as it is, or gets new rows at
its end, or is updated in place on rows that the session may write
(`Stmt.Does.timeSplit_cases` and its siblings).  So every row has a successor
with the same id and the same owner, whose `deleted` is still set if it was
(`Evolves`), after any statement and after any run of the service
(`evolves_run`).
-/
import Lockinspiel.Service

namespace Lockinspiel

open Effects Sql

variable {s : Session} {c : Choice} {t t' : Tables} {st : Stmt} {ret : st.Ret}

/-! ### Successors of rows -/

/-- The same time split, at a later time. -/
def TimeSplitRow.Succ (r r' : TimeSplitRow) : Prop :=
  r'.id = r.id ∧ r'.userId = r.userId ∧ (r.deleted = true → r'.deleted = true)

/-- The same timer, at a later time: only `deleted` can have changed. -/
def TimeSplitTimerRow.Succ (r r' : TimeSplitTimerRow) : Prop :=
  { r' with deleted := r.deleted } = r ∧ (r.deleted = true → r'.deleted = true)

/-- The same tag, at a later time. -/
def TagRow.Succ (r r' : TagRow) : Prop :=
  r'.id = r.id ∧ r'.userId = r.userId ∧ (r.deleted = true → r'.deleted = true)

theorem TimeSplitRow.Succ.refl (r : TimeSplitRow) : r.Succ r := ⟨rfl, rfl, fun h => h⟩

theorem TimeSplitRow.Succ.trans {a b c : TimeSplitRow} (h : a.Succ b) (h' : b.Succ c) :
    a.Succ c :=
  ⟨h'.1.trans h.1, h'.2.1.trans h.2.1, h'.2.2 ∘ h.2.2⟩

theorem TimeSplitTimerRow.Succ.refl (r : TimeSplitTimerRow) : r.Succ r := ⟨rfl, fun h => h⟩

theorem TimeSplitTimerRow.Succ.trans {a b c : TimeSplitTimerRow} (h : a.Succ b)
    (h' : b.Succ c) : a.Succ c := by
  obtain ⟨h₁, h₂⟩ := h
  obtain ⟨h₁', h₂'⟩ := h'
  rw [← h₁'] at h₁
  exact ⟨h₁, h₂' ∘ h₂⟩

theorem TimeSplitTimerRow.Succ.id_eq {r r' : TimeSplitTimerRow} (h : r.Succ r') :
    r'.id = r.id := by
  obtain ⟨h, -⟩ := h
  rw [← h]

theorem TimeSplitTimerRow.Succ.timeSplitId_eq {r r' : TimeSplitTimerRow} (h : r.Succ r') :
    r'.timeSplitId = r.timeSplitId := by
  obtain ⟨h, -⟩ := h
  rw [← h]

theorem TagRow.Succ.refl (r : TagRow) : r.Succ r := ⟨rfl, rfl, fun h => h⟩

theorem TagRow.Succ.trans {a b c : TagRow} (h : a.Succ b) (h' : b.Succ c) : a.Succ c :=
  ⟨h'.1.trans h.1, h'.2.1.trans h.2.1, h'.2.2 ∘ h.2.2⟩

/-! ### One table at a time -/

namespace Stmt.Does

/-- What a statement does to `time_split`: nothing, or one new row of its
user, or an update of the rows of its user. -/
theorem timeSplit_cases (h : st.Does s c t ret t') :
    t'.timeSplit = t.timeSplit ∨
    (∃ row : TimeSplitRow, s.mayWrite row.userId = true ∧ row.deleted = false ∧
      t'.timeSplit = t.timeSplit ++ [row]) ∨
    ∃ id f, t'.timeSplit = setWhere (fun r => s.mayWrite r.userId && r.id == id) f t.timeSplit ∧
      ∀ r : TimeSplitRow, r.Succ (f r) := by
  cases st with
  | insertTimeSplit name description userId =>
      obtain ⟨hu, -, rfl⟩ := h
      exact .inr (.inl ⟨_, hu, rfl, rfl⟩)
  | updateTimeSplit id name description =>
      cases h
      exact .inr (.inr ⟨id, _, rfl, fun r => ⟨rfl, rfl, fun h => h⟩⟩)
  | deleteTimeSplit id =>
      cases h
      exact .inr (.inr ⟨id, _, rfl, fun r => ⟨rfl, rfl, fun _ => rfl⟩⟩)
  -- the other statements leave this table alone
  | updateTag | deleteTag =>
      cases h
      exact .inl rfl
  | insertTag =>
      obtain ⟨-, -, rfl⟩ := h
      exact .inl rfl
  | insertTimeSplitTimers =>
      obtain ⟨-, -, -, rfl⟩ := h
      exact .inl rfl
  | deleteTimeSplitTimers | insertTimesheet | updateTimesheet =>
      obtain ⟨-, rfl⟩ := h
      exact .inl rfl
  | selectTags | selectTimeSplits | selectTimeSplitTimers | selectTimeSplitData | selectTimers =>
      obtain ⟨rfl, -⟩ := h
      exact .inl rfl

/-- What a statement does to `time_split_timer`: nothing, or new rows of time
splits of its user, or the deletion of the timers of one. -/
theorem timeSplitTimer_cases (h : st.Does s c t ret t') :
    t'.timeSplitTimer = t.timeSplitTimer ∨
    (∃ values, st = .insertTimeSplitTimers values ∧ 5 * values.length ≤ maxBinds ∧
      (∀ v ∈ values, s.mayWriteTimers t v.timeSplitId = true) ∧
      t'.timeSplitTimer = t.timeSplitTimer ++ TimeSplitTimerValues.rows c.ids values) ∨
    ∃ id, st = .deleteTimeSplitTimers id ∧ t'.timeSplitTimer = setWhere
      (fun r => s.mayWriteTimers t r.timeSplitId && r.timeSplitId == id)
      TimeSplitTimerRow.setDeleted t.timeSplitTimer := by
  cases st with
  | insertTimeSplitTimers values =>
      obtain ⟨-, hlimit, hw, rfl⟩ := h
      exact .inr (.inl ⟨values, rfl, hlimit, hw, rfl⟩)
  | deleteTimeSplitTimers id =>
      obtain ⟨-, rfl⟩ := h
      exact .inr (.inr ⟨id, rfl, rfl⟩)
  | updateTag | deleteTag | updateTimeSplit | deleteTimeSplit =>
      cases h
      exact .inl rfl
  | insertTag | insertTimeSplit =>
      obtain ⟨-, -, rfl⟩ := h
      exact .inl rfl
  | insertTimesheet | updateTimesheet =>
      obtain ⟨-, rfl⟩ := h
      exact .inl rfl
  | selectTags | selectTimeSplits | selectTimeSplitTimers | selectTimeSplitData | selectTimers =>
      obtain ⟨rfl, -⟩ := h
      exact .inl rfl

/-- What a statement does to `tag`. -/
theorem tag_cases (h : st.Does s c t ret t') :
    t'.tag = t.tag ∨
    (∃ row : TagRow, s.mayWrite row.userId = true ∧ row.deleted = false ∧
      t'.tag = t.tag ++ [row]) ∨
    ∃ id f, t'.tag = setWhere (fun r => s.mayWrite r.userId && r.id == id) f t.tag ∧
      ∀ r : TagRow, r.Succ (f r) := by
  cases st with
  | insertTag name userId =>
      obtain ⟨hu, -, rfl⟩ := h
      exact .inr (.inl ⟨_, hu, rfl, rfl⟩)
  | updateTag id name =>
      cases h
      exact .inr (.inr ⟨id, _, rfl, fun r => ⟨rfl, rfl, fun h => h⟩⟩)
  | deleteTag id =>
      cases h
      exact .inr (.inr ⟨id, _, rfl, fun r => ⟨rfl, rfl, fun _ => rfl⟩⟩)
  | updateTimeSplit | deleteTimeSplit =>
      cases h
      exact .inl rfl
  | insertTimeSplit =>
      obtain ⟨-, -, rfl⟩ := h
      exact .inl rfl
  | insertTimeSplitTimers =>
      obtain ⟨-, -, -, rfl⟩ := h
      exact .inl rfl
  | deleteTimeSplitTimers | insertTimesheet | updateTimesheet =>
      obtain ⟨-, rfl⟩ := h
      exact .inl rfl
  | selectTags | selectTimeSplits | selectTimeSplitTimers | selectTimeSplitData | selectTimers =>
      obtain ⟨rfl, -⟩ := h
      exact .inl rfl

/-- What a statement does to `timesheet`. -/
theorem timesheet_cases (h : st.Does s c t ret t') :
    t'.timesheet = t.timesheet ∨
    (∃ values userId, st = .insertTimesheet values userId ∧
      t'.timesheet = t.timesheet ++ [values.row userId]) ∨
    ∃ userId startTime values, st = .updateTimesheet userId startTime values ∧
      t'.timesheet = setWhere (fun r => r.userId == userId && r.startTime == startTime)
        (fun r => values.row r.userId) t.timesheet := by
  cases st with
  | insertTimesheet values userId =>
      obtain ⟨-, rfl⟩ := h
      exact .inr (.inl ⟨values, userId, rfl, rfl⟩)
  | updateTimesheet userId startTime values =>
      obtain ⟨-, rfl⟩ := h
      exact .inr (.inr ⟨userId, startTime, values, rfl, rfl⟩)
  | updateTag | deleteTag | updateTimeSplit | deleteTimeSplit =>
      cases h
      exact .inl rfl
  | insertTag | insertTimeSplit =>
      obtain ⟨-, -, rfl⟩ := h
      exact .inl rfl
  | insertTimeSplitTimers =>
      obtain ⟨-, -, -, rfl⟩ := h
      exact .inl rfl
  | deleteTimeSplitTimers =>
      obtain ⟨-, rfl⟩ := h
      exact .inl rfl
  | selectTags | selectTimeSplits | selectTimeSplitTimers | selectTimeSplitData | selectTimers =>
      obtain ⟨rfl, -⟩ := h
      exact .inl rfl

end Stmt.Does

/-! ### All tables -/

/-- Every row is still there, and what was deleted still is. -/
structure Evolves (t t' : Tables) : Prop where
  timeSplit : Kept TimeSplitRow.Succ t.timeSplit t'.timeSplit
  timeSplitTimer : Kept TimeSplitTimerRow.Succ t.timeSplitTimer t'.timeSplitTimer
  tag : Kept TagRow.Succ t.tag t'.tag

theorem Evolves.refl (t : Tables) : Evolves t t :=
  ⟨.refl .refl _, .refl .refl _, .refl .refl _⟩

theorem Evolves.trans {t₁ t₂ t₃ : Tables} (h : Evolves t₁ t₂) (h' : Evolves t₂ t₃) :
    Evolves t₁ t₃ :=
  ⟨h.1.trans .trans h'.1, h.2.trans .trans h'.2, h.3.trans .trans h'.3⟩

theorem Stmt.Does.evolves (h : st.Does s c t ret t') : Evolves t t' where
  timeSplit := by
    obtain heq | ⟨row, -, -, heq⟩ | ⟨id, f, heq, hf⟩ := h.timeSplit_cases <;> rw [heq]
    · exact .refl .refl _
    · exact .append .refl _ _
    · exact .setWhere .refl hf _ _
  timeSplitTimer := by
    obtain heq | ⟨values, -, -, -, heq⟩ | ⟨id, -, heq⟩ := h.timeSplitTimer_cases <;> rw [heq]
    · exact .refl .refl _
    · exact .append .refl _ _
    · exact .setWhere .refl (fun _ => ⟨rfl, fun _ => rfl⟩) _ _
  tag := by
    obtain heq | ⟨row, -, -, heq⟩ | ⟨id, f, heq, hf⟩ := h.tag_cases <;> rw [heq]
    · exact .refl .refl _
    · exact .append .refl _ _
    · exact .setWhere .refl hf _ _

theorem Stmt.exec_evolves (hs : s.LoggedIn) (c : Choice) (st : Stmt) (db : Db) :
    Evolves db.toTables (st.exec s c db).2.toTables := by
  obtain ⟨e, h⟩ | ⟨ret, db', h, hdoes⟩ := Stmt.exec_cases hs c st db
  · rw [h]
    exact .refl _
  · rw [h]
    exact hdoes.evolves

/-! ### All runs -/

variable {J : Jiff} {decode : String → Except String UserClaims}

/-- The session of a request that is about to ask a statement. -/
theorem Sound.loggedIn {l : Context J} {past : List sql.Event} {st : Stmt}
    {k : sql.Res st → Program sql (Outcome J)} (h : Sound decode ⟨l, past, .call st k⟩) :
    l.session.LoggedIn := by
  obtain ⟨db, hw, -⟩ := h.working
  exact hw.loggedIn

/-- **No row is ever lost**, in any run of the service. -/
theorem evolves_run (acts : List (Act (Arrival J) Choice)) (cfg : ServiceState J)
    (hcfg : ∀ t ∈ cfg.threads, Sound decode t) :
    Evolves cfg.shared.toTables ((service decode).run acts cfg).shared.toTables := by
  refine store_run (I := fun db => Evolves cfg.shared.toTables db.toTables) ?_ acts cfg hcfg
    (.refl _)
  intro l past st k hsound c db hev
  exact hev.trans (Stmt.exec_evolves hsound.loggedIn c st db)

end Lockinspiel
