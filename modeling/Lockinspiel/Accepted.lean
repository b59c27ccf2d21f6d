/-
Lockinspiel/Accepted.lean

When a statement that writes goes through.

`Stmt.Does` says what a statement has done that went through; here is what it
takes: nothing outside the database fails, Postgres can store the texts, the
statement has few enough bind parameters, the policies let its rows pass, and
the constraints hold of the result.  For an insert these come down to ids that
nobody has yet, and for a tag to a name that nobody has yet, whoever owns the
row that has it and whether it is deleted or not.
-/
import Lockinspiel.Statement

namespace Lockinspiel

open Effects Sql

/-! ### Texts, bind parameters and constraints -/

/-- Texts without a NUL character. -/
def Storable (texts : List String) : Prop := ∀ t ∈ texts, Char.ofNat 0 ∉ t.toList

instance (texts : List String) : Decidable (Storable texts) := by
  unfold Storable
  infer_instance

theorem checkText_eq_ok {texts : List String} : checkText texts = .ok () ↔ Storable texts := by
  have hany : (texts.any fun t => t.toList.contains (Char.ofNat 0)) = false ↔ Storable texts := by
    simp only [List.any_eq_false, List.contains_iff_mem, Storable]
  rw [checkText, ← hany]
  cases (texts.any fun t => t.toList.contains (Char.ofNat 0)) <;> simp

section

variable {β : Type}

theorem exists_bind_ok {ε α : Type} {x : Except ε α} {f : α → Except ε β} :
    (∃ b, x >>= f = .ok b) ↔ ∃ a, x = .ok a ∧ ∃ b, f a = .ok b := by
  constructor
  · rintro ⟨b, h⟩
    obtain ⟨a, ha, hb⟩ := bind_ok h
    exact ⟨a, ha, b, hb⟩
  · rintro ⟨a, rfl, b, hb⟩
    exact ⟨b, hb⟩

/-- A statement that checks its texts first. -/
theorem exists_checkText {texts : List String} {f : Unit → Except SqlError β} :
    (∃ b, checkText texts >>= f = .ok b) ↔ Storable texts ∧ ∃ b, f () = .ok b := by
  rw [exists_bind_ok, ← checkText_eq_ok]
  constructor
  · rintro ⟨⟨⟩, h⟩
    exact h
  · intro h
    exact ⟨(), h⟩

/-- A statement that counts its bind parameters first. -/
theorem exists_checkBinds {n : ℕ} {f : Unit → Except SqlError β} :
    (∃ b, checkBinds n >>= f = .ok b) ↔ n ≤ maxBinds ∧ ∃ b, f () = .ok b := by
  by_cases hn : n ≤ maxBinds
  · rw [checkBinds, if_pos hn]
    exact (and_iff_right hn).symm
  · rw [checkBinds, if_neg hn]
    exact iff_of_false (fun ⟨_, h⟩ => by cases h) fun h => hn h.1

/-- A statement whose last step stores its result, as far as the constraints
hold of it. -/
theorem exists_commit {t : Tables} {f : Db → β} :
    (∃ b, (commit t >>= fun db => pure (f db)) = .ok b) ↔ t.Keys ∧ t.References := by
  rw [exists_bind_ok]
  constructor
  · rintro ⟨db, h, -⟩
    rw [← commit_ok h]
    exact ⟨db.keys, db.references⟩
  · rintro ⟨hkeys, hrefs⟩
    exact ⟨_, by rw [commit, dif_pos hkeys, dif_pos hrefs], _, rfl⟩

end

/-- New keys at the end of old ones. -/
theorem nodup_map_append {α β : Type} {f : α → β} {l new : List α} (hl : (l.map f).Nodup) :
    ((l ++ new).map f).Nodup ↔
      (new.map f).Nodup ∧ ∀ a ∈ new, f a ∉ l.map f := by
  rw [List.map_append, List.nodup_append]
  constructor
  · rintro ⟨-, hnew, hdisj⟩
    exact ⟨hnew, fun a ha hmem => hdisj _ hmem _ (List.mem_map_of_mem ha) rfl⟩
  · rintro ⟨hnew, hdisj⟩
    refine ⟨hl, hnew, fun a ha b hb heq => ?_⟩
    obtain ⟨r, hr, rfl⟩ := List.mem_map.mp hb
    exact hdisj r hr (heq ▸ ha)

theorem nodup_map_concat {α β : Type} {f : α → β} {l : List α} {a : α} (hl : (l.map f).Nodup) :
    ((l ++ [a]).map f).Nodup ↔ f a ∉ l.map f := by
  rw [nodup_map_append hl]
  simp

/-- A new value in the one row of a key, next to old values that are
different. -/
theorem nodup_map_replace {ρ κ ν : Type} [DecidableEq κ] {key : ρ → κ} {val : ρ → ν}
    {rows : List ρ} (hkey : (rows.map key).Nodup) (hval : (rows.map val).Nodup) {r : ρ}
    (hr : r ∈ rows) (v : ν) :
    (rows.map fun a => if key a = key r then v else val a).Nodup ↔
      ∀ a ∈ rows, val a = v → key a = key r := by
  rw [List.nodup_map_iff_inj_on (List.Nodup.of_map _ hkey)]
  constructor
  · intro hinj a ha hv
    by_contra hne
    refine hne (congrArg key (hinj a ha r hr ?_))
    rw [if_neg hne, if_pos rfl, hv]
  · intro hother a ha b hb heq
    by_cases hka : key a = key r <;> by_cases hkb : key b = key r
    · exact List.inj_on_of_nodup_map hkey ha hb (hka.trans hkb.symm)
    · rw [if_pos hka, if_neg hkb] at heq
      exact absurd (hother b hb heq.symm) hkb
    · rw [if_neg hka, if_pos hkb] at heq
      exact absurd (hother a ha heq) hka
    · rw [if_neg hka, if_neg hkb] at heq
      exact List.inj_on_of_nodup_map hval ha hb heq

/-! ### Inserts under a policy -/

/-- `authenticated` inserts rows that satisfy the policy. -/
theorem secured_insert {ρ : Type} {expr : Env → ρ → Bool} {s : Session} {e : Env}
    {new rows : List ρ} (hs : s.LoggedIn) (hrole : s.role = .authenticated)
    (hnew : ∀ r ∈ new, expr e r = true) :
    (secured expr).insert Role.member s.role e new rows = .ok (rows ++ new) := by
  have hcheck : new.all ((secured expr).passes Role.member s.role e .insert Policy.check) =
      true := by
    refine List.all_eq_true.mpr fun r hr => ?_
    rw [(secured_passes hs r).2.1, hrole, hnew r hr]
    rfl
  rw [Table.insert, granted_write hs rfl rfl (by decide), hcheck, hrole]
  rfl

section

variable {s : Session} {owner : Uuid}

theorem Session.mayWrite_eq_true :
    s.mayWrite owner = true ↔ s.role = .authenticated ∧ s.timekeeperUid = some owner := by
  rw [mayWrite, Bool.and_eq_true, beq_iff_eq, beq_iff_eq]

/-- An insert of a row of one's own. -/
theorem own_insert {ρ : Type} {userId : ρ → Uuid} {t : Tables} {row : ρ} {rows : List ρ}
    (h : s.mayWrite (userId row) = true) :
    (secured fun e r => uidIs e (userId r)).insert Role.member s.role ⟨s, t⟩ [row] rows =
      .ok (rows ++ [row]) := by
  obtain ⟨hrole, huid⟩ := Session.mayWrite_eq_true.mp h
  refine secured_insert (.inl hrole) hrole fun r hr => ?_
  rw [List.mem_singleton.mp hr]
  exact beq_iff_eq.mpr huid

end

/-! ### The statements -/

variable {s : Session} {c : Choice} {db : Db}

/-- A statement goes through if nothing outside the database fails and Postgres
accepts it. -/
theorem Stmt.toBool_exec {st : Stmt} :
    (st.exec s c db).1.toBool = true ↔ c.fails = false ∧ ∃ x, st.apply s c db = .ok x := by
  cases hf : c.fails with
  | true =>
      rw [exec_fails hf]
      simp [Except.toBool]
  | false =>
      rw [exec, hf]
      rcases st.apply s c db with e | ⟨ret, db'⟩ <;> simp [Except.toBool]

/-- **When a tag is inserted.**  The row that refuses a name can be anybody's,
and can be deleted. -/
theorem Stmt.toBool_insertTag {name : String} {userId : Uuid} (h : s.mayWrite userId = true) :
    ((Stmt.insertTag name userId).exec s c db).1.toBool = true ↔ c.fails = false ∧
      Storable [name] ∧ c.ids 0 ∉ db.tag.map TagRow.id ∧ name ∉ db.tag.map TagRow.name := by
  have hins : tagTable.insert Role.member s.role ⟨s, db.toTables⟩
      [⟨c.ids 0, name, userId, false⟩] db.tag = .ok _ := own_insert h
  rw [toBool_exec, apply, exists_checkText]
  dsimp only
  rw [hins]
  refine and_congr_right fun _ => and_congr_right fun _ => exists_commit.trans ⟨?_, ?_⟩
  · rintro ⟨hkeys, -⟩
    exact ⟨(nodup_map_concat db.keys.tag).mp hkeys.tag,
      (nodup_map_concat db.keys.tagName).mp hkeys.tagName⟩
  · rintro ⟨hid, hname⟩
    exact ⟨⟨db.keys.1, db.keys.2, db.keys.3, (nodup_map_concat db.keys.tag).mpr hid,
      (nodup_map_concat db.keys.tagName).mpr hname⟩, db.references.1, db.references.2⟩

/-- **When a tag is renamed**, by its owner: no other row has the name. -/
theorem Stmt.toBool_updateTag {name : String} {r : TagRow} (hr : r ∈ db.tag)
    (h : s.mayWrite r.userId = true) :
    ((Stmt.updateTag r.id name).exec s c db).1.toBool = true ↔ c.fails = false ∧
      Storable [name] ∧ ∀ r' ∈ db.tag, r'.name = name → r'.id = r.id := by
  obtain ⟨hrole, huid⟩ := Session.mayWrite_eq_true.mp h
  have hupd : tagTable.update Role.member s.role ⟨s, db.toTables⟩ (fun r' => r'.id == r.id)
      (TagRow.set name) db.tag = .ok _ := secured_update (.inl hrole) hrole fun _ => rfl
  rw [toBool_exec, apply, exists_checkText, hupd]
  -- the tag is the one row with its id
  have hrow : ∀ r' ∈ db.tag,
      (uidIs ⟨s, db.toTables⟩ r'.userId && r'.id == r.id) = (r'.id == r.id) := by
    intro r' hr'
    by_cases hid : r'.id = r.id
    · rw [List.inj_on_of_nodup_map db.keys.tag hr' hr hid, uidIs, huid]
      simp
    · rw [beq_eq_false_iff_ne.mpr hid, Bool.and_false]
  have hids : (setWhere (fun r' => uidIs ⟨s, db.toTables⟩ r'.userId && r'.id == r.id)
      (TagRow.set name) db.tag).map TagRow.id = db.tag.map TagRow.id :=
    map_setWhere (f := TagRow.set name) (fun _ => rfl) _
  have hnames : (setWhere (fun r' => uidIs ⟨s, db.toTables⟩ r'.userId && r'.id == r.id)
      (TagRow.set name) db.tag).map TagRow.name =
        db.tag.map fun r' => if r'.id = r.id then name else r'.name := by
    rw [setWhere, List.map_map]
    refine List.map_congr_left fun r' hr' => ?_
    rw [Function.comp_apply, hrow r' hr']
    by_cases hid : r'.id = r.id <;> simp [hid, TagRow.set]
  have hnodup := nodup_map_replace db.keys.tag db.keys.tagName hr name
  refine and_congr_right fun _ => and_congr_right fun _ => exists_commit.trans ⟨?_, ?_⟩
  · rintro ⟨hkeys, -⟩
    exact hnodup.mp (hnames ▸ hkeys.tagName)
  · intro hother
    exact ⟨⟨db.keys.1, db.keys.2, db.keys.3, hids ▸ db.keys.tag, hnames ▸ hnodup.mpr hother⟩,
      db.references.1, db.references.2⟩

/-- **When a time split is inserted.** -/
theorem Stmt.toBool_insertTimeSplit {name : String} {description : Option String}
    {userId : Uuid} (h : s.mayWrite userId = true) :
    ((Stmt.insertTimeSplit name description userId).exec s c db).1.toBool = true ↔
      c.fails = false ∧ Storable (name :: description.toList) ∧
        c.ids 0 ∉ db.timeSplit.map TimeSplitRow.id := by
  have hins : timeSplitTable.insert Role.member s.role ⟨s, db.toTables⟩
      [⟨c.ids 0, userId, name, description, false⟩] db.timeSplit = .ok _ := own_insert h
  rw [toBool_exec, apply, exists_checkText]
  dsimp only
  rw [hins]
  refine and_congr_right fun _ => and_congr_right fun _ => exists_commit.trans ⟨?_, ?_⟩
  · rintro ⟨hkeys, -⟩
    exact (nodup_map_concat db.keys.timeSplit).mp hkeys.timeSplit
  · intro hid
    refine ⟨⟨(nodup_map_concat db.keys.timeSplit).mpr hid, db.keys.2, db.keys.3, db.keys.4,
      db.keys.5⟩, fun r hr => ?_, db.references.2⟩
    rw [List.map_append]
    exact List.mem_append_left _ (db.references.1 r hr)

theorem TimeSplitTimerValues.map_id_rows (ids : ℕ → ℤ) (values : List TimeSplitTimerValues) :
    (rows ids values).map TimeSplitTimerRow.id = (List.range values.length).map ids := by
  apply List.ext_getElem
  · simp [rows]
  · intro n _ _
    simp [rows]

/-- **When timers are inserted**, into time splits of one's own. -/
theorem Stmt.toBool_insertTimeSplitTimers {values : List TimeSplitTimerValues}
    (hs : s.LoggedIn) (hrole : s.role = .authenticated)
    (h : ∀ v ∈ values, s.mayWriteTimers db.toTables v.timeSplitId = true) :
    ((Stmt.insertTimeSplitTimers values).exec s c db).1.toBool = true ↔
      c.fails = false ∧ (values = [] ∨ 5 * values.length ≤ maxBinds ∧
        Storable (values.map TimeSplitTimerValues.name) ∧
        ((List.range values.length).map c.ids).Nodup ∧
        ∀ n < values.length, c.ids n ∉ db.timeSplitTimer.map TimeSplitTimerRow.id) := by
  rw [toBool_exec, apply]
  refine and_congr_right fun _ => ?_
  by_cases hempty : values = []
  · -- an INSERT without values is a SELECT that finds nothing
    subst hempty
    rw [timeSplitTimerTable, secured_select hs]
    exact iff_of_true ⟨_, rfl⟩ (.inl rfl)
  · have hnew : ∀ r ∈ TimeSplitTimerValues.rows c.ids values,
        existsTimeSplit ⟨s, db.toTables⟩ r.timeSplitId = true := by
      intro r hr
      obtain ⟨n, hn, rfl⟩ := List.mem_mapIdx.mp hr
      rw [existsTimeSplit_eq hs hrole]
      exact h _ (List.getElem_mem hn)
    have hins : timeSplitTimerTable.insert Role.member s.role ⟨s, db.toTables⟩
        (TimeSplitTimerValues.rows c.ids values) db.timeSplitTimer = .ok _ :=
      secured_insert hs hrole hnew
    -- the rows take the ids in their order
    have hfresh : (∀ r ∈ TimeSplitTimerValues.rows c.ids values,
        r.id ∉ db.timeSplitTimer.map TimeSplitTimerRow.id) ↔
          ∀ n < values.length, c.ids n ∉ db.timeSplitTimer.map TimeSplitTimerRow.id := by
      constructor
      · intro hall n hn
        exact hall _ (List.mem_mapIdx.mpr ⟨n, hn, rfl⟩)
      · intro hall r hr
        obtain ⟨n, hn, rfl⟩ := List.mem_mapIdx.mp hr
        exact hall n hn
    rw [if_neg (by simpa using hempty), or_iff_right hempty, exists_checkBinds, exists_checkText]
    dsimp only
    rw [hins, ← hfresh, ← TimeSplitTimerValues.map_id_rows,
      ← nodup_map_append db.keys.timeSplitTimer]
    refine and_congr_right fun _ => and_congr_right fun _ => exists_commit.trans ⟨?_, ?_⟩
    · rintro ⟨hkeys, -⟩
      exact hkeys.timeSplitTimer
    · intro hids
      refine ⟨⟨db.keys.1, hids, db.keys.3, db.keys.4, db.keys.5⟩, fun r hr => ?_,
        fun r hr i hi => ?_⟩
      · obtain hr | hr := List.mem_append.mp hr
        · exact db.references.1 r hr
        · -- the policy has seen the time split of every new timer
          obtain ⟨u, -, hown⟩ := (existsTimeSplit_iff hs).mp (hnew r hr)
          obtain ⟨p, hp, hpid⟩ := List.any_eq_true.mp hown
          rw [Bool.and_eq_true, beq_iff_eq] at hpid
          exact hpid.1 ▸ List.mem_map_of_mem hp
      · rw [List.map_append]
        exact List.mem_append_left _ (db.references.2 r hr i hi)

end Lockinspiel
