/-
Lockinspiel/Profiles.lean

What the user service keeps outside its process: the table `"user".profiles`
of its schema, and the objects of its bucket.

A handler asks one operation after the other: a statement on the table, the
deletion of an object, or a URL that is presigned for one object.  A statement
goes through, or it fails and leaves the table as it was, and so does a request
to S3.  As for the statements of the timekeeper service, an error means that the
operation had no effect: a row that was written, or an object that was deleted,
without an answer that arrives (a lost acknowledgement) is not modelled.
`Op.exec_cases` says once what an operation can do.

No handler uses the `DELETE` that the schema grants, and no handler reads or
writes the column `status`.
-/
import Lockinspiel.Service
import Lockinspiel.UrlResolver

namespace Lockinspiel

namespace User

open Effects Sql

/-! ### The table `"user".profiles` -/

/-- A row of `"user".profiles`. -/
structure ProfileRow where
  userId : Uuid
  displayName : String
  bio : String
  avatarLocation : Option JsonObject
deriving DecidableEq

/-- `"user".uid() = user_id`. -/
def uidIs (s : Session) (userId : Uuid) : Bool := s.userUid == some userId

/-- `"user".profiles`. -/
def profilesTable : Table Role Session ProfileRow where
  owner := .service
  grants := grants
  policies := some
    [{ command := .select, grantee := .anon },
      { command := .insert, grantee := .authenticated, check := fun s r => uidIs s r.userId },
      { command := .update, grantee := .authenticated, visible := fun s r => uidIs s r.userId,
        check := fun s r => uidIs s r.userId }]

/-- The table, with its `PRIMARY KEY`. -/
structure Profiles where
  rows : List ProfileRow
  keys : (rows.map ProfileRow.userId).Nodup

/-- The result of a statement, if the primary key holds of it. -/
def commit (rows : List ProfileRow) : Except SqlError Profiles :=
  if keys : (rows.map ProfileRow.userId).Nodup then .ok ⟨rows, keys⟩
  else .error .uniqueViolation

/-- `SET avatar_location = ..`. -/
def ProfileRow.setAvatar (avatarLocation : Option JsonObject) (r : ProfileRow) : ProfileRow :=
  { r with avatarLocation }

/-- The changeset of `UserProfileChangeset`. -/
def ProfileRow.set (displayName bio : String) (r : ProfileRow) : ProfileRow :=
  { r with displayName, bio }

/-! ### The bucket -/

/-- An object of the bucket. -/
structure Object where
  contentType : String
  body : List UInt8
deriving DecidableEq

/-- What the service keeps. -/
structure Store where
  profiles : Profiles
  objects : String → Option Object

/-- A URL that the service hands out: a path of its own, or one that is
presigned for the object of this key. -/
inductive Url
  | userService (path : String)
  | s3Get (key : String)
  | s3Put (key contentType : String)
deriving DecidableEq

/-! ### Operations -/

inductive Op
  /-- `INSERT INTO profiles (display_name, bio, user_id) VALUES ..` -/
  | insertProfile (displayName bio : String) (userId : Uuid)
  /-- `SELECT .. FROM profiles WHERE user_id = ..` -/
  | selectProfile (userId : Uuid)
  /-- `UPDATE profiles SET avatar_location = .. WHERE user_id = ..` -/
  | updateAvatar (userId : Uuid) (avatarLocation : Option JsonObject)
  /-- `UPDATE profiles SET display_name = .., bio = .. WHERE user_id = ..` -/
  | updateProfile (userId : Uuid) (displayName bio : String)
  /-- `delete_object().key(..).send()` -/
  | deleteObject (key : String)
  /-- `get_object().key(..).presigned(..)` -/
  | presignGet (key : String)
  /-- `put_object().key(..).content_type(..).presigned(..)` -/
  | presignPut (key contentType : String)
deriving DecidableEq

/-- The answer to an operation: the number of rows or the rows themselves; the
status of the response of S3, where the error has one; a URL. -/
@[reducible] def Op.Res : Op → Type
  | insertProfile .. => Except SqlError ℕ
  | selectProfile _ => Except SqlError (List ProfileRow)
  | updateAvatar .. => Except SqlError ℕ
  | updateProfile .. => Except SqlError ℕ
  | deleteObject _ => Except (Option ℕ) Unit
  | presignGet _ => Option Url
  | presignPut .. => Option Url

/-- The signature of the handlers. -/
def ops : Sig where
  Op := Op
  Res := Op.Res

instance : DecidableEq ops.Op := inferInstanceAs (DecidableEq Op)

/-- What is left open about one operation: whether it fails, and the status of
the error of S3. -/
structure Choice where
  fails : Bool := false
  status : Option ℕ := none

/-- A statement with its choice: it goes through, or the table stays as it
was. -/
def statement {α : Type} (c : Choice) (st : Store) (result : Except SqlError (α × Profiles)) :
    Except SqlError α × Store :=
  if c.fails then (.error .connectionLost, st)
  else
    match result with
    | .ok (ret, profiles) => (.ok ret, { st with profiles })
    | .error e => (.error e, st)

/-- An operation in the session `s`. -/
def Op.exec (s : Session) (c : Choice) : (op : Op) → Store → op.Res × Store
  | .insertProfile displayName bio userId, st => statement c st do
      checkText [displayName, bio]
      let inserted : ℕ := 1
      let rows ← profilesTable.insert Role.member s.role s
        [{ userId, displayName, bio, avatarLocation := none }] st.profiles.rows
      return (inserted, ← commit rows)
  | .selectProfile userId, st => statement c st do
      let rows ← profilesTable.select Role.member s.role s (fun r => r.userId == userId)
        st.profiles.rows
      return (rows, st.profiles)
  | .updateAvatar userId avatarLocation, st => statement c st do
      -- a `JSONB` with a NUL character is refused as a text is
      checkText ((avatarLocation.getD []).map Prod.snd)
      let (n, rows) ← profilesTable.update Role.member s.role s (fun r => r.userId == userId)
        (ProfileRow.setAvatar avatarLocation) st.profiles.rows
      return (n, ← commit rows)
  | .updateProfile userId displayName bio, st => statement c st do
      checkText [displayName, bio]
      let (n, rows) ← profilesTable.update Role.member s.role s (fun r => r.userId == userId)
        (ProfileRow.set displayName bio) st.profiles.rows
      return (n, ← commit rows)
  | .deleteObject key, st =>
      -- deleting an object that is not there succeeds
      if c.fails then (.error c.status, st)
      else (.ok (), { st with objects := Function.update st.objects key none })
  | .presignGet key, st => (if c.fails then none else some (.s3Get key), st)
  | .presignPut key contentType, st => (if c.fails then none else some (.s3Put key contentType), st)

/-! ### What an operation can do -/

/-- What an operation has answered and done. -/
def Op.Does (s : Session) (st : Store) : (op : Op) → op.Res → Store → Prop
  | .insertProfile displayName bio userId, r, st' => (∃ e, r = .error e ∧ st' = st) ∨
      ∃ n, r = .ok n ∧ s.mayWrite userId = true ∧ st'.objects = st.objects ∧
        st'.profiles.rows =
          st.profiles.rows ++ [{ userId, displayName, bio, avatarLocation := none }]
  | .selectProfile userId, r, st' => st' = st ∧ ((∃ e, r = .error e) ∨
      r = .ok (st.profiles.rows.filter fun r => r.userId == userId))
  | .updateAvatar userId avatarLocation, r, st' => (∃ e, r = .error e ∧ st' = st) ∨
      ∃ n, r = .ok n ∧ st'.objects = st.objects ∧
        st'.profiles.rows = setWhere (fun r => s.mayWrite r.userId && r.userId == userId)
          (ProfileRow.setAvatar avatarLocation) st.profiles.rows
  | .updateProfile userId displayName bio, r, st' => (∃ e, r = .error e ∧ st' = st) ∨
      ∃ n, r = .ok n ∧ st'.objects = st.objects ∧
        st'.profiles.rows = setWhere (fun r => s.mayWrite r.userId && r.userId == userId)
          (ProfileRow.set displayName bio) st.profiles.rows
  | .deleteObject key, r, st' => (∃ status, r = .error status ∧ st' = st) ∨
      r = .ok () ∧ st' = { st with objects := Function.update st.objects key none }
  | .presignGet key, r, st' => st' = st ∧ (r = none ∨ r = some (.s3Get key))
  | .presignPut key contentType, r, st' => st' = st ∧ (r = none ∨ r = some (.s3Put key contentType))

theorem commit_ok {rows : List ProfileRow} {profiles : Profiles} (h : commit rows = .ok profiles) :
    profiles.rows = rows := by
  unfold commit at h
  split at h
  · rw [← Except.ok.inj h]
  · cases h

/-- What the policies of `profiles` come to: everybody sees every row, and
`authenticated` writes their own. -/
theorem profiles_passes {s : Session} (hs : s.LoggedIn) (r : ProfileRow) :
    profilesTable.passes Role.member s.role s .select Policy.visible r = true ∧
    profilesTable.passes Role.member s.role s .insert Policy.check r = s.mayWrite r.userId ∧
    profilesTable.passes Role.member s.role s .update Policy.visible r = s.mayWrite r.userId ∧
    profilesTable.passes Role.member s.role s .update Policy.check r = s.mayWrite r.userId := by
  have hmay : s.mayWrite r.userId = (s.role == .authenticated && uidIs s r.userId) := rfl
  rw [hmay]
  rcases hs with h | h <;> rw [h] <;>
    simp only [Table.passes, profilesTable, List.any_cons, List.any_nil] <;>
    cases uidIs s r.userId <;> decide

theorem profiles_select {s : Session} (hs : s.LoggedIn) (p : ProfileRow → Bool)
    (rows : List ProfileRow) :
    profilesTable.select Role.member s.role s p rows = .ok (rows.filter p) := by
  rw [Table.select, granted_select hs rfl, if_pos rfl]
  simp only [(profiles_passes hs _).1, Bool.true_and]

/-- An update that goes through touches the rows that the session may write. -/
theorem profiles_update_ok {s : Session} (hs : s.LoggedIn) {p : ProfileRow → Bool}
    {f : ProfileRow → ProfileRow} {rows rows' : List ProfileRow} {n : ℕ}
    (h : profilesTable.update Role.member s.role s p f rows = .ok (n, rows'))
    (hf : ∀ r, (f r).userId = r.userId) :
    rows' = setWhere (fun r => s.mayWrite r.userId && p r) f rows := by
  rw [Table.update_eq (q := fun r => s.mayWrite r.userId) (Table.update_ok h).1
    (granted_select hs rfl) (fun r => (profiles_passes hs r).1)
    (fun r => (profiles_passes hs r).2.2.1) (fun r => (profiles_passes hs r).2.2.2)
    fun r => by rw [hf r]] at h
  exact (Prod.mk.inj (Except.ok.inj h)).2.symm

/-- A statement fails, or it goes through with its result. -/
theorem statement_cases {α : Type} (c : Choice) (st : Store)
    (result : Except SqlError (α × Profiles)) :
    (∃ e, statement c st result = (.error e, st)) ∨
    ∃ ret profiles, result = .ok (ret, profiles) ∧
      statement c st result = (.ok ret, { st with profiles }) := by
  unfold statement
  split
  · exact .inl ⟨_, rfl⟩
  · rcases result with e | ⟨ret, profiles⟩
    · exact .inl ⟨e, rfl⟩
    · exact .inr ⟨ret, profiles, rfl, rfl⟩

/-- An update, whatever it checks first. -/
theorem update_cases {s : Session} (hs : s.LoggedIn) (c : Choice) (st : Store)
    (texts : List String) (userId : Uuid) {f : ProfileRow → ProfileRow}
    (hf : ∀ r, (f r).userId = r.userId) :
    let r := statement c st do
      checkText texts
      let (n, rows) ← profilesTable.update Role.member s.role s (fun r => r.userId == userId) f
        st.profiles.rows
      return (n, ← commit rows)
    (∃ e, r.1 = .error e ∧ r.2 = st) ∨
    ∃ n, r.1 = .ok n ∧ r.2.objects = st.objects ∧
      r.2.profiles.rows =
        setWhere (fun r => s.mayWrite r.userId && r.userId == userId) f st.profiles.rows := by
  intro r
  obtain ⟨e, h⟩ | ⟨n, profiles, hresult, h⟩ := statement_cases c st _
  · exact .inl ⟨e, congrArg Prod.fst h, congrArg Prod.snd h⟩
  · obtain ⟨-, -, hresult⟩ := bind_ok hresult
    obtain ⟨⟨n', rows⟩, hupdate, hresult⟩ := bind_ok hresult
    obtain ⟨profiles', hcommit, hresult⟩ := bind_ok hresult
    obtain ⟨rfl, rfl⟩ := Prod.mk.inj (Except.ok.inj hresult)
    refine .inr ⟨n', congrArg Prod.fst h, ?_, ?_⟩
    · exact congrArg (fun r => r.2.objects) h
    · rw [show r.2 = _ from congrArg Prod.snd h]
      exact (commit_ok hcommit).trans (profiles_update_ok hs hupdate hf)

/-- **What an operation can do** in the session of a request. -/
theorem Op.exec_cases {s : Session} (hs : s.LoggedIn) (c : Choice) (op : Op) (st : Store) :
    op.Does s st (op.exec s c st).1 (op.exec s c st).2 := by
  cases op with
  | insertProfile displayName bio userId =>
      rw [Op.exec]
      obtain ⟨e, h⟩ | ⟨n, profiles, hresult, h⟩ := statement_cases c st _ <;> rw [h]
      · exact .inl ⟨e, rfl, rfl⟩
      · obtain ⟨-, -, hresult⟩ := bind_ok hresult
        obtain ⟨rows, hinsert, hresult⟩ := bind_ok hresult
        obtain ⟨profiles', hcommit, hresult⟩ := bind_ok hresult
        obtain ⟨-, rfl⟩ := Prod.mk.inj (Except.ok.inj hresult)
        obtain ⟨-, hcheck, hrows⟩ := Table.insert_ok hinsert
        have hown := hcheck _ List.mem_cons_self
        rw [(profiles_passes hs _).2.1] at hown
        exact .inr ⟨n, rfl, hown, rfl, (commit_ok hcommit).trans hrows⟩
  | selectProfile userId =>
      rw [Op.exec, profiles_select hs]
      obtain ⟨e, h⟩ | ⟨rows, profiles, hresult, h⟩ := statement_cases c st _ <;> rw [h]
      · exact ⟨rfl, .inl ⟨e, rfl⟩⟩
      · obtain ⟨rfl, rfl⟩ := Prod.mk.inj (Except.ok.inj hresult)
        exact ⟨rfl, .inr rfl⟩
  | updateAvatar userId avatarLocation => exact update_cases hs c st _ userId fun _ => rfl
  | updateProfile userId displayName bio => exact update_cases hs c st _ userId fun _ => rfl
  | deleteObject key =>
      rw [Op.exec]
      split
      · exact .inl ⟨c.status, rfl, rfl⟩
      · exact .inr ⟨rfl, rfl⟩
  | presignGet key =>
      rw [Op.exec]
      refine ⟨rfl, ?_⟩
      split
      · exact .inl rfl
      · exact .inr rfl
  | presignPut key contentType =>
      rw [Op.exec]
      refine ⟨rfl, ?_⟩
      split
      · exact .inl rfl
      · exact .inr rfl

/-- What an operation can do to the rows. -/
theorem Op.Does.rows_cases {s : Session} {st st' : Store} {op : Op} {r : op.Res}
    (h : op.Does s st r st') :
    st'.profiles.rows = st.profiles.rows ∨
    (∃ row : ProfileRow, row.avatarLocation = none ∧
      st'.profiles.rows = st.profiles.rows ++ [row]) ∨
    (∃ userId avatarLocation, op = .updateAvatar userId avatarLocation ∧
      st'.profiles.rows = setWhere (fun r => s.mayWrite r.userId && r.userId == userId)
        (ProfileRow.setAvatar avatarLocation) st.profiles.rows) ∨
    ∃ p displayName bio,
      st'.profiles.rows = setWhere p (ProfileRow.set displayName bio) st.profiles.rows := by
  cases op with
  | insertProfile displayName bio userId =>
      obtain ⟨e, -, rfl⟩ | ⟨n, -, -, -, hrows⟩ := h
      · exact .inl rfl
      · exact .inr (.inl ⟨_, rfl, hrows⟩)
  | selectProfile userId => exact .inl (by rw [h.1])
  | updateAvatar userId avatarLocation =>
      obtain ⟨e, -, rfl⟩ | ⟨n, -, -, hrows⟩ := h
      · exact .inl rfl
      · exact .inr (.inr (.inl ⟨userId, avatarLocation, rfl, hrows⟩))
  | updateProfile userId displayName bio =>
      obtain ⟨e, -, rfl⟩ | ⟨n, -, -, hrows⟩ := h
      · exact .inl rfl
      · exact .inr (.inr (.inr ⟨_, displayName, bio, hrows⟩))
  | deleteObject key =>
      obtain ⟨e, -, rfl⟩ | ⟨-, rfl⟩ := h <;> exact .inl rfl
  | presignGet key | presignPut key contentType => exact .inl (by rw [h.1])

/-- The users who have a profile. -/
def Store.userIds (st : Store) : List Uuid := st.profiles.rows.map ProfileRow.userId

/-- A profile stays. -/
theorem Op.Does.userIds_subset {s : Session} {st st' : Store} {op : Op} {r : op.Res}
    (h : op.Does s st r st') : st.userIds ⊆ st'.userIds := by
  rw [Store.userIds, Store.userIds]
  obtain heq | ⟨row, -, heq⟩ | ⟨_, _, -, heq⟩ | ⟨_, _, _, heq⟩ := h.rows_cases <;> rw [heq]
  · exact List.Subset.refl _
  · rw [List.map_append]
    exact List.subset_append_left _ _
  · rw [map_setWhere (f := ProfileRow.setAvatar _) fun _ => rfl]
    exact List.Subset.refl _
  · rw [map_setWhere (f := ProfileRow.set _ _) fun _ => rfl]
    exact List.Subset.refl _

end User

end Lockinspiel
