/-
Lockinspiel/FailedAvatar.lean

What a request for an avatar loses when it ends with an error.

`put_avatar` and `delete_avatar` delete the object that the profile refers to
before they write the new location, and nothing brings it back if the update is
refused: the profile then refers to an object that is not there.  An error of an
earlier step leaves everything as it was.  So a request loses an avatar exactly
if its update is refused after it has deleted a stored object
(`failed_keepsAvatar`).
-/
import Lockinspiel.Accepted
import Lockinspiel.AvatarOrphans

namespace Lockinspiel

namespace User

open Effects Sql

variable (F : UuidFormat) (decode : String → Except String UserClaims)

/-! ### A request alone -/

/-- A request with nobody in between: its outcome, and what the service keeps
after it. -/
def handle (a : Arrival) (c : ℕ → Choice) (st : Store) : Outcome × Store :=
  Program.run (fun c op st => Op.exec (arrive F decode a).loc.session c op st) c
    (arrive F decode a).prog st

/-- The location in the profile of a user, and the object it refers to. -/
def Store.avatar (st : Store) (u : Uuid) : Option JsonObject × Option Object :=
  match st.profiles.rows.find? fun r => r.userId == u with
  | some r => (r.avatarLocation, r.avatarKey.bind st.objects)
  | none => (none, none)

/-- If the outcome is an error, everybody's avatar is as it was. -/
def KeepsAvatar (o : Outcome) (st st' : Store) : Prop :=
  ∀ s, o = .error s → s ≠ .panic → ∀ u, st'.avatar u = st.avatar u

/-- The update to this location is refused. -/
def UpdateRefused (c : Choice) (new : Option UrlLocation) : Prop :=
  c.fails = true ∨ ∃ location ∈ new, ¬ Storable [location.path]

/-- The profile is read, a stored object that it refers to is deleted, and the
update is refused. -/
def Loses (a : Arrival) (c : ℕ → Choice) (st : Store) : Prop :=
  ∃ u new, userId (arrive F decode a) = some u ∧ a.request.newAvatar F u = some new ∧
    (∃ key, st.Refers u key ∧ (st.objects key).isSome = true) ∧
    (c 0).fails = false ∧ (c 1).fails = false ∧ UpdateRefused (c 2) new

/-- A handler in the session `s`, with nobody in between. -/
def runHandler {α : Type} (s : Session) (c : ℕ → Choice) (h : Handler α) (st : Store) :
    Except Stop α × Store :=
  Program.run (fun c op st => Op.exec s c op st) c h.run st

variable {F decode}

variable (F decode) in
/-- A request alone ends without having asked anything, or it is its handler
alone, in a session of its user. -/
theorem handle_cases (a : Arrival) :
    (userId (arrive F decode a) = none ∧ ∃ o, ∀ c st, handle F decode a c st = (o, st)) ∨
    ∃ user s, userId (arrive F decode a) = some user.sub ∧ s.LoggedIn ∧
      s.mayWrite user.sub = true ∧
      ∀ c st, handle F decode a c st = runHandler s c (handler F ⟨some user⟩ a.request) st := by
  obtain ⟨e, s, h⟩ | ⟨⟨user⟩, s, h, hid⟩ := arrive_cases F decode a
  · exact .inl ⟨by rw [h]; rfl, _, fun c st => by rw [handle, h]; rfl⟩
  · cases user with
    | none =>
        obtain ⟨e, he⟩ := handler_anonymous (F := F) a.request
        exact .inl ⟨by rw [h]; rfl, _, fun c st => by rw [handle, h, he]; rfl⟩
    | some user =>
        refine .inr ⟨user, s, by rw [h]; rfl, hid.loggedIn, ?_, fun c st => ?_⟩
        · rw [hid.mayWrite_eq rfl, beq_self_eq_true]
        · rw [handle, h]
          rfl

/-! ### The rows of a user -/

section

variable {st : Store} {u : Uuid} {row : ProfileRow}

/-- A user has one row. -/
theorem Store.eq_of_userId (hrow : row ∈ st.profiles.rows) (hu : row.userId = u)
    {row' : ProfileRow} (hrow' : row' ∈ st.profiles.rows) (hu' : row'.userId = u) :
    row' = row :=
  List.inj_on_of_nodup_map st.profiles.keys hrow' hrow (hu'.trans hu.symm)

theorem mem_filter_userId {rows : List ProfileRow} :
    (row ∈ rows.filter fun r => r.userId == u) ↔ row ∈ rows ∧ row.userId = u := by
  simp only [List.mem_filter, beq_iff_eq]

theorem Store.refers_iff (hrow : row ∈ st.profiles.rows) (hu : row.userId = u) {key : String} :
    st.Refers u key ↔ row.avatarKey = some key := by
  constructor
  · rintro ⟨row', hrow', hu', hkey⟩
    rwa [Store.eq_of_userId hrow hu hrow' hu'] at hkey
  · intro hkey
    exact ⟨row, hrow, hu, hkey⟩

theorem Store.avatar_eq (hrow : row ∈ st.profiles.rows) (hu : row.userId = u) :
    st.avatar u = (row.avatarLocation, row.avatarKey.bind st.objects) := by
  rw [Store.avatar]
  cases hfind : st.profiles.rows.find? fun r => r.userId == u with
  | none =>
      have hnone := List.find?_eq_none.mp hfind row hrow
      rw [hu, beq_self_eq_true] at hnone
      exact absurd rfl hnone
  | some row' =>
      have hu' := List.find?_some hfind
      simp only [beq_iff_eq] at hu'
      rw [Store.eq_of_userId hrow hu (List.mem_of_find?_eq_some hfind) hu']

/-- The key of a row, by the location that is read from it. -/
theorem DbUserProfile.avatarKey_of_ofRow {profile : DbUserProfile}
    (h : DbUserProfile.ofRow row = some profile) :
    row.avatarKey = profile.avatarLocation.bind fun location =>
      match location.location with
      | .s3 => some location.key
      | .userService => none := by
  rw [DbUserProfile.ofRow] at h
  rw [ProfileRow.avatarKey]
  cases hlocation : row.avatarLocation with
  | none =>
      rw [hlocation] at h
      obtain rfl := Option.some.inj h
      rfl
  | some value =>
      rw [hlocation] at h
      obtain ⟨⟨origin, path⟩, hvalue, rfl⟩ := Option.map_eq_some_iff.mp h
      cases origin <;> simp [hvalue]

/-- A row that cannot be read refers to no object. -/
theorem DbUserProfile.avatarKey_of_unread (h : DbUserProfile.ofRow row = none) :
    row.avatarKey = none := by
  rw [DbUserProfile.ofRow] at h
  rw [ProfileRow.avatarKey]
  cases hlocation : row.avatarLocation with
  | none => rfl
  | some value =>
      rw [hlocation] at h
      simp [Option.map_eq_none_iff.mp h]

end

/-! ### The three steps -/

section

variable {α : Type} {s : Session} {c : ℕ → Choice} {st : Store} {u : Uuid}

theorem runHandler_ask (op : Op) (f : op.Res → Handler α) :
    runHandler s c (ask op >>= f) st =
      runHandler s (fun n => c (n + 1)) (f (op.exec s (c 0) st).1) (op.exec s (c 0) st).2 := rfl

/-- The object of this key is deleted. -/
def Store.delete (st : Store) (key : String) : Store :=
  { st with objects := Function.update st.objects key none }

theorem exec_selectProfile (hs : s.LoggedIn) (c : Choice) :
    (Op.selectProfile u).exec s c st =
      (if c.fails then .error .connectionLost
        else .ok (st.profiles.rows.filter fun r => r.userId == u), st) := by
  rw [Op.exec, profiles_select hs]
  unfold statement
  cases c.fails <;> rfl

/-- The lookup of the profile. -/
theorem runHandler_getUserProfile (hs : s.LoggedIn) (c : ℕ → Choice) (st : Store) (u : Uuid)
    (f : DbUserProfile → Handler Reply) :
    (∃ e, runHandler s c (getUserProfile u >>= f) st = (.error e, st) ∧
      ((c 0).fails = true ∨ ∀ key, ¬ st.Refers u key)) ∨
    ∃ row profile, row ∈ st.profiles.rows ∧ row.userId = u ∧
      DbUserProfile.ofRow row = some profile ∧ (c 0).fails = false ∧
      runHandler s c (getUserProfile u >>= f) st =
        runHandler s (fun n => c (n + 1)) (f profile) st := by
  rw [getUserProfile, bind_assoc, runHandler_ask, exec_selectProfile hs]
  cases hfails : (c 0).fails with
  | true => exact .inl ⟨_, rfl, .inl rfl⟩
  | false =>
      rw [if_neg Bool.false_ne_true]
      dsimp only
      rw [wrapErr, pure_bind]
      obtain ⟨e, hunread, heq⟩ | ⟨row, profile, hhead, hprofile, heq⟩ :=
        theProfile_cases (st.profiles.rows.filter fun r => r.userId == u) <;> rw [heq]
      · refine .inl ⟨_, rfl, .inr ?_⟩
        rintro key ⟨row, hrow, hu, hkey⟩
        -- the row that was found is the one that refers to the object
        have hmem := mem_filter_userId.mpr ⟨hrow, hu⟩
        obtain ⟨row', hhead⟩ := Option.isSome_iff_exists.mp
          (List.isSome_head?.mpr (List.ne_nil_of_mem hmem))
        obtain ⟨hrow', hu'⟩ := mem_filter_userId.mp (List.mem_of_mem_head? hhead)
        obtain rfl := Store.eq_of_userId hrow hu hrow' hu'
        rw [DbUserProfile.avatarKey_of_unread (hunread _ hhead)] at hkey
        cases hkey
      · obtain ⟨hrow, hu⟩ := mem_filter_userId.mp (List.mem_of_mem_head? hhead)
        exact .inr ⟨row, profile, hrow, hu, hprofile, rfl, rfl⟩

/-- The deletion of the object that was read. -/
theorem runHandler_deleteCurrent {row : ProfileRow} {profile : DbUserProfile}
    (hrow : DbUserProfile.ofRow row = some profile) (c : ℕ → Choice) (st : Store)
    (f : Unit → Handler Reply) :
    (∃ e, runHandler s c (deleteCurrent profile >>= f) st = (.error e, st) ∧
      (row.avatarKey = none ∨ (c 0).fails = true)) ∨
    (row.avatarKey = none ∧
      runHandler s c (deleteCurrent profile >>= f) st = runHandler s c (f ()) st) ∨
    ∃ key, row.avatarKey = some key ∧ (c 0).fails = false ∧
      runHandler s c (deleteCurrent profile >>= f) st =
        runHandler s (fun n => c (n + 1)) (f ()) (st.delete key) := by
  rw [DbUserProfile.avatarKey_of_ofRow hrow, deleteCurrent]
  cases profile.avatarLocation with
  | none => exact .inr (.inl ⟨rfl, rfl⟩)
  | some location =>
      dsimp only
      rw [deleteUrl, Option.bind_some]
      cases location.location with
      | userService => exact .inl ⟨_, rfl, .inl rfl⟩
      | s3 =>
          dsimp only
          rw [bind_assoc, runHandler_ask, Op.exec]
          cases hfails : (c 0).fails with
          | true => exact .inl ⟨_, rfl, .inr rfl⟩
          | false => exact .inr (.inr ⟨_, rfl, rfl, rfl⟩)

theorem exists_statement {β : Type} {c : Choice} {result : Except SqlError (β × Profiles)} :
    (∃ b, (statement c st result).1 = .ok b) ↔ c.fails = false ∧ ∃ x, result = .ok x := by
  unfold statement
  cases c.fails with
  | true => simp
  | false => cases result <;> simp

/-- Of the two texts of a location, the path is the one of the client. -/
theorem storable_serialize {new : Option UrlLocation} :
    Storable (((new.map UrlLocation.serialize).getD []).map Prod.snd) ↔
      ∀ location ∈ new, Storable [location.path] := by
  cases new with
  | none => simp [Storable]
  | some location =>
      have horigin : Char.ofNat 0 ∉ location.location.serialize.toList := by
        cases location.location <;> decide
      simp [Storable, UrlLocation.serialize, horigin]

/-- An update of one's own profile that keeps its key passes the policies and
the primary key. -/
theorem exists_update (hs : s.LoggedIn) (hmay : s.mayWrite u = true) (p : Profiles)
    {f : ProfileRow → ProfileRow} (hf : ∀ r, (f r).userId = r.userId) :
    ∃ n rows p', profilesTable.update Role.member s.role s (fun r => r.userId == u) f p.rows =
      .ok (n, rows) ∧ commit rows = .ok p' := by
  have hgranted : profilesTable.granted Role.member s.role .update = true := by
    rw [granted_write hs rfl rfl (by decide), (Session.mayWrite_eq_true.mp hmay).1]
    rfl
  have hupdate : profilesTable.update Role.member s.role s (fun r => r.userId == u) f p.rows = _ :=
    Table.update_eq (q := fun r => s.mayWrite r.userId) hgranted (granted_select hs rfl)
      (fun r => (profiles_passes hs r).1) (fun r => (profiles_passes hs r).2.2.1)
      (fun r => (profiles_passes hs r).2.2.2) fun r => by rw [hf r]
  refine ⟨_, _, _, hupdate, dif_pos ?_⟩
  rw [map_setWhere hf]
  exact p.keys

/-- **When an update is accepted.** -/
theorem exec_updateAvatar_ok (hs : s.LoggedIn) (hmay : s.mayWrite u = true) (c : Choice)
    (new : Option UrlLocation) :
    (∃ n, ((Op.updateAvatar u (new.map UrlLocation.serialize)).exec s c st).1 = .ok n) ↔
      ¬ UpdateRefused c new := by
  have hrefused : ¬ UpdateRefused c new ↔ c.fails = false ∧
      Storable (((new.map UrlLocation.serialize).getD []).map Prod.snd) := by
    rw [storable_serialize, UpdateRefused, not_or, Bool.not_eq_true]
    simp only [not_exists, not_and, not_not]
  obtain ⟨n, rows, p, hupdate, hcommit⟩ := exists_update hs hmay st.profiles
    (f := ProfileRow.setAvatar (new.map UrlLocation.serialize)) fun _ => rfl
  rw [hrefused, Op.exec, exists_statement, exists_checkText, hupdate]
  refine and_congr_right fun _ => and_iff_left ⟨(n, p), ?_⟩
  change (commit rows >>= fun p => pure (n, p)) = _
  rw [hcommit]
  rfl

theorem exec_updateAvatar (hs : s.LoggedIn) (hmay : s.mayWrite u = true) (c : Choice)
    (new : Option UrlLocation) :
    (UpdateRefused c new ∧ ∃ e,
      (Op.updateAvatar u (new.map UrlLocation.serialize)).exec s c st = (.error e, st)) ∨
    ¬ UpdateRefused c new ∧ ∃ n st',
      (Op.updateAvatar u (new.map UrlLocation.serialize)).exec s c st = (.ok n, st') := by
  obtain ⟨e, he, hst⟩ | ⟨n, hn, -⟩ :=
    Op.exec_cases hs c (.updateAvatar u (new.map UrlLocation.serialize)) st
  · refine .inl ⟨?_, e, Prod.ext he hst⟩
    by_contra hnot
    obtain ⟨n, hn⟩ := (exec_updateAvatar_ok hs hmay c new).mpr hnot
    cases he.symm.trans hn
  · exact .inr ⟨(exec_updateAvatar_ok hs hmay c new).mp ⟨n, hn⟩, n, _, Prod.ext hn rfl⟩

/-- The update of the location, and what the handler does after it. -/
def writeLocation (u : Uuid) (new : Option UrlLocation) (rest : ℕ → Handler Reply) :
    Handler Reply := do
  let n ← wrapErr "Failed to insert user profile into database" .unprocessableEntity
    (← ask (.updateAvatar u (new.map UrlLocation.serialize)))
  rest n

theorem runHandler_writeLocation (hs : s.LoggedIn) (hmay : s.mayWrite u = true)
    (c : ℕ → Choice) (st : Store) (new : Option UrlLocation) (rest : ℕ → Handler Reply) :
    (UpdateRefused (c 0) new ∧ ∃ e,
      runHandler s c (writeLocation u new rest) st = (.error (.error e), st)) ∨
    ¬ UpdateRefused (c 0) new ∧ ∃ n st', runHandler s c (writeLocation u new rest) st =
      runHandler s (fun n => c (n + 1)) (rest n) st' := by
  rw [writeLocation, runHandler_ask]
  obtain ⟨hrefused, e, h⟩ | ⟨haccepted, n, st', h⟩ :=
    exec_updateAvatar hs hmay (c 0) new
  · exact .inl ⟨hrefused, ⟨_, _, some e⟩, by rw [h]; rfl⟩
  · exact .inr ⟨haccepted, n, st', by rw [h]; rfl⟩

end

/-! ### The two handlers -/

/-- A handler that ends with no error, unless it panics. -/
def Completes (h : Handler Reply) : Prop :=
  ∀ s c st e, (runHandler s c h st).1 = .error e → e = .panic

theorem completes_resolvePutUrl {location : UrlLocation} {contentType : String} :
    Completes (do return .putUrl (← resolvePutUrl location contentType)) := by
  intro s c st e h
  rw [resolvePutUrl] at h
  cases horigin : location.location with
  | userService =>
      rw [horigin] at h
      cases h
  | s3 =>
      rw [horigin] at h
      dsimp only at h
      rw [bind_assoc, runHandler_ask, Op.exec] at h
      cases hfails : (c 0).fails <;> rw [hfails] at h <;> cases h
      rfl

/-- What the two handlers have in common: they read the profile, delete the
object that it refers to, and write the new location. -/
def replaceAvatar (u : Uuid) (new : Option UrlLocation) (rest : ℕ → Handler Reply) :
    Handler Reply := do
  let currentProfile ← getUserProfile u
  deleteCurrent currentProfile
  writeLocation u new rest

theorem handler_newAvatar {user : UserClaims} {r : Request} {new : Option UrlLocation}
    (hr : r.newAvatar F user.sub = some new) :
    ∃ rest, (∀ n, Completes (rest n)) ∧
      handler F ⟨some user⟩ r = replaceAvatar user.sub new rest := by
  cases r with
  | putAvatar q =>
      obtain rfl := Option.some.inj hr
      exact ⟨_, fun _ => completes_resolvePutUrl, rfl⟩
  | deleteAvatar =>
      obtain rfl := Option.some.inj hr
      refine ⟨fun _ => pure .unit, fun _ s c st e h => ?_, rfl⟩
      cases h
  | createProfile | getProfile | updateProfile => cases hr

section

variable {s : Session} {c : ℕ → Choice} {st : Store} {u : Uuid} {new : Option UrlLocation}
  {rest : ℕ → Handler Reply}

theorem keepsAvatar_self (o : Outcome) (st : Store) : KeepsAvatar o st st := fun _ _ _ _ => rfl

/-- The last step, in a store where an object may be gone. -/
theorem keepsAvatar_writeLocation (hs : s.LoggedIn) (hmay : s.mayWrite u = true)
    (hrest : ∀ n, Completes (rest n)) (st₁ : Store) :
    KeepsAvatar (runHandler s c (writeLocation u new rest) st₁).1 st
        (runHandler s c (writeLocation u new rest) st₁).2 ↔
      (UpdateRefused (c 0) new → ∀ v, st₁.avatar v = st.avatar v) := by
  obtain ⟨hrefused, e, h⟩ | ⟨haccepted, n, st', h⟩ :=
    runHandler_writeLocation hs hmay c st₁ new rest <;> rw [h]
  · exact ⟨fun hkeeps _ => hkeeps _ rfl nofun, fun hkeeps _ _ _ => hkeeps hrefused⟩
  · refine iff_of_true (fun e he hpanic => ?_) fun hrefused => absurd hrefused haccepted
    exact absurd (hrest n _ _ _ _ he) hpanic

/-- A deletion takes an avatar if the object was stored. -/
theorem avatar_delete {row : ProfileRow} (hrow : row ∈ st.profiles.rows) {key : String}
    (hkey : row.avatarKey = some key) :
    (∀ v, (st.delete key).avatar v = st.avatar v) ↔ st.objects key = none := by
  constructor
  · intro h
    have hafter : (st.delete key).avatar row.userId = _ := Store.avatar_eq hrow rfl
    rw [h, Store.avatar_eq hrow rfl, hkey] at hafter
    exact (Prod.mk.inj hafter).2.trans (Function.update_self ..)
  · intro h v
    have hdelete : st.delete key = st := by
      rw [Store.delete, ← h, Function.update_eq_self]
    rw [hdelete]

/-- **The three steps together.** -/
theorem keepsAvatar_iff (hs : s.LoggedIn) (hmay : s.mayWrite u = true)
    (hrest : ∀ n, Completes (rest n)) (c : ℕ → Choice) (st : Store) :
    KeepsAvatar (runHandler s c (replaceAvatar u new rest) st).1 st
        (runHandler s c (replaceAvatar u new rest) st).2 ↔
      ¬ ((∃ key, st.Refers u key ∧ (st.objects key).isSome = true) ∧
        (c 0).fails = false ∧ (c 1).fails = false ∧ UpdateRefused (c 2) new) := by
  rw [replaceAvatar]
  obtain ⟨e, h, hnot⟩ | ⟨row, profile, hrow, hu, hprofile, hread, h⟩ :=
    runHandler_getUserProfile hs c st u fun currentProfile => do
      deleteCurrent currentProfile
      writeLocation u new rest <;> rw [h]
  · refine iff_of_true (keepsAvatar_self _ _) ?_
    rintro ⟨⟨key, hkey, -⟩, hread, -⟩
    obtain hfails | hnot := hnot
    · rw [hread] at hfails
      cases hfails
    · exact hnot key hkey
  · simp only [Store.refers_iff hrow hu, hread, true_and]
    obtain ⟨e, h, hnot⟩ | ⟨hnone, h⟩ | ⟨key, hkey, hdelete, h⟩ :=
      runHandler_deleteCurrent hprofile (fun n => c (n + 1)) st fun _ =>
        writeLocation u new rest <;> rw [h]
    · refine iff_of_true (keepsAvatar_self _ _) ?_
      rintro ⟨⟨key, hkey, -⟩, hdelete, -⟩
      obtain hnone | hfails := hnot
      · cases hnone.symm.trans hkey
      · cases hfails.symm.trans hdelete
    · rw [keepsAvatar_writeLocation hs hmay hrest]
      refine iff_of_true (fun _ _ => rfl) ?_
      rintro ⟨⟨key, hkey, -⟩, -⟩
      cases hnone.symm.trans hkey
    · rw [keepsAvatar_writeLocation hs hmay hrest, avatar_delete hrow hkey, hkey]
      simp only [Option.some.injEq, exists_eq_left', hdelete, true_and]
      rw [← Option.not_isSome_iff_eq_none, not_and, imp_not_comm]

end

/-- **When a failed request keeps the avatars.**  In every store: an error of
`put_avatar` or `delete_avatar` leaves every location and the object it refers to
as they were exactly if the request is not one that loses them. -/
theorem failed_keepsAvatar (F : UuidFormat) (decode : String → Except String UserClaims)
    (a : Arrival) (ha : (∃ q, a.request = .putAvatar q) ∨ a.request = .deleteAvatar)
    (c : ℕ → Choice) (st : Store) :
    KeepsAvatar (handle F decode a c st).1 st (handle F decode a c st).2 ↔
      ¬ Loses F decode a c st := by
  obtain ⟨hnone, o, h⟩ | ⟨user, s, huser, hs, hmay, h⟩ := handle_cases F decode a <;> rw [h]
  · refine iff_of_true (keepsAvatar_self _ _) ?_
    rintro ⟨u, new, hu, -⟩
    cases hnone.symm.trans hu
  · obtain ⟨new, hnew⟩ : ∃ new, a.request.newAvatar F user.sub = some new := by
      obtain ⟨q, ha⟩ | ha := ha <;> exact ⟨_, by rw [ha]; rfl⟩
    obtain ⟨rest, hrest, hhandler⟩ := handler_newAvatar hnew
    rw [hhandler, keepsAvatar_iff hs hmay hrest, Loses]
    refine not_congr ⟨fun hloses => ⟨user.sub, new, huser, hnew, hloses⟩, ?_⟩
    rintro ⟨u, new', hu, hnew', hloses⟩
    obtain rfl := Option.some.inj (huser.symm.trans hu)
    obtain rfl := Option.some.inj (hnew.symm.trans hnew')
    exact hloses

/-- A request of user 1. -/
def byOne (r : Request) : Arrival := ⟨⟨true, .bearer "", fun _ => false⟩, ⟨.anon, none⟩, r⟩

/-- The store after user 1 has put an avatar and uploaded it. -/
def withAvatar : Store :=
  (run .hyphenated tokenOfOne ([arrival (.createProfile ⟨"John Doe", ""⟩)] ++ steps 0 1 ++
    [arrival (.putAvatar ⟨"png"⟩)] ++ steps 1 3 ++ [.upload 1 [137, 80]]) initial).shared

/-- A NUL character in the extension, or an update that fails: the object is
gone, and the profile refers to it. -/
theorem failed_loses_avatar :
    let put := handle .hyphenated tokenOfOne
      (byOne (.putAvatar ⟨String.singleton (Char.ofNat 0)⟩)) (fun _ => {}) withAvatar
    let deletion := handle .hyphenated tokenOfOne (byOne .deleteAvatar)
      (fun n => { fails := n == 2 }) withAvatar
    ¬ KeepsAvatar put.1 withAvatar put.2 ∧ ¬ KeepsAvatar deletion.1 withAvatar deletion.2 := by
  refine ⟨fun h => ?_, fun h => ?_⟩
  · exact absurd (h _ rfl nofun 1) (by decide +kernel)
  · exact absurd (h _ rfl nofun 1) (by decide +kernel)

/-- The deletion of the object fails, and the avatar is kept. -/
theorem failed_keepsAvatar_first :
    let o := handle .hyphenated tokenOfOne (byOne .deleteAvatar) (fun n => { fails := n == 1 })
      withAvatar
    KeepsAvatar o.1 withAvatar o.2 := by
  refine (failed_keepsAvatar .hyphenated tokenOfOne (byOne .deleteAvatar) (.inr rfl) _ _).mpr ?_
  rintro ⟨u, new, -, -, -, -, hdelete, -⟩
  cases hdelete

end User

end Lockinspiel
