/-
Lockinspiel/AvatarKeys.lean

Avatar operations stay within the caller's own objects.

The key that is deleted comes out of the database, and the key that is signed
for an upload out of a string of the client.  Both begin with `avatars/`, the
id of the user of the request and a dot: a row refers to no avatar or to one of
its own user (`OwnAvatar`), so what a request reads does as well, and nothing
else gets into a row.  No policy is needed for that, since the handlers write
the rows of their own user only.
-/
import Lockinspiel.UserService

namespace Lockinspiel

namespace User

open Effects Sql

variable {F : UuidFormat} {decode : String → Except String UserClaims}

/-! ### Rows and operations -/

variable (F) in
/-- The row refers to no avatar, or to one of its own user. -/
def OwnAvatar (r : ProfileRow) : Prop :=
  r.avatarLocation = none ∨ ∃ e, r.avatarLocation = some (avatarAt F r.userId e).serialize

/-- The key of the object that a row refers to. -/
def ProfileRow.avatarKey (r : ProfileRow) : Option String := do
  let location ← UrlLocation.deserialize (← r.avatarLocation)
  match location.location with
  | .s3 => some location.key
  | .userService => none

theorem OwnAvatar.avatarKey {r : ProfileRow} (h : OwnAvatar F r) {key : String}
    (hkey : r.avatarKey = some key) : ∃ e, key = avatarPath F r.userId e := by
  rw [ProfileRow.avatarKey] at hkey
  obtain hnone | ⟨e, hsome⟩ := h
  · rw [hnone] at hkey
    cases hkey
  · rw [hsome] at hkey
    simp only [Option.bind_eq_bind, Option.bind_some, UrlLocation.deserialize_serialize] at hkey
    refine ⟨e, (Option.some.inj hkey).symm.trans (key_avatarAt _ _)⟩

/-- The key of an object that an operation deletes or signs for upload. -/
def Op.writes : Op → Option String
  | .deleteObject key | .presignPut key _ => some key
  | .insertProfile .. | .selectProfile _ | .updateAvatar .. | .updateProfile .. | .presignGet _ =>
      none

/-- The operations that a request has asked, and the one it is about to
ask. -/
def operations (t : Worker) : List Op := t.prog.next.toList ++ t.past.map Sigma.fst

/-! ### What a request was answered -/

variable (F) in
/-- What was read are rows of the user who was asked for, who has a profile, and
a URL that was presigned is for the key that was asked for. -/
structure Answered (st : Store) (past : List ops.Event) : Prop where
  rows : ∀ userId, ∀ rows : List ProfileRow, ⟨.selectProfile userId, .ok rows⟩ ∈ past →
    ∀ row ∈ rows, row.userId = userId ∧ OwnAvatar F row ∧ userId ∈ st.userIds
  urls : ∀ key contentType url, ⟨.presignPut key contentType, some url⟩ ∈ past →
    url = .s3Put key contentType

section

variable {st : Store} {userId : Uuid} {past : List ops.Event} {profile : DbUserProfile}

/-- A row of one's own is read as it is. -/
theorem OwnAvatar.ofRow {row : ProfileRow} (h : OwnAvatar F row) :
    ∃ profile, DbUserProfile.ofRow row = some profile ∧
      ∀ location, profile.avatarLocation = some location →
        ∃ e, location = avatarAt F row.userId e := by
  rw [DbUserProfile.ofRow]
  obtain hnone | ⟨e, hsome⟩ := h
  · rw [hnone]
    exact ⟨_, rfl, nofun⟩
  · rw [hsome]
    simp only [UrlLocation.deserialize_serialize, Option.map_some]
    refine ⟨_, rfl, ?_⟩
    rintro location ⟨⟩
    exact ⟨e, rfl⟩

theorem Read.own (h : Read userId past profile) (hpast : Answered F st past) :
    userId ∈ st.userIds ∧ ∀ location, profile.avatarLocation = some location →
      ∃ e, location = avatarAt F userId e := by
  obtain ⟨hrow, hprofile⟩ := h
  obtain ⟨rfl, hown, hmem⟩ :=
    hpast.rows userId _ List.mem_cons_self _ (List.mem_of_mem_head? hrow)
  obtain ⟨profile', hprofile', hlocation⟩ := hown.ofRow
  obtain rfl := Option.some.inj (hprofile'.symm.trans hprofile)
  exact ⟨hmem, hlocation⟩

theorem Answered.tail {e : ops.Event} (h : Answered F st (e :: past)) : Answered F st past :=
  ⟨fun u rows hmem => h.rows u rows (List.mem_cons_of_mem _ hmem),
    fun key contentType url hmem => h.urls key contentType url (List.mem_cons_of_mem _ hmem)⟩

theorem Cleared.own (h : Cleared userId past) (hpast : Answered F st past) :
    userId ∈ st.userIds := by
  cases h with
  | nothing h => exact (h.own hpast).1
  | deleted h => exact (h.own hpast.tail).1

/-- What a request deletes or signs is an avatar of its own user. -/
theorem Asks.own {r : Request} {op : Op} (h : Asks F userId r past op) (hpast : Answered F st past)
    {key : String} (hkey : op.writes = some key) : ∃ e, key = avatarPath F userId e := by
  cases h with
  | deleteObject hr h hsome =>
      obtain ⟨e, rfl⟩ := (h.own hpast).2 _ hsome
      exact ⟨e, (Option.some.inj hkey).symm.trans (key_avatarAt _ _)⟩
  | presignPut h => exact ⟨_, (Option.some.inj hkey).symm.trans (key_avatarAt _ _)⟩
  | insertProfile | updateProfile | selectProfile | presignGet | updateAvatar => cases hkey

/-- ... and so is what it makes its profile refer to. -/
theorem Request.newAvatar_own {r : Request} {new : Option UrlLocation}
    (h : r.newAvatar F userId = some new) {row : ProfileRow} (hrow : row.userId = userId) :
    OwnAvatar F (row.setAvatar (new.map UrlLocation.serialize)) := by
  cases r with
  | putAvatar q =>
      obtain rfl := Option.some.inj h
      exact .inr ⟨q.fileExtension, by rw [← hrow]; rfl⟩
  | deleteAvatar =>
      obtain rfl := Option.some.inj h
      exact .inl rfl
  | createProfile | getProfile | updateProfile => cases h

end

/-! ### Runs -/

variable (F decode) in
/-- Every request works, every row refers to its own avatar, and so does what
was read. -/
structure Inv (cfg : ServiceState) : Prop where
  sound : ∀ t ∈ cfg.threads, Sound F decode t
  rows : ∀ r ∈ cfg.shared.profiles.rows, OwnAvatar F r
  answered : ∀ t ∈ cfg.threads, Answered F cfg.shared t.past
  keys : ∀ t ∈ cfg.threads, ∀ user, Working F decode t user → ∀ op ∈ t.past.map Sigma.fst,
    ∀ key, op.writes = some key → ∃ e, key = avatarPath F user.sub e

theorem inv_initial : Inv F decode initial :=
  ⟨fun _ h => absurd h List.not_mem_nil, fun _ h => absurd h List.not_mem_nil,
    fun _ h => absurd h List.not_mem_nil, fun _ h => absurd h List.not_mem_nil⟩

/-- What the request of this user asks leaves every row with its own avatar. -/
theorem Asks.rows {userId : Uuid} {r : Request} {past : List ops.Event} {op : Op}
    (hasks : Asks F userId r past op) {s : Session} {st st' : Store} {res : op.Res}
    (hdoes : op.Does s st res st') (hrows : ∀ r ∈ st.profiles.rows, OwnAvatar F r) :
    ∀ r ∈ st'.profiles.rows, OwnAvatar F r := by
  obtain heq | ⟨row, hrow, heq⟩ | ⟨u, new, rfl, heq⟩ | ⟨p, displayName, bio, heq⟩ :=
    hdoes.rows_cases <;> rw [heq]
  · exact hrows
  · intro r hr
    rcases List.mem_append.mp hr with hr | hr
    · exact hrows r hr
    · rw [List.mem_singleton.mp hr]
      exact .inl hrow
  · intro r hr
    rcases mem_setWhere.mp hr with ⟨r₀, hr₀, hp, rfl⟩ | ⟨hr, -⟩
    · cases hasks with
      | updateAvatar hnew =>
          rw [Bool.and_eq_true, beq_iff_eq] at hp
          exact Request.newAvatar_own hnew hp.2
    · exact hrows r hr
  · intro r hr
    rcases mem_setWhere.mp hr with ⟨r₀, hr₀, -, rfl⟩ | ⟨hr, -⟩
    · exact hrows r₀ hr₀
    · exact hrows r hr

/-- What was answered stays so, whatever is asked. -/
theorem Answered.mono {st st' : Store} {past : List ops.Event} (h : Answered F st past)
    (hsub : st.userIds ⊆ st'.userIds) : Answered F st' past := by
  refine ⟨fun u rows hmem row hrow => ?_, h.urls⟩
  obtain ⟨huser, hown, hprofile⟩ := h.rows u rows hmem row hrow
  exact ⟨huser, hown, hsub hprofile⟩

/-- What an operation answers. -/
theorem Answered.cons {s : Session} {st st' : Store} {op : Op} {r : op.Res}
    {past : List ops.Event} (h : Answered F st past) (hdoes : op.Does s st r st')
    (hrows : ∀ r ∈ st.profiles.rows, OwnAvatar F r) : Answered F st' (⟨op, r⟩ :: past) := by
  have hpast := h.mono hdoes.userIds_subset
  refine ⟨fun u rows hmem => ?_, fun key contentType url hmem => ?_⟩
  · rcases List.mem_cons.mp hmem with heq | hmem
    · cases heq
      obtain ⟨rfl, ⟨e, herror⟩ | hok⟩ := hdoes
      · cases herror
      · obtain rfl := Except.ok.inj hok
        intro row hrow
        obtain ⟨hstored, hu⟩ := List.mem_filter.mp hrow
        obtain rfl := beq_iff_eq.mp hu
        exact ⟨rfl, hrows row hstored, List.mem_map_of_mem hstored⟩
    · exact hpast.rows u rows hmem
  · rcases List.mem_cons.mp hmem with heq | hmem
    · cases heq
      obtain ⟨-, hnone | hsome⟩ := hdoes
      · cases hnone
      · exact Option.some.inj hsome
    · exact hpast.urls key contentType url hmem

variable (F decode) in
/-- What the invariant says of one request. -/
structure ThreadInv (st : Store) (t : Worker) : Prop where
  sound : Sound F decode t
  answered : Answered F st t.past
  keys : ∀ user, Working F decode t user → ∀ op ∈ t.past.map Sigma.fst,
    ∀ key, op.writes = some key → ∃ e, key = avatarPath F user.sub e

theorem Inv.thread {cfg : ServiceState} (h : Inv F decode cfg) {t : Worker}
    (ht : t ∈ cfg.threads) : ThreadInv F decode cfg.shared t :=
  ⟨h.sound t ht, h.answered t ht, h.keys t ht⟩

theorem Inv.of_threads {cfg : ServiceState}
    (hrows : ∀ r ∈ cfg.shared.profiles.rows, OwnAvatar F r)
    (h : ∀ t ∈ cfg.threads, ThreadInv F decode cfg.shared t) : Inv F decode cfg :=
  ⟨fun t ht => (h t ht).sound, hrows, fun t ht => (h t ht).answered, fun t ht => (h t ht).keys⟩

theorem ThreadInv.mono {st st' : Store} {t : Worker} (h : ThreadInv F decode st t)
    (hsub : st.userIds ⊆ st'.userIds) : ThreadInv F decode st' t :=
  ⟨h.sound, h.answered.mono hsub, h.keys⟩

theorem threadInv_arrive (st : Store) (a : Arrival) :
    ThreadInv F decode st (arrive F decode a) := by
  have hpast : (arrive F decode a).past = [] := by
    rw [arrive]
    split <;> rfl
  refine ⟨sound_arrive a, ?_, fun user _ op hop => ?_⟩
  · rw [hpast]
    exact ⟨fun _ _ h => absurd h List.not_mem_nil, fun _ _ _ h => absurd h List.not_mem_nil⟩
  · rw [hpast] at hop
    cases hop

/-- The request that takes a step. -/
theorem ThreadInv.resume {l : Context} {past : List ops.Event} {op : Op}
    {k : op.Res → Program ops Outcome} {st st' : Store} {res : op.Res} {user : UserClaims}
    (h : ThreadInv F decode st ⟨l, past, .call op k⟩)
    (hw : Working F decode ⟨l, past, .call op k⟩ user) (hdoes : op.Does l.session st res st')
    (hrows : ∀ r ∈ st.profiles.rows, OwnAvatar F r) :
    ThreadInv F decode st' ⟨l, ⟨op, res⟩ :: past, k res⟩ := by
  refine ⟨.inl ⟨user, hw.resume res⟩, h.answered.cons hdoes hrows,
    fun user' hw' op' hop key hkey => ?_⟩
  obtain rfl := hw'.unique (hw.resume res)
  rcases List.mem_cons.mp hop with rfl | hop
  · exact hw.follows.1.own h.answered hkey
  · exact h.keys _ hw op' hop key hkey

/-- **One event** keeps everybody at their own avatar. -/
theorem inv_step {cfg : ServiceState} (h : Inv F decode cfg) (e : Event) :
    Inv F decode (step F decode cfg e) := by
  obtain ⟨a, -, heq⟩ | ⟨i, c, l, past, op, k, -, hi, heq⟩ |
    ⟨i, body, t, key, contentType, -, hi, -, heq⟩ | heq := step_cases F decode cfg e <;> rw [heq]
  · refine .of_threads h.rows fun t ht => ?_
    rcases List.mem_append.mp ht with ht | ht
    · exact h.thread ht
    · rw [List.mem_singleton.mp ht]
      exact threadInv_arrive _ a
  · have ht₀ := List.mem_of_getElem? hi
    obtain ⟨user, hw, hasks⟩ := (h.sound _ ht₀).working
    have hdoes := Op.exec_cases hw.loggedIn c op cfg.shared
    refine .of_threads (hasks.rows hdoes h.rows) fun t ht => ?_
    obtain ht | rfl := List.mem_or_eq_of_mem_set ht
    · exact (h.thread ht).mono hdoes.userIds_subset
    · exact (h.thread ht₀).resume hw hdoes h.rows
  · exact .of_threads h.rows fun t ht => (h.thread ht).mono (List.Subset.refl _)
  · exact h

theorem inv_run (events : List Event) {cfg : ServiceState} (h : Inv F decode cfg) :
    Inv F decode (run F decode events cfg) := by
  induction events generalizing cfg with
  | nil => exact h
  | cons e events ih => exact ih (inv_step h e)

/-- What a request has asked, and what it is about to ask, is about its own
avatars. -/
theorem Inv.own {cfg : ServiceState} (h : Inv F decode cfg) {t : Worker} (ht : t ∈ cfg.threads)
    {user : UserClaims} (hw : Working F decode t user) {op : Op} (hop : op ∈ operations t)
    {key : String} (hkey : op.writes = some key) : ∃ e, key = avatarPath F user.sub e := by
  rcases List.mem_append.mp hop with hop | hop
  · obtain ⟨l, past, a | ⟨op', k⟩⟩ := t
    · cases hop
    · obtain rfl := List.mem_singleton.mp hop
      exact hw.follows.1.own (h.answered _ ht) hkey
  · exact h.keys t ht user hw op hop key hkey

theorem Replies.unable_of {userId : Uuid} {r : Request} {past : List ops.Event}
    (h : Replies F userId r past (.error (.resolution .deletingFromUserService))) :
    ∃ profile location, Read userId past profile ∧ profile.avatarLocation = some location ∧
      location.location ≠ .s3 := by
  cases h with
  | failed hpast hs | unread hrows hs => exact absurd rfl hs
  | unable hread hsome hs3 => exact ⟨_, _, hread, hsome, hs3⟩
  | other hr ha hurl => exact absurd rfl ha

/-- No location is one that the service cannot delete from. -/
theorem Inv.deletes {cfg : ServiceState} (h : Inv F decode cfg) {t : Worker}
    (ht : t ∈ cfg.threads) :
    t.prog ≠ .done (.error (.resolution .deletingFromUserService)) := by
  obtain ⟨l, past, prog⟩ := t
  rintro rfl
  obtain ⟨user, hw⟩ | ⟨-, e, he⟩ := h.sound _ ht
  · obtain ⟨profile, location, hread, hsome, hs3⟩ := Replies.unable_of hw.follows
    obtain ⟨e, rfl⟩ := (hread.own (h.answered _ ht)).2 _ hsome
    exact hs3 rfl
  · cases he

/-- **Everybody stays with their own avatars.**  In every run, every profile
refers to no avatar or to one of its own user; what a request deletes or signs
for upload is an avatar of the user it is logged in as, so not what the profile
of anybody else refers to, since avatars of different users have different keys
whatever the extensions are; and no request fails because a location cannot be
deleted from. -/
theorem own_avatars (events : List Event) :
    let cfg := run F decode events initial
    (∀ row ∈ cfg.shared.profiles.rows, row.avatarLocation = none ∨
      ∃ e, row.avatarLocation = some (avatarAt F row.userId e).serialize) ∧
    (∀ t ∈ cfg.threads, ∀ op ∈ operations t, ∀ key, op.writes = some key →
      ∃ user e, t.loc.connection = some ⟨some user⟩ ∧ key = avatarPath F user.sub e ∧
        ∀ row ∈ cfg.shared.profiles.rows, row.userId ≠ user.sub → row.avatarKey ≠ some key) ∧
    (∀ u v e e', u ≠ v → avatarPath F u e ≠ avatarPath F v e') ∧
    ∀ t ∈ cfg.threads, t.prog ≠ .done (.error (.resolution .deletingFromUserService)) := by
  intro cfg
  have h : Inv F decode cfg := inv_run events inv_initial
  refine ⟨h.rows, fun t ht op hop key hkey => ?_, fun u v e e' hne heq => ?_,
    fun t ht => h.deletes ht⟩
  · obtain ⟨user, hw⟩ | ⟨hpast, e, he⟩ := h.sound t ht
    · obtain ⟨e, rfl⟩ := h.own ht hw hop hkey
      refine ⟨user, e, hw.connection, rfl, fun row hrow hne hrefers => ?_⟩
      obtain ⟨e', heq⟩ := (h.rows row hrow).avatarKey hrefers
      exact hne (avatarPath_inj.mp heq).1.symm
    · -- a request that has ended before its first operation asks none
      rw [operations, hpast, he] at hop
      cases hop
  · exact hne (avatarPath_inj.mp heq).1

end User

end Lockinspiel
