/-
Lockinspiel/Account.lean

What a user keeps at the user service: a profile, which may name the extension
of an avatar, and an image for each extension that was uploaded.

The service keeps this in two places, a row of `profiles` and the objects whose
keys begin with `avatars/<user_id>.`, and a request about an avatar changes both
in separate steps.  `IsAccount` says that the two hold an account, and
`Account.Writes` what a request of the user does to it, whatever fails: an
avatar can be lost halfway, since its image is deleted first.  Requests of
others and uploads elsewhere leave it (`account_refines`).
-/
import Lockinspiel.Lib.Runs
import Lockinspiel.UserIsolation

namespace Lockinspiel

namespace User

open Effects Sql Runs

variable {F : UuidFormat} {decode : String → Except String UserClaims} {u : Uuid}

/-! ### Accounts -/

/-- A profile, with the extension of the avatar. -/
structure Profile where
  displayName : String
  bio : String
  avatar : Option String

/-- A profile, and the images that were uploaded. -/
structure Account where
  profile : Option Profile
  images : String → Option Object

variable (F u) in
/-- The row of a profile. -/
def Profile.row (p : Profile) : ProfileRow where
  userId := u
  displayName := p.displayName
  bio := p.bio
  avatarLocation := p.avatar.map fun e => (avatarAt F u e).serialize

variable (F u) in
/-- The service keeps this account of the user. -/
structure IsAccount (st : Store) (m : Account) : Prop where
  profile : st.profiles.of u = (m.profile.map (Profile.row F u)).toList
  images : ∀ e, st.objects (avatarPath F u e) = m.images e

namespace Account

/-- The image of the avatar is deleted. -/
def cleared (m : Account) : Account :=
  match m.profile.bind Profile.avatar with
  | some e => { m with images := Function.update m.images e none }
  | none => m

/-- The profile names another avatar. -/
def setAvatar (m : Account) (avatar : Option String) : Account :=
  { m with profile := m.profile.map fun p => { p with avatar } }

variable (F u) in
/-- A request of the user that has ended: what it has done to the account. -/
inductive Writes : Request → Outcome → Account → Account → Prop
  | created {p m} (hnone : m.profile = none) :
      Writes (.createProfile p) (.ok .unit) m
        { m with profile := some ⟨p.displayName, p.bio, none⟩ }
  | updated {p m} :
      Writes (.updateProfile p) (.ok .unit) m
        { m with profile := m.profile.map fun q =>
            { q with displayName := p.displayName, bio := p.bio } }
  | shown {q m} (hq : m.profile = some q) :
      Writes .getProfile
        (.ok (.profile ⟨u, q.displayName, q.bio, q.avatar.map fun e => .s3Get (avatarPath F u e)⟩))
        m m
  | put {q m} (hprofile : m.profile.isSome = true) :
      Writes (.putAvatar q)
        (.ok (.putUrl (.s3Put (avatarPath F u q.fileExtension) ("image/" ++ q.fileExtension))))
        m (m.cleared.setAvatar (some q.fileExtension))
  /-- The avatar was replaced, and no URL could be presigned for it. -/
  | unsigned {q m} (hprofile : m.profile.isSome = true) :
      Writes (.putAvatar q) (.error .panic) m (m.cleared.setAvatar (some q.fileExtension))
  | deleted {m} (hprofile : m.profile.isSome = true) :
      Writes .deleteAvatar (.ok .unit) m (m.cleared.setAvatar none)
  /-- The image is deleted, and the profile still names it. -/
  | halfway {r e m} (hr : (r.newAvatar F u).isSome = true) : Writes r (.error e) m m.cleared
  | failed {r e m} : Writes r (.error e) m m

end Account

/-! ### The operations -/

section

variable {st st' : Store} {m : Account} {s : Session}

theorem IsAccount.congr (h : IsAccount F u st m) (hrows : st'.profiles.rows = st.profiles.rows)
    (hobjects : st'.objects = st.objects) : IsAccount F u st' m := by
  refine ⟨?_, fun e => ?_⟩
  · rw [Profiles.of, hrows]
    exact h.profile
  · rw [hobjects]
    exact h.images e

/-- A new profile. -/
theorem IsAccount.insert (h : IsAccount F u st m) {displayName bio : String}
    (hrows : st'.profiles.rows = st.profiles.rows ++ [⟨u, displayName, bio, none⟩])
    (hobjects : st'.objects = st.objects) :
    m.profile = none ∧ IsAccount F u st' { m with profile := some ⟨displayName, bio, none⟩ } := by
  have hkeys := st'.profiles.keys
  rw [hrows] at hkeys
  have hnil : st.profiles.of u = [] := (nodup_insert rfl).mp hkeys
  refine ⟨?_, ?_, fun e => by rw [hobjects]; exact h.images e⟩
  · rw [h.profile] at hnil
    simpa using hnil
  · rw [Profiles.of] at hnil ⊢
    rw [hrows, List.filter_append, hnil]
    simp [Profile.row]

/-- The profile is updated, if there is one. -/
theorem IsAccount.update (h : IsAccount F u st m)
    (hmay : ∀ owner, s.mayWrite owner = (owner == u)) {f : ProfileRow → ProfileRow}
    {g : Profile → Profile} (hf : ∀ r, (f r).userId = r.userId)
    (hg : ∀ p, f (p.row F u) = (g p).row F u)
    (hrows : st'.profiles.rows =
      setWhere (fun r => s.mayWrite r.userId && r.userId == u) f st.profiles.rows)
    (hobjects : st'.objects = st.objects) :
    IsAccount F u st' { m with profile := m.profile.map g } := by
  refine ⟨?_, fun e => by rw [hobjects]; exact h.images e⟩
  have hprofile := h.profile
  rw [Profiles.of] at hprofile ⊢
  rw [hrows, filter_setWhere_comm (fun r => by rw [hf r]), hprofile, setWhere]
  cases m.profile with
  | none => rfl
  | some p =>
      show [if s.mayWrite u && u == u then f (p.row F u) else _] = [(g p).row F u]
      rw [hmay, Bool.and_self, if_pos (beq_self_eq_true u), hg]

/-- The image of the avatar is deleted. -/
theorem IsAccount.delete (h : IsAccount F u st m) {p : Profile} {e : String}
    (hp : m.profile = some p) (he : p.avatar = some e) :
    IsAccount F u (st.delete (avatarPath F u e)) m.cleared := by
  rw [Account.cleared, hp, Option.bind_some, he]
  refine ⟨hp ▸ h.profile, fun e' => ?_⟩
  show Function.update st.objects _ none _ = Function.update m.images e none e'
  by_cases hee : e' = e
  · subst hee
    rw [Function.update_self, Function.update_self]
  · rw [Function.update_of_ne hee, Function.update_of_ne, h.images]
    exact fun heq => hee (avatarPath_inj.mp heq).2

end

/-! ### The requests of the user -/

section

variable {st : Store} {m : Account} {s : Session} {c : ℕ → Choice} {user : UserClaims}

/-- The row of a profile is read as the profile. -/
theorem Profile.ofRow (p : Profile) : DbUserProfile.ofRow (p.row F u) =
    some ⟨u, p.displayName, p.bio, p.avatar.map (avatarAt F u)⟩ := by
  rw [DbUserProfile.ofRow, Profile.row]
  cases p.avatar with
  | none => rfl
  | some e => simp

theorem Profile.avatarKey (p : Profile) :
    (p.row F u).avatarKey = p.avatar.map (avatarPath F u) := by
  rw [DbUserProfile.avatarKey_of_ofRow (Profile.ofRow p)]
  cases p.avatar with
  | none => rfl
  | some e => exact congrArg some (key_avatarAt u e)

/-- A URL for an avatar, or none can be presigned. -/
theorem runHandler_resolveGetUrl {α : Type} (e : String) (f : Url → Handler α) :
    runHandler s c (resolveGetUrl (avatarAt F u e) >>= f) st =
      if (c 0).fails then (.error .panic, st)
      else runHandler s (fun n => c (n + 1)) (f (.s3Get (avatarPath F u e))) st := by
  rw [← key_avatarAt, resolveGetUrl, avatarAt]
  dsimp only
  rw [bind_assoc, runHandler_ask, Op.exec]
  cases (c 0).fails <;> rfl

theorem runHandler_resolvePutUrl {α : Type} (e contentType : String) (f : Url → Handler α) :
    runHandler s c (resolvePutUrl (avatarAt F u e) contentType >>= f) st =
      if (c 0).fails then (.error .panic, st)
      else runHandler s (fun n => c (n + 1)) (f (.s3Put (avatarPath F u e) contentType)) st := by
  rw [← key_avatarAt, resolvePutUrl, avatarAt]
  dsimp only
  rw [bind_assoc, runHandler_ask, Op.exec]
  cases (c 0).fails <;> rfl

/-- The profile is shown with a URL for its avatar. -/
theorem Profile.intoUserProfile (p : Profile) {o : Outcome × Store}
    (ho : o = runHandler s c (User.intoUserProfile
      ⟨u, p.displayName, p.bio, p.avatar.map (avatarAt F u)⟩ >>= fun q => pure (.profile q)) st) :
    (∃ e, o = (.error e, st)) ∨ o = (.ok (.profile
      ⟨u, p.displayName, p.bio, p.avatar.map fun e => .s3Get (avatarPath F u e)⟩), st) := by
  cases havatar : p.avatar with
  | none =>
      rw [havatar] at ho
      exact .inr ho
  | some e =>
      rw [havatar, Option.map_some, User.intoUserProfile] at ho
      dsimp only at ho
      rw [bind_assoc, runHandler_resolveGetUrl] at ho
      cases hfails : (c 0).fails with
      | true =>
          rw [hfails] at ho
          exact .inl ⟨_, ho⟩
      | false =>
          rw [hfails] at ho
          exact .inr ho

/-- The lookup of the profile finds the one of the account, or ends with an
error. -/
theorem IsAccount.getUserProfile (h : IsAccount F u st m) (hs : s.LoggedIn)
    (f : DbUserProfile → Handler Reply) :
    (∃ e, runHandler s c (User.getUserProfile u >>= f) st = (.error e, st)) ∨
    ∃ p, m.profile = some p ∧ runHandler s c (User.getUserProfile u >>= f) st =
      runHandler s (fun n => c (n + 1))
        (f ⟨u, p.displayName, p.bio, p.avatar.map (avatarAt F u)⟩) st := by
  obtain ⟨e, herror, -⟩ | ⟨row, profile, hrow, hu, hofRow, -, hrun⟩ :=
    runHandler_getUserProfile hs c st u f
  · exact .inl ⟨e, herror⟩
  · have hmem : row ∈ st.profiles.of u := mem_filter_userId.mpr ⟨hrow, hu⟩
    rw [h.profile, Option.mem_toList, Option.map_eq_some_iff] at hmem
    obtain ⟨p, hp, rfl⟩ := hmem
    rw [Profile.ofRow] at hofRow
    obtain rfl := Option.some.inj hofRow
    exact .inr ⟨p, hp, hrun⟩

/-- The image of the avatar that was read is deleted, if there is one. -/
theorem IsAccount.deleteCurrent (h : IsAccount F u st m) {p : Profile} (hp : m.profile = some p)
    (f : Unit → Handler Reply) :
    let profile : DbUserProfile := ⟨u, p.displayName, p.bio, p.avatar.map (avatarAt F u)⟩
    (∃ e, runHandler s c (User.deleteCurrent profile >>= f) st = (.error e, st)) ∨
    ∃ st' c', IsAccount F u st' m.cleared ∧
      runHandler s c (User.deleteCurrent profile >>= f) st = runHandler s c' (f ()) st' := by
  intro profile
  obtain ⟨e, herror, -⟩ | ⟨hnone, hrun⟩ | ⟨key, hkey, -, hrun⟩ :=
    runHandler_deleteCurrent (Profile.ofRow (F := F) (u := u) p) c st f
  · exact .inl ⟨e, herror⟩
  · rw [Profile.avatarKey, Option.map_eq_none_iff] at hnone
    refine .inr ⟨st, c, ?_, hrun⟩
    rw [Account.cleared, hp, Option.bind_some, hnone]
    exact h
  · rw [Profile.avatarKey, Option.map_eq_some_iff] at hkey
    obtain ⟨e, he, rfl⟩ := hkey
    exact .inr ⟨_, _, h.delete hp he, hrun⟩

/-- The new avatar is written, or the update fails. -/
theorem IsAccount.writeLocation (h : IsAccount F u st m) (hs : s.LoggedIn)
    (hmay : ∀ owner, s.mayWrite owner = (owner == u)) (avatar : Option String)
    {rest : ℕ → Handler Reply} {o : Outcome × Store}
    (ho : o = runHandler s c (User.writeLocation u (avatar.map (avatarAt F u)) rest) st) :
    (∃ e, o = (.error (.error e), st)) ∨
    ∃ n st' c', IsAccount F u st' (m.setAvatar avatar) ∧ o = runHandler s c' (rest n) st' := by
  rw [User.writeLocation, runHandler_ask] at ho
  have hdoes := Op.exec_cases hs (c 0)
    (.updateAvatar u ((avatar.map (avatarAt F u)).map UrlLocation.serialize)) st
  generalize Op.exec s (c 0) _ st = res at hdoes ho
  obtain ⟨res, st'⟩ := res
  obtain ⟨e, rfl, rfl⟩ | ⟨n, rfl, hobjects, hrows⟩ := hdoes
  · exact .inl ⟨_, ho⟩
  · refine .inr ⟨n, st', _, ?_, ho⟩
    refine h.update hmay (f := ProfileRow.setAvatar _) (g := fun p => { p with avatar })
      (fun _ => rfl) (fun p => ?_) hrows hobjects
    rw [ProfileRow.setAvatar, Profile.row, Profile.row, Option.map_map]
    rfl

/-- The two requests about avatars. -/
theorem IsAccount.replaceAvatar (h : IsAccount F u st m) (hs : s.LoggedIn)
    (hmay : ∀ owner, s.mayWrite owner = (owner == u)) (avatar : Option String)
    {rest : ℕ → Handler Reply} {o : Outcome × Store}
    (ho : o = runHandler s c (User.replaceAvatar u (avatar.map (avatarAt F u)) rest) st) :
    (∃ e, o.1 = .error e ∧ (IsAccount F u o.2 m ∨ IsAccount F u o.2 m.cleared)) ∨
    m.profile.isSome = true ∧ ∃ n st' c', IsAccount F u st' (m.cleared.setAvatar avatar) ∧
      o = runHandler s c' (rest n) st' := by
  rw [User.replaceAvatar] at ho
  obtain ⟨e, herror⟩ | ⟨p, hp, hrun⟩ := h.getUserProfile (c := c) hs fun currentProfile => do
    User.deleteCurrent currentProfile
    User.writeLocation u (avatar.map (avatarAt F u)) rest
  · rw [ho, herror]
    exact .inl ⟨e, rfl, .inl h⟩
  · obtain ⟨e, herror⟩ | ⟨st', c', hcleared, hrun'⟩ :=
      h.deleteCurrent (s := s) (c := fun n => c (n + 1)) hp fun _ =>
        User.writeLocation u (avatar.map (avatarAt F u)) rest
    · rw [ho, hrun, herror]
      exact .inl ⟨e, rfl, .inl h⟩
    · rw [ho, hrun, hrun']
      obtain ⟨e, herror⟩ | ⟨n, st'', c'', hset, hrun''⟩ :=
        hcleared.writeLocation (c := c') hs hmay avatar rfl
      · rw [herror]
        exact .inl ⟨_, rfl, .inr hcleared⟩
      · exact .inr ⟨by rw [hp]; rfl, n, st'', c'', hset, hrun''⟩

/-- **The requests of the user**, alone. -/
theorem IsAccount.handler (h : IsAccount F user.sub st m) (hs : s.LoggedIn)
    (hmay : ∀ owner, s.mayWrite owner = (owner == user.sub)) (r : Request) :
    let o := runHandler s c (handler F ⟨some user⟩ r) st
    ∃ m', Account.Writes F user.sub r o.1 m m' ∧ IsAccount F user.sub o.2 m' := by
  intro o
  have ho : o = runHandler s c (User.handler F ⟨some user⟩ r) st := rfl
  clear_value o
  cases r with
  | createProfile p =>
      change o = runHandler s c (ask (.insertProfile p.displayName p.bio user.sub) >>= _) st at ho
      rw [runHandler_ask] at ho
      have hdoes := Op.exec_cases hs (c 0) (.insertProfile p.displayName p.bio user.sub) st
      generalize Op.exec s (c 0) _ st = res at hdoes ho
      obtain ⟨res, st'⟩ := res
      obtain ⟨e, rfl, rfl⟩ | ⟨n, rfl, -, hobjects, hrows⟩ := hdoes
      · rw [ho]
        exact ⟨m, .failed, h⟩
      · -- the primary key: there was no profile before
        obtain ⟨hnone, hinsert⟩ := h.insert hrows hobjects
        rw [ho]
        exact ⟨_, .created hnone, hinsert⟩
  | updateProfile p =>
      change o = runHandler s c (ask (.updateProfile user.sub p.displayName p.bio) >>= _) st at ho
      rw [runHandler_ask] at ho
      have hdoes := Op.exec_cases hs (c 0) (.updateProfile user.sub p.displayName p.bio) st
      generalize Op.exec s (c 0) _ st = res at hdoes ho
      obtain ⟨res, st'⟩ := res
      obtain ⟨e, rfl, rfl⟩ | ⟨n, rfl, hobjects, hrows⟩ := hdoes
      · rw [ho]
        exact ⟨m, .failed, h⟩
      · have hupdate := h.update hmay (f := ProfileRow.set p.displayName p.bio)
          (g := fun q => { q with displayName := p.displayName, bio := p.bio }) (fun _ => rfl)
          (fun _ => rfl) hrows hobjects
        rw [ho]
        exact ⟨_, .updated, hupdate⟩
  | getProfile =>
      change o = runHandler s c (User.getUserProfile user.sub >>= fun profile => do
        return .profile (← intoUserProfile profile)) st at ho
      obtain ⟨e, herror⟩ | ⟨p, hp, hrun⟩ := h.getUserProfile (c := c) hs fun profile => do
        return .profile (← intoUserProfile profile)
      · rw [ho, herror]
        exact ⟨m, .failed, h⟩
      · rw [ho, hrun]
        -- the URL of the avatar may fail to be signed
        obtain ⟨e, herror⟩ | hshown :=
          Profile.intoUserProfile (F := F) (s := s) (c := fun n => c (n + 1)) p rfl
        · rw [herror]
          exact ⟨m, .failed, h⟩
        · rw [hshown]
          exact ⟨m, .shown hp, h⟩
  | putAvatar q =>
      obtain ⟨e, herror, hm | hcleared⟩ | ⟨hprofile, n, st', c', hset, hrun⟩ :=
        h.replaceAvatar hs hmay (some q.fileExtension) ho
      · rw [herror]
        exact ⟨m, .failed, hm⟩
      · rw [herror]
        -- the object is deleted, and the profile still refers to it
        exact ⟨m.cleared, .halfway rfl, hcleared⟩
      · rw [runHandler_resolvePutUrl] at hrun
        cases hfails : (c' 0).fails with
        | true =>
            rw [hrun, hfails]
            exact ⟨_, .unsigned hprofile, hset⟩
        | false =>
            rw [hrun, hfails]
            exact ⟨_, .put hprofile, hset⟩
  | deleteAvatar =>
      obtain ⟨e, herror, hm | hcleared⟩ | ⟨hprofile, n, st', c', hset, hrun⟩ :=
        h.replaceAvatar hs hmay none ho
      · rw [herror]
        exact ⟨m, .failed, hm⟩
      · rw [herror]
        exact ⟨m.cleared, .halfway rfl, hcleared⟩
      · rw [hrun]
        exact ⟨_, .deleted hprofile, hset⟩

end

/-! ### The requests of others, and uploads -/

section

variable {st st' : Store} {m : Account}

/-- Every row refers to no avatar or to one of its own user. -/
def Store.OwnAvatars (F : UuidFormat) (st : Store) : Prop :=
  ∀ r ∈ st.profiles.rows, OwnAvatar F r

theorem isOwn_iff {key : String} : IsOwn F u key ↔ ∃ e, key = avatarPath F u e := by
  have hpath : ∀ e, (avatarPath F u e).toList = (avatarPath F u "").toList ++ e.toList := by
    intro e
    rw [toList_avatarPath, toList_avatarPath, List.append_assoc, List.append_assoc]
    rfl
  constructor
  · rintro ⟨rest, hrest⟩
    refine ⟨String.ofList rest, String.toList_inj.mp ?_⟩
    rw [hpath, ← hrest, String.toList_ofList]
  · rintro ⟨e, rfl⟩
    exact ⟨e.toList, (hpath e).symm⟩

/-- Such a store has an account of everybody. -/
theorem Store.OwnAvatars.exists_isAccount (h : st.OwnAvatars F) (u : Uuid) :
    ∃ m, IsAccount F u st m := by
  suffices hprofile : ∃ p : Option Profile,
      st.profiles.of u = (p.map (Profile.row F u)).toList by
    obtain ⟨p, hp⟩ := hprofile
    exact ⟨⟨p, fun e => st.objects (avatarPath F u e)⟩, hp, fun _ => rfl⟩
  cases hof : st.profiles.of u with
  | nil => exact ⟨none, rfl⟩
  | cons r rest =>
      have hmem : r ∈ st.profiles.of u := by rw [hof]; exact List.mem_cons_self
      obtain ⟨hr, hu⟩ := mem_filter_userId.mp hmem
      -- there is no second row of the user
      have hrest : rest = [] := by
        refine List.eq_nil_iff_forall_not_mem.mpr fun r' hmem' => ?_
        have hr' : r' ∈ st.profiles.of u := by rw [hof]; exact List.mem_cons_of_mem _ hmem'
        obtain ⟨hr', hu'⟩ := mem_filter_userId.mp hr'
        obtain rfl := Store.eq_of_userId hr hu hr' hu'
        have hnodup : (st.profiles.of u).Nodup :=
          (List.Nodup.of_map _ st.profiles.keys).filter _
        rw [hof] at hnodup
        exact (List.nodup_cons.mp hnodup).1 hmem'
      obtain ⟨userId, displayName, bio, location⟩ := r
      obtain rfl : userId = u := hu
      rw [hrest]
      obtain hnone | ⟨e, hsome⟩ := h _ hr
      · obtain rfl : location = none := hnone
        exact ⟨some ⟨displayName, bio, none⟩, rfl⟩
      · obtain rfl : location = some (avatarAt F userId e).serialize := hsome
        exact ⟨some ⟨displayName, bio, some e⟩, rfl⟩

/-- The account of somebody for whom the stores are the same. -/
theorem IsAccount.sameFor (h : IsAccount F u st m) (hsame : SameFor F u st' st) :
    IsAccount F u st' m :=
  ⟨hsame.profile.trans h.profile, fun e =>
    (hsame.objects _ (isOwn_iff.mpr ⟨e, rfl⟩)).trans (h.images e)⟩

/-- A request of another user, alone. -/
theorem SameFor.handler {user : UserClaims} {s : Session} {c : ℕ → Choice} (hs : s.LoggedIn)
    (hmay : ∀ owner, s.mayWrite owner = (owner == user.sub)) (hrows : st.OwnAvatars F)
    (r : Request) :
    (runHandler s c (User.handler F ⟨some user⟩ r) st).2.OwnAvatars F ∧
      (user.sub ≠ u → SameFor F u (runHandler s c (User.handler F ⟨some user⟩ r) st).2 st) := by
  let I (past : List ops.Event) (st₁ : Store) : Prop :=
    Answered F st₁ past ∧ st₁.OwnAvatars F ∧ (user.sub ≠ u → SameFor F u st₁ st)
  have hstep : ∀ past (c : Choice) op st₁, Asks F user.sub r past op → I past st₁ →
      I (⟨op, (op.exec s c st₁).1⟩ :: past) (op.exec s c st₁).2 := by
    rintro past c op st₁ hasks ⟨hanswered, hown, hsame⟩
    have hdoes := Op.exec_cases hs c op st₁
    exact ⟨hanswered.cons hdoes hown, hasks.rows hdoes hown, fun hne =>
      (hsame hne).other hs hne hmay c fun key hkey => hasks.own hanswered hkey⟩
  have hnone : Answered F st [] :=
    ⟨fun _ _ h => absurd h List.not_mem_nil, fun _ _ _ h => absurd h List.not_mem_nil⟩
  obtain ⟨past, -, -, hown, hsame⟩ := Program.run_follows_past hstep
    (User.handler F ⟨some user⟩ r).run [] c st (handler_follows rfl r)
    ⟨hnone, hrows, fun _ => ⟨rfl, fun _ _ => rfl⟩⟩
  exact ⟨hown, hsame⟩

/-- An upload of an image. -/
theorem IsAccount.put (h : IsAccount F u st m) (e : String) (object : Object) :
    IsAccount F u (st.put (avatarPath F u e) object)
      { m with images := Function.update m.images e (some object) } := by
  refine ⟨h.profile, fun e' => ?_⟩
  show Function.update st.objects _ _ _ = Function.update m.images e _ e'
  by_cases hee : e' = e
  · subst hee
    rw [Function.update_self, Function.update_self]
  · rw [Function.update_of_ne hee, Function.update_of_ne, h.images]
    exact fun heq => hee (avatarPath_inj.mp heq).2

/-- An upload elsewhere. -/
theorem IsAccount.put_other (h : IsAccount F u st m) {key : String} (hkey : ¬ IsOwn F u key)
    (object : Object) : IsAccount F u (st.put key object) m := by
  refine ⟨h.profile, fun e => ?_⟩
  show Function.update st.objects _ _ _ = _
  rw [Function.update_of_ne, h.images]
  rintro rfl
  exact hkey (isOwn_iff.mpr ⟨e, rfl⟩)

end

/-! ### Runs -/

/-- What happens alone: a request of anybody, or an upload, to whatever key. -/
inductive Visit
  | request (a : Arrival) (c : ℕ → Choice)
  | upload (key : String) (object : Object)

/-- What has happened: a request with its outcome, or an upload. -/
inductive Visited
  | request (a : Arrival) (o : Outcome)
  | upload (key : String) (object : Object)

variable (F decode) in
def visit (st : Store) : Visit → Visited × Store
  | .request a c => (.request a (handle F decode a c st).1, (handle F decode a c st).2)
  | .upload key object => (.upload key object, st.put key object)

variable (F decode) in
/-- Visits one after the other: what has happened, and the store after them. -/
def visits : List Visit → Store → List Visited × Store
  | [], st => ([], st)
  | v :: vs, st =>
      let (visited, st') := visit F decode st v
      let (rest, st'') := visits vs st'
      (visited :: rest, st'')

variable (F decode u) in
/-- What a visit does to the account of a user. -/
inductive Account.Next : Visited → Account → Account → Prop
  | own {a o m m'} (hu : userId (arrive F decode a) = some u)
      (h : Account.Writes F u a.request o m m') : Account.Next (.request a o) m m'
  | foreign {a o m} (hu : userId (arrive F decode a) ≠ some u) : Account.Next (.request a o) m m
  | uploaded {e object m} : Account.Next (.upload (avatarPath F u e) object) m
      { m with images := Function.update m.images e (some object) }
  | elsewhere {key object m} (hkey : ¬ IsOwn F u key) : Account.Next (.upload key object) m m

variable (decode) in
/-- **One visit.** -/
theorem IsAccount.visit {st : Store} {m : Account} (h : IsAccount F u st m)
    (hrows : st.OwnAvatars F) (v : Visit) :
    (User.visit F decode st v).2.OwnAvatars F ∧
      ∃ m', Account.Next F decode u (User.visit F decode st v).1 m m' ∧
        IsAccount F u (User.visit F decode st v).2 m' := by
  cases v with
  | request a c =>
      rw [User.visit]
      obtain ⟨hnone, o, hhandle⟩ | ⟨user, s, huser, hs, hmay, hhandle⟩ := handle_cases F decode a
      · rw [hhandle]
        exact ⟨hrows, m, .foreign (by rw [hnone]; nofun), h⟩
      · have hmay' : ∀ owner, s.mayWrite owner = (owner == user.sub) := by
          intro owner
          obtain ⟨hrole, huid⟩ := Session.mayWrite_eq_true.mp hmay
          rw [Bool.eq_iff_iff, Session.mayWrite_eq_true, huid, beq_iff_eq, Option.some.injEq]
          exact ⟨fun howner => howner.2.symm, fun howner => ⟨hrole, howner.symm⟩⟩
        rw [hhandle]
        obtain ⟨hown, hsame⟩ := SameFor.handler (u := u) (c := c) hs hmay' hrows a.request
        refine ⟨hown, ?_⟩
        by_cases hu : user.sub = u
        · subst hu
          obtain ⟨m', hwrites, hm'⟩ := h.handler (c := c) hs hmay' a.request
          exact ⟨m', .own huser hwrites, hm'⟩
        · refine ⟨m, .foreign ?_, h.sameFor (hsame hu)⟩
          rw [huser]
          exact fun heq => hu (Option.some.inj heq)
  | upload key object =>
      refine ⟨hrows, ?_⟩
      by_cases hkey : IsOwn F u key
      · obtain ⟨e, rfl⟩ := isOwn_iff.mp hkey
        exact ⟨_, .uploaded, h.put e object⟩
      · exact ⟨m, .elsewhere hkey, h.put_other hkey object⟩

variable (decode) in
theorem IsAccount.visits {st : Store} {m : Account} (h : IsAccount F u st m)
    (hrows : st.OwnAvatars F) (vs : List Visit) :
    ∃ m', Path (Account.Next F decode u) (User.visits F decode vs st).1 m m' ∧
      IsAccount F u (User.visits F decode vs st).2 m' := by
  induction vs generalizing st m with
  | nil => exact ⟨m, rfl, h⟩
  | cons v vs ih =>
      obtain ⟨hrows', m', hnext, hm'⟩ := h.visit decode hrows v
      obtain ⟨m'', hpath, hm''⟩ := ih hm' hrows'
      exact ⟨m'', ⟨m', hnext, hpath⟩, hm''⟩

/-- **What a user keeps is an account.**  From every state that the service can
reach, whatever requests and uploads come one after the other: the profile of a
user and the objects under their keys are an account, which a request of the
user changes and shows as `Account.Writes` says, whatever fails, which an upload
changes at its own extension, and which nothing else changes. -/
theorem account_refines (F : UuidFormat) (decode : String → Except String UserClaims) (u : Uuid)
    (events : List Event) (vs : List Visit) :
    let st := (run F decode events initial).shared
    ∃ m m', IsAccount F u st m ∧
      Path (Account.Next F decode u) (visits F decode vs st).1 m m' ∧
      IsAccount F u (visits F decode vs st).2 m' := by
  intro st
  have hrows : st.OwnAvatars F := (inv_run events inv_initial).rows
  obtain ⟨m, hm⟩ := hrows.exists_isAccount u
  obtain ⟨m', hpath, hm'⟩ := hm.visits decode hrows vs
  exact ⟨m, m', hm, hpath, hm'⟩

/-! ### Avatars are shown as they were uploaded -/

variable (F decode u) in
/-- A request of somebody else, or an upload to somebody else's key. -/
def Visit.Foreign : Visit → Prop
  | .request a _ => userId (arrive F decode a) ≠ some u
  | .upload key _ => ¬ IsOwn F u key

theorem IsAccount.foreign {st : Store} {m : Account} (h : IsAccount F u st m)
    (hrows : st.OwnAvatars F) {vs : List Visit} (hvs : ∀ v ∈ vs, v.Foreign F decode u) :
    (User.visits F decode vs st).2.OwnAvatars F ∧
      IsAccount F u (User.visits F decode vs st).2 m := by
  induction vs generalizing st with
  | nil => exact ⟨hrows, h⟩
  | cons v vs ih =>
      obtain ⟨hrows', m', hnext, hm'⟩ := h.visit decode hrows v
      obtain ⟨hv, hvs⟩ := List.forall_mem_cons.mp hvs
      suffices hm : m' = m by
        rw [hm] at hm'
        exact ih hm' hrows' hvs
      cases v with
      | request a c =>
          cases hnext with
          | own hu => exact absurd hu hv
          | foreign => rfl
      | upload key object =>
          obtain ⟨v, hvisited⟩ : ∃ v, v = (User.visit F decode st (.upload key object)).1 :=
            ⟨_, rfl⟩
          rw [← hvisited] at hnext
          cases hnext with
          | own | foreign => cases hvisited
          | uploaded =>
              obtain ⟨rfl, -⟩ := Visited.upload.inj hvisited
              exact absurd (isOwn_iff.mpr ⟨_, rfl⟩) hv
          | elsewhere => rfl

/-- A request of the user, alone. -/
theorem IsAccount.own {st : Store} {m : Account} (h : IsAccount F u st m)
    (hrows : st.OwnAvatars F) {a : Arrival} (hu : userId (arrive F decode a) = some u)
    (c : ℕ → Choice) : (handle F decode a c st).2.OwnAvatars F ∧
      ∃ m', Account.Writes F u a.request (handle F decode a c st).1 m m' ∧
        IsAccount F u (handle F decode a c st).2 m' := by
  obtain ⟨hrows', m', hnext, hm'⟩ := h.visit decode hrows (.request a c)
  refine ⟨hrows', m', ?_, hm'⟩
  cases hnext with
  | own _ hwrites => exact hwrites
  | foreign hnot => exact absurd hu hnot

/-- **The avatar that was uploaded is shown.**  If `put_avatar` has returned a
URL, and an image was uploaded through it, then `get_profile` answers with a URL
for this image, of the type that belongs to its extension, whatever others have
done in between. -/
theorem avatar_shown (F : UuidFormat) (decode : String → Except String UserClaims) (u : Uuid)
    (events : List Event) (a b : Arrival) (ha : userId (arrive F decode a) = some u)
    (hb : userId (arrive F decode b) = some u) (q : PutAvatarQuery)
    (hput : a.request = .putAvatar q) (hget : b.request = .getProfile) (c c' : ℕ → Choice)
    (key contentType : String) (body : List UInt8) (profile : UserProfile) (vs : List Visit)
    (hvs : ∀ v ∈ vs, v.Foreign F decode u) :
    let st := (run F decode events initial).shared
    let st' := (visits F decode vs ((handle F decode a c st).2.put key ⟨contentType, body⟩)).2
    (handle F decode a c st).1 = .ok (.putUrl (.s3Put key contentType)) →
    (handle F decode b c' st').1 = .ok (.profile profile) →
    profile.avatarLocation = some (.s3Get key) ∧ contentType = "image/" ++ q.fileExtension ∧
      (handle F decode b c' st').2.objects key = some ⟨contentType, body⟩ := by
  intro st st' hurl hshown
  have hrows : st.OwnAvatars F := (inv_run events inv_initial).rows
  obtain ⟨m, hm⟩ := hrows.exists_isAccount u
  obtain ⟨hrows₁, m₁, hwrites, hm₁⟩ := hm.own hrows ha c
  rw [hput, hurl] at hwrites
  cases hwrites with
  | put =>
      obtain ⟨hrows₂, hm₂⟩ := (hm₁.put q.fileExtension
        ⟨"image/" ++ q.fileExtension, body⟩).foreign hrows₁ hvs
      obtain ⟨-, m₃, hwrites, hm₃⟩ := hm₂.own hrows₂ hb c'
      rw [hget, hshown] at hwrites
      cases hwrites with
      | shown hq =>
          obtain ⟨p, -, rfl⟩ := Option.map_eq_some_iff.mp hq
          exact ⟨rfl, rfl, (hm₃.images _).trans (Function.update_self ..)⟩

/-- User 1 replaces an avatar, and user 2 uploads one meanwhile. -/
theorem avatar_shown_png :
    let path := avatarPath .hyphenated 1 "png"
    let put := handle .hyphenated tokenOfOne (byOne (.putAvatar ⟨"png"⟩)) (fun _ => {}) withAvatar
    let others := visits .hyphenated tokenOfOne
      [.upload (avatarPath .hyphenated 2 "png") ⟨"image/png", []⟩]
      (put.2.put path ⟨"image/png", [137]⟩)
    (handle .hyphenated tokenOfOne (byOne .getProfile) (fun _ => {}) others.2).2.objects path =
      some ⟨"image/png", [137]⟩ := by
  intro path put others
  have hforeign : ¬ IsOwn .hyphenated 1 (avatarPath .hyphenated 2 "png") := by decide +kernel
  refine (avatar_shown .hyphenated tokenOfOne 1 _ (byOne (.putAvatar ⟨"png"⟩)) (byOne .getProfile)
    rfl rfl ⟨"png"⟩ rfl rfl _ _ path "image/png" [137] ⟨1, "John Doe", "", some (.s3Get path)⟩
    _ ?_ rfl rfl).2.2
  intro v hv
  obtain rfl := List.mem_singleton.mp hv
  exact hforeign

end User

end Lockinspiel
