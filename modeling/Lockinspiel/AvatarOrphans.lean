/-
Lockinspiel/AvatarOrphans.lean

Objects that no profile refers to.

`put_avatar` and `delete_avatar` delete the object that the profile refers to
before they let it refer to something else, but they read, delete and write in
separate steps, and an upload may come at any time.  An object is left behind
by an upload to a key that the profile does not refer to any more, and by an
update that replaces a location whose object is still stored, because it was
uploaded, or written by another request, after this one has read the profile.

While requests of the user are in progress, an object is covered if the profile
refers to it or a request is still going to delete it or to let the profile
refer to it (`Covers`).  A step that meets the condition `Keeps` keeps every
object covered (`covered_step`), and at rest only the profile is left.
-/
import Lockinspiel.AvatarKeys

namespace Lockinspiel

namespace User

open Effects Sql Runs

variable (F : UuidFormat) (decode : String → Except String UserClaims) (u : Uuid)

/-! ### Requests in progress, and the objects they cover -/

/-- The user a request is logged in as. -/
def userId (t : Worker) : Option Uuid :=
  (t.loc.connection.bind DatabaseConnection.user).map UserClaims.sub

/-- A `put_avatar` or `delete_avatar` of the user that is not over. -/
def Busy (t : Worker) : Prop :=
  userId t = some u ∧ (t.loc.arrival.request.newAvatar F u).isSome = true ∧
    t.prog.next.isSome = true

instance : DecidablePred (Busy F u) := fun _ => inferInstanceAs (Decidable (_ ∧ _ ∧ _))

/-- The operations up to the update. -/
def Op.uncommitted : Op → Bool
  | .selectProfile _ | .deleteObject _ | .updateAvatar .. => true
  | .insertProfile .. | .updateProfile .. | .presignGet _ | .presignPut .. => false

/-- The request is going to delete the object, or to let the profile refer to
it. -/
def Covers (key : String) (t : Worker) : Prop :=
  userId t = some u ∧ (t.prog.next = some (.deleteObject key) ∨
    (t.prog.next.any Op.uncommitted = true ∧
      (t.loc.arrival.request.newAvatar F u).join.map UrlLocation.key = some key))

instance (key : String) : DecidablePred (Covers F u key) :=
  fun _ => inferInstanceAs (Decidable (_ ∧ (_ ∨ (_ ∧ _))))

/-- The profile of the user refers to the object. -/
def Store.Refers (st : Store) (key : String) : Prop :=
  ∃ r ∈ st.profiles.rows, r.userId = u ∧ r.avatarKey = some key

instance (st : Store) : DecidablePred (st.Refers u) :=
  fun _ => inferInstanceAs (Decidable (∃ r ∈ st.profiles.rows, _))

/-- The key begins with `avatars/<user_id>.`. -/
def IsOwn (key : String) : Prop := (avatarPath F u "").toList <+: key.toList

instance : DecidablePred (IsOwn F u) := fun _ => inferInstanceAs (Decidable (_ <+: _))

/-- Where no request is in progress, every stored object of the user is the one
that the profile refers to. -/
def NoOrphans (cfg : ServiceState) : Prop :=
  (∀ t ∈ cfg.threads, ¬ Busy F u t) →
    ∀ key, IsOwn F u key → (cfg.shared.objects key).isSome = true → cfg.shared.Refers u key

/-! ### Conditions on events -/

/-- No statement and no deletion of a `put_avatar` or `delete_avatar` of the
user fails. -/
def Succeeds (cfg : ServiceState) : Event → Prop
  | .request (.step i c) =>
      match cfg.threads[i]? with
      | some ⟨l, past, .call op k⟩ => Busy F u ⟨l, past, .call op k⟩ →
          succeeded ⟨op, (Op.exec l.session c op cfg.shared).1⟩ = true
      | _ => True
  | .request (.arrive _) | .upload .. => True

/-- An update of the location of the user replaces one whose object is not
stored, or is covered by another request, or is the same; and an upload is to
an object of the user that the profile refers to or that a request covers. -/
def Keeps (cfg : ServiceState) : Event → Prop
  | .request (.step i _) =>
      match cfg.threads[i]? with
      | some ⟨_, _, .call (.updateAvatar v new) _⟩ => v = u →
          ∀ r ∈ cfg.shared.profiles.rows, r.userId = u → ∀ key ∈ r.avatarKey,
            (cfg.shared.objects key).isSome = true → (r.setAvatar new).avatarKey = some key ∨
              ∃ t ∈ cfg.threads.eraseIdx i, Covers F u key t
      | _ => True
  | .request (.arrive _) => True
  | .upload i _ => ∀ t ∈ cfg.threads[i]?, ∀ url ∈ uploadUrl t, IsOwn F u url.1 →
      cfg.shared.Refers u url.1 ∨ ∃ t ∈ cfg.threads, Covers F u url.1 t

instance (cfg : ServiceState) : DecidablePred (Succeeds F u cfg)
  | .request (.step i c) => by
      unfold Succeeds
      dsimp only
      split <;> infer_instance
  | .request (.arrive _) | .upload .. => inferInstanceAs (Decidable True)

instance (cfg : ServiceState) : DecidablePred (Keeps F u cfg)
  | .request (.step i c) => by
      unfold Keeps
      dsimp only
      split <;> infer_instance
  | .request (.arrive _) => inferInstanceAs (Decidable True)
  | .upload i _ => by
      unfold Keeps
      infer_instance

variable {F decode u}

/-! ### A request on its way to its update -/

section

variable {r : Request} {past : List ops.Event} {new : Option UrlLocation}

theorem Working.userId_eq {t : Worker} {user : UserClaims} (h : Working F decode t user) :
    userId t = some user.sub := by
  rw [userId, h.connection]
  rfl

/-- What a request was answered last that has read the profile, or deleted the
object it refers to. -/
theorem last_of_read (hread : (∃ profile, Read u past profile) ∨ Cleared u past) :
    (∃ profile, Read u past profile) ∨
      ∃ key past', past = ⟨.deleteObject key, .ok ()⟩ :: past' := by
  obtain hread | hcleared := hread
  · exact .inl hread
  · cases hcleared with
    | nothing h => exact .inl ⟨_, h⟩
    | deleted h => exact .inr ⟨_, _, rfl⟩

/-- Such a request is not over, ... -/
theorem Replies.not_read {a : Outcome} (h : Replies F u r past a)
    (hr : r.newAvatar F u = some new) {st : Store} (hpast : Answered F st past)
    (hread : (∃ profile, Read u past profile) ∨ Cleared u past) : False := by
  have hlast := last_of_read hread
  cases h with
  | putUrl h | noUrl h | deleted h =>
      obtain ⟨profile, hread⟩ | ⟨key, past', heq⟩ := hlast
      · cases hread
      · cases heq
  | failed hfails hs =>
      obtain ⟨profile, hread⟩ | ⟨key, past', heq⟩ := hlast
      · cases hread
        cases hfails
      · cases heq
        cases hfails
  | unread hrows hs =>
      obtain ⟨profile, hrow, hprofile⟩ | ⟨key, past', heq⟩ := hlast
      · rw [hrows _ hrow] at hprofile
        cases hprofile
      · cases heq
  | unable hread hsome hs3 =>
      obtain ⟨e, rfl⟩ := (hread.own hpast).2 _ hsome
      exact hs3 rfl
  | other hnone => cases hr.symm.trans hnone

/-- ... and it has not written the new location. -/
theorem Asks.uncommitted {op : Op} (h : Asks F u r past op) (hr : r.newAvatar F u = some new)
    (hread : (∃ profile, Read u past profile) ∨ Cleared u past) : op.uncommitted = true := by
  cases h with
  | selectProfile | deleteObject | updateAvatar => rfl
  | insertProfile | updateProfile | presignGet => cases hr
  | presignPut h =>
      obtain ⟨profile, hread⟩ | ⟨key, past', heq⟩ := last_of_read hread
      · cases hread
      · cases heq

theorem Working.uncommitted {l : Context} {prog : Program ops Outcome} {user : UserClaims}
    (h : Working F decode ⟨l, past, prog⟩ user)
    (hr : l.arrival.request.newAvatar F user.sub = some new) {st : Store}
    (hpast : Answered F st past)
    (hread : (∃ profile, Read user.sub past profile) ∨ Cleared user.sub past) :
    prog.next.any Op.uncommitted = true := by
  cases prog with
  | done a => exact (Replies.not_read h.follows hr hpast hread).elim
  | call op k => exact Asks.uncommitted h.follows.1 hr hread

end

/-! ### One operation -/

section

variable {s : Session} {st st' : Store} {op : Op} {res : op.Res} {key : String}

theorem isSome_update_none {objects : String → Option Object} {key' : String} :
    (Function.update objects key' none key).isSome = true ↔
      key ≠ key' ∧ (objects key).isSome = true := by
  by_cases hkey : key = key'
  · subst hkey
    simp
  · rw [Function.update_of_ne hkey]
    exact (and_iff_right hkey).symm

/-- No operation stores an object. -/
theorem Op.Does.isSome_objects (h : op.Does s st res st')
    (hkey : (st'.objects key).isSome = true) : (st.objects key).isSome = true := by
  cases op with
  | insertProfile =>
      obtain ⟨e, -, rfl⟩ | ⟨n, -, -, hobjects, -⟩ := h
      · exact hkey
      · rwa [hobjects] at hkey
  | updateAvatar | updateProfile =>
      obtain ⟨e, -, rfl⟩ | ⟨n, -, hobjects, -⟩ := h
      · exact hkey
      · rwa [hobjects] at hkey
  | selectProfile | presignGet | presignPut =>
      obtain ⟨rfl, -⟩ := h
      exact hkey
  | deleteObject key' =>
      obtain ⟨e, -, rfl⟩ | ⟨-, rfl⟩ := h
      · exact hkey
      · exact (isSome_update_none.mp hkey).2

/-- A profile refers to what it did, until its location is written. -/
theorem Op.Does.refers (h : op.Does s st res st') (hop : ∀ new, op ≠ .updateAvatar u new)
    (hrefers : st.Refers u key) : st'.Refers u key := by
  obtain ⟨r, hr, hu, hkey⟩ := hrefers
  rw [Store.Refers]
  obtain heq | ⟨row, -, heq⟩ | ⟨v, new, rfl, heq⟩ | ⟨p, displayName, bio, heq⟩ := h.rows_cases <;>
    rw [heq]
  · exact ⟨r, hr, hu, hkey⟩
  · exact ⟨r, List.mem_append_left _ hr, hu, hkey⟩
  · have hv : r.userId ≠ v := by
      rintro rfl
      exact hop new (by rw [hu])
    have hp : (s.mayWrite r.userId && r.userId == v) = false := by
      rw [beq_eq_false_iff_ne.mpr hv, Bool.and_false]
    exact ⟨r, mem_setWhere.mpr (.inr ⟨hr, hp⟩), hu, hkey⟩
  · refine ⟨_, exists_mem_setWhere hr, ?_⟩
    split <;> exact ⟨hu, hkey⟩

/-- An update of the location of one's own profile that goes through. -/
theorem Op.Does.refers_update {new : Option JsonObject} {res : (Op.updateAvatar u new).Res}
    (h : (Op.updateAvatar u new).Does s st res st')
    (hok : succeeded ⟨.updateAvatar u new, res⟩ = true) (hmay : s.mayWrite u = true)
    {r : ProfileRow} (hr : r ∈ st.profiles.rows) (hu : r.userId = u)
    (hkey : (r.setAvatar new).avatarKey = some key) : st'.Refers u key := by
  obtain ⟨e, rfl, -⟩ | ⟨n, -, -, hrows⟩ := h
  · cases hok
  · refine ⟨r.setAvatar new, ?_, hu, hkey⟩
    rw [hrows, mem_setWhere]
    refine .inl ⟨r, hr, ?_, rfl⟩
    rw [hu, hmay, beq_self_eq_true]
    rfl

/-- Who deletes an object is about to write a location. -/
theorem Asks.newAvatar_isSome {r : Request} {past : List ops.Event}
    (h : Asks F u r past (.deleteObject key)) : (r.newAvatar F u).isSome = true := by
  cases h with
  | deleteObject hr =>
      rw [hr]
      rfl

/-- Who writes a location writes that of its own user. -/
theorem Asks.of_updateAvatar {userId : Uuid} {r : Request} {past : List ops.Event}
    {new : Option JsonObject} (h : Asks F userId r past (.updateAvatar u new)) :
    userId = u ∧ (r.newAvatar F u).isSome = true := by
  cases h with
  | updateAvatar hr =>
      rw [hr]
      exact ⟨rfl, rfl⟩

/-- A row with the new location refers to the object of this key. -/
theorem avatarKey_newAvatar {r : Request} {location : UrlLocation}
    (hr : r.newAvatar F u = some (some location)) (row : ProfileRow) :
    (row.setAvatar (some location.serialize)).avatarKey = some location.key := by
  have hs3 : location.location = .s3 := by
    cases r with
    | putAvatar q =>
        obtain rfl := Option.some.inj (Option.some.inj hr)
        rfl
    | deleteAvatar => cases Option.some.inj hr
    | createProfile | getProfile | updateProfile => cases hr
  simp [ProfileRow.avatarKey, ProfileRow.setAvatar, hs3]

/-- A request that lets its profile refer to the object does so, or goes on. -/
theorem Asks.goes_on {r : Request} {past : List ops.Event} {location : UrlLocation}
    (hasks : Asks F u r past op) (hr : r.newAvatar F u = some (some location))
    (hun : op.uncommitted = true) (hdoes : op.Does s st res st')
    (hok : succeeded ⟨op, res⟩ = true) (hmay : s.mayWrite u = true)
    (hrows : ∀ r ∈ st.profiles.rows, OwnAvatar F r) (hprofile : u ∈ st.userIds) :
    st'.Refers u location.key ∨ (∃ profile, Read u (⟨op, res⟩ :: past) profile) ∨
      Cleared u (⟨op, res⟩ :: past) := by
  cases hasks with
  | selectProfile =>
      obtain ⟨-, ⟨e, rfl⟩ | rfl⟩ := hdoes
      · cases hok
      · obtain ⟨r₀, hr₀, hu⟩ := List.mem_map.mp hprofile
        have hmem : r₀ ∈ st.profiles.rows.filter fun r => r.userId == u :=
          List.mem_filter.mpr ⟨hr₀, beq_iff_eq.mpr hu⟩
        -- so the answer is not empty, and its first row is one's own
        obtain ⟨row, hhead⟩ := Option.isSome_iff_exists.mp
          (List.isSome_head?.mpr (List.ne_nil_of_mem hmem))
        have hrow := (List.mem_filter.mp (List.mem_of_mem_head? hhead)).1
        obtain ⟨profile, hofRow, -⟩ := (hrows row hrow).ofRow
        exact .inr (.inl ⟨profile, .mk hhead hofRow⟩)
  | deleteObject _ h hsome hs3 =>
      obtain ⟨status, rfl, -⟩ | ⟨rfl, -⟩ := hdoes
      · cases hok
      · exact .inr (.inr (.deleted h hsome hs3))
  | updateAvatar hr' =>
      obtain rfl := Option.some.inj (hr'.symm.trans hr)
      obtain ⟨r₀, hr₀, hu⟩ := List.mem_map.mp hprofile
      exact .inl (hdoes.refers_update hok hmay hr₀ hu (avatarKey_newAvatar hr r₀))
  | insertProfile | updateProfile | presignGet | presignPut => cases hun

end

/-! ### Uploads -/

theorem IsOwn.eq {v : Uuid} {e : String} (h : IsOwn F u (avatarPath F v e)) : v = u := by
  obtain ⟨rest, hrest⟩ := h
  rw [toList_avatarPath, toList_avatarPath, List.append_assoc _ _ rest] at hrest
  obtain ⟨hfront, -⟩ := List.append_inj hrest (by simp [F.length_display])
  exact (F.injective (String.toList_inj.mp (List.append_cancel_left hfront))).symm

theorem Replies.putUrl_of {userId : Uuid} {r : Request} {past : List ops.Event} {url : Url}
    (h : Replies F userId r past (.ok (.putUrl url))) : ∃ e contentType n past',
      past = ⟨.presignPut (avatarPath F userId e) contentType, some url⟩ ::
        ⟨.updateAvatar userId (some (avatarAt F userId e).serialize), .ok n⟩ :: past' ∧
      Cleared userId past' := by
  cases h with
  | putUrl h => exact ⟨_, _, _, _, by rw [key_avatarAt], h⟩
  | other hr ha hurl => exact absurd rfl (hurl url)

/-- A URL for an upload is one for an avatar of a user who has a profile. -/
theorem Inv.uploadUrl_own {cfg : ServiceState} (h : Inv F decode cfg) {t : Worker}
    (ht : t ∈ cfg.threads) {key contentType : String}
    (hurl : uploadUrl t = some (key, contentType)) :
    ∃ v e, key = avatarPath F v e ∧ v ∈ cfg.shared.userIds := by
  obtain ⟨l, past, prog⟩ := t
  obtain rfl : prog = _ := uploadUrl_eq_some.mp hurl
  obtain ⟨user, hw⟩ | ⟨-, e, he⟩ := h.sound _ ht
  · obtain ⟨e, contentType', n, past', rfl, hcleared⟩ := Replies.putUrl_of hw.follows
    have hpast := h.answered _ ht
    have hkey := hpast.urls _ _ _ List.mem_cons_self
    exact ⟨user.sub, e, (Url.s3Put.inj hkey).1, hcleared.own hpast.tail.tail⟩
  · cases he

/-! ### Runs -/

variable (F u) in
/-- Every stored object of the user is covered, and who has one has a
profile. -/
structure Covered (cfg : ServiceState) : Prop where
  covered : ∀ key, IsOwn F u key → (cfg.shared.objects key).isSome = true →
    cfg.shared.Refers u key ∨ ∃ t ∈ cfg.threads, Covers F u key t
  profile : ∀ key, IsOwn F u key → (cfg.shared.objects key).isSome = true →
    u ∈ cfg.shared.userIds

theorem covered_initial : Covered F u initial :=
  ⟨fun _ _ h => absurd h Bool.false_ne_true, fun _ _ h => absurd h Bool.false_ne_true⟩

theorem Succeeds.succeeded {cfg : ServiceState} {i : ℕ} {c : Choice} {l : Context}
    {past : List ops.Event} {op : Op} {k : op.Res → Program ops Outcome}
    (h : Succeeds F u cfg (.request (.step i c)))
    (hi : cfg.threads[i]? = some ⟨l, past, .call op k⟩)
    (huser : userId ⟨l, past, .call op k⟩ = some u)
    (hr : (l.arrival.request.newAvatar F u).isSome = true) :
    User.succeeded ⟨op, (Op.exec l.session c op cfg.shared).1⟩ = true := by
  rw [Succeeds, hi] at h
  exact h ⟨huser, hr, rfl⟩

/-- The request that takes the step goes on covering what is still stored, or
its profile refers to it. -/
theorem Covers.step {cfg : ServiceState} (hinv : Inv F decode cfg) {i : ℕ} {c : Choice}
    {l : Context} {past : List ops.Event} {op : Op} {k : op.Res → Program ops Outcome}
    (hi : cfg.threads[i]? = some ⟨l, past, .call op k⟩)
    (hok : Succeeds F u cfg (.request (.step i c))) {key : String}
    (h : Covers F u key ⟨l, past, .call op k⟩) (hprofile : u ∈ cfg.shared.userIds)
    (hstored : ((Op.exec l.session c op cfg.shared).2.objects key).isSome = true) :
    (Op.exec l.session c op cfg.shared).2.Refers u key ∨
      Covers F u key ⟨l, ⟨op, (Op.exec l.session c op cfg.shared).1⟩ :: past,
        k (Op.exec l.session c op cfg.shared).1⟩ := by
  have ht := List.mem_of_getElem? hi
  obtain ⟨user, hw, hasks⟩ := (hinv.sound _ ht).working
  obtain rfl : user.sub = u := Option.some.inj (hw.userId_eq.symm.trans h.1)
  have hdoes := Op.exec_cases hw.loggedIn c op cfg.shared
  have hanswered := (hinv.answered _ ht).cons hdoes hinv.rows
  obtain ⟨huser, hdelete | ⟨hun, hnew⟩⟩ := h
  · -- the object is deleted, so it is not stored any more
    obtain rfl : op = .deleteObject key := Option.some.inj hdelete
    have hsucceeded := hok.succeeded hi huser hasks.newAvatar_isSome
    obtain ⟨status, herror, -⟩ | ⟨-, heq⟩ := hdoes
    · rw [herror] at hsucceeded
      cases hsucceeded
    · rw [heq] at hstored
      exact absurd rfl (isSome_update_none.mp hstored).1
  · obtain ⟨location, hjoin, rfl⟩ := Option.map_eq_some_iff.mp hnew
    have hr : l.arrival.request.newAvatar F user.sub = some (some location) :=
      Option.join_eq_some_iff.mp hjoin
    have hsucceeded := hok.succeeded hi huser (by rw [hr]; rfl)
    obtain hrefers | hgoes :=
      hasks.goes_on hr hun hdoes hsucceeded hw.mayWrite hinv.rows hprofile
    · exact .inl hrefers
    · exact .inr ⟨huser, .inr ⟨(hw.resume _).uncommitted hr hanswered hgoes, hnew⟩⟩

/-- A request goes on covering what it did while another one takes a step. -/
theorem covers_set {threads : List Worker} {i : ℕ} {t' : Worker} {key : String}
    (h : ∃ t ∈ threads.eraseIdx i, Covers F u key t) :
    ∃ t ∈ threads.set i t', Covers F u key t := by
  obtain ⟨t, ht, hcov⟩ := h
  obtain ⟨j, hne, hj⟩ := List.mem_eraseIdx_iff_getElem?.mp ht
  refine ⟨t, List.mem_of_getElem? (i := j) ?_, hcov⟩
  rw [List.getElem?_set_ne hne.symm, hj]

/-- A profile refers to what it did after a step of a request, or another
request covers it. -/
theorem refers_step {cfg : ServiceState} {i : ℕ} {c : Choice} {l : Context}
    {past : List ops.Event} {op : Op} {k : op.Res → Program ops Outcome} {user : UserClaims}
    (hi : cfg.threads[i]? = some ⟨l, past, .call op k⟩)
    (hw : Working F decode ⟨l, past, .call op k⟩ user)
    (hok : Succeeds F u cfg (.request (.step i c))) (hkeeps : Keeps F u cfg (.request (.step i c)))
    {key : String} (hrefers : cfg.shared.Refers u key)
    (hstored : (cfg.shared.objects key).isSome = true) :
    (Op.exec l.session c op cfg.shared).2.Refers u key ∨
      ∃ t ∈ cfg.threads.eraseIdx i, Covers F u key t := by
  have hdoes := Op.exec_cases hw.loggedIn c op cfg.shared
  by_cases hop : ∃ new, op = .updateAvatar u new
  · obtain ⟨new, rfl⟩ := hop
    obtain ⟨r, hr, hu, hkey⟩ := hrefers
    rw [Keeps, hi] at hkeeps
    obtain hsame | hcov := hkeeps rfl r hr hu key hkey hstored
    · obtain ⟨rfl, hnew⟩ := hw.follows.1.of_updateAvatar
      exact .inl (hdoes.refers_update (hok.succeeded hi hw.userId_eq hnew) hw.mayWrite hr hu hsame)
    · exact .inr hcov
  · exact .inl (hdoes.refers (fun new heq => hop ⟨new, heq⟩) hrefers)

/-- A step of a request keeps every object covered, ... -/
theorem Covered.step {cfg : ServiceState} (h : Covered F u cfg) (hinv : Inv F decode cfg) {i : ℕ}
    {c : Choice} {l : Context} {past : List ops.Event} {op : Op}
    {k : op.Res → Program ops Outcome} (hi : cfg.threads[i]? = some ⟨l, past, .call op k⟩)
    (hok : Succeeds F u cfg (.request (.step i c)))
    (hkeeps : Keeps F u cfg (.request (.step i c))) :
    Covered F u ⟨(Op.exec l.session c op cfg.shared).2, cfg.threads.set i
      ⟨l, ⟨op, (Op.exec l.session c op cfg.shared).1⟩ :: past,
        k (Op.exec l.session c op cfg.shared).1⟩⟩ := by
  obtain ⟨user, hw, -⟩ := (hinv.sound _ (List.mem_of_getElem? hi)).working
  have hdoes := Op.exec_cases hw.loggedIn c op cfg.shared
  refine ⟨fun key hown hstored => ?_, fun key hown hstored =>
    hdoes.userIds_subset (h.profile key hown (hdoes.isSome_objects hstored))⟩
  have hbefore := hdoes.isSome_objects hstored
  obtain hrefers | ⟨t, ht, hcov⟩ := h.covered key hown hbefore
  · obtain hrefers | hother := refers_step hi hw hok hkeeps hrefers hbefore
    · exact .inl hrefers
    · exact .inr (covers_set hother)
  · obtain ⟨j, hj⟩ := List.mem_iff_getElem?.mp ht
    by_cases hij : j = i
    · obtain rfl := hij
      obtain rfl := Option.some.inj (hj.symm.trans hi)
      obtain hrefers | hcov := hcov.step hinv hi hok (h.profile key hown hbefore) hstored
      · exact .inl hrefers
      · exact .inr ⟨_, List.mem_set (List.getElem?_eq_some_iff.mp hi).1 _, hcov⟩
    · exact .inr (covers_set ⟨t, List.mem_eraseIdx_iff_getElem?.mpr ⟨j, hij, hj⟩, hcov⟩)

/-- ... and so does an upload. -/
theorem Covered.put {cfg : ServiceState} (h : Covered F u cfg) (hinv : Inv F decode cfg) {i : ℕ}
    {body : List UInt8} {t : Worker} {key contentType : String} (hi : cfg.threads[i]? = some t)
    (hurl : uploadUrl t = some (key, contentType)) (hkeeps : Keeps F u cfg (.upload i body)) :
    Covered F u ⟨cfg.shared.put key ⟨contentType, body⟩, cfg.threads⟩ := by
  have hkey : ∀ key', ((cfg.shared.put key ⟨contentType, body⟩).objects key').isSome = true →
      key' = key ∨ (cfg.shared.objects key').isSome = true := by
    intro key' hstored
    by_cases hne : key' = key
    · exact .inl hne
    · dsimp only [Store.put] at hstored
      rw [Function.update_of_ne hne] at hstored
      exact .inr hstored
  refine ⟨fun key' hown hstored => ?_, fun key' hown hstored => ?_⟩
  · obtain rfl | hstored := hkey key' hstored
    · exact hkeeps t hi _ hurl hown
    · exact h.covered key' hown hstored
  · obtain rfl | hstored := hkey key' hstored
    · obtain ⟨v, e, rfl, hprofile⟩ := hinv.uploadUrl_own (List.mem_of_getElem? hi) hurl
      rwa [hown.eq] at hprofile
    · exact h.profile key' hown hstored

/-- **One event** that meets the conditions keeps every object covered. -/
theorem covered_step {cfg : ServiceState} (hinv : Inv F decode cfg) (h : Covered F u cfg)
    (e : Event) (hok : Succeeds F u cfg e) (hkeeps : Keeps F u cfg e) :
    Covered F u (step F decode cfg e) := by
  obtain ⟨a, -, heq⟩ | ⟨i, c, l, past, op, k, rfl, hi, heq⟩ |
    ⟨i, body, t, key, contentType, rfl, hi, hurl, heq⟩ | heq := step_cases F decode cfg e <;>
    rw [heq]
  · refine ⟨fun key hown hstored => ?_, h.profile⟩
    obtain hrefers | ⟨t, ht, hcov⟩ := h.covered key hown hstored
    · exact .inl hrefers
    · exact .inr ⟨t, List.mem_append_left _ ht, hcov⟩
  · exact h.step hinv hi hok hkeeps
  · exact h.put hinv hi hurl hkeeps
  · exact h

/-- Only a request in progress covers an object. -/
theorem Covers.busy {t : Worker} {key : String} (h : Covers F u key t) (ht : Sound F decode t) :
    Busy F u t := by
  obtain ⟨huser, hdelete | ⟨hun, hnew⟩⟩ := h
  · refine ⟨huser, ?_, by rw [hdelete]; rfl⟩
    obtain ⟨l, past, a | ⟨op, k⟩⟩ := t
    · cases hdelete
    · obtain rfl : op = .deleteObject key := Option.some.inj hdelete
      obtain ⟨user, hw, hasks⟩ := ht.working
      obtain rfl : user.sub = u := Option.some.inj (hw.userId_eq.symm.trans huser)
      exact hasks.newAvatar_isSome
  · obtain ⟨location, hjoin, -⟩ := Option.map_eq_some_iff.mp hnew
    refine ⟨huser, by rw [Option.join_eq_some_iff.mp hjoin]; rfl, ?_⟩
    rcases hnext : t.prog.next with - | op
    · rw [hnext] at hun
      cases hun
    · rfl

/-- So at rest nothing covers an object but the profile. -/
theorem Covered.noOrphans {cfg : ServiceState} (h : Covered F u cfg) (hinv : Inv F decode cfg) :
    NoOrphans F u cfg := by
  intro hrest key hown hstored
  obtain hrefers | ⟨t, ht, hcov⟩ := h.covered key hown hstored
  · exact hrefers
  · exact absurd (hcov.busy (hinv.sound t ht)) (hrest t ht)

variable (u) in
/-- **No avatar is orphaned** in a run in which nothing fails for the user,
uploads go to objects that are covered, and updates replace locations whose
objects are gone, covered or the same: at every moment without a request in
progress, every stored object of the user is the one that the profile refers
to. -/
theorem no_orphaned_avatars (events : List Event)
    (hok : EachStep (step F decode) (Succeeds F u) events initial)
    (hkeeps : EachStep (step F decode) (Keeps F u) events initial) :
    Always (step F decode) (NoOrphans F u) events initial := by
  have hboth : EachStep (step F decode) (fun cfg e => Succeeds F u cfg e ∧ Keeps F u cfg e) events
      initial :=
    fun before e after heq => ⟨hok before e after heq, hkeeps before e after heq⟩
  have hall : Always (step F decode) (fun cfg => Inv F decode cfg ∧ Covered F u cfg) events
      initial := by
    refine always_of_eachStep ?_ events initial ⟨inv_initial, covered_initial⟩ hboth
    rintro cfg e ⟨hinv, hcovered⟩ ⟨hok, hkeeps⟩
    exact ⟨inv_step hinv e, covered_step hinv hcovered e hok hkeeps⟩
  intro before after heq
  obtain ⟨hinv, hcovered⟩ := hall before after heq
  exact hcovered.noOrphans hinv

/-! ### Examples of runs -/

/-- Every token is one of user 1. -/
def tokenOfOne (_ : String) : Except String UserClaims := .ok ⟨⟨"one@example.com"⟩, 0, 1⟩

def arrival (r : Request) : Event :=
  .request (.arrive ⟨⟨true, .bearer "", fun _ => false⟩, ⟨.anon, none⟩, r⟩)

/-- Request `i` takes `n` steps. -/
def steps (i n : ℕ) : List Event := List.replicate n (.request (.step i {}))

/-- A profile, an avatar that is uploaded, another one with a different
extension, and its deletion. -/
def replaced : List Event :=
  [arrival (.createProfile ⟨"John Doe", ""⟩)] ++ steps 0 1 ++
    [arrival (.putAvatar ⟨"png"⟩)] ++ steps 1 3 ++ [.upload 1 [137, 80]] ++
    [arrival (.putAvatar ⟨"jpg"⟩)] ++ steps 2 4 ++ [.upload 2 [255, 216]] ++
    [arrival .deleteAvatar] ++ steps 3 3

theorem no_orphaned_avatars_replaced :
    Always (step .hyphenated tokenOfOne) (NoOrphans .hyphenated 1) replaced initial :=
  no_orphaned_avatars 1 replaced (by decide +kernel) (by decide +kernel)

/-- The avatar is uploaded through its URL after it was deleted. -/
def lateUpload : List Event :=
  [arrival (.createProfile ⟨"John Doe", ""⟩)] ++ steps 0 1 ++
    [arrival (.putAvatar ⟨"png"⟩)] ++ steps 1 3 ++
    [arrival .deleteAvatar] ++ steps 2 3 ++ [.upload 1 [137, 80]]

/-- Two avatars are put at once: both requests read the profile before either
writes it. -/
def twoAtOnce : List Event :=
  [arrival (.createProfile ⟨"John Doe", ""⟩)] ++ steps 0 1 ++
    [arrival (.putAvatar ⟨"png"⟩), arrival (.putAvatar ⟨"jpg"⟩)] ++ steps 1 1 ++ steps 2 1 ++
    steps 1 2 ++ [.upload 1 [137, 80]] ++ steps 2 2

theorem orphaned_avatars :
    (EachStep (step .hyphenated tokenOfOne) (Succeeds .hyphenated 1) lateUpload initial ∧
      ¬ Always (step .hyphenated tokenOfOne) (NoOrphans .hyphenated 1) lateUpload initial) ∧
    EachStep (step .hyphenated tokenOfOne) (Succeeds .hyphenated 1) twoAtOnce initial ∧
      ¬ Always (step .hyphenated tokenOfOne) (NoOrphans .hyphenated 1) twoAtOnce initial := by
  have horphan : ∀ events,
      (∀ t ∈ (run .hyphenated tokenOfOne events initial).threads, ¬ Busy .hyphenated 1 t) →
      ((run .hyphenated tokenOfOne events initial).shared.objects
        (avatarPath .hyphenated 1 "png")).isSome = true →
      ¬ (run .hyphenated tokenOfOne events initial).shared.Refers 1
        (avatarPath .hyphenated 1 "png") →
      ¬ Always (step .hyphenated tokenOfOne) (NoOrphans .hyphenated 1) events initial := by
    intro events hrest hstored hnot h
    exact hnot (h events [] (List.append_nil _).symm hrest _ (by decide +kernel) hstored)
  refine ⟨⟨by decide +kernel, horphan lateUpload ?_ ?_ ?_⟩, by decide +kernel,
    horphan twoAtOnce ?_ ?_ ?_⟩ <;> decide +kernel

end User

end Lockinspiel
