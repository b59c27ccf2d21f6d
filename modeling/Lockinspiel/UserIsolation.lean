/-
Lockinspiel/UserIsolation.lean

What others do is not seen by a user of the user service.

`SameFor` relates two stores in which a user has the same profile and the same
stored avatars.  An operation of the user answers the same in both, and the
stores after it are related again (`sameFor_own`); an operation of anybody else,
and an upload through a URL of anybody else, changes one of them to a store that
is still related (`sameFor_other`).  So all requests of others, and all their
uploads, can be taken out of a run (`noninterference`): what is left is a run of
the user alone, with the same answers.
-/
import Lockinspiel.FailedAvatar
import Lockinspiel.Lib.Erase

namespace Lockinspiel

namespace User

open Effects Sql

variable {F : UuidFormat} {decode : String → Except String UserClaims} {u : Uuid}

/-! ### Stores that are the same for a user -/

/-- The row of the user, if there is one. -/
def Profiles.of (p : Profiles) (u : Uuid) : List ProfileRow := p.rows.filter fun r => r.userId == u

variable (F u) in
/-- The user has the same profile and the same stored avatars. -/
structure SameFor (st st' : Store) : Prop where
  profile : st.profiles.of u = st'.profiles.of u
  objects : ∀ key, IsOwn F u key → st.objects key = st'.objects key

/-- Both statements fail alike, or go through with the same answer and leave the
user the same row. -/
inductive SameResult (u : Uuid) {α : Type} :
    Except SqlError (α × Profiles) → Except SqlError (α × Profiles) → Prop
  | error (e) : SameResult u (.error e) (.error e)
  | ok (a : α) {p p' : Profiles} (h : p.of u = p'.of u) : SameResult u (.ok (a, p)) (.ok (a, p'))

section

variable {α : Type} {st st' : Store} {s : Session}

/-- A statement in both stores. -/
theorem SameFor.statement (h : SameFor F u st st') {result result' : Except SqlError (α × Profiles)}
    (hresult : SameResult u result result') (c : Choice) :
    (statement c st' result').1 = (statement c st result).1 ∧
      SameFor F u (statement c st result).2 (statement c st' result').2 := by
  unfold User.statement
  cases c.fails with
  | true => exact ⟨rfl, h⟩
  | false =>
      cases hresult with
      | error e => exact ⟨rfl, h⟩
      | ok a hprofile => exact ⟨rfl, hprofile, h.objects⟩

theorem SameResult.checkText {texts : List String} {f f' : Except SqlError (α × Profiles)}
    (h : SameResult u f f') :
    SameResult u (checkText texts >>= fun _ => f) (checkText texts >>= fun _ => f') := by
  cases Lockinspiel.checkText texts with
  | error e => exact .error e
  | ok _ => exact h

theorem nodup_insert {p : Profiles} {row : ProfileRow} (hrow : row.userId = u) :
    ((p.rows ++ [row]).map ProfileRow.userId).Nodup ↔ p.of u = [] := by
  rw [nodup_map_concat p.keys, hrow, Profiles.of, List.filter_eq_nil_iff]
  simp only [List.mem_map, not_exists, not_and, beq_iff_eq]

/-- A profile of the user is inserted in both stores, or it is there in both. -/
theorem SameFor.insert (h : SameFor F u st st') {row : ProfileRow} (hrow : row.userId = u) :
    let insert (p : Profiles) : Except SqlError (ℕ × Profiles) := do
      let rows ← profilesTable.insert Role.member s.role s [row] p.rows
      return (1, ← commit rows)
    SameResult u (insert st.profiles) (insert st'.profiles) := by
  intro insert
  have hcommit : ∀ p : Profiles, (p.of u = [] ∧ ∃ p', p'.of u = [row] ∧
      commit (p.rows ++ [row]) = .ok p') ∨
      p.of u ≠ [] ∧ commit (p.rows ++ [row]) = .error .uniqueViolation := by
    intro p
    by_cases hnil : p.of u = []
    · refine .inl ⟨hnil, _, ?_, dif_pos ((nodup_insert hrow).mpr hnil)⟩
      rw [Profiles.of] at hnil ⊢
      rw [List.filter_append, hnil]
      simp [hrow]
    · exact .inr ⟨hnil, dif_neg (mt (nodup_insert hrow).mp hnil)⟩
  have hinsert : ∀ p : Profiles, insert p = do
      let rows ← profilesTable.insert Role.member s.role s [row] p.rows
      return (1, ← commit rows) := fun _ => rfl
  rw [hinsert, hinsert, Table.insert, Table.insert]
  split
  · split
    · obtain ⟨hnil, p, hp, hok⟩ | ⟨hsome, herror⟩ := hcommit st.profiles
      · obtain ⟨-, p', hp', hok'⟩ | ⟨hsome', -⟩ := hcommit st'.profiles
        · change SameResult u (commit _ >>= _) (commit _ >>= _)
          rw [hok, hok']
          exact .ok 1 (hp.trans hp'.symm)
        · exact absurd (h.profile ▸ hnil) hsome'
      · obtain ⟨hnil', -⟩ | ⟨-, herror'⟩ := hcommit st'.profiles
        · exact absurd (h.profile.trans hnil') hsome
        · change SameResult u (commit _ >>= _) (commit _ >>= _)
          rw [herror, herror']
          exact .error _
    · exact .error _
  · exact .error _

/-- The profile of the user is updated in both stores. -/
theorem SameFor.update (h : SameFor F u st st') (hs : s.LoggedIn)
    (hmay : ∀ owner, s.mayWrite owner = (owner == u)) (f : ProfileRow → ProfileRow)
    (hf : ∀ r, (f r).userId = r.userId) :
    let update (p : Profiles) : Except SqlError (ℕ × Profiles) := do
      let (n, rows) ← profilesTable.update Role.member s.role s (fun r => r.userId == u) f p.rows
      return (n, ← commit rows)
    SameResult u (update st.profiles) (update st'.profiles) := by
  intro update
  have hrole : s.role = .authenticated := by
    refine (Session.mayWrite_eq_true.mp ((hmay u).trans ?_)).1
    rw [beq_self_eq_true]
  have hgranted : profilesTable.granted Role.member s.role .update = true := by
    rw [granted_write hs rfl rfl (by decide), hrole]
    rfl
  have hown : (fun r : ProfileRow => s.mayWrite r.userId && r.userId == u) =
      fun r => r.userId == u := by
    funext r
    rw [hmay, Bool.and_self]
  have hupdate : ∀ p : Profiles, ∃ p', p'.of u = (p.of u).map f ∧
      update p = .ok ((p.of u).length, p') := by
    intro p
    have htable : profilesTable.update Role.member s.role s (fun r => r.userId == u) f p.rows = _ :=
      Table.update_eq (q := fun r => s.mayWrite r.userId) hgranted (granted_select hs rfl)
        (fun r => (profiles_passes hs r).1) (fun r => (profiles_passes hs r).2.2.1)
        (fun r => (profiles_passes hs r).2.2.2) fun r => by rw [hf r]
    rw [hown] at htable
    have hkeys : ((setWhere (fun r => r.userId == u) f p.rows).map ProfileRow.userId).Nodup := by
      rw [map_setWhere hf]
      exact p.keys
    refine ⟨⟨_, hkeys⟩, ?_, ?_⟩
    · rw [Profiles.of, filter_setWhere_comm (fun r => by rw [hf r]), setWhere, Profiles.of]
      refine List.map_congr_left fun r hr => if_pos ?_
      exact (List.mem_filter.mp hr).2
    · show (profilesTable.update Role.member s.role s (fun r => r.userId == u) f p.rows >>= fun x =>
        commit x.2 >>= fun p' => pure (x.1, p')) = _
      rw [htable]
      show (commit _ >>= fun p' => pure ((p.of u).length, p')) = _
      rw [commit, dif_pos hkeys]
      rfl
  obtain ⟨p, hp, hok⟩ := hupdate st.profiles
  obtain ⟨p', hp', hok'⟩ := hupdate st'.profiles
  rw [hok, hok', h.profile]
  exact .ok _ (by rw [hp, hp', h.profile])

/-- **The user's own operations.** -/
theorem SameFor.own (h : SameFor F u st st') (hs : s.LoggedIn)
    (hmay : ∀ owner, s.mayWrite owner = (owner == u)) {r : Request} {past : List ops.Event}
    {op : Op} (hasks : Asks F u r past op) (c : Choice) :
    (op.exec s c st').1 = (op.exec s c st).1 ∧
      SameFor F u (op.exec s c st).2 (op.exec s c st').2 := by
  cases hasks with
  | insertProfile => exact h.statement (.checkText (h.insert rfl)) c
  | updateProfile =>
      rename_i p
      exact h.statement
        (.checkText (h.update hs hmay (ProfileRow.set p.displayName p.bio) fun _ => rfl)) c
  | updateAvatar =>
      rename_i new _ _
      exact h.statement (.checkText (h.update hs hmay
        (ProfileRow.setAvatar (new.map UrlLocation.serialize)) fun _ => rfl)) c
  | selectProfile =>
      rw [exec_selectProfile hs, exec_selectProfile hs]
      refine ⟨?_, h⟩
      change (if c.fails then _ else Except.ok (st'.profiles.of u)) = _
      rw [← h.profile]
      rfl
  | presignGet | presignPut => exact ⟨rfl, h⟩
  | deleteObject =>
      rw [Op.exec, Op.exec]
      cases c.fails with
      | true => exact ⟨rfl, h⟩
      | false =>
          refine ⟨rfl, h.profile, fun key hkey => ?_⟩
          show Function.update st.objects _ none key = Function.update st'.objects _ none key
          rw [Function.update_apply, Function.update_apply, h.objects key hkey]

/-- **The operations of others.** -/
theorem SameFor.other (h : SameFor F u st st') (hs : s.LoggedIn) {v : Uuid} (hne : v ≠ u)
    (hmay : ∀ owner, s.mayWrite owner = (owner == v)) {op : Op} (c : Choice)
    (hkey : ∀ key, op.writes = some key → ∃ e, key = avatarPath F v e) :
    SameFor F u (op.exec s c st).2 st' := by
  have hnot : ∀ r : ProfileRow, s.mayWrite r.userId = true → (r.userId == u) = false := by
    intro r hr
    rw [hmay, beq_iff_eq] at hr
    rw [hr]
    exact beq_false_of_ne hne
  have hset : ∀ (p : ProfileRow → Bool) (f : ProfileRow → ProfileRow),
      (∀ r, (f r).userId = r.userId) →
      (setWhere (fun r => s.mayWrite r.userId && p r) f st.profiles.rows).filter
        (fun r => r.userId == u) = st.profiles.of u := by
    intro p f hf
    refine filter_setWhere fun r _ hp => ?_
    rw [Bool.and_eq_true] at hp
    rw [hf r, hnot r hp.1]
    exact ⟨rfl, rfl⟩
  have hdoes := Op.exec_cases hs c op st
  generalize op.exec s c st = res at hdoes
  obtain ⟨res, st₁⟩ := res
  suffices hsame : st₁.profiles.of u = st.profiles.of u ∧
      ∀ key, IsOwn F u key → st₁.objects key = st.objects key from
    ⟨hsame.1.trans h.profile, fun key hown => (hsame.2 key hown).trans (h.objects key hown)⟩
  cases op with
  | insertProfile displayName bio owner =>
      obtain ⟨e, -, rfl⟩ | ⟨n, -, howner, hobjects, hrows⟩ := hdoes
      · exact ⟨rfl, fun _ _ => rfl⟩
      · refine ⟨?_, fun key _ => by rw [hobjects]⟩
        rw [Profiles.of, hrows, List.filter_append, Profiles.of]
        simp [hnot ⟨owner, displayName, bio, none⟩ howner]
  | updateAvatar owner location =>
      obtain ⟨e, -, rfl⟩ | ⟨n, -, hobjects, hrows⟩ := hdoes
      · exact ⟨rfl, fun _ _ => rfl⟩
      · refine ⟨?_, fun key _ => by rw [hobjects]⟩
        rw [Profiles.of, hrows]
        exact hset _ _ fun _ => rfl
  | updateProfile owner displayName bio =>
      obtain ⟨e, -, rfl⟩ | ⟨n, -, hobjects, hrows⟩ := hdoes
      · exact ⟨rfl, fun _ _ => rfl⟩
      · refine ⟨?_, fun key _ => by rw [hobjects]⟩
        rw [Profiles.of, hrows]
        exact hset _ _ fun _ => rfl
  | deleteObject key =>
      obtain ⟨status, -, rfl⟩ | ⟨-, rfl⟩ := hdoes
      · exact ⟨rfl, fun _ _ => rfl⟩
      · refine ⟨rfl, fun key' hown => ?_⟩
        -- the object that was deleted is one of somebody else
        obtain ⟨e, rfl⟩ := hkey key rfl
        show Function.update st.objects _ none key' = _
        rw [Function.update_of_ne]
        rintro rfl
        exact hne hown.eq
  | selectProfile | presignGet | presignPut =>
      obtain ⟨rfl, -⟩ := hdoes
      exact ⟨rfl, fun _ _ => rfl⟩

end

/-! ### Events -/

/-- Requests alone are a run of the system. -/
theorem run_request (acts : List (Act Arrival Choice)) (cfg : ServiceState) :
    run F decode (acts.map .request) cfg = (service F decode).run acts cfg := by
  rw [run, List.foldl_map]
  rfl

theorem run_append (events events' : List Event) (cfg : ServiceState) :
    run F decode (events ++ events') cfg = run F decode events' (run F decode events cfg) :=
  List.foldl_append

/-- A request stays in its place. -/
theorem loc_run (events : List Event) (cfg : ServiceState) {i : ℕ} {t : Worker}
    (hi : cfg.threads[i]? = some t) :
    ∃ t', (run F decode events cfg).threads[i]? = some t' ∧ t'.loc = t.loc := by
  induction events generalizing cfg t with
  | nil => exact ⟨t, hi, rfl⟩
  | cons e events ih =>
      have hstep : ∃ t', (step F decode cfg e).threads[i]? = some t' ∧ t'.loc = t.loc := by
        cases e with
        | request act =>
            obtain ⟨t', hi', hloc, -⟩ :
                ∃ t', ((service F decode).run [act] cfg).threads[i]? = some t' ∧ _ :=
              System.past_suffix [act] cfg hi
            exact ⟨t', hi', hloc⟩
        | upload j body =>
            obtain ⟨a, he, -⟩ | ⟨_, _, _, _, _, _, he, -⟩ | ⟨_, _, _, _, _, -, -, -, heq⟩ | heq :=
              step_cases F decode cfg (.upload j body)
            · cases he
            · cases he
            · rw [heq]
              exact ⟨t, hi, rfl⟩
            · rw [heq]
              exact ⟨t, hi, rfl⟩
      obtain ⟨t', hi', hloc⟩ := hstep
      obtain ⟨t'', hi'', hloc'⟩ := ih _ hi'
      exact ⟨t'', hi'', hloc'.trans hloc⟩

/-- The URL that a request has returned is one for an avatar of its user. -/
theorem Inv.uploadUrl_user {cfg : ServiceState} (h : Inv F decode cfg) {t : Worker}
    (ht : t ∈ cfg.threads) {key contentType : String}
    (hurl : uploadUrl t = some (key, contentType)) :
    ∃ v e, userId t = some v ∧ key = avatarPath F v e := by
  obtain ⟨l, past, prog⟩ := t
  obtain rfl : prog = _ := uploadUrl_eq_some.mp hurl
  obtain ⟨user, hw⟩ | ⟨-, e, he⟩ := h.sound _ ht
  · obtain ⟨e, contentType', n, past', rfl, -⟩ := Replies.putUrl_of hw.follows
    have hkey := (h.answered _ ht).urls _ _ _ List.mem_cons_self
    exact ⟨user.sub, e, hw.userId_eq, (Url.s3Put.inj hkey).1⟩
  · cases he

/-- An upload in both stores. -/
theorem SameFor.put {st st' : Store} (h : SameFor F u st st') (key : String) (object : Object) :
    SameFor F u (st.put key object) (st'.put key object) := by
  refine ⟨h.profile, fun key' hown => ?_⟩
  show Function.update st.objects key _ key' = Function.update st'.objects key _ key'
  rw [Function.update_apply, Function.update_apply, h.objects key' hown]

/-- An upload to a key of somebody else. -/
theorem SameFor.put_other {st st' : Store} (h : SameFor F u st st') {v : Uuid} (hne : v ≠ u)
    (e : String) (object : Object) : SameFor F u (st.put (avatarPath F v e) object) st' := by
  refine ⟨h.profile, fun key hown => ?_⟩
  refine Eq.trans ?_ (h.objects key hown)
  show Function.update st.objects _ _ key = _
  rw [Function.update_of_ne]
  rintro rfl
  exact hne hown.eq

section

variable {keep : ℕ → Bool} {cfg : ServiceState} {st : Store}

/-- **One event** is an event of the user alone, or none. -/
theorem erased_step (hinv : Inv F decode cfg)
    (hkeep : ∀ i t, cfg.threads[i]? = some t → keep i = (userId t == some u))
    (h : SameFor F u cfg.shared st) (e : Event) :
    ∃ events st', run F decode events ⟨st, sift keep cfg.threads⟩ =
      ⟨st', sift keep (step F decode cfg e).threads⟩ ∧
      SameFor F u (step F decode cfg e).shared st' := by
  cases e with
  | request act =>
      -- the operations of the user see and do the same in both stores
      have hkept : ∀ i c l past op k, act = .step i c →
          cfg.threads[i]? = some ⟨l, past, .call op k⟩ → keep i = true →
            (Op.exec l.session c op st).1 = (Op.exec l.session c op cfg.shared).1 ∧
              SameFor F u (Op.exec l.session c op cfg.shared).2
                (Op.exec l.session c op st).2 := by
        rintro i c l past op k rfl hi hk
        obtain ⟨user, hw, hasks⟩ := (hinv.sound _ (List.mem_of_getElem? hi)).working
        rw [hkeep i _ hi, hw.userId_eq, beq_iff_eq, Option.some.injEq] at hk
        subst hk
        exact h.own hw.loggedIn (hw.identified.mayWrite_eq rfl) hasks c
      -- those of another user touch nothing that the user sees
      have hdropped : ∀ i c l past op k, act = .step i c →
          cfg.threads[i]? = some ⟨l, past, .call op k⟩ → keep i = false →
            SameFor F u (Op.exec l.session c op cfg.shared).2 st := by
        rintro i c l past op k rfl hi hk
        have ht := List.mem_of_getElem? hi
        obtain ⟨user, hw, -⟩ := (hinv.sound _ ht).working
        rw [hkeep i _ hi, hw.userId_eq] at hk
        have hne : user.sub ≠ u := by
          rintro rfl
          rw [beq_self_eq_true] at hk
          cases hk
        exact h.other hw.loggedIn hne (hw.identified.mayWrite_eq rfl) c fun key hkey =>
          hinv.own ht hw (List.mem_append_left _ List.mem_cons_self) hkey
      obtain ⟨acts, st', hrun, hsame⟩ : ∃ acts s', (service F decode).run acts _ = _ ∧ _ :=
        System.erased_act h act hkept hdropped
      exact ⟨acts.map .request, st', (run_request acts _).trans hrun, hsame⟩
  | upload i body =>
      obtain ⟨a, he, -⟩ | ⟨_, _, _, _, _, _, he, -⟩ |
        ⟨_, _, t, key, contentType, he, hi, hurl, heq⟩ | heq :=
          step_cases F decode cfg (.upload i body)
      · cases he
      · cases he
      · obtain ⟨rfl, rfl⟩ := Event.upload.inj he
        rw [heq]
        cases hk : keep i with
        | true =>
            -- an upload of the user comes through the same URL at its new place
            have hplace : (sift keep cfg.threads)[place keep i]? = _ :=
              ((getElem?_sift hk cfg.threads).resolve_right (by rw [hi]; simp)).trans hi
            refine ⟨[.upload (place keep i) body], st.put key ⟨contentType, body⟩, ?_, h.put key _⟩
            rw [run, List.foldl_cons, List.foldl_nil, step, hplace, Option.bind_some, hurl]
        | false =>
            obtain ⟨v, e, hv, rfl⟩ := hinv.uploadUrl_user (List.mem_of_getElem? hi) hurl
            have hne : v ≠ u := by
              rintro rfl
              rw [hkeep i t hi, hv, beq_self_eq_true] at hk
              cases hk
            exact ⟨[], st, rfl, h.put_other hne e _⟩
      · rw [heq]
        exact ⟨[], st, rfl, h⟩

end

theorem erased_run {keep : ℕ → Bool} (events : List Event) (cfg : ServiceState) (st : Store)
    (hinv : Inv F decode cfg)
    (hkeep : ∀ i t, (run F decode events cfg).threads[i]? = some t →
      keep i = (userId t == some u))
    (h : SameFor F u cfg.shared st) :
    ∃ events' st', run F decode events' ⟨st, sift keep cfg.threads⟩ =
      ⟨st', sift keep (run F decode events cfg).threads⟩ ∧
      SameFor F u (run F decode events cfg).shared st' := by
  induction events generalizing cfg st with
  | nil => exact ⟨[], st, rfl, h⟩
  | cons e events ih =>
      have hkeep₀ : ∀ i t, cfg.threads[i]? = some t → keep i = (userId t == some u) := by
        intro i t hi
        obtain ⟨t', hi', hloc⟩ : ∃ t', (run F decode (e :: events) cfg).threads[i]? = some t' ∧
            t'.loc = t.loc := loc_run (e :: events) cfg hi
        rw [hkeep i t' hi', userId, userId, hloc]
      obtain ⟨first, st₁, hfirst, hsame⟩ := erased_step hinv hkeep₀ h e
      obtain ⟨rest, st', hrest, hsame'⟩ := ih _ st₁ (inv_step hinv e) hkeep hsame
      exact ⟨first ++ rest, st', by rw [run_append, hfirst, hrest]; rfl, hsame'⟩

/-- **Nobody else is noticed.**  For every run there is one of the requests and
uploads of a user alone, in which they are answered the same, and which leaves
them the same profile and the same stored avatars. -/
theorem noninterference (F : UuidFormat) (decode : String → Except String UserClaims) (u : Uuid)
    (events : List Event) :
    ∃ events', (run F decode events' initial).threads =
        (run F decode events initial).threads.filter (fun t => userId t == some u) ∧
      SameFor F u (run F decode events initial).shared (run F decode events' initial).shared := by
  let keep (i : ℕ) : Bool :=
    (run F decode events initial).threads[i]?.all fun t => userId t == some u
  have hkeep : ∀ i t, (run F decode events initial).threads[i]? = some t →
      keep i = (userId t == some u) := by
    intro i t hi
    simp only [keep, hi, Option.all_some]
  obtain ⟨events', st', hrun, hsame⟩ := erased_run events initial initial.shared inv_initial hkeep
    ⟨rfl, fun _ _ => rfl⟩
  have hrun' : run F decode events' initial = _ := hrun
  refine ⟨events', ?_, ?_⟩
  · rw [hrun', sift_eq_filter hkeep]
  · rw [hrun']
    exact hsame

end User

end Lockinspiel
