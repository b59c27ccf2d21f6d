/-
Lockinspiel/UserRoutes.lean

The five handlers of the user service, over the operations of `Profiles.lean`.

A handler is a program that asks operations one after the other and ends with a
reply, with an error, or with a panic (a URL that cannot be presigned).
`put_avatar` and `delete_avatar` read the profile, delete the object that it
refers to, and write the new location; `Read` and `Cleared` are the answers
after which they stand at the second and at the third of these steps.  An
operation that ends with an error is taken to have had no effect (see
`Profiles.lean`), so a handler that ends with the error of an operation has done
what it did before it.

`Asks` says which operation a handler asks after which answers, and `Replies`
how it ends after them (`handler_follows`).
-/
import Lockinspiel.Profiles

namespace Lockinspiel

namespace User

open Effects Sql

/-! ### Errors -/

inductive UrlResolutionError
  /-- The status of the raw response, where there is one. -/
  | s3DeleteError (status : Option ℕ)
  | deletingFromUserService
deriving DecidableEq

/-- `#[error(..)]` of `UrlResolutionError`. -/
def UrlResolutionError.display : UrlResolutionError → String
  | .s3DeleteError _ => "Failed to delete object in S3"
  | .deletingFromUserService => "Deleting from user service asset directory is unimplemented"

/-- `AsStatusCode for UrlResolutionError`. -/
def UrlResolutionError.statusCode : UrlResolutionError → ℕ
  | .s3DeleteError status => status.getD 500
  | .deletingFromUserService => 400

/-- How a handler ends without a reply. -/
inductive Stop
  | error (e : EyreError)
  | resolution (e : UrlResolutionError)
  | panic

/-- A handler in progress. -/
abbrev Handler (α : Type) := ExceptT Stop (Program ops) α

def ask (op : Op) : Handler op.Res := .mk <| .call op fun r => .done (.ok r)

/-- `.wrap_err(..)` and `.with_status_code(..)?`. -/
def wrapErr {α : Type} (context : String) (status : StatusCode) : Except SqlError α → Handler α
  | .ok a => pure a
  | .error e => throw (.error ⟨status, ⟨[context], some e⟩⟩)

/-- `Err(eyre!(..)).with_status_code(..)`. -/
def fail {α : Type} (message : String) (status : StatusCode) : Handler α :=
  throw (.error ⟨status, ⟨[message], none⟩⟩)

/-! ### Requests and replies -/

structure InsertableUserProfile where
  displayName : String
  bio : String

structure UserProfileChangeset where
  displayName : String
  bio : String

structure PutAvatarQuery where
  fileExtension : String

inductive Request
  | createProfile (newProfile : InsertableUserProfile)
  | getProfile
  | putAvatar (putAvatarQuery : PutAvatarQuery)
  | deleteAvatar
  | updateProfile (updatedProfile : UserProfileChangeset)

structure UserProfile where
  userId : Uuid
  displayName : String
  bio : String
  avatarLocation : Option Url
deriving DecidableEq

inductive Reply
  | unit
  | profile (profile : UserProfile)
  | putUrl (url : Url)
deriving DecidableEq

structure DbUserProfile where
  userId : Uuid
  displayName : String
  bio : String
  avatarLocation : Option UrlLocation
deriving DecidableEq

/-- `FromSqlRow for DbUserProfile`; `none` is a document that is no
location. -/
def DbUserProfile.ofRow (row : ProfileRow) : Option DbUserProfile :=
  match row.avatarLocation with
  | none => some ⟨row.userId, row.displayName, row.bio, none⟩
  | some value =>
      (UrlLocation.deserialize value).map fun location =>
        ⟨row.userId, row.displayName, row.bio, some location⟩

/-! ### The URL resolver -/

/-- `UrlResolver::resolve_get_url`. -/
def resolveGetUrl (location : UrlLocation) : Handler Url :=
  match location.location with
  | .userService => pure (.userService location.path)
  | .s3 => do
      match ← ask (.presignGet location.key) with
      | some url => pure url
      | none => throw .panic

/-- `UrlResolver::resolve_put_url`. -/
def resolvePutUrl (location : UrlLocation) (contentType : String) : Handler Url :=
  match location.location with
  | .userService => pure (.userService location.path)
  | .s3 => do
      match ← ask (.presignPut location.key contentType) with
      | some url => pure url
      | none => throw .panic

/-- `UrlResolver::delete_url`. -/
def deleteUrl (location : UrlLocation) : Handler Unit :=
  match location.location with
  | .userService => throw (.resolution .deletingFromUserService)
  | .s3 => do
      match ← ask (.deleteObject location.key) with
      | .ok () => pure ()
      | .error status => throw (.resolution (.s3DeleteError status))

/-! ### Handlers -/

/-- The user of a request that has to be logged in. -/
def requireUser (db : DatabaseConnection) (message : String) : Handler Uuid :=
  match db.user with
  | some user => pure user.sub
  | none => fail message .unauthorized

/-- `.get_result(..)` and `.optional()` of the rows, then `.ok_or_eyre(..)`. -/
def theProfile (rows : List ProfileRow) : Handler DbUserProfile :=
  match rows.head? with
  | none => fail "Failed to find user profile in database" .notFound
  | some row =>
      match DbUserProfile.ofRow row with
      | some profile => pure profile
      | none => fail "Failed to insert user profile into database" .unprocessableEntity

def getUserProfile (userId : Uuid) : Handler DbUserProfile := do
  let rows ← wrapErr "Failed to insert user profile into database" .unprocessableEntity
    (← ask (.selectProfile userId))
  theProfile rows

/-- `DbUserProfile::into_user_profile`. -/
def intoUserProfile (profile : DbUserProfile) : Handler UserProfile :=
  match profile.avatarLocation with
  | none => pure ⟨profile.userId, profile.displayName, profile.bio, none⟩
  | some location => do
      let url ← resolveGetUrl location
      return ⟨profile.userId, profile.displayName, profile.bio, some url⟩

def createProfile (db : DatabaseConnection) (newProfile : InsertableUserProfile) :
    Handler Reply := do
  let userId ← requireUser db "You need to be logged in to create a user profile"
  let _ ← wrapErr "Failed to insert user profile into database" .unprocessableEntity
    (← ask (.insertProfile newProfile.displayName newProfile.bio userId))
  return .unit

def getProfile (db : DatabaseConnection) : Handler Reply := do
  let userId ← requireUser db "You need to be logged in to get your user profile"
  let profile ← getUserProfile userId
  return .profile (← intoUserProfile profile)

/-- `if let Some(location) = current_profile.avatar_location`. -/
def deleteCurrent (currentProfile : DbUserProfile) : Handler Unit :=
  match currentProfile.avatarLocation with
  | some location => deleteUrl location
  | none => pure ()

variable (F : UuidFormat)

def putAvatar (db : DatabaseConnection) (putAvatarQuery : PutAvatarQuery) : Handler Reply := do
  let userId ← requireUser db "You need to be logged in to updated your user profile"
  let currentProfile ← getUserProfile userId
  deleteCurrent currentProfile
  let urlLocation := avatarAt F userId putAvatarQuery.fileExtension
  let _ ← wrapErr "Failed to insert user profile into database" .unprocessableEntity
    (← ask (.updateAvatar userId (some urlLocation.serialize)))
  return .putUrl (← resolvePutUrl urlLocation ("image/" ++ putAvatarQuery.fileExtension))

def deleteAvatar (db : DatabaseConnection) : Handler Reply := do
  let userId ← requireUser db "You need to be logged in to update your user profile"
  let currentProfile ← getUserProfile userId
  deleteCurrent currentProfile
  let _ ← wrapErr "Failed to insert user profile into database" .unprocessableEntity
    (← ask (.updateAvatar userId none))
  return .unit

def updateProfile (db : DatabaseConnection) (updatedProfile : UserProfileChangeset) :
    Handler Reply := do
  let userId ← requireUser db "You need to be logged in to update your user profile"
  let _ ← wrapErr "Failed to insert user profile into database" .unprocessableEntity
    (← ask (.updateProfile userId updatedProfile.displayName updatedProfile.bio))
  return .unit

def handler (db : DatabaseConnection) : Request → Handler Reply
  | .createProfile newProfile => createProfile db newProfile
  | .getProfile => getProfile db
  | .putAvatar putAvatarQuery => putAvatar F db putAvatarQuery
  | .deleteAvatar => deleteAvatar db
  | .updateProfile updatedProfile => updateProfile db updatedProfile

/-! ### What a handler asks and replies -/

/-- The location that a request writes: a new one, or none. -/
def Request.newAvatar (userId : Uuid) : Request → Option (Option UrlLocation)
  | .putAvatar q => some (some (avatarAt F userId q.fileExtension))
  | .deleteAvatar => some none
  | .createProfile _ | .getProfile | .updateProfile _ => none

/-- The profile was read. -/
inductive Read (userId : Uuid) : List ops.Event → DbUserProfile → Prop
  | mk {rows : List ProfileRow} {row profile} (hrow : rows.head? = some row)
      (hprofile : DbUserProfile.ofRow row = some profile) :
      Read userId [⟨.selectProfile userId, .ok rows⟩] profile

/-- The profile was read, and the object it refers to was deleted. -/
inductive Cleared (userId : Uuid) : List ops.Event → Prop
  | nothing {past profile} (h : Read userId past profile)
      (hnone : profile.avatarLocation = none) : Cleared userId past
  | deleted {past profile location} (h : Read userId past profile)
      (hsome : profile.avatarLocation = some location) (hs3 : location.location = .s3) :
      Cleared userId (⟨.deleteObject location.key, .ok ()⟩ :: past)

/-- After the answers `past`, the last first, the handler of a request of this
user asks the operation. -/
inductive Asks (userId : Uuid) : Request → List ops.Event → Op → Prop
  | insertProfile {p} :
      Asks userId (.createProfile p) [] (.insertProfile p.displayName p.bio userId)
  | updateProfile {p} :
      Asks userId (.updateProfile p) [] (.updateProfile userId p.displayName p.bio)
  | selectProfile {r} (hr : r = .getProfile ∨ (r.newAvatar F userId).isSome = true) :
      Asks userId r [] (.selectProfile userId)
  | presignGet {past profile location} (h : Read userId past profile)
      (hsome : profile.avatarLocation = some location) (hs3 : location.location = .s3) :
      Asks userId .getProfile past (.presignGet location.key)
  | deleteObject {r new past profile location} (hr : r.newAvatar F userId = some new)
      (h : Read userId past profile) (hsome : profile.avatarLocation = some location)
      (hs3 : location.location = .s3) : Asks userId r past (.deleteObject location.key)
  | updateAvatar {r new past} (hr : r.newAvatar F userId = some new) (h : Cleared userId past) :
      Asks userId r past (.updateAvatar userId (new.map UrlLocation.serialize))
  | presignPut {q past} {n : ℕ} (h : Cleared userId past) :
      Asks userId (.putAvatar q)
        (⟨.updateAvatar userId (some (avatarAt F userId q.fileExtension).serialize), .ok n⟩ :: past)
        (.presignPut (avatarAt F userId q.fileExtension).key ("image/" ++ q.fileExtension))

/-- Is the answer no error?  (A URL is no statement and no deletion.) -/
def succeeded : ops.Event → Bool
  | ⟨.insertProfile .., r⟩ => r.isOk
  | ⟨.selectProfile _, r⟩ => r.isOk
  | ⟨.updateAvatar .., r⟩ => r.isOk
  | ⟨.updateProfile .., r⟩ => r.isOk
  | ⟨.deleteObject _, r⟩ => r.isOk
  | ⟨.presignGet _, _⟩ | ⟨.presignPut .., _⟩ => true

/-- After the answers `past`, the handler of a request of this user ends with a
URL, with no further reply after the update, with an error after an answer, or
without having written an avatar. -/
inductive Replies (userId : Uuid) : Request → List ops.Event → Except Stop Reply → Prop
  | putUrl {q past} {n : ℕ} {url : Url} (h : Cleared userId past) :
      Replies userId (.putAvatar q)
        (⟨.presignPut (avatarAt F userId q.fileExtension).key ("image/" ++ q.fileExtension),
            some url⟩ ::
          ⟨.updateAvatar userId (some (avatarAt F userId q.fileExtension).serialize), .ok n⟩ ::
            past)
        (.ok (.putUrl url))
  | noUrl {q past} {n : ℕ} (h : Cleared userId past) :
      Replies userId (.putAvatar q)
        (⟨.presignPut (avatarAt F userId q.fileExtension).key ("image/" ++ q.fileExtension),
            none⟩ ::
          ⟨.updateAvatar userId (some (avatarAt F userId q.fileExtension).serialize), .ok n⟩ ::
            past)
        (.error .panic)
  | deleted {past} {n : ℕ} (h : Cleared userId past) :
      Replies userId .deleteAvatar (⟨.updateAvatar userId none, .ok n⟩ :: past) (.ok .unit)
  | failed {r e s past} (hpast : succeeded e = false)
      (hs : s ≠ .resolution .deletingFromUserService) :
      Replies userId r (e :: past) (.error s)
  | unread {r s} {rows : List ProfileRow}
      (hrows : ∀ row ∈ rows.head?, DbUserProfile.ofRow row = none)
      (hs : s ≠ .resolution .deletingFromUserService) :
      Replies userId r [⟨.selectProfile userId, .ok rows⟩] (.error s)
  | unable {r past profile location} (h : Read userId past profile)
      (hsome : profile.avatarLocation = some location) (hs3 : location.location ≠ .s3) :
      Replies userId r past (.error (.resolution .deletingFromUserService))
  | other {r past a} (hr : r.newAvatar F userId = none)
      (ha : a ≠ .error (.resolution .deletingFromUserService))
      (hurl : ∀ url, a ≠ .ok (.putUrl url)) :
      Replies userId r past a

section

variable {F} {userId : Uuid} {r : Request}

theorem theProfile_cases (rows : List ProfileRow) :
    (∃ e, (∀ row ∈ rows.head?, DbUserProfile.ofRow row = none) ∧
      theProfile rows = throw (.error e)) ∨
    ∃ row profile, rows.head? = some row ∧ DbUserProfile.ofRow row = some profile ∧
      theProfile rows = pure profile := by
  rw [theProfile]
  cases hrow : rows.head? with
  | none => exact .inl ⟨_, nofun, rfl⟩
  | some row =>
      dsimp only
      cases hprofile : DbUserProfile.ofRow row with
      | none =>
          refine .inl ⟨_, ?_, rfl⟩
          rintro row' ⟨⟩
          exact hprofile
      | some profile => exact .inr ⟨row, profile, rfl, hprofile, rfl⟩

/-- A handler that reads the profile first. -/
theorem follows_getUserProfile {f : DbUserProfile → Handler Reply}
    (hr : r = .getProfile ∨ (r.newAvatar F userId).isSome = true)
    (h : ∀ past profile, Read userId past profile →
      (f profile).run.Follows (Asks F userId r) (Replies F userId r) past) :
    (getUserProfile userId >>= f).run.Follows (Asks F userId r) (Replies F userId r) [] := by
  refine ⟨.selectProfile hr, fun a => ?_⟩
  cases a with
  | error e => exact .failed rfl (by simp)
  | ok rows =>
      change List ProfileRow at rows
      change (theProfile rows >>= f).run.Follows _ _ _
      obtain ⟨e, hrows, heq⟩ | ⟨row, profile, hrow, hprofile, heq⟩ := theProfile_cases rows
      · rw [heq]
        exact .unread hrows (by simp)
      · rw [heq, pure_bind]
        exact h _ profile (.mk hrow hprofile)

/-- A handler that deletes the current avatar next. -/
theorem follows_deleteCurrent {f : Unit → Handler Reply} {new : Option UrlLocation}
    (hr : r.newAvatar F userId = some new) {past : List ops.Event} {profile : DbUserProfile}
    (hread : Read userId past profile)
    (h : ∀ past', Cleared userId past' →
      (f ()).run.Follows (Asks F userId r) (Replies F userId r) past') :
    (deleteCurrent profile >>= f).run.Follows (Asks F userId r) (Replies F userId r) past := by
  rw [deleteCurrent]
  cases hlocation : profile.avatarLocation with
  | none => exact h past (.nothing hread hlocation)
  | some location =>
      dsimp only
      rw [deleteUrl]
      cases hs3 : location.location with
      | userService =>
          exact .unable hread hlocation (by rw [hs3]; decide)
      | s3 =>
          refine ⟨.deleteObject hr hread hlocation hs3, fun a => ?_⟩
          cases a with
          | error status => exact .failed rfl (by simp)
          | ok n => exact h _ (.deleted hread hlocation hs3)

/-- A handler that writes the location next. -/
theorem follows_updateAvatar {f : ℕ → Handler Reply} {new : Option UrlLocation}
    (hr : r.newAvatar F userId = some new) {past : List ops.Event} (hcleared : Cleared userId past)
    (h : ∀ n : ℕ, (f n).run.Follows (Asks F userId r) (Replies F userId r)
      (⟨.updateAvatar userId (new.map UrlLocation.serialize), .ok n⟩ :: past)) :
    (do
      let n ← wrapErr "Failed to insert user profile into database" .unprocessableEntity
        (← ask (.updateAvatar userId (new.map UrlLocation.serialize)))
      f n : Handler Reply).run.Follows (Asks F userId r) (Replies F userId r) past := by
  refine ⟨.updateAvatar hr hcleared, fun a => ?_⟩
  cases a with
  | error e => exact .failed rfl (by simp)
  | ok n => exact h n

/-- **What the handlers do**: they ask as `Asks` says and end as `Replies`
says. -/
theorem handler_follows {db : DatabaseConnection} {user : UserClaims} (hu : db.user = some user)
    (r : Request) :
    (handler F db r).run.Follows (Asks F user.sub r) (Replies F user.sub r) [] := by
  have hrequire : ∀ message, requireUser db message = pure user.sub := by
    intro message
    rw [requireUser, hu]
  cases r with
  | createProfile p =>
      rw [handler, createProfile, hrequire, pure_bind]
      refine ⟨.insertProfile, fun a => ?_⟩
      cases a with
      | error e => exact .failed rfl (by simp)
      | ok n => exact .other rfl nofun nofun
  | getProfile =>
      rw [handler, getProfile, hrequire, pure_bind]
      refine follows_getUserProfile (.inl rfl) fun past profile hread => ?_
      rw [intoUserProfile]
      cases hlocation : profile.avatarLocation with
      | none => exact .other rfl nofun nofun
      | some location =>
          dsimp only
          rw [resolveGetUrl]
          cases hs3 : location.location with
          | userService => exact .other rfl nofun nofun
          | s3 =>
              refine ⟨.presignGet hread hlocation hs3, fun a => ?_⟩
              cases a with
              | none => exact .other rfl nofun nofun
              | some url => exact .other rfl nofun nofun
  | putAvatar q =>
      rw [handler, putAvatar, hrequire, pure_bind]
      refine follows_getUserProfile (.inr rfl) fun past profile hread => ?_
      -- the object of the old location is deleted before the new location is written
      refine follows_deleteCurrent rfl hread fun past hcleared => ?_
      refine follows_updateAvatar (r := .putAvatar q) rfl hcleared fun n => ?_
      refine ⟨.presignPut hcleared, fun a => ?_⟩
      cases a with
      | none => exact .noUrl hcleared
      | some url => exact .putUrl hcleared
  | deleteAvatar =>
      rw [handler, deleteAvatar, hrequire, pure_bind]
      refine follows_getUserProfile (.inr rfl) fun past profile hread => ?_
      refine follows_deleteCurrent rfl hread fun past hcleared => ?_
      exact follows_updateAvatar (r := .deleteAvatar) rfl hcleared fun n => .deleted hcleared
  | updateProfile p =>
      rw [handler, updateProfile, hrequire, pure_bind]
      refine ⟨.updateProfile, fun a => ?_⟩
      cases a with
      | error e => exact .failed rfl (by simp)
      | ok n => exact .other rfl nofun nofun

end

end User

end Lockinspiel
