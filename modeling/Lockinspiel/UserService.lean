/-
Lockinspiel/UserService.lean

The user service: any number of requests at once, and the uploads that clients
make through the URLs they got.

`service` is the `System` of the handlers, as for the timekeeper service.  An
upload does not go through the service: it is an event of its own, through the
URL that some request has returned, and it may come at any time after that.

`step_cases` says once what an event can do, and `Sound` what holds of every
request at work.
-/
import Lockinspiel.Lib.Runs
import Lockinspiel.UserRoutes

namespace Lockinspiel

namespace User

open Effects Sql Runs

/-! ### The service -/

/-- A request that arrives: what its login sees, the session that is left on
the connection it gets, and the request itself. -/
structure Arrival where
  login : LoginRequest
  session : Session
  request : Request

/-- What belongs to one request alone: how it arrived, its connection if the
login returned one, and the session of that connection. -/
structure Context where
  arrival : Arrival
  connection : Option DatabaseConnection
  session : Session

/-- How a request ends. -/
abbrev Outcome := Except Stop Reply

/-- A request at work. -/
abbrev Worker := Thread ops Context Outcome

/-- The service at work. -/
abbrev ServiceState := Config ops Context Outcome Store

variable (F : UuidFormat) (decode : String → Except String UserClaims)

/-- A request that has logged in stands before the first operation of its
handler; one whose login failed has ended. -/
def arrive (a : Arrival) : Worker :=
  match login decode a.login a.session with
  | (.ok db, s) => ⟨⟨a, some db, s⟩, [], (handler F db a.request).run⟩
  | (.error e, s) => ⟨⟨a, none, s⟩, [], .done (.error (.error (.ofLogin e)))⟩

/-- The user service. -/
def service : System ops Context Outcome Store Choice Arrival where
  start := arrive F decode
  exec l c op st := Op.exec l.session c op st

/-- What can happen next: a request arrives or takes a step, or a client uploads
these bytes through the URL that request `i` has returned. -/
inductive Event
  | request (act : Act Arrival Choice)
  | upload (i : ℕ) (body : List UInt8)

/-- The object of this key is uploaded. -/
def Store.put (st : Store) (key : String) (object : Object) : Store :=
  { st with objects := Function.update st.objects key (some object) }

/-- The URL for an upload that a request has returned. -/
def uploadUrl : Worker → Option (String × String)
  | ⟨_, _, .done (.ok (.putUrl (.s3Put key contentType)))⟩ => some (key, contentType)
  | _ => none

def step (cfg : ServiceState) : Event → ServiceState
  | .request act => (service F decode).act cfg act
  | .upload i body =>
      match (cfg.threads[i]?).bind uploadUrl with
      | some (key, contentType) => { cfg with shared := cfg.shared.put key ⟨contentType, body⟩ }
      | none => cfg

def run (events : List Event) (cfg : ServiceState) : ServiceState :=
  events.foldl (step F decode) cfg

/-- The service over the migrated database and an empty bucket. -/
def initial : ServiceState where
  shared :=
    { profiles := { rows := [], keys := List.nodup_nil }
      objects := fun _ => none }
  threads := []

/-- **What an event can do.** -/
theorem step_cases (cfg : ServiceState) (e : Event) :
    (∃ a, e = .request (.arrive a) ∧
      step F decode cfg e = ⟨cfg.shared, cfg.threads ++ [arrive F decode a]⟩) ∨
    (∃ i c l past op k, e = .request (.step i c) ∧ cfg.threads[i]? = some ⟨l, past, .call op k⟩ ∧
      step F decode cfg e = ⟨(Op.exec l.session c op cfg.shared).2, cfg.threads.set i
        ⟨l, ⟨op, (Op.exec l.session c op cfg.shared).1⟩ :: past,
          k (Op.exec l.session c op cfg.shared).1⟩⟩) ∨
    (∃ i body t key contentType, e = .upload i body ∧ cfg.threads[i]? = some t ∧
      uploadUrl t = some (key, contentType) ∧
      step F decode cfg e = ⟨cfg.shared.put key ⟨contentType, body⟩, cfg.threads⟩) ∨
    step F decode cfg e = cfg := by
  cases e with
  | request act =>
      cases act with
      | arrive a => exact .inl ⟨a, rfl, rfl⟩
      | step i c =>
          obtain ⟨l, past, op, k, hi, hact⟩ | hact := (service F decode).act_step_cases cfg i c
          · exact .inr (.inl ⟨i, c, l, past, op, k, rfl, hi, hact⟩)
          · exact .inr (.inr (.inr hact))
  | upload i body =>
      rcases hi : cfg.threads[i]? with - | t
      · exact .inr (.inr (.inr (by rw [step, hi]; rfl)))
      · rcases hurl : uploadUrl t with - | ⟨key, contentType⟩
        · exact .inr (.inr (.inr (by rw [step, hi, Option.bind_some, hurl])))
        · exact .inr (.inr (.inl ⟨i, body, t, key, contentType, rfl, hi, hurl,
            by rw [step, hi, Option.bind_some, hurl]⟩))

theorem uploadUrl_eq_some {t : Worker} {key contentType : String} :
    uploadUrl t = some (key, contentType) ↔
      t.prog = .done (.ok (.putUrl (.s3Put key contentType))) := by
  constructor
  · intro h
    unfold uploadUrl at h
    split at h
    · obtain ⟨rfl, rfl⟩ := Prod.mk.inj (Option.some.inj h)
      rfl
    · cases h
  · intro h
    obtain ⟨l, past, prog⟩ := t
    subst h
    rfl

/-! ### What holds of every request at work -/

/-- A request at work is logged in as `user`, and its handler is somewhere along
its way. -/
structure Working (t : Worker) (user : UserClaims) : Prop where
  connection : t.loc.connection = some ⟨some user⟩
  identified : Identified decode t.loc.arrival.login.header ⟨some user⟩ t.loc.session
  follows : t.prog.Follows (Asks F user.sub t.loc.arrival.request)
    (Replies F user.sub t.loc.arrival.request) t.past

/-- Every request works, or it has ended before its first operation. -/
def Sound (t : Worker) : Prop :=
  (∃ user, Working F decode t user) ∨ t.past = [] ∧ ∃ e, t.prog = .done (.error (.error e))

variable {F decode}

/-- Somebody who is not logged in gets an error. -/
theorem handler_anonymous (r : Request) :
    ∃ e, (handler F ⟨none⟩ r).run = .done (.error (.error e)) := by
  cases r <;> exact ⟨_, rfl⟩

variable (F decode) in
/-- A request ends with its login, or it stands before its handler. -/
theorem arrive_cases (a : Arrival) :
    (∃ e s, arrive F decode a = ⟨⟨a, none, s⟩, [], .done (.error (.error e))⟩) ∨
    ∃ db s, arrive F decode a = ⟨⟨a, some db, s⟩, [], (handler F db a.request).run⟩ ∧
      Identified decode a.login.header db s := by
  obtain ⟨e, s, h⟩ | ⟨db, s, h, hid⟩ := login_cases decode a.login a.session
  · exact .inl ⟨_, s, by rw [arrive, h]⟩
  · exact .inr ⟨db, s, by rw [arrive, h], hid⟩

theorem sound_arrive (a : Arrival) : Sound F decode (arrive F decode a) := by
  obtain ⟨e, s, h⟩ | ⟨⟨user⟩, s, h, hid⟩ := arrive_cases F decode a <;> rw [h]
  · exact .inr ⟨rfl, _, rfl⟩
  · cases user with
    | none => exact .inr ⟨rfl, handler_anonymous a.request⟩
    | some user => exact .inl ⟨user, rfl, hid, handler_follows rfl a.request⟩

theorem Working.resume {l : Context} {past : List ops.Event} {op : Op}
    {k : op.Res → Program ops Outcome} {user : UserClaims}
    (h : Working F decode ⟨l, past, .call op k⟩ user) (r : op.Res) :
    Working F decode ⟨l, ⟨op, r⟩ :: past, k r⟩ user :=
  ⟨h.connection, h.identified, h.follows.2 r⟩

/-- A request that is about to ask an operation works. -/
theorem Sound.working {l : Context} {past : List ops.Event} {op : Op}
    {k : op.Res → Program ops Outcome} (h : Sound F decode ⟨l, past, .call op k⟩) :
    ∃ user, Working F decode ⟨l, past, .call op k⟩ user ∧
      Asks F user.sub l.arrival.request past op := by
  obtain ⟨user, hw⟩ | ⟨-, e, he⟩ := h
  · exact ⟨user, hw, hw.follows.1⟩
  · cases he

theorem Working.loggedIn {t : Worker} {user : UserClaims} (h : Working F decode t user) :
    t.loc.session.LoggedIn :=
  h.identified.loggedIn

/-- A request may write the profile of its own user. -/
theorem Working.mayWrite {t : Worker} {user : UserClaims} (h : Working F decode t user) :
    t.loc.session.mayWrite user.sub = true := by
  rw [h.identified.mayWrite_eq rfl, beq_self_eq_true]

/-- The user of a request is the one of its session. -/
theorem Working.unique {t : Worker} {user user' : UserClaims} (h : Working F decode t user)
    (h' : Working F decode t user') : user = user' := by
  have heq := h.connection.symm.trans h'.connection
  exact Option.some.inj (DatabaseConnection.mk.inj (Option.some.inj heq))

end User

end Lockinspiel
