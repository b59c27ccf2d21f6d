/-
Lockinspiel/Documented.lean

What the timekeeper says of itself, and what it does.

Every handler implements a route of the schema, a struct from which the macro
of `IntoPath.lean` generates an operation of the OpenAPI document.  Of an
operation, callers rely on the bodies of its responses and on its security:
whether a request needs a token, or may do without (`()`).

The handlers do not read any of it.  Four of them ask for a user themselves; the
others rely on the grants of the database.  `documented` says that both come to
what the document says, in every interleaving.
-/
import Lockinspiel.Endings
import Lockinspiel.IntoPath

namespace Lockinspiel

open Effects Sql Utoipa Grammar

variable {J : Jiff} {decode : String → Except String UserClaims} {isType : TokenStream → Bool}

/-! ### Routes -/

/-- The enums of the schema that derive `IntoResponses`.  All of them have
`YourFault` (`"4XX"`) and `OurFault` (`"5XX"`). -/
inductive Responses
  | timekeeperVoid
  | tagArray
  | tagId
  | timeSplitVoid
  | timeSplitArray
  | timeSplit
  | timerArray
  | timer

def Responses.name : Responses → String
  | .timekeeperVoid => "TimekeeperVoidResponses"
  | .tagArray => "TagArrayResponses"
  | .tagId => "TagIDResponses"
  | .timeSplitVoid => "TimeSplitVoidResponses"
  | .timeSplitArray => "TimeSplitArrayResponses"
  | .timeSplit => "TimeSplitResponses"
  | .timerArray => "TimerArrayResponses"
  | .timer => "TimerResponses"

/-- Is this a body of `Success`? -/
def Responses.success : Responses → Reply J → Bool
  | .timekeeperVoid, .unit | .timeSplitVoid, .unit => true
  | .tagArray, .tags _ | .tagId, .tagId _ => true
  | .timeSplitArray, .timeSplits _ | .timeSplit, .timeSplit _ => true
  | .timerArray, .timers _ | .timer, .timer _ => true
  | _, _ => false

def Utoipa.HttpMethod.name : HttpMethod → String
  | .get => "get"
  | .post => "post"
  | .put => "put"
  | .delete => "delete"
  | .options => "options"
  | .head => "head"
  | .patch => "patch"
  | .trace => "trace"

/-- `#[api_path(..)]` with what it is about.  The routes of the schema all have
these configs, in this order. -/
structure ApiPath where
  method : HttpMethod
  path : String
  summary : String
  description : String
  tag : String
  responses : Responses
  /-- `security` has `()` as well. -/
  anonymous : Bool
  /-- The field of the `#[body]`. -/
  body : Option (String × TokenStream)
  /-- `#[param(Path)] pub id: i32`. -/
  id : Bool

namespace ApiPath

/-- `name = "text"`. -/
def item (name text : String) : TokenStream := [.ident name, .punct '=', .literal text]

/-- `("bearer_jwt" = []),`, and then `()`. -/
def security (p : ApiPath) : TokenStream :=
  .group .parenthesis [.literal "bearer_jwt", .punct '=', .group .bracket []] :: .punct ',' ::
    if p.anonymous then [.group .parenthesis []] else []

def tokens (p : ApiPath) : TokenStream :=
  [.punct ','].intercalate
    [[.ident p.method.name], item "path" p.path, item "summary" p.summary,
      item "description" p.description, item "tag" p.tag,
      [.ident "responses", .group .parenthesis [.ident p.responses.name]],
      [.ident "security", .group .parenthesis p.security]]

def bodyField (body : String × TokenStream) : Field := ⟨[⟨"body", none⟩], body.1, body.2⟩

def idField : Field := ⟨[⟨"param", some [.ident "Path"]⟩], "id", [.ident "i32"]⟩

def fields (p : ApiPath) : List Field :=
  (p.body.map bodyField).toList ++ if p.id then [idField] else []

def itemStruct (p : ApiPath) : ItemStruct where
  attrs := [⟨"api_path", some p.tokens⟩]
  fields := some p.fields

end ApiPath

/-- `name<'a>`. -/
def borrowed (name : String) : TokenStream :=
  [.ident name, .punct '<', .punct (Char.ofNat 39), .ident "a", .punct '>']

def createTagRoute : ApiPath where
  method := .post
  path := "/timekeeper/tag"
  summary := "Create a tag"
  description := "Creates a new tag in the database. The returned tag ID can be used in other " ++
    "endpoints in this service."
  tag := "Tag"
  responses := .tagId
  anonymous := false
  body := some ("body", borrowed "InsertableTag")
  id := false

def getTagsRoute : ApiPath where
  method := .get
  path := "/timekeeper/tag"
  summary := "Retreive tags"
  description :=
    "Retreives all the tags associated with the user, as well as the default ones"
  tag := "Tag"
  responses := .tagArray
  anonymous := true
  body := none
  id := false

def modifyTagRoute : ApiPath where
  method := .put
  path := "/timekeeper/tag/\x7bid\x7d"
  summary := "Modify tag"
  description := "Modifies the fields of the tag at the ID"
  tag := "Tag"
  responses := .timekeeperVoid
  anonymous := false
  body := some ("body", borrowed "InsertableTag")
  id := true

def deleteTagRoute : ApiPath where
  method := .delete
  path := "/timekeeper/tag/\x7bid\x7d"
  summary := "Delete a tag"
  description := "Deletes the tag at the given ID. This just marks the tag as deleted, and " ++
    "doesn't actually delete the tag in the database. Timers posted with a deleted tag will " ++
    "still have that tag, the tag just won't appear when querying some endpoints."
  tag := "Tag"
  responses := .timekeeperVoid
  anonymous := false
  body := none
  id := true

def createTimeSplitRoute : ApiPath where
  method := .post
  path := "/timekeeper/time-split"
  summary := "Create a time split"
  description := "Creates a new time split in the database. The returned time split ID can be " ++
    "used in other endpoints in this service. The timer lengths should use the `jiff::Span` " ++
    "format"
  tag := "Time split"
  responses := .timeSplit
  anonymous := false
  body := some ("body", borrowed "InsertablePackagedTimeSplit")
  id := false

def getTimeSplitsRoute : ApiPath where
  method := .get
  path := "/timekeeper/time-split"
  summary := "Retreive time splits"
  description :=
    "Retrieves all the time splits associated with the user, as well as the default ones"
  tag := "Time split"
  responses := .timeSplitArray
  anonymous := true
  body := none
  id := false

def modifyTimeSplitRoute : ApiPath where
  method := .put
  path := "/timekeeper/time-split/\x7bid\x7d"
  summary := "Modify a time split"
  description := "Modifies the fields of the time split at the ID."
  tag := "Time split"
  responses := .timeSplitVoid
  anonymous := false
  body := some ("time_split", borrowed "InsertableTimeSplit")
  id := true

def deleteTimeSplitRoute : ApiPath where
  method := .delete
  path := "/timekeeper/time-split/\x7bid\x7d"
  summary := "Delete a time split"
  description := "Deletes the time split at the given ID. This just marks the time split as " ++
    "deleted, and doesn't actually delete the time split in the database. Timers posted with a " ++
    "deleted time split will still have that time split, the time split just won't appear when " ++
    "querying some endpoints."
  tag := "Time split"
  responses := .timeSplitVoid
  anonymous := false
  body := none
  id := true

def postTimerRoute : ApiPath where
  method := .post
  path := "/timekeeper/timer"
  summary := "Post a timer"
  description := "Upon starting a new timer, the Unix timestamp of when the timer was started, " ++
    "as well as the Unix timestamp in the future when the timer will end should be sent to this " ++
    "service. The ID of the time split, whether the timer is a work or a break timer, and the " ++
    "tag IDs associated with the timer should also be sent."
  tag := "Timer"
  responses := .timer
  anonymous := false
  body := some ("timer", [.ident "InsertableTimer"])
  id := false

def getTimerRoute : ApiPath where
  method := .get
  path := "/timekeeper/timer"
  summary := "Retreive a timer"
  description := "Retreives the most recently started/ended timer if no parameters are " ++
    "specified. Otherwise returns the timers that match the parameters."
  tag := "Timer"
  responses := .timerArray
  anonymous := true
  body := none
  id := false

def modifyTimerRoute : ApiPath where
  method := .put
  path := "/timekeeper/timer"
  summary := "Modify a timer"
  description := "This route replaces the fields of the timer at the passed in start time with " ++
    "new fields. When a timer is paused, this route should be used to change the end_timestamp " ++
    "of the timer to the Unix timestamp at which the timer was paused. To resume a timer, a new " ++
    "timer should be posted with the Unix timestamp at which the timer was resumed, and the " ++
    "Unix timestamp in the future at which the remaining time will have elapsed."
  tag := "Timer"
  responses := .timer
  anonymous := false
  body := some ("timer", [.ident "InsertableTimer"])
  id := false

/-- `implementor_of`. -/
def Request.route : Request J → ApiPath
  | .createTag _ => createTagRoute
  | .getTags => getTagsRoute
  | .modifyTag .. => modifyTagRoute
  | .deleteTag _ => deleteTagRoute
  | .createTimeSplit _ => createTimeSplitRoute
  | .getTimeSplits => getTimeSplitsRoute
  | .modifyTimeSplit .. => modifyTimeSplitRoute
  | .deleteTimeSplit _ => deleteTimeSplitRoute
  | .postTimer _ => postTimerRoute
  | .getTimers => getTimerRoute
  | .modifyTimer _ => modifyTimerRoute

/-! ### Operations -/

namespace ApiPath

variable (p : ApiPath)

/-- A text. -/
def literal (text : String) : ConfigItem :=
  ⟨[.literal text], fun _ h => by rw [List.mem_singleton.mp h]; rfl⟩

/-- The bearer token, and then nothing. -/
def securities : List SecurityRequirements :=
  [⟨.literal "bearer_jwt", []⟩] :: if p.anonymous then [[]] else []

def configs : List Configs :=
  [.httpMethod p.method.name, .path (literal p.path), .summary (literal p.summary),
    .description (literal p.description), .tag (literal p.tag),
    .responses [.ident p.responses.name], .security p.securities]

theorem spells_item {name : String} {config : ConfigItem → Configs}
    (h : keyword name = .item config) (text : String) :
    Spells isType (config (literal text)) (item name text) :=
  .item h

theorem terminated_security :
    Terminated TokenTree.isComma SpellsRequirements p.securities p.security := by
  have hbearer : SpellsRequirements [⟨.literal "bearer_jwt", []⟩]
      [.group .parenthesis [.literal "bearer_jwt", .punct '=', .group .bracket []]] :=
    .mk (.last (.mk .nil))
  have hnobody : SpellsRequirements [] [.group .parenthesis []] := .mk .nil
  rw [securities, security]
  cases p.anonymous with
  | false => exact .cons hbearer rfl .nil
  | true => exact .cons hbearer rfl (.last hnobody)

/-- The configs of a route, as far as the name of an enum is a type. -/
theorem terminated_configs (htype : isType [.ident p.responses.name] = true) :
    Terminated TokenTree.isComma (Spells isType) p.configs p.tokens := by
  have hmethod : keyword p.method.name = .httpMethod := by
    cases p.method <;> rfl
  refine Terminated.intercalate rfl (.cons (.httpMethod hmethod) ?_)
  refine .cons (spells_item rfl _) (.cons (spells_item rfl _) (.cons (spells_item rfl _) ?_))
  refine .cons (spells_item rfl _) (.cons (.responses rfl htype) (.cons ?_ .nil))
  exact .security rfl p.terminated_security

/-- The operation of the route. -/
def operation : Operation where
  httpMethods := [p.method]
  path := some (literal p.path)
  summary := some (literal p.summary)
  description := some (literal p.description)
  requestBody := p.body.map fun body => ⟨none, none, body.2⟩
  parameters := if p.id then [⟨none, some "Path", "id", [.ident "i32"]⟩] else []
  responses := some [.ident p.responses.name]
  securities := p.securities
  tags := [literal p.tag]
  schemas := (p.body.map Prod.snd).toList

theorem isBody (body : String × TokenStream) :
    IsBody isType (bodyField body, ⟨"body", none⟩) ⟨none, none, body.2⟩ :=
  ⟨[], .inr ⟨rfl, rfl⟩, rfl⟩

theorem isParameter :
    IsParameter isType (idField, ⟨"param", some [.ident "Path"]⟩)
      ⟨none, some "Path", "id", [.ident "i32"]⟩ :=
  ⟨[.parameterIn "Path"], .inl ⟨_, rfl, .last (.parameterIn rfl)⟩, rfl⟩

theorem describes (htype : isType [.ident p.responses.name] = true) :
    Describes isType p.itemStruct p.operation := by
  have hcs : StructHolds isType p.itemStruct.attrs p.configs :=
    ⟨p.tokens, rfl, p.terminated_configs htype⟩
  have hbodies : List.Forall₂ (IsBody isType) (ofName "body" (attributes p.fields))
      (p.body.map fun body => (⟨none, none, body.2⟩ : RequestBody)).toList := by
    rw [fields]
    cases p.body <;> cases p.id
    · exact .nil
    · exact .nil
    · exact .cons (isBody _) .nil
    · exact .cons (isBody _) .nil
  have hparameters : List.Forall₂ (IsParameter isType) (ofName "param" (attributes p.fields))
      p.operation.parameters := by
    rw [operation, fields]
    cases p.body <;> cases p.id
    · exact .nil
    · exact .cons isParameter .nil
    · exact .nil
    · exact .cons isParameter .nil
  have hmethod : httpMethod p.method.name = some p.method := by
    cases p.method <;> rfl
  have hmethods : p.configs.filterMap Configs.method? = [p.method] := by
    simp only [configs, List.filterMap_cons, List.filterMap_nil, Configs.method?, hmethod]
  have hsecurities : p.configs.flatMap Configs.securities = p.securities :=
    List.append_nil p.securities
  have hdescribes := Describes.mk hcs hbodies hparameters
  rw [hmethods, hsecurities] at hdescribes
  show Describes isType ⟨p.itemStruct.attrs, some p.fields⟩ p.operation
  convert hdescribes using 1
  rw [operation]
  cases p.body <;> rfl

theorem mem_securities : [] ∈ p.securities ↔ p.anonymous = true := by
  rw [securities]
  cases p.anonymous <;> simp

end ApiPath

/-! ### Outcomes -/

/-- A reply is a body of `Success`, and where a request may do without a token,
the only errors are those of the service. -/
structure Answers (p : ApiPath) (o : Outcome J) : Prop where
  success : ∀ reply, o = .ok reply → p.responses.success reply = true
  free : p.anonymous = true → ∀ e, o = .error e →
    e = .panic ∨ ∃ report, e = .error ⟨.internalServerError, report⟩

theorem Answers.reply {p : ApiPath} {reply : Reply J} (h : p.responses.success reply = true) :
    Answers p (.ok reply) where
  success := by
    rintro _ ⟨⟩
    exact h
  free _ _ h := nomatch h

theorem Answers.error {p : ApiPath} {e : Stop}
    (h : p.anonymous = true → e = .panic ∨ ∃ report, e = .error ⟨.internalServerError, report⟩) :
    Answers (J := J) p (.error e) where
  success _ h := nomatch h
  free := by
    rintro hp _ ⟨⟩
    exact h hp

/-- All outcomes of the handler do. -/
def AlwaysAnswers (p : ApiPath) (h : Handler (Reply J)) : Prop :=
  ∀ past, h.run.Follows (fun _ _ => True) (fun _ => Answers p) past

section

variable {p : ApiPath}

theorem AlwaysAnswers.reply {reply : Reply J} (h : p.responses.success reply = true) :
    AlwaysAnswers p (pure reply) :=
  fun _ => .reply h

theorem AlwaysAnswers.stop {e : Stop} (h : p.anonymous = false) :
    AlwaysAnswers (J := J) p (throw e) :=
  fun _ => .error fun hp => nomatch h.symm.trans hp

theorem AlwaysAnswers.query {st : Stmt} {context : String} {status : StatusCode}
    {f : st.Ret → Handler (Reply J)} (hstatus : p.anonymous = true → status = .internalServerError)
    (h : ∀ ret, AlwaysAnswers p (f ret)) : AlwaysAnswers p (query st context status >>= f) := by
  refine fun past => ⟨trivial, fun a => ?_⟩
  cases a with
  | error e => exact .error fun hp => .inr ⟨_, by rw [hstatus hp]⟩
  | ok ret => exact h ret _

/-- A statement of a route that needs a token. -/
theorem AlwaysAnswers.write {st : Stmt} {context : String} {status : StatusCode}
    {f : st.Ret → Handler (Reply J)} (hp : p.anonymous = false)
    (h : ∀ ret, AlwaysAnswers p (f ret)) :
    AlwaysAnswers p (Lockinspiel.query st context status >>= f) :=
  .query (fun hp' => Bool.noConfusion (hp.symm.trans hp')) h

theorem AlwaysAnswers.orPanic {β : Type} {x : Option β} {f : β → Handler (Reply J)}
    (h : ∀ b, AlwaysAnswers p (f b)) : AlwaysAnswers p (orPanic x >>= f) := by
  cases x with
  | none => exact fun _ => .error fun _ => .inl rfl
  | some b => exact h b

theorem alwaysAnswers_writeTimer {write : Uuid → TimesheetValues → Stmt} {m₁ m₂ m₃ : String}
    (dbc : DatabaseConnection) (timer : InsertableTimer J) (hp : p.anonymous = false)
    (hresponses : p.responses = .timer) :
    AlwaysAnswers p (writeTimer write m₁ m₂ m₃ dbc timer) := by
  rw [writeTimer]
  cases dbc.user with
  | none => exact .stop hp
  | some user =>
      refine .write hp fun rows => ?_
      cases rows.head? with
      | none => exact .stop hp
      | some row =>
          exact .orPanic fun values => .write hp fun _ => .reply (by rw [hresponses]; rfl)

end

/-- A handler answers as its route says. -/
theorem alwaysAnswers_handler (dbc : DatabaseConnection) (r : Request J) :
    AlwaysAnswers r.route (handler dbc r) := by
  cases r with
  | createTag tag =>
      rw [handler, createTag]
      cases dbc.user with
      | none => exact .stop rfl
      | some user => exact .write rfl fun _ => .reply rfl
  | modifyTag | deleteTag | modifyTimeSplit => exact .write rfl fun _ => .reply rfl
  | getTags => exact .query (fun _ => rfl) fun _ => .reply rfl
  | createTimeSplit body =>
      rw [handler, createTimeSplit]
      cases dbc.user with
      | none => exact .stop rfl
      | some user =>
          exact .write rfl fun _ => .orPanic fun _ => .write rfl fun _ => .orPanic fun _ =>
            .reply rfl
  | getTimeSplits =>
      exact .query (fun _ => rfl) fun _ => .query (fun _ => rfl) fun _ => .orPanic fun _ =>
        .orPanic fun _ => .reply rfl
  | deleteTimeSplit => exact .write rfl fun _ => .write rfl fun _ => .reply rfl
  | getTimers => exact .query (fun _ => rfl) fun _ => .orPanic fun _ => .reply rfl
  | postTimer body | modifyTimer body =>
      rw [handler]
      cases body.parse J with
      | none => exact .stop rfl
      | some timer => exact alwaysAnswers_writeTimer dbc timer rfl rfl

/-! ### Statements of nobody -/

/-- A statement that writes goes through for `authenticated` only, even if it
finds nothing to write. -/
theorem Stmt.role_of_apply {s : Session} (hs : s.LoggedIn) {c : Choice} {db db' : Db} {st : Stmt}
    {ret : st.Ret} (h : st.apply s c db = .ok (ret, db')) (hwrite : st.isSelect = false)
    (htimers : ∀ values, st ≠ .insertTimeSplitTimers values) : s.role = .authenticated := by
  cases st with
  | insertTag | insertTimeSplit =>
      have hmay := (apply_ok hs h).1
      rw [Session.mayWrite, Bool.and_eq_true, beq_iff_eq] at hmay
      exact hmay.1
  | deleteTimeSplitTimers | insertTimesheet | updateTimesheet => exact (apply_ok hs h).1
  | updateTag | updateTimeSplit =>
      obtain ⟨-, -, h⟩ := bind_ok h
      obtain ⟨⟨n, rows⟩, hupd, -⟩ := bind_ok h
      exact (secured_update_ok hs hupd fun _ => rfl).1
  | deleteTag | deleteTimeSplit =>
      obtain ⟨⟨n, rows⟩, hupd, -⟩ := bind_ok h
      exact (secured_update_ok hs hupd fun _ => rfl).1
  | insertTimeSplitTimers values => exact absurd rfl (htimers values)
  | selectTags | selectTimeSplits | selectTimeSplitTimers | selectTimeSplitData | selectTimers =>
      cases hwrite

/-- What a request of nobody asks is refused, or it reads. -/
theorem silent_of_nobody {l : Context J} {past : List sql.Event} {st : Stmt}
    {k : sql.Res st → Program sql (Outcome J)} (h : Standing decode ⟨l, past, .call st k⟩)
    (hnobody : l.user = none) (c : Choice) (db : Db) :
    silent ⟨st, (st.exec l.session c db).1⟩ = true := by
  obtain ⟨dbc, hconn, hid, hafter⟩ := h.handler
  have hasks := (hafter.follows (handler_follows dbc l.arrival.request)).1
  rw [l.user_eq hconn, Option.map_eq_none_iff] at hnobody
  rcases hexec : st.exec l.session c db with ⟨e | ret, db'⟩
  · rfl
  cases hwrite : st.isSelect with
  | true => exact hwrite
  | false =>
      exfalso
      have hrole : l.session.role = .authenticated := by
        unfold Stmt.exec at hexec
        split at hexec
        · cases hexec
        · split at hexec
          · rename_i hok
            cases hexec
            refine Stmt.role_of_apply hid.loggedIn hok hwrite ?_
            rintro values rfl
            -- these are inserted for somebody
            generalize l.arrival.request = r at hasks
            cases hasks with
            | insertTimeSplitTimers hu => cases hnobody.symm.trans hu
          · cases hexec
      rw [hid.session_eq, hnobody] at hrole
      cases hrole

/-! ### Every request of every run -/

/-- The operation documents how the request has ended. -/
structure Documents (op : Operation) (l : Context J) (o : Outcome J) : Prop where
  /-- A reply is a body of `Success`. -/
  success : ∀ reply, o = .ok reply →
    ∃ rs : Responses, op.responses = some [.ident rs.name] ∧ rs.success reply = true
  /-- Nobody gets one, unless a request may do without a token. -/
  secure : ∀ reply, o = .ok reply → l.user = none → [] ∈ op.securities
  /-- If it may, then behind the login it only fails with the service. -/
  free : [] ∈ op.securities → l.connection.isSome = true → ∀ e, o = .error e →
    e = .panic ∨ ∃ report, e = .error ⟨.internalServerError, report⟩
  /-- Whoever is logged in is never told to log in. -/
  bearer : l.user.isSome = true → ∀ report, o ≠ .error (.error ⟨.unauthorized, report⟩)

/-- What is known of a request on its way. -/
structure Answering (decode : String → Except String UserClaims) (t : Worker J) : Prop where
  ending : Ending decode t
  standing : Standing decode t
  answers : t.loc.connection.isSome = true →
    t.prog.Follows (fun _ _ => True) (fun _ => Answers t.loc.arrival.request.route) t.past
  nobody : t.loc.user = none → ∀ e ∈ t.past, silent e = true

theorem answering_arrive (a : Arrival J) : Answering decode (arrive decode a) where
  ending := ending_arrive a
  standing := standing_arrive a
  answers := by
    rw [arrival_arrive]
    obtain ⟨e, s, h⟩ | ⟨dbc, s, h, -⟩ := arrive_cases decode a <;> rw [h]
    · exact fun hconn => nomatch hconn
    · exact fun _ => alwaysAnswers_handler dbc a.request []
  nobody := by
    rw [arrive_past]
    exact fun _ _ h => nomatch h

theorem Answering.resume {l : Context J} {past : List sql.Event} {st : Stmt}
    {k : sql.Res st → Program sql (Outcome J)} (h : Answering decode ⟨l, past, .call st k⟩)
    (c : Choice) (db : Db) :
    Answering decode (System.resume l past st k (st.exec l.session c db).1) where
  ending := by
    obtain ⟨e, s, -, -, -, hprog⟩ | ⟨dbc, hconn, hfollows⟩ := h.ending
    · cases hprog
    · exact .inr ⟨dbc, hconn, hfollows.2 _⟩
  standing := h.standing.resume _
  answers hconn := (h.answers hconn).2 _
  nobody := by
    intro hnobody e he
    obtain rfl | he := List.mem_cons.mp he
    · exact silent_of_nobody h.standing hnobody c db
    · exact h.nobody hnobody e he

theorem answering_run (acts : List (Act (Arrival J) Choice)) :
    ∀ t ∈ ((service decode).run acts initial).threads, Answering decode t :=
  System.exec_invariant acts (fun a _ => answering_arrive a) (fun _ _ _ _ c db h => h.resume c db)
    initial fun _ h => by cases h

/-- Only the routes that read may do without a token. -/
theorem Request.isRead_eq (r : Request J) : r.isRead = r.route.anonymous := by
  cases r <;> rfl

theorem Stmt.failure_ne (st : Stmt) : st.failure ≠ .unauthorized := by
  cases st <;> nofun

theorem Ends.ne_unauthorized {dbc : DatabaseConnection} {r : Request J} {past : List sql.Event}
    {o : Outcome J} (h : Ends dbc r past o) (hu : dbc.user.isSome = true) (report : Report) :
    o ≠ .error (.error ⟨.unauthorized, report⟩) := by
  cases h with
  | unauthorized hnobody =>
      rw [hnobody] at hu
      cases hu
  | @failed st e past message _ _ _ =>
      intro ho
      exact st.failure_ne (congrArg EyreError.statusCode (Stop.error.inj (Except.error.inj ho)))
  | rejected | notFound | panicked | replied => nofun

theorem Answering.documents {l : Context J} {past : List sql.Event} {o : Outcome J}
    (h : Answering decode ⟨l, past, .done o⟩) :
    Documents l.arrival.request.route.operation l o := by
  have hfree : [] ∈ l.arrival.request.route.operation.securities ↔
      l.arrival.request.isRead = true := by
    rw [Request.isRead_eq]
    exact ApiPath.mem_securities _
  obtain ⟨e, s, -, hconn, -, hprog⟩ | ⟨dbc, hconn, hends⟩ := h.ending
  · -- the login has failed
    obtain rfl := Program.done.inj hprog
    have huser : l.user = none := by rw [Context.user, hconn]; rfl
    refine ⟨fun _ h => (by cases h), fun _ h => (by cases h), fun _ hsome => ?_, fun hsome => ?_⟩
    · rw [hconn] at hsome
      cases hsome
    · rw [huser] at hsome
      cases hsome
  · have hanswers : Answers l.arrival.request.route o := h.answers (by rw [hconn]; rfl)
    refine ⟨fun reply ho => ⟨_, rfl, hanswers.success reply ho⟩, fun reply ho hnobody => ?_,
      fun hmay _ => hanswers.free ((ApiPath.mem_securities _).mp hmay), fun hsome report => ?_⟩
    · -- the last statement went through, so it reads
      subst ho
      rw [hfree]
      generalize l.arrival.request = r at hends
      cases hends with
      | replied _ _ hwrites =>
          exact hwrites.symm.trans (h.nobody hnobody _ List.mem_cons_self)
    · refine hends.ne_unauthorized ?_ report
      rw [l.user_eq hconn, Option.isSome_map] at hsome
      exact hsome

/-- **The timekeeper does as it documents.**  In every interleaving, the macro
generates an operation for the route of every request that has ended, and
documents its outcome: replies have the documented body, nobody gets one from an
operation that needs a token, and an operation that does not need one turns
nobody away who got through the login. -/
theorem documented (decode : String → Except String UserClaims) (isType : TokenStream → Bool)
    (htype : ∀ rs : Responses, isType [.ident rs.name] = true)
    (acts : List (Act (Arrival J) Choice)) :
    ∀ t ∈ ((service decode).run acts initial).threads, ∀ o, t.prog = .done o →
      ∃ op, deriveIntoPath isType t.loc.arrival.request.route.itemStruct = .ok op ∧
        Documents op t.loc o := by
  rintro ⟨l, past, p⟩ ht o rfl
  refine ⟨_, deriveIntoPath_eq_ok.mpr (ApiPath.describes _ (htype _)), ?_⟩
  exact (answering_run acts _ ht).documents

/-- Nobody gets the tags, and may. -/
theorem documented_getTags :
    let isType : TokenStream → Bool := fun | [.ident _] => true | _ => false
    ∃ op, deriveIntoPath isType getTagsRoute.itemStruct = .ok op ∧ [] ∈ op.securities := by
  intro isType
  let reads : Arrival Jiff.reference :=
    ⟨⟨true, .absent, fun _ => false⟩, ⟨.anon, none⟩, .getTags⟩
  obtain ⟨op, hop, hdocuments⟩ := documented (fun _ => .error "") isType (fun _ => rfl)
    [.arrive reads, .step 0 {}] _ List.mem_cons_self _ rfl
  exact ⟨op, hop, hdocuments.secure _ rfl rfl⟩

end Lockinspiel
