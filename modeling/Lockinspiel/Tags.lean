/-
Lockinspiel/Tags.lean

The tags as one map, which the tag requests read and write one at a time.

Each of the four tag handlers asks one statement and ends with its answer.  So
however the requests of all users interleave, with each other and with those
about time splits and timers, the table is what the tag requests have made of
it in the order in which they ended, and every answer is the one of this map at
that moment (`tags_linearizable`).  An id is never given out twice, and a name
never while some row has it, be it deleted or not.
-/
import Lockinspiel.Histories
import Lockinspiel.Accepted

namespace Lockinspiel

open Effects Sql Runs

variable {J : Jiff} {decode : String → Except String UserClaims}

/-! ### The book of tags -/

/-- The requests about tags. -/
def Request.isTag : Request J → Bool
  | .createTag _ | .getTags | .modifyTag .. | .deleteTag _ => true
  | _ => false

/-- What is kept for the id of a tag. -/
structure TagEntry where
  userId : Uuid
  name : String
  deleted : Bool
deriving DecidableEq

/-- The tags that were ever created. -/
abbrev TagBook := ℤ → Option TagEntry

def TagEntry.row (id : ℤ) (e : TagEntry) : TagRow where
  id := id
  name := e.name
  userId := e.userId
  deleted := e.deleted

namespace TagBook

def empty : TagBook := fun _ => none

/-- The entry of an id is changed, if it is one of this user. -/
def change (b : TagBook) (u : Option Uuid) (id : ℤ) (f : TagEntry → TagEntry) : TagBook :=
  Function.update b id ((b id).map fun e => if u == some e.userId then f e else e)

/-- What a request that has ended does to the book. -/
def record (b : TagBook) (h : Context J × Outcome J) : TagBook :=
  match h.1.arrival.request, h.2 with
  | .createTag tag, .ok (.tagId id) =>
      Function.update b id (h.1.user.map fun userId => ⟨userId, tag.name, false⟩)
  | .modifyTag id tag, .ok _ => b.change h.1.user id fun e => { e with name := tag.name }
  | .deleteTag id, .ok _ => b.change h.1.user id fun e => { e with deleted := true }
  | _, _ => b

/-- No tag but this one has the name. -/
def Free (b : TagBook) (name : String) (except : Option ℤ) : Prop :=
  ∀ id e, b id = some e → e.name = name → some id = except

/-- The tag is live, and one of the user or of the nil UUID. -/
def Shows (b : TagBook) (u : Uuid) (tag : Tag) : Prop :=
  ∃ e, b tag.id = some e ∧ e.name = tag.name ∧ e.deleted = false ∧
    (e.userId = u ∨ e.userId = Uuid.nil)

/-- How a request can end when the book is this one. -/
def Allows (b : TagBook) (h : Context J × Outcome J) : Prop :=
  match h.1.arrival.request, h.2 with
  | .createTag tag, .ok reply =>
      ∃ id, reply = .tagId id ∧ h.1.user.isSome = true ∧ b id = none ∧ b.Free tag.name none
  | .getTags, .ok reply =>
      ∃ tags, reply = .tags tags ∧ (tags.map Tag.id).Nodup ∧
        ∀ tag, tag ∈ tags ↔ b.Shows (h.1.user.getD Uuid.nil) tag
  | .modifyTag id tag, .ok reply =>
      reply = .unit ∧ ∀ e, b id = some e → h.1.user = some e.userId → b.Free tag.name (some id)
  | .deleteTag _, .ok reply => reply = .unit
  | _, _ => True

theorem error (b : TagBook) (l : Context J) (e : Stop) :
    b.record (l, .error e) = b ∧ b.Allows (l, .error e) := by
  rw [record, Allows]
  cases l.arrival.request <;> exact ⟨rfl, trivial⟩

theorem other (b : TagBook) {l : Context J} (hr : l.arrival.request.isTag = false)
    (o : Outcome J) : b.record (l, o) = b ∧ b.Allows (l, o) := by
  rw [record, Allows]
  cases hreq : l.arrival.request with
  | createTag | getTags | modifyTag | deleteTag =>
      rw [hreq] at hr
      cases hr
  | _ => exact ⟨rfl, trivial⟩

end TagBook

/-! ### The table and the book -/

/-- The rows of the table are the entries of the book. -/
def TagsAre (db : Db) (b : TagBook) : Prop := Represents TagEntry.row db.tag b

section

variable {db db' : Db} {b : TagBook} {l : Context J} {c : Choice}

theorem TagsAre.congr (h : TagsAre db b) (htag : db'.tag = db.tag) : TagsAre db' b := by
  rw [TagsAre, htag]
  exact h

theorem TagsAre.mem (h : TagsAre db b) {id : ℤ} {e : TagEntry} (he : b id = some e) :
    e.row id ∈ db.tag :=
  (h _).mpr ⟨id, e, he, rfl⟩

/-- A new row has an id and a name that no row had. -/
theorem TagsAre.insert (h : TagsAre db b) {id : ℤ} {e : TagEntry}
    (htag : db'.tag = db.tag ++ [e.row id]) :
    TagsAre db' (Function.update b id (some e)) ∧ b id = none ∧ b.Free e.name none := by
  have hids := db'.keys.tag
  have hnames := db'.keys.tagName
  rw [htag, nodup_map_concat db.keys.tag] at hids
  rw [htag, nodup_map_concat db.keys.tagName] at hnames
  have hfresh : b id = none := by
    rcases hid : b id with - | e'
    · rfl
    · exact absurd (List.mem_map_of_mem (h.mem hid)) hids
  refine ⟨?_, hfresh, fun id' e' he' hname => ?_⟩
  · show Represents TagEntry.row db'.tag _
    rw [htag]
    exact h.append hfresh e
  · have hmem : (e'.row id').name ∈ db.tag.map TagRow.name := List.mem_map_of_mem (h.mem he')
    rw [show (e'.row id').name = (e.row id).name from hname] at hmem
    exact absurd hmem hnames

/-- An update of a tag changes its entry, if the session may write it. -/
theorem TagsAre.change (h : TagsAre db b) {u : Option Uuid} {s : Session}
    (hmay : ∀ owner, s.mayWrite owner = true ↔ u = some owner) {id : ℤ} {f : TagRow → TagRow}
    {g : TagEntry → TagEntry} (hf : ∀ e, f (TagEntry.row id e) = (g e).row id)
    (htag : db'.tag = setWhere (fun r => s.mayWrite r.userId && r.id == id) f db.tag) :
    TagsAre db' (b.change u id g) := by
  rw [TagsAre, htag]
  refine h.modify (fun id' e => ?_) hf
  rw [Bool.and_eq_true, hmay, beq_iff_eq, beq_iff_eq]
  exact and_comm

/-- After a tag was renamed no other one has its name. -/
theorem TagsAre.free {u : Option Uuid} {id : ℤ} {name : String}
    (h : TagsAre db' (b.change u id fun e => { e with name })) {e : TagEntry} (he : b id = some e)
    (hown : u = some e.userId) : b.Free name (some id) := by
  intro id' e' he' hname
  by_contra hne
  have hid : id' ≠ id := fun heq => hne (congrArg some heq)
  -- the two rows would have the same name
  have hnew : (b.change u id fun e => { e with name }) id = some { e with name } := by
    rw [TagBook.change, Function.update_self, he, hown]
    simp
  have hold : (b.change u id fun e => { e with name }) id' = some e' := by
    rw [TagBook.change, Function.update_of_ne hid, he']
  have heq := List.inj_on_of_nodup_map db'.keys.tagName (h.mem hnew) (h.mem hold) hname.symm
  exact hid (congrArg TagRow.id heq).symm

/-- The answer of `get_tags` is what the book shows. -/
theorem TagsAre.shows (h : TagsAre db b) (u : Uuid) (plan : List ℕ) :
    let tags := (pick plan (shownTags db.toTables [u, Uuid.nil])).map Tag.ofRow
    (tags.map Tag.id).Nodup ∧ ∀ tag, tag ∈ tags ↔ b.Shows u tag := by
  intro tags
  constructor
  · have hperm := (pick_perm plan (shownTags db.toTables [u, Uuid.nil])).map TagRow.id
    have hsub : (shownTags db.toTables [u, Uuid.nil]).Sublist db.tag := List.filter_sublist
    rw [List.map_map]
    exact hperm.nodup_iff.mpr (db.keys.tag.sublist (hsub.map TagRow.id))
  · rintro ⟨id, name⟩
    simp only [tags, List.mem_map, mem_pick, shownTags, List.mem_filter, Bool.and_eq_true,
      Bool.not_eq_true', List.contains_iff_mem, List.mem_cons, List.not_mem_nil, or_false]
    constructor
    · rintro ⟨r, ⟨hr, hlive, howner⟩, heq⟩
      obtain ⟨id', e, he, rfl⟩ := (h r).mp hr
      cases heq
      exact ⟨e, he, rfl, hlive, howner⟩
    · rintro ⟨e, he, rfl, hlive, howner⟩
      exact ⟨e.row id, ⟨h.mem he, hlive, howner⟩, rfl⟩

end

/-! ### Requests -/

/-- The other requests leave the tags alone. -/
theorem tag_of_asks {dbc : DatabaseConnection} {r : Request J} {past : List sql.Event} {st : Stmt}
    (hasks : Asks dbc r past st) (hr : r.isTag = false) {s : Session} {c : Choice}
    {t t' : Tables} {ret : st.Ret} (hdoes : st.Does s c t ret t') : t'.tag = t.tag := by
  cases hasks with
  | insertTag | selectTags | updateTag | deleteTag => cases hr
  | insertTimeSplit =>
      obtain ⟨-, -, rfl⟩ := hdoes
      rfl
  | insertTimeSplitTimers =>
      obtain ⟨-, -, -, rfl⟩ := hdoes
      rfl
  | updateTimeSplit | deleteTimeSplit =>
      cases hdoes
      rfl
  | deleteTimeSplitTimers | insertTimesheet | updateTimesheet =>
      obtain ⟨-, rfl⟩ := hdoes
      rfl
  | selectTimeSplits | selectTimeSplitTimers | selectTimeSplitData | selectTimers =>
      obtain ⟨rfl, -⟩ := hdoes
      rfl

/-- A tag handler that asks its statement asks the only one it has. -/
theorem handler_isTag {dbc : DatabaseConnection} {r : Request J} (hr : r.isTag = true)
    {past : List sql.Event} {st : Stmt} {k : sql.Res st → Program sql (Outcome J)}
    (h : Program.After (handler dbc r).run past (.call st k)) :
    Program.call st k = (handler dbc r).run := by
  cases r with
  | createTag tag =>
      rw [handler, createTag] at h ⊢
      cases hu : dbc.user with
      | none =>
          rw [hu] at h
          cases h.of_done.2
      | some user =>
          rw [hu] at h
          exact (h.of_single fun r => by cases r <;> exact ⟨_, rfl⟩).2
  | getTags | modifyTag | deleteTag =>
      exact (h.of_single fun r => by cases r <;> exact ⟨_, rfl⟩).2
  | _ => cases hr

section

variable {l : Context J} {st : Stmt} {k : sql.Res st → Program sql (Outcome J)} {c : Choice}
  {db : Db} {b : TagBook}

theorem tagsAre_error {past : List sql.Event} {p : Program sql (Outcome J)} {e : Stop}
    (h : TagsAre db b) (hp : p = .done (.error e)) :
    TagsAre db (System.recorded TagBook.record b ⟨l, past, p⟩) ∧
      ∀ v ∈ Thread.ended ⟨l, past, p⟩, b.Allows v := by
  refine System.recorded_of_done hp ⟨?_, (TagBook.error b l e).2⟩
  rw [(TagBook.error b l e).1]
  exact h

/-- What a tag request does and answers is what the book records and allows. -/
theorem tagsAre_answer {past : List sql.Event} (hstand : Standing decode ⟨l, past, .call st k⟩)
    (h : TagsAre db b) :
    let t := System.resume l past st k (st.exec l.session c db).1
    TagsAre (st.exec l.session c db).2 (System.recorded TagBook.record b t) ∧
      ∀ v ∈ t.ended, b.Allows v := by
  obtain ⟨dbc, hconn, hid, hafter⟩ := hstand.handler
  have hmay := hid.mayWrite_user hconn
  cases hr : l.arrival.request.isTag with
  | false =>
      obtain ⟨_, -, hs, hasks⟩ := hstand.asks
      -- the other requests leave the table `tag`, and the book does not record them
      refine System.recorded_of_other ?_ (TagBook.other b hr)
      obtain ⟨e, he⟩ | ⟨ret, db', he, hdoes⟩ := Stmt.exec_cases hs c st db <;> rw [he]
      · exact h
      · exact h.congr (tag_of_asks hasks hr hdoes)
  | true =>
      -- a request for tags asks one statement, so it ends with this answer
      have hcall := handler_isTag hr hafter
      cases hreq : l.arrival.request with
      | createTag tag =>
          rw [hreq, handler, createTag] at hcall
          cases hu : dbc.user with
          | none =>
              rw [hu] at hcall
              cases hcall
          | some user =>
              rw [hu] at hcall
              cases hcall
              have hlu : l.user = some user.sub := by rw [l.user_eq hconn, hu]; rfl
              obtain ⟨e, he⟩ | ⟨id, db', he, -, -, hdb'⟩ :=
                Stmt.exec_cases hid.loggedIn c (.insertTag tag.name user.sub) db <;> rw [he]
              · exact tagsAre_error h rfl
              · -- the two unique indices are why the book allows the new id and the name
                obtain ⟨hins, hfresh, hfree⟩ :=
                  h.insert (e := ⟨user.sub, tag.name, false⟩) (congrArg Tables.tag hdb')
                refine System.recorded_of_done (a := .ok (.tagId id)) rfl ⟨?_, ?_⟩
                · rw [TagBook.record]
                  simp only [hreq, hlu]
                  exact hins
                · rw [TagBook.Allows]
                  simp only [hreq, hlu]
                  exact ⟨id, rfl, rfl, hfresh, hfree⟩
      | getTags =>
          rw [hreq] at hcall
          cases hcall
          rw [Stmt.exec_selectTags hid.loggedIn]
          cases hf : c.fails with
          | true => exact tagsAre_error h rfl
          | false =>
              refine System.recorded_of_done (a := .ok (.tags _)) rfl ⟨?_, ?_⟩
              · rw [TagBook.record]
                simp only [hreq]
                exact h
              · rw [TagBook.Allows]
                simp only [hreq]
                refine ⟨_, rfl, ?_⟩
                rw [l.user_eq hconn, ← DatabaseConnection.subject_eq_getD]
                -- the order of the answer is left open, and the book does not fix it either
                exact h.shows _ c.plan
      | modifyTag id tag =>
          rw [hreq] at hcall
          cases hcall
          obtain ⟨e, he⟩ | ⟨n, db', he, hdb'⟩ :=
            Stmt.exec_cases hid.loggedIn c (.updateTag id tag.name) db <;> rw [he]
          · exact tagsAre_error h rfl
          · have hchange := h.change hmay (g := fun e => { e with name := tag.name })
              (fun _ => rfl) (congrArg Tables.tag hdb')
            refine System.recorded_of_done (a := .ok .unit) rfl ⟨?_, ?_⟩
            · rw [TagBook.record]
              simp only [hreq]
              exact hchange
            · rw [TagBook.Allows]
              simp only [hreq]
              exact ⟨trivial, fun e he hown => hchange.free he hown⟩
      | deleteTag id =>
          rw [hreq] at hcall
          cases hcall
          obtain ⟨e, he⟩ | ⟨n, db', he, hdb'⟩ :=
            Stmt.exec_cases hid.loggedIn c (.deleteTag id) db <;> rw [he]
          · exact tagsAre_error h rfl
          · have hchange := h.change hmay (g := fun e => { e with deleted := true })
              (fun _ => rfl) (congrArg Tables.tag hdb')
            refine System.recorded_of_done (a := .ok .unit) rfl ⟨?_, ?_⟩
            · rw [TagBook.record]
              simp only [hreq]
              exact hchange
            · rw [TagBook.Allows]
              simp only [hreq]
      | _ =>
          rw [hreq] at hr
          cases hr

end

/-- **The tags are linearizable.** -/
theorem tags_linearizable (decode : String → Except String UserClaims)
    (acts : List (Act (Arrival J) Choice)) :
    let h := (service decode).history acts initial
    (System.finished ((service decode).run acts initial)).Perm h ∧
      Represents TagEntry.row ((service decode).run acts initial).shared.tag
        (h.foldl TagBook.record TagBook.empty) ∧
      EachStep TagBook.record TagBook.Allows h TagBook.empty :=
  refines_history (R := TagsAre) TagBook.error (fun _ _ _ _ _ _ _ => tagsAre_answer) acts
    represents_nil

end Lockinspiel
