/-
Lockinspiel/TagNames.lean

Which names a tag can get.

`tag.name` is `UNIQUE` over the whole table: over the tags of all accounts, and
over the deleted ones, which stay in the table.  `get_tags` shows the live tags
of one account and of the nil UUID, so a name can be refused because of a tag
that its user has never been shown.  What decides is the table alone
(`tagName_accepted`).
-/
import Lockinspiel.Accepted
import Lockinspiel.SoftDelete

namespace Lockinspiel

open Effects Sql

variable {J : Jiff} {decode : String → Except String UserClaims}

/-- A handler of one statement ends well exactly if the statement does. -/
theorem toBool_runHandler_query {s : Session} {c : ℕ → Choice} {st : Stmt} {context : String}
    {status : StatusCode} {f : st.Ret → Reply J} {db : Db} :
    (runHandler s c (do
      let ret ← query st context status
      return f ret) db).1.toBool = (st.exec s (c 0) db).1.toBool := by
  rw [runHandler_query]
  rcases st.exec s (c 0) db with ⟨e | ret, db'⟩ <;> rfl

section

variable {u : Uuid} {a : Arrival J} {name : String} {c : ℕ → Choice} {db : Db}

/-- `create_tag` with nobody in between. -/
theorem toBool_createTag (hu : loggedInAs decode a = some u)
    (ha : a.request = .createTag ⟨name⟩) :
    (handle decode a c db).1.toBool = true ↔ (c 0).fails = false ∧ Storable [name] ∧
      (c 0).ids 0 ∉ db.tag.map TagRow.id ∧ name ∉ db.tag.map TagRow.name := by
  obtain ⟨dbc, s, hid, hsub, h⟩ := handle_of_loggedIn hu
  obtain ⟨user, huser, rfl⟩ := Option.map_eq_some_iff.mp hsub
  have hmay : s.mayWrite user.sub = true := hid.mayWrite_iff.mpr ⟨user, huser, rfl⟩
  rw [h, ha, handler, createTag, huser]
  dsimp only
  rw [toBool_runHandler_query]
  exact Stmt.toBool_insertTag hmay

/-- `modify_tag` of a tag of one's own, with nobody in between. -/
theorem toBool_modifyTag (hu : loggedInAs decode a = some u) {r : TagRow} (hr : r ∈ db.tag)
    (hown : r.userId = u) (ha : a.request = .modifyTag r.id ⟨name⟩) :
    (handle decode a c db).1.toBool = true ↔ (c 0).fails = false ∧ Storable [name] ∧
      ∀ r' ∈ db.tag, r'.name = name → r'.id = r.id := by
  obtain ⟨dbc, s, hid, hsub, h⟩ := handle_of_loggedIn hu
  obtain ⟨user, huser, hsub⟩ := Option.map_eq_some_iff.mp hsub
  have hmay : s.mayWrite r.userId = true :=
    hid.mayWrite_iff.mpr ⟨user, huser, hsub.trans hown.symm⟩
  rw [h, ha, handler, modifyTag, toBool_runHandler_query]
  exact Stmt.toBool_updateTag hr hmay

end

/-- **Which names a tag can get.**  In every state that the service can reach:
where the statement does not fail and draws a new id, a user creates a tag
exactly if no tag has the name, and renames a live tag of theirs exactly if no
other tag has it, of whatever account and deleted or not. -/
theorem tagName_accepted (decode : String → Except String UserClaims)
    (acts : List (Act (Arrival J) Choice)) (u : Uuid) (name : String) (hname : Storable [name])
    (a : Arrival J) (hu : loggedInAs decode a = some u) (c : ℕ → Choice)
    (hc : (c 0).fails = false) :
    let db := ((service decode).run acts initial).shared
    (a.request = .createTag ⟨name⟩ → (c 0).ids 0 ∉ db.tag.map TagRow.id →
      ((handle decode a c db).1.toBool = true ↔ ∀ r ∈ db.tag, r.name ≠ name)) ∧
    ∀ r ∈ db.tag, r.userId = u → r.deleted = false → a.request = .modifyTag r.id ⟨name⟩ →
      ((handle decode a c db).1.toBool = true ↔ ∀ r' ∈ db.tag, r'.name = name → r'.id = r.id) := by
  intro db
  refine ⟨fun ha hid => ?_, fun r hr hown _ ha => ?_⟩
  · rw [toBool_createTag hu ha, and_iff_right hc, and_iff_right hname, and_iff_right hid,
      List.mem_map]
    constructor
    · intro h r hr heq
      exact h ⟨r, hr, heq⟩
    · rintro h ⟨r, hr, heq⟩
      exact h r hr heq
  · rw [toBool_modifyTag hu hr hown ha, and_iff_right hc, and_iff_right hname]

/-- The names that `get_tags` has answered. -/
def tagNames : Outcome J → Option (List String)
  | .ok (.tags tags) => some (tags.map Tag.name)
  | _ => none

/-- A token names its user. -/
def twoUsers (token : String) : Except String UserClaims :=
  .ok ⟨⟨""⟩, 0, if token = "2" then 2 else 1⟩

/-- User 2 creates a tag and keeps it, and user 1 creates two and deletes the
first. -/
def privateTags : List (Act (Arrival Jiff.reference) Choice) :=
  [.arrive ⟨⟨true, .bearer "2", fun _ => false⟩, ⟨.anon, none⟩, .createTag ⟨"secret"⟩⟩,
    .step 0 (drawing 5), .arrive (byUser (.createTag ⟨"work"⟩)), .step 1 (drawing 6),
    .arrive (byUser (.createTag ⟨"home"⟩)), .step 2 (drawing 7),
    .arrive (byUser (.deleteTag 6)), .step 3 {}]

/-- User 1 is shown one tag, and still can neither create the tag that they have
deleted nor take the name that user 2 has, for a new tag or for their own. -/
theorem tagName_refused :
    let db := ((service twoUsers).run privateTags initial).shared
    let asks := fun request => (handle twoUsers (byUser request) (fun _ => drawing 8) db).1
    tagNames (asks .getTags) = some ["home"] ∧
      (asks (.createTag ⟨"work"⟩)).toBool = false ∧
      (asks (.createTag ⟨"secret"⟩)).toBool = false ∧
      (asks (.modifyTag 7 ⟨"secret"⟩)).toBool = false := by
  decide

/-- A name that no tag has. -/
theorem tagName_accepted_new :
    (handle twoUsers (byUser (.createTag ⟨"play"⟩)) (fun _ => drawing 8)
      ((service twoUsers).run privateTags initial).shared).1.toBool = true :=
  ((tagName_accepted twoUsers privateTags 1 "play" (by decide) (byUser (.createTag ⟨"play"⟩))
    (by decide) (fun _ => drawing 8) rfl).1 rfl (by decide)).mpr (by decide)

end Lockinspiel
