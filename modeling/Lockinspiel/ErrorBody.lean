/-
Lockinspiel/ErrorBody.lean

The JSON body of an error, and what a client reads of it.

An `EyreErrorWrapper` is written by hand, in one of two ways: from the report it
was made of, or from the texts and frames it was read as.  It is read in one way,
which `serde` derives, and its report is skipped.  So both ways have to write the
same JSON, or a client that passes an error on changes it; and the first way
unwraps the span trace of the report, which need not have one.

Main result: `error_body`.
-/
import Lockinspiel.Lib.Serde

namespace Lockinspiel.ErrorBody

open Serde

/-! ### Errors and reports -/

/-- `std::error::Error`: its text, and those of its sources. -/
structure StdError where
  display : String
  sources : List String

/-- `Error<E, R>`. -/
structure Error where
  msg : Option String
  source : StdError

/-- `Display for Error`, and `Error::source`. -/
def Error.toStdError (e : Error) : StdError where
  display := e.msg.getD e.source.display
  sources := e.source.display :: e.source.sources

/-- A span of a trace, with its fields as text. -/
structure Frame where
  modulePath : Option String
  name : String
  file : Option String
  line : Option UInt32
  fields : String

/-- `color_eyre::Handler`; which spans are captured is up to its hook. -/
structure Handler where
  spanTrace : Option (List Frame)

/-- `eyre::Report`; the handler is another one where the hook of `color_eyre` was
not installed. -/
structure Report where
  error : StdError
  handler : Option Handler

/-- `Report::chain`. -/
def Report.chain (r : Report) : List String := r.error.display :: r.error.sources

/-- The spans of the trace that the wrapper unwraps. -/
def Report.spanTrace (r : Report) : Option (List Frame) := r.handler.bind Handler.spanTrace

structure EyreErrorWrapper where
  error : Option Report
  chain : List String
  spantrace : List Frame

/-- `From<Report> for EyreErrorWrapper`. -/
def EyreErrorWrapper.ofReport (value : Report) : EyreErrorWrapper where
  error := some value
  chain := []
  spantrace := []

/-- The body of `From<Error<E, EyreError>> for EyreError`; the hook has captured the
handler. -/
def EyreErrorWrapper.ofError (value : Error) (handler : Option Handler) : EyreErrorWrapper :=
  ofReport { error := value.toStdError, handler }

/-! ### JSON -/

namespace Frame

/-- `Option<Cow<str>>`. -/
def optionText (name : String) : Member (Option String) :=
  .optional name .text fun _ => nofun

def members : Members (Option String × String × Option String × Option UInt32 × String × Unit) :=
  .cons (optionText "module_path") <|
    .cons (.required "name" .text) <|
    .cons (optionText "file") <|
    .cons (.optional "line" .word fun _ => nofun) <|
    .cons (.required "fields" .text) .nil

theorem nodup_names : members.names.Nodup := by decide

/-- `Serialize` and `Deserialize for Frame`. -/
def json : Codec Frame := (Codec.record members nodup_names).equiv
  { toFun := fun a => ⟨a.1, a.2.1, a.2.2.1, a.2.2.2.1, a.2.2.2.2.1⟩
    invFun := fun f => (f.modulePath, f.name, f.file, f.line, f.fields, ())
    left_inv := fun _ => rfl
    right_inv := fun _ => rfl }

theorem valid (f : Frame) : json.Valid f :=
  ⟨fun _ _ => trivial, trivial, fun _ _ => trivial, fun _ _ => trivial, trivial, trivial⟩

/-- How an optional member spells its value. -/
def Optional {β : Type} (c : Codec β) : Option β → Option Json → Prop
  | none, j => j = none ∨ j = some .null
  | some b, j => ∃ i, j = some i ∧ c.Shows b i

/-- What spells a frame. -/
def Spells (j : Json) (f : Frame) : Prop :=
  ∃ ms, Members.ofJson ["module_path", "name", "file", "line", "fields"] j = some ms ∧
    Optional .text f.modulePath (ms.lookup "module_path") ∧
    ms.lookup "name" = some (.string f.name) ∧
    Optional .text f.file (ms.lookup "file") ∧
    Optional .word f.line (ms.lookup "line") ∧
    ms.lookup "fields" = some (.string f.fields)

theorem optional_iff {β : Type} {name : String} {c : Codec β} {hnull : ∀ b, ¬c.Shows b .null}
    {o : Option β} {j : Option Json} :
    (Member.optional name c hnull).Shows o j ↔ Optional c o j := by
  cases o <;> cases j <;> simp [Member.optional, Member.Shows, Codec.option, Optional]

theorem required_iff {name s : String} {j : Option Json} :
    (Member.required name .text).Shows s j ↔ j = some (.string s) := by
  simp [Member.shows_required, Codec.text]

theorem shows_iff (f : Frame) (j : Json) : json.Shows f j ↔ Spells j f := by
  refine exists_congr fun ms => and_congr Iff.rfl ?_
  exact and_congr optional_iff (and_congr required_iff (and_congr optional_iff
    (and_congr optional_iff ((and_iff_left trivial).trans required_iff))))

end Frame

/-- The texts of a chain. -/
def texts : Codec (List String) := Codec.text.list

def frames : Codec (List Frame) := Frame.json.list

namespace EyreErrorWrapper

def members : Members (List String × List Frame × Unit) :=
  .cons (.required "chain" texts) <| .cons (.required "spantrace" frames) .nil

theorem nodup_names : members.names.Nodup := by decide

/-- What both ways to write a wrapper come to. -/
def body : Codec (List String × List Frame × Unit) := Codec.record members nodup_names

/-- `Serialize for EyreErrorWrapper`; `none` is the panic of an `unwrap`. -/
def serialize (w : EyreErrorWrapper) : Option Json :=
  match w.error with
  | some error => do
      let handler ← error.handler
      let spanTrace ← handler.spanTrace
      return .object [("chain", texts.encode error.chain), ("spantrace", frames.encode spanTrace)]
  | none =>
      return .object [("chain", texts.encode w.chain), ("spantrace", frames.encode w.spantrace)]

/-- `Deserialize for EyreErrorWrapper`; the report is skipped. -/
def deserialize (j : Json) : Option EyreErrorWrapper := do
  let a ← body.decode j
  return { error := none, chain := a.1, spantrace := a.2.1 }

/-- What spells a wrapper. -/
def Spells (j : Json) (w : EyreErrorWrapper) : Prop :=
  ∃ ms, Members.ofJson ["chain", "spantrace"] j = some ms ∧
    ms.lookup "chain" = some (.array (w.chain.map Json.string)) ∧
    ∃ spantrace, ms.lookup "spantrace" = some (.array spantrace) ∧
      List.Forall₂ Frame.Spells spantrace w.spantrace

/-- The texts of the wrapper. -/
def shownChain (w : EyreErrorWrapper) : List String := w.error.elim w.chain Report.chain

/-- Its frames, where it has any to show. -/
def shownFrames (w : EyreErrorWrapper) : Option (List Frame) :=
  w.error.elim (some w.spantrace) Report.spanTrace

theorem serialize_eq (w : EyreErrorWrapper) :
    w.serialize = w.shownFrames.map fun spantrace => body.encode (w.shownChain, spantrace, ()) := by
  rcases w with ⟨error | error, chain, spantrace⟩
  · rfl
  · rcases error with ⟨error, - | ⟨spanTrace | spanTrace⟩⟩ <;> rfl

theorem valid (chain : List String) (spantrace : List Frame) :
    body.Valid (chain, spantrace, ()) :=
  ⟨fun _ _ => trivial, fun f _ => f.valid, trivial⟩

theorem shows_texts {chain : List String} {j : Json} :
    texts.Shows chain j ↔ j = .array (chain.map Json.string) := by
  have hitems : ∀ items, List.Forall₂ (fun j s => j = Json.string s) items chain ↔
      items = chain.map Json.string := by
    intro items
    rw [← List.forall₂_map_right_iff, List.forall₂_eq_eq_eq]
  constructor
  · rintro ⟨items, rfl, h⟩
    rw [(hitems items).mp h]
  · rintro rfl
    exact ⟨_, rfl, (hitems _).mpr rfl⟩

theorem shows_frames {spantrace : List Frame} {j : Json} :
    frames.Shows spantrace j ↔
      ∃ items, j = .array items ∧ List.Forall₂ Frame.Spells items spantrace := by
  have hspells : (fun j f => Frame.json.Shows f j) = Frame.Spells := by
    funext j f
    exact propext (f.shows_iff j)
  rw [← hspells]
  exact Iff.rfl

theorem spells_iff (j : Json) (chain : List String) (spantrace : List Frame) :
    body.Shows (chain, spantrace, ()) j ↔ Spells j ⟨none, chain, spantrace⟩ := by
  refine exists_congr fun ms => and_congr Iff.rfl (and_congr ?_ ((and_iff_left trivial).trans ?_))
  · show (Member.required "chain" texts).Shows chain (ms.lookup "chain") ↔ _
    simp [Member.shows_required, shows_texts]
  · rw [Member.shows_required]
    simp only [shows_frames]
    constructor
    · rintro ⟨_, hlookup, items, rfl, hitems⟩
      exact ⟨items, hlookup, hitems⟩
    · rintro ⟨items, hlookup, hitems⟩
      exact ⟨_, hlookup, items, rfl, hitems⟩

/-- What is read is what spells a wrapper without a report. -/
theorem deserialize_eq_some {j : Json} {w : EyreErrorWrapper} :
    deserialize j = some w ↔ w.error = none ∧ Spells j w := by
  rw [deserialize, Option.bind_eq_bind, Option.bind_eq_some_iff]
  constructor
  · rintro ⟨⟨chain, spantrace, ⟨⟩⟩, h, hw⟩
    cases hw
    exact ⟨rfl, (spells_iff j chain spantrace).mp ((body.decode_iff j _).mp h)⟩
  · obtain ⟨error, chain, spantrace⟩ := w
    rintro ⟨rfl, h⟩
    exact ⟨_, (body.decode_iff j _).mpr ((spells_iff j chain spantrace).mpr h), rfl⟩

end EyreErrorWrapper

/-! ### What a client reads -/

section

variable {w : EyreErrorWrapper}

/-- An object with the members that are written, and others, is read as what was
written. -/
theorem EyreErrorWrapper.deserialize_of_subset {chain : List String} {spantrace : List Frame}
    {ms : List (String × Json)} (hms : (ms.map Prod.fst).Nodup)
    (h : [("chain", texts.encode chain), ("spantrace", frames.encode spantrace)] ⊆ ms) :
    deserialize (.object ms) = some ⟨none, chain, spantrace⟩ := by
  rw [deserialize_eq_some]
  exact ⟨rfl, (spells_iff _ _ _).mp ⟨ms, members.shows_of_mem hms (valid chain spantrace) h⟩⟩

theorem EyreErrorWrapper.serialize_eq_none :
    w.serialize = none ↔ ∃ error, w.error = some error ∧ error.spanTrace = none := by
  rw [serialize_eq, Option.map_eq_none_iff, shownFrames]
  cases w.error <;> simp

end

/-- **The body of an error.**  A client reads exactly what spells a wrapper.
Writing a wrapper panics exactly if it has a report whose span trace was not
captured.  Otherwise what is written, or any object that has its members and
others, is read as the texts of the report and of its sources with the frames of
the trace, and that is written as the same JSON again.  So the reason that a handler
gave comes first, or the text of the error once more, and then the error with its
sources. -/
theorem error_body :
    (∀ j w, EyreErrorWrapper.deserialize j = some w ↔
      w.error = none ∧ EyreErrorWrapper.Spells j w) ∧
    (∀ (e : Error) (trace : List Frame),
      ((EyreErrorWrapper.ofError e (some ⟨some trace⟩)).serialize.bind
        EyreErrorWrapper.deserialize) =
          some ⟨none, e.msg.getD e.source.display :: e.source.display :: e.source.sources, trace⟩) ∧
    ∀ w : EyreErrorWrapper,
      (w.serialize = none ↔ ∃ error, w.error = some error ∧ error.spanTrace = none) ∧
      ∀ j, w.serialize = some j → ∃ spantrace ms, w.shownFrames = some spantrace ∧
        j = .object ms ∧
        EyreErrorWrapper.deserialize j = some ⟨none, w.shownChain, spantrace⟩ ∧
        (EyreErrorWrapper.mk none w.shownChain spantrace).serialize = some j ∧
        ∀ ms', (ms'.map Prod.fst).Nodup → ms ⊆ ms' →
          EyreErrorWrapper.deserialize (.object ms') = some ⟨none, w.shownChain, spantrace⟩ := by
  refine ⟨fun j w => EyreErrorWrapper.deserialize_eq_some, fun e trace => ?_, fun w =>
    ⟨EyreErrorWrapper.serialize_eq_none, fun j hj => ?_⟩⟩
  · rw [EyreErrorWrapper.serialize_eq]
    exact EyreErrorWrapper.deserialize_of_subset EyreErrorWrapper.nodup_names fun _ h => h
  · rw [EyreErrorWrapper.serialize_eq] at hj
    obtain ⟨spantrace, hframes, rfl⟩ := Option.map_eq_some_iff.mp hj
    have hread : ∀ ms' : List (String × Json), (ms'.map Prod.fst).Nodup →
        [("chain", texts.encode w.shownChain), ("spantrace", frames.encode spantrace)] ⊆ ms' →
        EyreErrorWrapper.deserialize (.object ms') = some ⟨none, w.shownChain, spantrace⟩ :=
      fun ms' hms' hsub => EyreErrorWrapper.deserialize_of_subset hms' hsub
    exact ⟨spantrace, _, hframes, rfl, hread _ EyreErrorWrapper.nodup_names fun _ h => h, rfl,
      hread⟩

end Lockinspiel.ErrorBody
