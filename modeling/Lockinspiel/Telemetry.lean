/-
Lockinspiel/Telemetry.lean

The texts of queries in the traces.

`diesel` prints a query with a comment behind it that holds the values of its
binds.  `DbQuerySanitizer` prints the same query up to the comment.  A `Display`
gives its text in chunks, as many as it likes, so the sanitizer is a writer: it
looks for the marker of the comment in each chunk, and once it found one, it
drops everything that follows.

Main results: where a text has a marker, the sanitizer stops before it exactly
if the first one stands within one chunk (`emitted_prefix_iff`), and what it
emits is the text before the marker, without the white space at its end, exactly
if that white space does not begin in an earlier chunk (`sanitizes_iff`).  So the
spans of a connection hold sanitized texts alone exactly if all of its queries
are printed like that (`traced`).
-/
import Lockinspiel.Lib.Framing
import Mathlib.Data.List.DropRight

namespace Lockinspiel.Telemetry

open Framing

/-- The characters of a `str`. -/
abbrev Text := List Char

/-! ### Text -/

/-- `char::is_whitespace`, the property `White_Space` of Unicode. -/
def isWhitespace (c : Char) : Bool :=
  let n := c.toNat
  (9 ≤ n && n ≤ 13) || n == 0x20 || n == 0x85 || n == 0xA0 || n == 0x1680 ||
    (0x2000 ≤ n && n ≤ 0x200A) || n == 0x2028 || n == 0x2029 || n == 0x202F || n == 0x205F ||
    n == 0x3000

/-- `str::trim_end`. -/
def trimEnd (s : Text) : Text := s.rdropWhile isWhitespace

/-- What `split_once` looks for. -/
def marker : Text := ['-', '-']

/-- The white space at the end of `s ++ t` is all in `t`. -/
def SpaceWithin (s t : Text) : Prop := (∃ c ∈ t, isWhitespace c = false) ∨ trimEnd s = s

theorem trimEnd_isPrefix (s : Text) : trimEnd s <+: s := List.rdropWhile_prefix _ _

theorem trimEnd_append_of_mem {s t : Text} (h : ∃ c ∈ t, isWhitespace c = false) :
    trimEnd (s ++ t) = s ++ trimEnd t := by
  obtain ⟨c, hc, hno⟩ := h
  have hne : (t.reverse.dropWhile isWhitespace).isEmpty = false := by
    rw [Bool.eq_false_iff, ne_eq, List.isEmpty_iff, List.dropWhile_eq_nil_iff]
    intro hall
    rw [hall c (List.mem_reverse.mpr hc)] at hno
    cases hno
  rw [trimEnd, trimEnd, List.rdropWhile, List.rdropWhile, List.reverse_append,
    List.dropWhile_append, hne, if_neg (by decide), List.reverse_append, List.reverse_reverse]

theorem trimEnd_append_of_forall {s t : Text} (h : ∀ c ∈ t, isWhitespace c = true) :
    trimEnd (s ++ t) = trimEnd s := by
  have hnil : t.reverse.dropWhile isWhitespace = [] := by
    rw [List.dropWhile_eq_nil_iff]
    exact fun c hc => h c (List.mem_reverse.mp hc)
  rw [trimEnd, trimEnd, List.rdropWhile, List.rdropWhile, List.reverse_append,
    List.dropWhile_append, hnil, List.isEmpty_nil, if_pos rfl]

/-- It makes no difference where a text is cut before it is trimmed, as long as
the white space at its end is not. -/
theorem append_trimEnd_iff {s t : Text} : s ++ trimEnd t = trimEnd (s ++ t) ↔ SpaceWithin s t := by
  by_cases h : ∃ c ∈ t, isWhitespace c = false
  · exact iff_of_true (trimEnd_append_of_mem h).symm (.inl h)
  · have hall : ∀ c ∈ t, isWhitespace c = true := by
      intro c hc
      by_contra hno
      exact h ⟨c, hc, Bool.eq_false_iff.mpr hno⟩
    have hnil : trimEnd t = [] := List.rdropWhile_eq_nil_iff.mpr hall
    rw [trimEnd_append_of_forall hall, hnil, List.append_nil, SpaceWithin, or_iff_right h, eq_comm]

/-! ### The writer -/

/-- `fmt::Write`; `none` is a `fmt::Error`. -/
class Write (W : Type) where
  writeStr : W → Text → Option W

/-- `Write for String`, which is never an error. -/
instance : Write Text where
  writeStr w s := some (w ++ s)

/-- A `Display` that writes some chunks of text, one after the other. -/
structure Display where
  chunks : List Text

/-- `write_fmt` with `"{}"`. -/
def Display.fmt {W : Type} [Write W] (self : Display) (f : W) : Option W :=
  self.chunks.foldlM Write.writeStr f

/-- `DbQuerySanitizerWriter`: the writer behind it, and whether a marker was
found. -/
structure DbQuerySanitizerWriter (W : Type) where
  inner : W
  done : Bool

namespace DbQuerySanitizerWriter

variable {W : Type}

/-- `DbQuerySanitizerWriter::new`. -/
def new (writer : W) : DbQuerySanitizerWriter W where
  inner := writer
  done := false

/-- `DbQuerySanitizerWriter::write_str`. -/
def writeStr [Write W] (self : DbQuerySanitizerWriter W) (s : Text) :
    Option (DbQuerySanitizerWriter W) :=
  if self.done then some self
  else
    match splitOnce marker s with
    | some (text, _) => do
        let inner ← Write.writeStr self.inner (trimEnd text)
        return { inner, done := true }
    | none => do
        let inner ← Write.writeStr self.inner s
        return { self with inner }

instance [Write W] : Write (DbQuerySanitizerWriter W) := ⟨writeStr⟩

end DbQuerySanitizerWriter

/-- `DbQuerySanitizer`. -/
structure DbQuerySanitizer where
  query : Display

/-- `DbQuerySanitizer::fmt`. -/
def DbQuerySanitizer.fmt {W : Type} [Write W] (self : DbQuerySanitizer) (f : W) : Option W := do
  let writer ← self.query.fmt (DbQuerySanitizerWriter.new f)
  return writer.inner

/-! ### What is emitted -/

/-- The text that the sanitizer emits for some chunks. -/
def emitted : List Text → Text
  | [] => []
  | s :: chunks =>
      match splitOnce marker s with
      | some (text, _) => trimEnd text
      | none => s ++ emitted chunks

/-- The text before the first marker, without the white space at its end. -/
def sanitized (text : Text) : Text :=
  match splitOnce marker text with
  | some (query, _) => trimEnd query
  | none => text

/-- The first marker of the text stands within one chunk, behind `part`. -/
structure MarkedIn (chunks before : List Text) (part rest : Text) (after : List Text) : Prop where
  chunks : chunks = before ++ (part ++ marker ++ rest) :: after
  first : IsFrame marker (before.flatten ++ part ++ marker)

/-- If the text has a marker, the first one stands within one chunk, and the white
space before it does too. -/
def InOneChunk (chunks : List Text) : Prop :=
  marker <:+: chunks.flatten →
    ∃ before part rest after, MarkedIn chunks before part rest after ∧
      SpaceWithin before.flatten part

theorem foldlM_done {W : Type} [Write W] (w : W) (chunks : List Text) :
    chunks.foldlM Write.writeStr (⟨w, true⟩ : DbQuerySanitizerWriter W) = some ⟨w, true⟩ := by
  induction chunks with
  | nil => rfl
  | cons s chunks ih => rw [List.foldlM_cons]; exact ih

/-- The writer emits `emitted`. -/
theorem fmt_eq (query : Display) (out : Text) :
    DbQuerySanitizer.fmt ⟨query⟩ out = some (out ++ emitted query.chunks) := by
  obtain ⟨chunks⟩ := query
  have key : ∃ done, chunks.foldlM Write.writeStr (DbQuerySanitizerWriter.new out) =
      some ⟨out ++ emitted chunks, done⟩ := by
    induction chunks generalizing out with
    | nil => exact ⟨false, by rw [emitted, List.append_nil]; rfl⟩
    | cons s chunks ih =>
        rw [List.foldlM_cons, emitted]
        cases hsplit : splitOnce marker s with
        | none =>
            have hwrite : Write.writeStr (DbQuerySanitizerWriter.new out) s =
                some (DbQuerySanitizerWriter.new (out ++ s)) := by
              show DbQuerySanitizerWriter.writeStr _ s = _
              rw [DbQuerySanitizerWriter.writeStr, hsplit]
              rfl
            rw [hwrite, ← List.append_assoc]
            exact ih (out ++ s)
        | some split =>
            obtain ⟨text, rest⟩ := split
            have hwrite : Write.writeStr (DbQuerySanitizerWriter.new out) s =
                some ⟨out ++ trimEnd text, true⟩ := by
              show DbQuerySanitizerWriter.writeStr _ s = _
              rw [DbQuerySanitizerWriter.writeStr, hsplit]
              rfl
            rw [hwrite]
            exact ⟨true, foldlM_done _ chunks⟩
  obtain ⟨done, hdone⟩ := key
  rw [DbQuerySanitizer.fmt, Display.fmt, hdone]
  rfl

theorem marker_ne_nil : marker ≠ [] := by decide

/-- Up to the first chunk with a marker, the chunks are emitted as they are. -/
theorem emitted_append {before : List Text} (h : ∀ s ∈ before, ¬ marker <:+: s)
    (chunks : List Text) : emitted (before ++ chunks) = before.flatten ++ emitted chunks := by
  induction before with
  | nil => rfl
  | cons s before ih =>
      have hnone := splitOnce_eq_none.mpr (h s (.head _))
      rw [List.cons_append, emitted, hnone, ih fun s' hs' => h s' (.tail _ hs'),
        List.flatten_cons, List.append_assoc]

/-- Either no chunk has a marker, or the sanitizer stops at the first that
does. -/
theorem emitted_cases (chunks : List Text) :
    emitted chunks = chunks.flatten ∨
      ∃ before part rest after, chunks = before ++ (part ++ marker ++ rest) :: after ∧
        IsFrame marker (part ++ marker) ∧ emitted chunks = before.flatten ++ trimEnd part := by
  induction chunks with
  | nil => exact .inl rfl
  | cons s chunks ih =>
      cases hsplit : splitOnce marker s with
      | none =>
          have hs : emitted (s :: chunks) = s ++ emitted chunks := by rw [emitted, hsplit]
          rcases ih with hall | ⟨before, part, rest, after, rfl, hframe, hemitted⟩
          · exact .inl (by rw [hs, hall, List.flatten_cons])
          · refine .inr ⟨s :: before, part, rest, after, rfl, hframe, ?_⟩
            rw [hs, hemitted, List.flatten_cons, List.append_assoc]
      | some split =>
          obtain ⟨part, rest⟩ := split
          obtain ⟨rfl, hframe⟩ := splitOnce_spec marker_ne_nil hsplit
          refine .inr ⟨[], part, rest, chunks, rfl, hframe, ?_⟩
          rw [emitted, hsplit]
          rfl

section

variable {chunks before after : List Text} {part rest query : Text}

theorem MarkedIn.begins (h : MarkedIn chunks before part rest after) :
    before.flatten ++ part ++ marker <+: chunks.flatten := by
  refine ⟨rest ++ after.flatten, ?_⟩
  rw [h.chunks]
  simp only [List.flatten_append, List.flatten_cons, List.append_assoc]

/-- In the text that a marker ends, nothing before it has a marker. -/
theorem MarkedIn.emitted (h : MarkedIn chunks before part rest after) :
    emitted chunks = before.flatten ++ trimEnd part := by
  have hbefore : ∀ s ∈ before, ¬ marker <:+: s := by
    intro s hs hmark
    have hpart : before.flatten <+: (before.flatten ++ part ++ marker).dropLast := by
      refine prefix_dropLast ?_ (by simp [marker])
      rw [List.append_assoc]
      exact List.prefix_append _ _
    exact h.first.first (hmark.trans ((List.infix_of_mem_flatten hs).trans hpart.isInfix))
  have hframe : IsFrame marker (part ++ marker) := by
    refine IsFrame.of_append (x := before.flatten) ?_ (List.suffix_append _ _)
    rw [← List.append_assoc]
    exact h.first
  have hsplit : splitOnce marker (part ++ marker ++ rest) = some (part, rest) :=
    (splitOnce_eq_some_iff marker_ne_nil).mpr ⟨rfl, hframe⟩
  rw [h.chunks, emitted_append hbefore, Telemetry.emitted, hsplit]

/-- The text before the marker is the one that ends in the chunk. -/
theorem MarkedIn.query_eq (h : MarkedIn chunks before part rest after)
    (hframe : IsFrame marker (query ++ marker)) (hpre : query ++ marker <+: chunks.flatten) :
    query = before.flatten ++ part :=
  hframe.unique h.first hpre h.begins

/-- **Where the sanitizer stops.**  It emits nothing but text from before the
first marker exactly if that marker stands within one chunk. -/
theorem emitted_prefix_iff (hframe : IsFrame marker (query ++ marker))
    (hpre : query ++ marker <+: chunks.flatten) :
    Telemetry.emitted chunks <+: query ↔
      ∃ before part rest after, MarkedIn chunks before part rest after := by
  constructor
  · intro hstops
    rcases emitted_cases chunks with hall | ⟨before, part, rest, after, rfl, hpart, hemitted⟩
    · -- all of the text is emitted, the marker too
      have hlen := hpre.length_le.trans (hall ▸ hstops).length_le
      rw [List.length_append] at hlen
      exact absurd hlen (by simp [marker])
    · refine ⟨before, part, rest, after, rfl, ?_⟩
      obtain ⟨query', rfl⟩ : before.flatten <+: query :=
        (List.prefix_append _ _).trans (hemitted ▸ hstops)
      have hquery' : IsFrame marker (query' ++ marker) := by
        refine IsFrame.of_append (x := before.flatten) ?_ (List.suffix_append _ _)
        rw [← List.append_assoc]
        exact hframe
      -- both markers are the first one behind the chunks before
      rw [List.flatten_append, List.flatten_cons, List.append_assoc,
        List.prefix_append_right_inj] at hpre
      have hfirst : part ++ marker <+: part ++ marker ++ rest ++ after.flatten := by
        rw [List.append_assoc _ rest]
        exact List.prefix_append _ _
      obtain rfl := hquery'.unique hpart hpre hfirst
      exact hframe
  · rintro ⟨before, part, rest, after, h⟩
    rw [h.query_eq hframe hpre, h.emitted]
    exact (List.prefix_append_right_inj _).mpr (trimEnd_isPrefix part)

end

/-- The white space before the marker makes the rest of the difference. -/
theorem emitted_eq_sanitized_iff (chunks : List Text) :
    emitted chunks = sanitized chunks.flatten ↔ InOneChunk chunks := by
  rw [sanitized]
  cases hsplit : splitOnce marker chunks.flatten with
  | none =>
      have hno := splitOnce_eq_none.mp hsplit
      refine iff_of_true ?_ fun hmark => absurd hmark hno
      rcases emitted_cases chunks with hall | ⟨before, part, rest, after, rfl, -, -⟩
      · exact hall
      · refine absurd ?_ hno
        refine List.IsInfix.trans ⟨part, rest, rfl⟩ (List.infix_of_mem_flatten ?_)
        exact List.mem_append_right _ (.head _)
  | some split =>
      obtain ⟨query, rest⟩ := split
      obtain ⟨hflatten, hframe⟩ := splitOnce_spec marker_ne_nil hsplit
      have hpre : query ++ marker <+: chunks.flatten := ⟨rest, hflatten.symm⟩
      have hmark : marker <:+: chunks.flatten := ⟨query, rest, hflatten.symm⟩
      constructor
      · intro heq _
        obtain ⟨before, part, rest', after, h⟩ :=
          (emitted_prefix_iff hframe hpre).mp (heq ▸ trimEnd_isPrefix query)
        refine ⟨before, part, rest', after, h, append_trimEnd_iff.mp ?_⟩
        rw [← h.emitted, ← h.query_eq hframe hpre]
        exact heq
      · intro h
        obtain ⟨before, part, rest', after, h, hspace⟩ := h hmark
        rw [h.emitted, h.query_eq hframe hpre]
        exact append_trimEnd_iff.mpr hspace

/-- **When a query is sanitized.**  What the sanitizer emits is the text before the
first marker without the white space at its end, or all of it if there is no
marker, exactly if the marker and that white space stand within one chunk. -/
theorem sanitizes_iff (query : Display) (out : Text) :
    DbQuerySanitizer.fmt ⟨query⟩ out = some (out ++ sanitized query.chunks.flatten) ↔
      InOneChunk query.chunks := by
  rw [fmt_eq, Option.some.injEq, List.append_cancel_left_eq]
  exact emitted_eq_sanitized_iff query.chunks

/-- The chunks that `diesel` prints a query in. -/
example : DbQuerySanitizer.fmt
    ⟨⟨["SELECT 1".toList, " -- binds: ".toList, "[7]".toList]⟩⟩ ([] : Text) =
      some "SELECT 1".toList := by
  decide

/-- White space in front of the chunk with the marker is left, and a marker in two
chunks is not seen. -/
theorem not_sanitized :
    let spaced : Display := ⟨["SELECT 1 ".toList, " -- binds: ".toList, "[]".toList]⟩
    let halved : Display := ⟨["SELECT 1 -".toList, "- binds: [7]".toList]⟩
    (DbQuerySanitizer.fmt ⟨spaced⟩ ([] : Text) = some "SELECT 1 ".toList ∧
      DbQuerySanitizer.fmt ⟨spaced⟩ ([] : Text) ≠ some (sanitized spaced.chunks.flatten)) ∧
    DbQuerySanitizer.fmt ⟨halved⟩ ([] : Text) = some "SELECT 1 -- binds: [7]".toList ∧
      DbQuerySanitizer.fmt ⟨halved⟩ ([] : Text) ≠ some (sanitized halved.chunks.flatten) := by
  decide

/-! ### The spans -/

/-- The data of a span that comes from a query. -/
structure Span where
  /-- `db.query.text`. -/
  queryText : Text
  /-- The description of `Status::Error`. -/
  error : Option Text := none

/-- `InstrumentationEvent`, with the text of an error. -/
inductive InstrumentationEvent
  | startQuery (query : Display)
  | finishQuery (error : Option Text)
  | other

/-- `DieselInstrumentation`, with the spans that are closed. -/
structure DieselInstrumentation where
  span : Option Span := none
  closed : List Span := []

namespace DieselInstrumentation

/-- `on_connection_event`; `none` is a panic.  A span is closed when it is
dropped. -/
def onConnectionEvent (self : DieselInstrumentation) :
    InstrumentationEvent → Option DieselInstrumentation
  | .startQuery query => do
      let queryText ← DbQuerySanitizer.fmt ⟨query⟩ ([] : Text)
      return { span := some { queryText }, closed := self.span.toList ++ self.closed }
  | .finishQuery error =>
      match self.span with
      | none => some self
      | some span =>
          let span := match error with
            | some description => { span with error := some description }
            | none => span
          some { span := none, closed := span :: self.closed }
  | .other => some self

/-- The spans, the last first. -/
def spans (self : DieselInstrumentation) : List Span := self.span.toList ++ self.closed

end DieselInstrumentation

/-- The query that an event starts. -/
def InstrumentationEvent.query : InstrumentationEvent → Option Display
  | .startQuery query => some query
  | _ => none

namespace DieselInstrumentation

/-- An event that starts a query opens a span with what the sanitizer emits for
it, and the others leave the texts of the spans as they are. -/
theorem onConnectionEvent_spans (self : DieselInstrumentation) (event : InstrumentationEvent) :
    ∃ self', self.onConnectionEvent event = some self' ∧ self'.spans.map Span.queryText =
      (event.query.map fun query => emitted query.chunks).toList ++
        self.spans.map Span.queryText := by
  cases event with
  | other => exact ⟨self, rfl, rfl⟩
  | startQuery query => exact ⟨_, by rw [onConnectionEvent, fmt_eq]; rfl, rfl⟩
  | finishQuery error =>
      obtain ⟨span, closed⟩ := self
      cases span with
      | none => exact ⟨_, rfl, rfl⟩
      | some span => cases error <;> exact ⟨_, rfl, rfl⟩

/-- **What is traced.**  No event is a panic; there is one span for every query,
in their order, with the text that the sanitizer emits for it; and all texts are
sanitized exactly if each query is in one chunk as far as its marker. -/
theorem traced (events : List InstrumentationEvent) :
    ∃ self, events.foldlM onConnectionEvent {} = some self ∧
      self.spans.map Span.queryText =
        (events.filterMap InstrumentationEvent.query).reverse.map (fun q => emitted q.chunks) ∧
      (self.spans.map Span.queryText = (events.filterMap InstrumentationEvent.query).reverse.map
          (fun q => sanitized q.chunks.flatten) ↔
        ∀ query, .startQuery query ∈ events → InOneChunk query.chunks) := by
  -- for any spans that are there before, which stay behind the new ones
  have hrun : ∀ self : DieselInstrumentation, ∃ self', events.foldlM onConnectionEvent self =
      some self' ∧ self'.spans.map Span.queryText =
        (events.filterMap InstrumentationEvent.query).reverse.map (fun q => emitted q.chunks) ++
          self.spans.map Span.queryText := by
    induction events with
    | nil => exact fun self => ⟨self, rfl, rfl⟩
    | cons event events ih =>
        intro self
        obtain ⟨self₁, hself₁, hspans₁⟩ := onConnectionEvent_spans self event
        obtain ⟨self', hself', hspans⟩ := ih self₁
        refine ⟨self', by rw [List.foldlM_cons, hself₁]; exact hself', ?_⟩
        rw [hspans, hspans₁]
        cases event <;> simp [InstrumentationEvent.query, List.filterMap_cons]
  obtain ⟨self, hself, hspans⟩ := hrun {}
  rw [show ({} : DieselInstrumentation).spans = [] from rfl, List.map_nil, List.append_nil]
    at hspans
  refine ⟨self, hself, hspans, ?_⟩
  have hquery : ∀ query, query ∈ (events.filterMap InstrumentationEvent.query).reverse ↔
      .startQuery query ∈ events := by
    intro query
    rw [List.mem_reverse, List.mem_filterMap]
    constructor
    · rintro ⟨event, hevent, h⟩
      cases event with
      | startQuery query' => exact Option.some.inj h ▸ hevent
      | finishQuery | other => cases h
    · exact fun h => ⟨_, h, rfl⟩
  rw [hspans, List.map_inj_left]
  simp only [emitted_eq_sanitized_iff, hquery]

end DieselInstrumentation

end Lockinspiel.Telemetry
