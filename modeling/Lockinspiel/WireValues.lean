/-
Lockinspiel/WireValues.lean

The numbers that the timestamp codecs put on the wire.

`DateTime` lets `jiff` turn durations into microseconds and back.  `Timestamp`
and `Timestamptz` do it themselves, in machine arithmetic: whole seconds first,
and what is left of a second on top.  Both come to the same, up to the ends of
an `i64`, and write the same number.  They read the same instant from
`DateTime.firstUsecs` on; of the thirty years before it `DateTime` reads
nothing, not even what it wrote (`same_wire_values`).
-/
import Lockinspiel.Timestamps

namespace Lockinspiel

/-! ### Durations of civil times -/

/-- The functions of `jiff` behind `DateTime::to_sql`. -/
structure Durations {J : Jiff} (C : Civil J) where
  /-- `civil::DateTime::duration_since`. -/
  durationSince : C.DateTime → C.DateTime → J.SignedDuration
  /-- `SignedDuration::as_micros`, an `i128`. -/
  asMicros : J.SignedDuration → ℤ
  /-- `Debug for civil::DateTime`. -/
  debug : C.DateTime → String

namespace Durations

/-- What is assumed of them: a `SignedDuration` is nothing but its nanoseconds,
and both functions are exact, with truncation toward zero. -/
structure Laws {J : Jiff} {C : Civil J} (D : Durations C) : Prop where
  asNanos_injective : Function.Injective J.asNanos
  durationSince : ∀ d e, J.asNanos (D.durationSince d e) = C.asNanosecond d - C.asNanosecond e
  asMicros : ∀ d, D.asMicros d = (J.asNanos d).tdiv 1000

/-- Durations as counts of nanoseconds. -/
def reference : Durations Civil.reference where
  durationSince := fun d e => (d.val - e.val : ℤ)
  asMicros := fun d => (Jiff.reference.asNanos d).tdiv 1000
  debug := fun d => toString d.val

theorem reference_laws : reference.Laws where
  asNanos_injective := Function.injective_id
  durationSince _ _ := rfl
  asMicros _ := rfl

end Durations

variable {J : Jiff} {C : Civil J} {D : Durations C}

/-! ### `DateTime` -/

namespace DateTime

variable (D) in
/-- `DateTime::to_sql`. -/
def toSql (d : C.DateTime) : Option (Except String ℤ) := do
  let epoch ← pgEpochDatetime C
  match i64 (D.asMicros (D.durationSince d epoch)) with
  | some time => return .ok time
  | none =>
      let self := D.debug d
      return .error s!"DateTime({self}) as microseconds is too large to fit in an i64"

/-- A civil time is stored as the microseconds since 2000, rounded toward 2000,
and is never too large. -/
theorem toSql_civil (hC : C.Laws) (hD : D.Laws) (d : C.DateTime) :
    toSql D d = some (.ok ((C.asNanosecond d - 1000 * Timestamptz.epochMicros).tdiv 1000)) := by
  obtain ⟨e, he, hens⟩ := hC.new
  have hd := hC.asNanosecond_mem d
  have hepoch : 1000 * Timestamptz.epochMicros = thirtyYears * 1000000000 := by decide
  have hdiv := tdiv_tmod_spec (C.asNanosecond d - thirtyYears * 1000000000) (k := 1000) (by decide)
  have hfits : i64 (D.asMicros (D.durationSince d e)) =
      some ((C.asNanosecond d - thirtyYears * 1000000000).tdiv 1000) := by
    rw [hD.asMicros, hD.durationSince, hens]
    refine i64_eq ?_
    simp only [Civil.minNanosecond, Civil.maxNanosecond, thirtyYears] at hd hdiv ⊢
    omega
  rw [hepoch]
  simp only [toSql, pgEpochDatetime, he, hfits, Option.bind_eq_bind, Option.bind_some]
  rfl

end DateTime

/-! ### The two steps of `Timestamp` -/

namespace Timestamptz

/-- The seconds and the nanoseconds that `usecs_to_duration` computes. -/
theorem usecsToDuration_parts (hJ : J.TimestampLaws) (hC : C.Laws) (hD : D.Laws) {u : ℤ}
    (h : Fits 63 u) :
    ∃ seconds nanoseconds, usecsToDuration J u = some (J.newDuration seconds nanoseconds) ∧
      seconds * 1000000000 + nanoseconds = 1000 * u ∧ |nanoseconds| < 1000000000 ∧
      ((0 ≤ seconds ∧ 0 ≤ nanoseconds) ∨ (seconds ≤ 0 ∧ nanoseconds ≤ 0)) ∧
      J.newDuration seconds nanoseconds = C.fromMicros u := by
  obtain ⟨d, hd, hnanos⟩ := exists_usecsToDuration hJ h
  have hdiv := tdiv_tmod_spec u (k := 1000000) (by decide)
  have hparts := usecsToDuration_eq (J := J) u
  obtain rfl := Option.some.inj (hparts.symm.trans hd)
  refine ⟨_, _, hparts, ?_, ?_, ?_, ?_⟩
  · rw [usecPerSec, nanoPerUsec]
    omega
  · rw [abs_lt, usecPerSec, nanoPerUsec]
    omega
  · rw [usecPerSec, nanoPerUsec]
    omega
  · exact hD.asNanos_injective (hnanos.trans (hC.fromMicros u h).symm)

/-- A duration is stored as what `as_micros` says. -/
theorem durationToUsecs_asMicros (hJ : J.TimestampLaws) (hD : D.Laws) {d : J.SignedDuration}
    (h : Fits 63 (D.asMicros d)) : durationToUsecs J d = some (D.asMicros d) := by
  rw [hD.asMicros] at h ⊢
  exact durationToUsecs_of_fits hJ h

/-- A number is turned into a duration and back without a change. -/
theorem durationToUsecs_usecsToDuration (hJ : J.TimestampLaws) {u : ℤ} (h : Fits 63 u) :
    (usecsToDuration J u).bind (durationToUsecs J) = some u := by
  obtain ⟨d, hd, hnanos⟩ := exists_usecsToDuration hJ h
  have hmicros : (J.asNanos d).tdiv 1000 = u := by
    rw [hnanos]
    exact Int.mul_tdiv_cancel_left u (by decide)
  have hback : durationToUsecs J d = some u := by
    rw [durationToUsecs_of_fits hJ (hmicros ▸ h), hmicros]
  rw [hd, Option.bind_some, hback]

end Timestamptz

/-! ### Both codecs -/

/-- What is written for the same instant. -/
theorem toSql_eq_toSql (hJ : J.TimestampLaws) (hC : C.Laws) (hD : D.Laws) {t : J.Timestamp}
    {d : C.DateTime} (h : J.asNanosecond t = C.asNanosecond d) :
    ∃ n, Fits 63 n ∧ Timestamptz.toSql J t = some n ∧ DateTime.toSql D d = some (.ok n) := by
  have hd := hC.asNanosecond_mem d
  have hdiv := tdiv_tmod_spec (C.asNanosecond d - 1000 * Timestamptz.epochMicros) (k := 1000)
    (by decide)
  refine ⟨_, ?_, ?_, DateTime.toSql_civil hC hD d⟩
  · simp only [Civil.minNanosecond, Civil.maxNanosecond, Timestamptz.epochMicros, thirtyYears,
      usecPerSec, Fits] at hd hdiv ⊢
    omega
  · rw [Timestamptz.toSql_eq hJ, h]

variable (C) in
/-- Both codecs read the same instant from a number. -/
def ReadsAlike (u : ℤ) : Prop :=
  ∃ t d, Timestamp.fromSql J u = some (.ok t) ∧ DateTime.fromSql C u = some (.ok d) ∧
    J.asNanosecond t = instant u ∧ C.asNanosecond d = instant u

/-- What is read from the same number. -/
theorem readsAlike_iff (hJ : J.TimestampLaws) (hC : C.Laws) {u : ℤ} (h : Fits 63 u)
    (hin : Timestamp.InRange u) : ReadsAlike C u ↔ DateTime.firstUsecs ≤ u := by
  obtain ⟨hlo, hhi⟩ := hin
  have hdecodes := DateTime.fromSql_decodes hC h
  have hfirst : instant DateTime.firstUsecs ≤ instant u ↔ DateTime.firstUsecs ≤ u := by
    simp only [instant]
    omega
  constructor
  · rintro ⟨t, d, -, hd, -⟩
    by_contra hno
    obtain ⟨e, he⟩ := hdecodes.error fun hin => hno (hfirst.mp hin.1)
    rw [hd] at he
    cases he
  · intro hle
    obtain ⟨t, ht⟩ := hJ.exists_asNanosecond _ hlo hhi
    -- a `Timestamp` ends a day before a `civil::DateTime` does
    obtain ⟨d, hd, hdns⟩ := hdecodes.ok (hfirst.mpr hle)
      (by simp only [Civil.maxNanosecond, Jiff.maxNanosecond] at hhi ⊢; omega)
    refine ⟨t, d, ?_, hd, ht, hdns⟩
    rw [Timestamp.fromSql_eq, (Timestamptz.fromSql_eq_some_iff hJ h t).mpr ht, Option.map_some]

/-- **What the two codecs compute alike.**  From one end of an `i64` to the other
`usecs_to_duration` is `from_micros`, and `duration_to_usecs` is `as_micros` and
goes back, so for one instant the same number is written.  From a number that
stands for a `Timestamp` the same instant is read exactly if the number is not
before `DateTime.firstUsecs`. -/
theorem same_wire_values (hJ : J.TimestampLaws) (hC : C.Laws) (hD : D.Laws) :
    (∀ u, Fits 63 u →
      (∃ seconds nanoseconds,
        Timestamptz.usecsToDuration J u = some (J.newDuration seconds nanoseconds) ∧
        seconds * 1000000000 + nanoseconds = 1000 * u ∧ |nanoseconds| < 1000000000 ∧
        ((0 ≤ seconds ∧ 0 ≤ nanoseconds) ∨ (seconds ≤ 0 ∧ nanoseconds ≤ 0)) ∧
        J.newDuration seconds nanoseconds = C.fromMicros u) ∧
      (Timestamptz.usecsToDuration J u).bind (Timestamptz.durationToUsecs J) = some u) ∧
    (∀ d, Fits 63 (D.asMicros d) → Timestamptz.durationToUsecs J d = some (D.asMicros d)) ∧
    (∀ t d, J.asNanosecond t = C.asNanosecond d →
      ∃ n, Fits 63 n ∧ Timestamptz.toSql J t = some n ∧ DateTime.toSql D d = some (.ok n)) ∧
    ∀ u, Fits 63 u → Timestamp.InRange u → (ReadsAlike C u ↔ DateTime.firstUsecs ≤ u) := by
  refine ⟨fun u h => ⟨?_, ?_⟩, fun d h => ?_, fun t d h => ?_, fun u h hin => ?_⟩
  · exact Timestamptz.usecsToDuration_parts hJ hC hD h
  · exact Timestamptz.durationToUsecs_usecsToDuration hJ h
  · exact Timestamptz.durationToUsecs_asMicros hJ hD h
  · exact toSql_eq_toSql hJ hC hD h
  · exact readsAlike_iff hJ hC h hin

/-- The first number of an `i64` goes there and back, the longest duration that
fits is the last one, and the last nanosecond before 1970 is one number. -/
theorem same_wire_values_ends :
    (Timestamptz.usecsToDuration Jiff.reference (-9223372036854775808)).bind
        (Timestamptz.durationToUsecs Jiff.reference) = some (-9223372036854775808) ∧
      Timestamptz.durationToUsecs Jiff.reference (9223372036854775807999 : ℤ) =
        some 9223372036854775807 ∧
      ∃ n, Fits 63 n ∧ Timestamptz.toSql Jiff.reference ⟨-1, by decide⟩ = some n ∧
        DateTime.toSql Durations.reference ⟨-1, by decide⟩ = some (.ok n) := by
  obtain ⟨hback, hmicros, hwrite, -⟩ := same_wire_values Jiff.reference_timestampLaws
    Civil.reference_laws Durations.reference_laws
  refine ⟨(hback _ (by decide)).2, ?_, hwrite _ _ rfl⟩
  exact hmicros (9223372036854775807999 : ℤ) (by decide)

/-- The first second of a `Timestamp`: `Timestamp` reads it, and `DateTime`, which
has the instant and writes it as this number, answers with an error. -/
theorem same_wire_values_first_second :
    Timestamp.InRange (-378651708001000000) ∧
    (∃ t, Timestamp.fromSql Jiff.reference (-378651708001000000) = some (.ok t)) ∧
    (∃ d, Civil.reference.asNanosecond d = instant (-378651708001000000) ∧
      DateTime.toSql Durations.reference d = some (.ok (-378651708001000000))) ∧
    (∃ e, DateTime.fromSql Civil.reference (-378651708001000000) = some (.error e)) ∧
    ¬ ∀ u, Fits 63 u → Timestamp.InRange u → ReadsAlike Civil.reference u := by
  have herror : DateTime.fromSql Civil.reference (-378651708001000000) = some (.error
      "Tried to deserialize a timestamp that is too large for Jiff: `too many days`") := by rfl
  refine ⟨by decide, ⟨⟨Jiff.minNanosecond, by decide⟩, by rfl⟩,
    ⟨⟨Jiff.minNanosecond, by decide⟩, by rfl, by rfl⟩, ⟨_, herror⟩, fun h => ?_⟩
  obtain ⟨t, d, -, hd, -⟩ := h (-378651708001000000) (by decide) (by decide)
  rw [herror] at hd
  cases hd

end Lockinspiel
