/-
Lockinspiel/SqlTypes.lean

The column codecs of the common schema: `Interval` over a `jiff::Span`, and
`Timestamptz` over a `jiff::Timestamp`.

Machine arithmetic is checked: an operation whose exact result does not fit
its type is `none`, and so is a `jiff` call that panics, so a codec that
returns `some` neither overflowed nor panicked.

`Interval::to_sql` folds years into months, weeks into days and the units
from hours down to microseconds into one number (`Interval.toSql_eq`: it
never overflows).  `Interval::from_sql` gives the three numbers to the
setters of one unit each, whose limits are those of a single unit, so a span
is read back only if the folded numbers stay below them
(`Interval.fromSql_toSql_iff`).

`Timestamptz` is stored as the microseconds since 2000; on whole microseconds
the codec only moves the epoch (`Timestamptz.toSql_deserialize`,
`Timestamptz.fromSql_deserialize`).  Over JSON the last second of a `Timestamp`
can be sent but not received (`Timestamptz.survives_last_second`).
-/
import Lockinspiel.Jiff
import Mathlib.Algebra.Order.Ring.Abs

namespace Lockinspiel

/-! ### Checked machine integers -/

/-- `n` is a value of the signed integer type of `w + 1` bits. -/
def Fits (w : ℕ) (n : ℤ) : Prop := -(2 ^ w) ≤ n ∧ n < 2 ^ w

instance (w : ℕ) : DecidablePred (Fits w) := fun n => by unfold Fits; infer_instance

/-- An `i32` result; `none` is an overflow. -/
def i32 (n : ℤ) : Option ℤ := if Fits 31 n then some n else none

/-- An `i64` result; `none` is an overflow. -/
def i64 (n : ℤ) : Option ℤ := if Fits 63 n then some n else none

theorem i32_eq {n : ℤ} (h : -2147483648 ≤ n ∧ n < 2147483648) : i32 n = some n :=
  if_pos (by simpa [Fits] using h)

theorem i64_eq {n : ℤ} (h : -9223372036854775808 ≤ n ∧ n < 9223372036854775808) :
    i64 n = some n :=
  if_pos (by simpa [Fits] using h)

/-- Truncating division by a positive number, for linear arithmetic: the
remainder has the sign of the dividend. -/
theorem tdiv_tmod_spec (a : ℤ) {k : ℤ} (hk : 0 < k) :
    k * a.tdiv k + a.tmod k = a ∧ (0 ≤ a → 0 ≤ a.tmod k ∧ a.tmod k < k) ∧
      (a ≤ 0 → -k < a.tmod k ∧ a.tmod k ≤ 0) := by
  refine ⟨Int.mul_tdiv_add_tmod a k, fun h => ⟨Int.tmod_nonneg k h, Int.tmod_lt_of_pos a hk⟩,
    fun h => ?_⟩
  -- the mirror image of the case before
  have hneg : a.tmod k = -(-a).tmod k := by rw [Int.neg_tmod, neg_neg]
  have hlo := Int.tmod_nonneg k (Int.neg_nonneg_of_nonpos h)
  have hhi := Int.tmod_lt_of_pos (-a) hk
  omega

/-! ### `Interval` -/

/-- The three numbers of a Postgres `INTERVAL`. -/
structure PgInterval where
  microseconds : ℤ
  days : ℤ
  months : ℤ
deriving DecidableEq

namespace Interval

variable (J : Jiff)

/-- `Interval::to_sql`. -/
def toSql (s : J.Span) : Option PgInterval := do
  let years ← i32 (J.getYears s * 12)
  let months ← i32 (years + J.getMonths s)
  let weeks ← i32 (J.getWeeks s * 7)
  let days ← i32 (weeks + J.getDays s)
  let hours ← i64 (J.getHours s * 3600000000)
  let minutes ← i64 (J.getMinutes s * 60000000)
  let seconds ← i64 (J.getSeconds s * 1000000)
  let milliseconds ← i64 (J.getMilliseconds s * 1000)
  let sum ← i64 (hours + minutes)
  let sum ← i64 (sum + seconds)
  let sum ← i64 (sum + milliseconds)
  let microseconds ← i64 (sum + J.getMicroseconds s)
  return { microseconds, days, months }

/-- `Interval::from_sql`: the setters, in the order of the source. -/
def fromSql (pg : PgInterval) : Option J.Span := do
  let span ← J.microseconds J.newSpan pg.microseconds
  let span ← J.days span pg.days
  J.months span pg.months

/-- The months a span is stored as. -/
def months (s : J.Span) : ℤ := 12 * J.getYears s + J.getMonths s

/-- The days a span is stored as. -/
def days (s : J.Span) : ℤ := 7 * J.getWeeks s + J.getDays s

/-- The microseconds a span is stored as. -/
def microseconds (s : J.Span) : ℤ :=
  3600000000 * J.getHours s + 60000000 * J.getMinutes s + 1000000 * J.getSeconds s +
    1000 * J.getMilliseconds s + J.getMicroseconds s

variable {J}

/-- No operation of `to_sql` overflows, for any span. -/
theorem toSql_eq (hJ : J.SpanLaws) (s : J.Span) :
    toSql J s = some ⟨microseconds J s, days J s, months J s⟩ := by
  have hy := abs_le.mp (hJ.years s)
  have hmo := abs_le.mp (hJ.months s)
  have hw := abs_le.mp (hJ.weeks s)
  have hd := abs_le.mp (hJ.days s)
  have hh := abs_le.mp (hJ.hours s)
  have hmi := abs_le.mp (hJ.minutes s)
  have hs := abs_le.mp (hJ.seconds s)
  have hms := abs_le.mp (hJ.milliseconds s)
  have hus := abs_le.mp (hJ.microseconds s)
  simp only [Jiff.maxMonths, Jiff.maxDays, Jiff.maxMicroseconds] at hmo hd hus
  -- the largest sum is five times the limit of the microseconds, about 3.2e18
  simp (disch := omega) only [toSql, i32_eq, i64_eq, Option.bind_eq_bind, Option.bind_some,
    Option.pure_def, Option.some.injEq, PgInterval.mk.injEq]
  simp only [microseconds, days, months]
  omega

/-- The setters of `from_sql` go through exactly within their limits. -/
theorem isSome_fromSql (hJ : J.SpanLaws) (pg : PgInterval) :
    (fromSql J pg).isSome ↔ |pg.microseconds| ≤ Jiff.maxMicroseconds ∧
      |pg.days| ≤ Jiff.maxDays ∧ |pg.months| ≤ Jiff.maxMonths := by
  simp only [fromSql, Option.bind_eq_bind]
  rw [← hJ.setMicroseconds J.newSpan]
  rcases J.microseconds J.newSpan pg.microseconds with - | s₁
  · simp
  · rw [← hJ.setDays s₁]
    rcases h₂ : J.days s₁ pg.days with - | s₂
    · simp [h₂]
    · rw [← hJ.setMonths s₂]
      simp [h₂]

/-- **When a span is read back.**  `to_sql` always succeeds, and `from_sql` on
its result goes through exactly if the folded months, days and microseconds
each stay within the limit of that one unit. -/
theorem fromSql_toSql_iff (hJ : J.SpanLaws) (s : J.Span) :
    (∃ pg, toSql J s = some pg ∧ (fromSql J pg).isSome) ↔
      |months J s| ≤ Jiff.maxMonths ∧ |days J s| ≤ Jiff.maxDays ∧
        |microseconds J s| ≤ Jiff.maxMicroseconds := by
  constructor
  · rintro ⟨pg, hpg, h⟩
    obtain rfl := Option.some.inj ((toSql_eq hJ s).symm.trans hpg)
    obtain ⟨hus, hd, hmo⟩ := (isSome_fromSql hJ _).mp h
    exact ⟨hmo, hd, hus⟩
  · rintro ⟨hmo, hd, hus⟩
    exact ⟨_, toSql_eq hJ s, (isSome_fromSql hJ _).mpr ⟨hus, hd, hmo⟩⟩

/-- A span of 25 minutes is read back. -/
theorem fromSql_toSql_minutes :
    (∃ pg, toSql Jiff.reference ⟨1, { minutes := 25 }, by decide⟩ = some pg ∧
      (fromSql Jiff.reference pg).isSome) :=
  (fromSql_toSql_iff Jiff.reference_spanLaws _).mpr
    ⟨by decide, by decide, by decide⟩

/-- 19998 years and 239976 months are each at their limit, and fold into
479952 months, at which the setter of `from_sql` panics. -/
theorem fromSql_toSql_years_months :
    ∃ s : Jiff.reference.Span, Jiff.reference.getYears s = 19998 ∧
      Jiff.reference.getMonths s = 239976 ∧
      toSql Jiff.reference s = some ⟨0, 0, 479952⟩ ∧
      fromSql Jiff.reference ⟨0, 0, 479952⟩ = none ∧
      ¬ ∃ pg, toSql Jiff.reference s = some pg ∧ (fromSql Jiff.reference pg).isSome := by
  refine ⟨⟨1, { years := 19998, months := 239976 }, by decide⟩, by decide, by decide,
    by decide, by decide, ?_⟩
  rintro ⟨pg, hpg, h⟩
  have hpg' : toSql Jiff.reference ⟨1, { years := 19998, months := 239976 }, by decide⟩ =
      some ⟨0, 0, 479952⟩ := by decide
  obtain rfl := Option.some.inj (hpg.symm.trans hpg')
  exact absurd h (by decide)

end Interval

/-! ### `Timestamptz` -/

/-- `timestamp.as_microsecond()`, the number a client reads. -/
def serialize (J : Jiff) (t : J.Timestamp) : ℤ := J.asMicrosecond t

/-- The timestamp of the number a client sent; `none` is the error of the
deserializer. -/
def deserialize (J : Jiff) (timestampMicros : ℤ) : Option J.Timestamp :=
  J.fromMicrosecond timestampMicros

/-- The seconds from the Unix epoch to 2000. -/
def thirtyYears : ℤ := 946684800

def usecPerSec : ℤ := 1000000

def nanoPerUsec : ℤ := 1000

namespace Timestamptz

variable (J : Jiff)

/-- `pg_epoch_timestamp`. -/
def pgEpochTimestamp : Option J.Timestamp := J.add J.unixEpoch (J.fromSecs thirtyYears)

/-- `usecs_to_duration`.  The cast to `i32` keeps the low 32 bits. -/
def usecsToDuration (usecsPassed : ℤ) : Option J.SignedDuration := do
  let seconds := usecsPassed.tdiv usecPerSec
  let subsecondUsecs := usecsPassed.tmod usecPerSec
  let subseconds ← i32 (subsecondUsecs.bmod (2 ^ 32) * nanoPerUsec)
  return J.newDuration seconds subseconds

/-- `duration_to_usecs`. -/
def durationToUsecs (duration : J.SignedDuration) : Option ℤ := do
  let seconds ← i64 (J.asSecs duration * usecPerSec)
  let subseconds := J.subsecMicros duration
  i64 (seconds + subseconds)

/-- `Timestamp::to_sql`, and by transmutation `Timestamptz::to_sql`. -/
def toSql (t : J.Timestamp) : Option ℤ := do
  let epoch ← pgEpochTimestamp J
  durationToUsecs J (J.durationSince t epoch)

/-- `Timestamp::from_sql`, and `Timestamptz::from_sql` through it. -/
def fromSql (usecsPassed : ℤ) : Option J.Timestamp := do
  let timePassed ← usecsToDuration J usecsPassed
  let epoch ← pgEpochTimestamp J
  J.add epoch timePassed

/-- The microseconds between the two epochs. -/
def epochMicros : ℤ := thirtyYears * usecPerSec

variable {J}

theorem exists_pgEpochTimestamp (hJ : J.TimestampLaws) :
    ∃ e, pgEpochTimestamp J = some e ∧ J.asNanosecond e = 1000 * epochMicros := by
  obtain ⟨e, he⟩ := hJ.exists_asNanosecond (1000 * epochMicros) (by decide) (by decide)
  refine ⟨e, (hJ.add _ _ _).mpr ?_, he⟩
  rw [hJ.unixEpoch, hJ.fromSecs _ (by decide), he]
  rfl

/-- A duration whose microseconds fit is stored as them, without an overflow at
either end. -/
theorem durationToUsecs_of_fits (hJ : J.TimestampLaws) {d : J.SignedDuration}
    (h : Fits 63 ((J.asNanos d).tdiv 1000)) :
    durationToUsecs J d = some ((J.asNanos d).tdiv 1000) := by
  have hns := tdiv_tmod_spec (J.asNanos d) (k := 1000000000) (by decide)
  have hus := tdiv_tmod_spec ((J.asNanos d).tmod 1000000000) (k := 1000) (by decide)
  have hall := tdiv_tmod_spec (J.asNanos d) (k := 1000) (by decide)
  rw [Fits] at h
  -- the whole seconds alone are no further from zero than the sum
  have hsecs : i64 (J.asSecs d * usecPerSec) = some (J.asSecs d * usecPerSec) := by
    refine i64_eq ?_
    rw [hJ.asSecs, usecPerSec]
    omega
  have hsum : J.asSecs d * usecPerSec + J.subsecMicros d = (J.asNanos d).tdiv 1000 := by
    rw [hJ.asSecs, hJ.subsecMicros, usecPerSec]
    omega
  simp only [durationToUsecs, hsecs, hsum, Option.bind_eq_bind, Option.bind_some]
  exact i64_eq (by omega)

/-- A duration that fits is stored as its microseconds, rounded toward
zero. -/
theorem durationToUsecs_eq (hJ : J.TimestampLaws) {d : J.SignedDuration}
    (h : |J.asNanos d| < 2 ^ 63 * 1000) :
    durationToUsecs J d = some ((J.asNanos d).tdiv 1000) := by
  have hall := tdiv_tmod_spec (J.asNanos d) (k := 1000) (by decide)
  rw [abs_lt] at h
  refine durationToUsecs_of_fits hJ ?_
  rw [Fits]
  omega

/-- A timestamp is stored as the microseconds since 2000, rounded toward
2000. -/
theorem toSql_eq (hJ : J.TimestampLaws) (t : J.Timestamp) :
    toSql J t = some ((J.asNanosecond t - 1000 * epochMicros).tdiv 1000) := by
  obtain ⟨e, he, hens⟩ := exists_pgEpochTimestamp hJ
  have ht := hJ.asNanosecond_mem t
  have hns : J.asNanos (J.durationSince t e) = J.asNanosecond t - 1000 * epochMicros := by
    rw [hJ.durationSince, hens]
  simp only [toSql, he, Option.bind_eq_bind, Option.bind_some]
  rw [durationToUsecs_eq hJ, hns]
  rw [hns, abs_lt]
  simp only [Jiff.minNanosecond, Jiff.maxNanosecond, epochMicros, thirtyYears, usecPerSec] at ht ⊢
  omega

/-- Less than a second is left after the division, so neither the cast nor the
product of `usecs_to_duration` cuts anything. -/
theorem usecsToDuration_eq (u : ℤ) :
    usecsToDuration J u =
      some (J.newDuration (u.tdiv usecPerSec) (u.tmod usecPerSec * nanoPerUsec)) := by
  have hdiv := tdiv_tmod_spec u (k := 1000000) (by decide)
  have hlo : -1000000 < u.tmod 1000000 ∧ u.tmod 1000000 < 1000000 := by omega
  have hcast : (u.tmod usecPerSec).bmod (2 ^ 32) = u.tmod usecPerSec :=
    Int.bmod_eq_of_le (by rw [usecPerSec]; omega) (by rw [usecPerSec]; omega)
  have hmul : i32 (u.tmod usecPerSec * nanoPerUsec) = some (u.tmod usecPerSec * nanoPerUsec) :=
    i32_eq (by rw [usecPerSec, nanoPerUsec]; omega)
  simp only [usecsToDuration, hcast, hmul, Option.bind_eq_bind, Option.bind_some]
  rfl

/-- The duration that a stored number is turned into is exact. -/
theorem exists_usecsToDuration (hJ : J.TimestampLaws) {u : ℤ} (h : Fits 63 u) :
    ∃ d, usecsToDuration J u = some d ∧ J.asNanos d = 1000 * u := by
  have hdiv := tdiv_tmod_spec u (k := 1000000) (by decide)
  refine ⟨_, usecsToDuration_eq u, ?_⟩
  simp only [Fits] at h
  rw [hJ.newDuration, usecPerSec, nanoPerUsec]
  · omega
  · rw [abs_lt, usecPerSec]
    omega
  · rw [abs_lt, usecPerSec, nanoPerUsec]
    omega

/-- A stored number is read as the timestamp that many microseconds from
2000. -/
theorem fromSql_eq_some_iff (hJ : J.TimestampLaws) {u : ℤ} (h : Fits 63 u) (t : J.Timestamp) :
    fromSql J u = some t ↔ J.asNanosecond t = 1000 * (epochMicros + u) := by
  obtain ⟨d, hd, hdns⟩ := exists_usecsToDuration hJ h
  obtain ⟨e, he, hens⟩ := exists_pgEpochTimestamp hJ
  simp only [fromSql, hd, he, Option.bind_eq_bind, Option.bind_some]
  rw [hJ.add, hens, hdns]
  omega

/-- A timestamp that came in over JSON is stored as its number, counted from
2000. -/
theorem toSql_deserialize (hJ : J.TimestampLaws) {m : ℤ} {t : J.Timestamp}
    (h : deserialize J m = some t) : toSql J t = some (m - epochMicros) := by
  rw [toSql_eq hJ, ((hJ.fromMicrosecond m t).mp h).1]
  congr 1
  rw [← Int.mul_sub, Int.mul_tdiv_cancel_left _ (by decide)]

/-- ... and read back as the same timestamp. -/
theorem fromSql_deserialize (hJ : J.TimestampLaws) {m : ℤ} {t : J.Timestamp}
    (h : deserialize J m = some t) : fromSql J (m - epochMicros) = some t := by
  have hns := ((hJ.fromMicrosecond m t).mp h).1
  have ht := hJ.asNanosecond_mem t
  refine (fromSql_eq_some_iff hJ ?_ t).mpr (by omega)
  simp only [Jiff.minNanosecond, Jiff.maxNanosecond] at ht
  simp only [Fits, epochMicros, thirtyYears, usecPerSec]
  omega

theorem serialize_deserialize (hJ : J.TimestampLaws) {m : ℤ} {t : J.Timestamp}
    (h : deserialize J m = some t) : serialize J t = m := by
  rw [serialize, hJ.asMicrosecond, ((hJ.fromMicrosecond m t).mp h).1]
  exact Int.mul_tdiv_cancel_left m (by decide)

/-- The deserializer accepts what `from_microsecond` does. -/
theorem isSome_deserialize (hJ : J.TimestampLaws) (m : ℤ) :
    (deserialize J m).isSome ↔ Jiff.minMicrosecond ≤ m ∧ m ≤ Jiff.maxMicrosecond := by
  rw [Option.isSome_iff_exists]
  constructor
  · rintro ⟨t, ht⟩
    exact ((hJ.fromMicrosecond m t).mp ht).2
  · intro hm
    obtain ⟨hmin, hmax⟩ := Jiff.microsecond_mem hm
    obtain ⟨t, ht⟩ := hJ.exists_asNanosecond _ hmin hmax
    exact ⟨t, (hJ.fromMicrosecond m t).mpr ⟨ht, hm⟩⟩

/-- **A timestamp survives the whole path, and in order.**  The numbers of
`from_microsecond` are accepted and no others, and each is stored without an
overflow or a panic, read back without one and sent again as it came; and the
stored numbers compare as the numbers of the API do. -/
theorem survives (hJ : J.TimestampLaws) :
    (∀ m, (deserialize J m).isSome ↔ Jiff.minMicrosecond ≤ m ∧ m ≤ Jiff.maxMicrosecond) ∧
    (∀ m t, deserialize J m = some t → ∃ u t', toSql J t = some u ∧ Fits 63 u ∧
      fromSql J u = some t' ∧ serialize J t' = m) ∧
    ∀ m₁ m₂ t₁ t₂ u₁ u₂, deserialize J m₁ = some t₁ → deserialize J m₂ = some t₂ →
      toSql J t₁ = some u₁ → toSql J t₂ = some u₂ →
        (u₁ < u₂ ↔ m₁ < m₂) ∧ (u₁ = u₂ ↔ m₁ = m₂) := by
  refine ⟨isSome_deserialize hJ, fun m t h => ?_, fun m₁ m₂ t₁ t₂ u₁ u₂ h₁ h₂ hu₁ hu₂ => ?_⟩
  · refine ⟨m - epochMicros, t, toSql_deserialize hJ h, ?_, fromSql_deserialize hJ h,
      serialize_deserialize hJ h⟩
    have hm := (isSome_deserialize hJ m).mp (by rw [h]; rfl)
    simp only [Jiff.minMicrosecond, Jiff.maxMicrosecond] at hm
    simp only [Fits, epochMicros, thirtyYears, usecPerSec]
    omega
  · -- the two numbers are moved by the same distance
    obtain rfl := Option.some.inj ((toSql_deserialize hJ h₁).symm.trans hu₁)
    obtain rfl := Option.some.inj ((toSql_deserialize hJ h₂).symm.trans hu₂)
    omega

/-- One microsecond before 1970 goes there and back. -/
theorem survives_before_epoch :
    ∃ t u t', deserialize Jiff.reference (-1) = some t ∧ toSql Jiff.reference t = some u ∧
      fromSql Jiff.reference u = some t' ∧ serialize Jiff.reference t' = -1 := by
  obtain ⟨haccepted, hback, -⟩ := survives Jiff.reference_timestampLaws
  obtain ⟨t, ht⟩ := Option.isSome_iff_exists.mp ((haccepted (-1)).mpr (by decide))
  obtain ⟨u, t', hu, -, ht', hm⟩ := hback (-1) t ht
  exact ⟨t, u, t', ht, hu, ht', hm⟩

/-- A microsecond into the last second of a `Timestamp`: `jiff` has the instant,
and the number that stands for it in JSON is refused. -/
theorem survives_last_second :
    (∃ t, Jiff.reference.asNanosecond t = 1000 * 253402207200000001 ∧
      serialize Jiff.reference t = 253402207200000001 ∧
      deserialize Jiff.reference 253402207200000001 = none) ∧
    ¬ ∀ m, Jiff.minNanosecond ≤ 1000 * m → 1000 * m ≤ Jiff.maxNanosecond →
      (deserialize Jiff.reference m).isSome := by
  have hnone : deserialize Jiff.reference 253402207200000001 = none := by decide
  refine ⟨⟨⟨1000 * 253402207200000001, by decide⟩, rfl, by decide, hnone⟩, fun h => ?_⟩
  have hsome := h 253402207200000001 (by decide) (by decide)
  rw [hnone] at hsome
  cases hsome

end Timestamptz

end Lockinspiel
