/-
Lockinspiel/Timestamps.lean

The timestamp codecs beside each other.

`DateTime` adds what Postgres sends to its epoch with `checked_add`, so an
instant that `jiff` does not have is an error.  So are the first years that it
has: `checked_add` moves a date by no more days than lie between 1970 and the
first date, which from 2000 on ends thirty years later
(`DateTime.fromSql_decodes`).  `Timestamp` and `Timestamptz` add it with `+`,
which panics where there is no such instant (`Timestamp.fromSql_decodes_iff`).

A client reads a timestamp as microseconds since 1970, and the database keeps it
as microseconds since 2000.  Each rounds toward its own epoch, so between the two
the roundings go apart (`Timestamptz.roundsAlike_iff`).
-/
import Lockinspiel.SqlTypes

namespace Lockinspiel

/-! ### The civil part of `jiff` -/

/-- The functions of `jiff` behind `DateTime`. -/
structure Civil (J : Jiff) where
  DateTime : Type
  /-- `civil::DateTime::new`, from the year down to the nanosecond; `none` is its
  `Err`. -/
  new : ℤ → ℤ → ℤ → ℤ → ℤ → ℤ → ℤ → Option DateTime
  /-- The nanoseconds from 1970-01-01T00:00:00 on. -/
  asNanosecond : DateTime → ℤ
  checkedAdd : DateTime → J.SignedDuration → Except String DateTime
  /-- `SignedDuration::from_micros`. -/
  fromMicros : ℤ → J.SignedDuration

namespace Civil

variable {J : Jiff}

/-- `civil::DateTime::MIN`, -9999-01-01T00:00:00, in nanoseconds. -/
def minNanosecond : ℤ := -377705116800 * 1000000000

/-- `civil::DateTime::MAX`, 9999-12-31T23:59:59.999999999, in nanoseconds. -/
def maxNanosecond : ℤ := 253402300799 * 1000000000 + 999999999

/-- The day of a civil time, counted from 1970-01-01. -/
def dayOf (n : ℤ) : ℤ := n / 86400000000000

/-- A number of days that `checked_add` moves a date by: it is kept in the type
of the days between 1970-01-01 and a date. -/
def Movable (days : ℤ) : Prop := -4371587 ≤ days ∧ days ≤ 2932896

instance : DecidablePred Movable := fun _ => inferInstanceAs (Decidable (_ ∧ _))

/-- What is assumed of `civil::DateTime`: it is an exact number of nanoseconds,
and `checked_add` is an error where there is no such date, or where it is too
many days away. -/
structure Laws (C : Civil J) : Prop where
  asNanosecond_mem : ∀ d, minNanosecond ≤ C.asNanosecond d ∧ C.asNanosecond d ≤ maxNanosecond
  exists_asNanosecond : ∀ n, minNanosecond ≤ n → n ≤ maxNanosecond → ∃ d, C.asNanosecond d = n
  new : ∃ d, C.new 2000 1 1 0 0 0 0 = some d ∧ C.asNanosecond d = thirtyYears * 1000000000
  checkedAdd : ∀ d s d', C.checkedAdd d s = .ok d' ↔
    C.asNanosecond d' = C.asNanosecond d + J.asNanos s ∧
      Movable (dayOf (C.asNanosecond d') - dayOf (C.asNanosecond d))
  fromMicros : ∀ u, Fits 63 u → J.asNanos (C.fromMicros u) = 1000 * u

/-- The days from 1970-01-01 to a date, with the years counted from March on. -/
def daysFrom1970 (year month day : ℤ) : ℤ :=
  let y := if month ≤ 2 then year - 1 else year
  let m := if month ≤ 2 then month + 9 else month - 3
  365 * y + y / 4 - y / 100 + y / 400 + (153 * m + 2) / 5 + day - 719469

/-- `civil::DateTime` as a count of nanoseconds. -/
def reference : Civil Jiff.reference where
  DateTime := { n : ℤ // minNanosecond ≤ n ∧ n ≤ maxNanosecond }
  new := fun year month day hour minute second nanosecond =>
    let seconds := 86400 * daysFrom1970 year month day + 3600 * hour + 60 * minute + second
    let n := 1000000000 * seconds + nanosecond
    if h : minNanosecond ≤ n ∧ n ≤ maxNanosecond then some ⟨n, h⟩ else none
  asNanosecond := Subtype.val
  checkedAdd := fun d s =>
    let n : ℤ := d.val + Jiff.reference.asNanos s
    if h : minNanosecond ≤ n ∧ n ≤ maxNanosecond then
      if Movable (dayOf n - dayOf d.val) then .ok ⟨n, h⟩ else .error "too many days"
    else .error "out of range"
  fromMicros := fun u => Jiff.reference.newDuration (u / 1000000) (u % 1000000 * 1000)

theorem reference_laws : reference.Laws where
  asNanosecond_mem d := d.property
  exists_asNanosecond n hlo hhi := ⟨⟨n, hlo, hhi⟩, rfl⟩
  new := ⟨⟨thirtyYears * 1000000000, by decide⟩, rfl, rfl⟩
  checkedAdd d s d' := by
    simp only [reference]
    constructor
    · intro h
      split at h
      · split at h
        · rename_i hdays
          obtain rfl := Except.ok.inj h
          exact ⟨rfl, hdays⟩
        · cases h
      · cases h
    · rintro ⟨h, hdays⟩
      rw [dif_pos (h ▸ d'.2), if_pos (h ▸ hdays)]
      exact congrArg Except.ok (Subtype.ext h.symm)
  fromMicros u _ := by
    simp only [reference, Jiff.reference, id]
    omega

end Civil

/-! ### Decoders -/

/-- The instant a number of Postgres stands for, in nanoseconds since 1970. -/
def instant (u : ℤ) : ℤ := 1000 * (Timestamptz.epochMicros + u)

/-- What a decoder owes for a number of Postgres: the instant, and an error where
there is no value for it.  `none` is a panic. -/
structure Decodes {α : Type} (asNanosecond : α → ℤ) (lo hi u : ℤ) (r : Option (Except String α)) :
    Prop where
  ok : lo ≤ instant u → instant u ≤ hi → ∃ t, r = some (.ok t) ∧ asNanosecond t = instant u
  error : ¬ (lo ≤ instant u ∧ instant u ≤ hi) → ∃ e, r = some (.error e)

namespace DateTime

variable {J : Jiff} (C : Civil J)

/-- `pg_epoch_datetime`. -/
def pgEpochDatetime : Option C.DateTime := C.new 2000 1 1 0 0 0 0

/-- `DateTime::from_sql`. -/
def fromSql (offset : ℤ) : Option (Except String C.DateTime) := do
  let epoch ← pgEpochDatetime C
  match C.checkedAdd epoch (C.fromMicros offset) with
  | .ok v => return .ok v
  | .error e =>
      return .error s!"Tried to deserialize a timestamp that is too large for Jiff: `{e}`"

variable {C}

/-- The first number that is decoded, -9969-01-01: as many days before 2000 as
the first date is before 1970. -/
def firstUsecs : ℤ := -377705116800000000

/-- From 2000 on, every later date is near enough, and the earlier ones are
from `firstUsecs` on. -/
theorem movable_iff {u : ℤ} (h : instant u ≤ Civil.maxNanosecond) :
    Civil.Movable (Civil.dayOf (instant u) - Civil.dayOf (thirtyYears * 1000000000)) ↔
      firstUsecs ≤ u := by
  simp only [Civil.Movable, Civil.dayOf, instant, Timestamptz.epochMicros, thirtyYears, usecPerSec,
    Civil.maxNanosecond, firstUsecs] at h ⊢
  omega

/-- `DateTime::from_sql` never panics, and decodes from `firstUsecs` on. -/
theorem fromSql_decodes (hC : C.Laws) {u : ℤ} (h : Fits 63 u) :
    Decodes C.asNanosecond (instant firstUsecs) Civil.maxNanosecond u (fromSql C u) := by
  obtain ⟨e, he, hens⟩ := hC.new
  have hsum : C.asNanosecond e + J.asNanos (C.fromMicros u) = instant u := by
    rw [hens, hC.fromMicros u h, instant, Timestamptz.epochMicros, usecPerSec]
    omega
  have hfirst : instant firstUsecs ≤ instant u ↔ firstUsecs ≤ u := by
    simp only [instant]
    omega
  have hok : ∀ d, C.checkedAdd e (C.fromMicros u) = .ok d ↔
      C.asNanosecond d = instant u ∧ instant firstUsecs ≤ instant u := by
    intro d
    rw [hC.checkedAdd, hsum, hens, hfirst]
    refine and_congr_right fun hd => ?_
    rw [hd]
    exact movable_iff (hd ▸ (hC.asNanosecond_mem d).2)
  simp only [fromSql, pgEpochDatetime, he, Option.bind_eq_bind, Option.bind_some]
  constructor
  · intro hlo hhi
    have hmin : Civil.minNanosecond ≤ instant firstUsecs := by decide
    obtain ⟨d, hd⟩ := hC.exists_asNanosecond _ (hmin.trans hlo) hhi
    rw [(hok d).mpr ⟨hd, hlo⟩]
    exact ⟨d, rfl, hd⟩
  · intro hno
    rcases hadd : C.checkedAdd e (C.fromMicros u) with err | d
    · exact ⟨_, rfl⟩
    · obtain ⟨hd, hlo⟩ := (hok d).mp hadd
      exact absurd ⟨hlo, hd ▸ (hC.asNanosecond_mem d).2⟩ hno

/-- Infinity is an error. -/
example : fromSql Civil.reference 9223372036854775807 =
    some (.error "Tried to deserialize a timestamp that is too large for Jiff: `out of range`") :=
  rfl

end DateTime

namespace Timestamp

variable (J : Jiff)

/-- `Timestamp::from_sql`, which has no error of its own. -/
def fromSql (usecsPassed : ℤ) : Option (Except String J.Timestamp) := do
  let timePassed ← Timestamptz.usecsToDuration J usecsPassed
  let epoch ← Timestamptz.pgEpochTimestamp J
  let timestamp ← J.add epoch timePassed
  return .ok timestamp

end Timestamp

namespace Timestamptz

variable (J : Jiff)

/-- `Timestamptz::from_sql`, with the error of `Timestamp::from_sql` passed on. -/
def decode (usecsPassed : ℤ) : Option (Except String J.Timestamp) := do
  match ← Timestamp.fromSql J usecsPassed with
  | .ok timestamp => return .ok timestamp
  | .error e => return .error e

end Timestamptz

namespace Timestamp

variable {J : Jiff}

theorem fromSql_eq (u : ℤ) : fromSql J u = (Timestamptz.fromSql J u).map .ok := by
  simp only [fromSql, Timestamptz.fromSql, Option.bind_eq_bind]
  rcases Timestamptz.usecsToDuration J u with - | d
  · rfl
  · rcases Timestamptz.pgEpochTimestamp J with - | e
    · rfl
    · simp only [Option.bind_some]
      rcases J.add e d with - | t <;> rfl

theorem decode_eq (u : ℤ) : Timestamptz.decode J u = fromSql J u := by
  rw [Timestamptz.decode, Option.bind_eq_bind]
  rcases fromSql J u with - | t | e <;> rfl

/-- The two ends of the range of a `Timestamp`. -/
def InRange (u : ℤ) : Prop := Jiff.minNanosecond ≤ instant u ∧ instant u ≤ Jiff.maxNanosecond

instance : DecidablePred InRange := fun _ => inferInstanceAs (Decidable (_ ∧ _))

/-- **When a timestamp column is decoded.**  Exactly if `jiff` has the instant;
for any other number both decoders panic. -/
theorem fromSql_decodes_iff (hJ : J.TimestampLaws) (u : ℤ) (h : Fits 63 u) :
    (Decodes J.asNanosecond Jiff.minNanosecond Jiff.maxNanosecond u (fromSql J u) ∧
      Decodes J.asNanosecond Jiff.minNanosecond Jiff.maxNanosecond u (Timestamptz.decode J u)) ↔
      InRange u := by
  rw [decode_eq, and_self_iff, fromSql_eq]
  constructor
  · intro hdec
    by_contra hno
    obtain ⟨e, he⟩ := hdec.error hno
    rcases hu : Timestamptz.fromSql J u with - | t <;> rw [hu] at he <;> cases he
  · rintro hin
    refine ⟨fun hlo hhi => ?_, fun hno => absurd hin hno⟩
    obtain ⟨t, ht⟩ := hJ.exists_asNanosecond _ hlo hhi
    rw [(Timestamptz.fromSql_eq_some_iff hJ h t).mpr ht]
    exact ⟨t, rfl, ht⟩

/-- The last microsecond of the range is decoded. -/
theorem fromSql_decodes_last :
    Decodes Jiff.reference.asNanosecond Jiff.minNanosecond Jiff.maxNanosecond
        252455522400999999 (fromSql Jiff.reference 252455522400999999) ∧
      Decodes Jiff.reference.asNanosecond Jiff.minNanosecond Jiff.maxNanosecond
        252455522400999999 (Timestamptz.decode Jiff.reference 252455522400999999) :=
  (fromSql_decodes_iff Jiff.reference_timestampLaws _ (by decide)).mpr (by decide)

/-- Infinity is a panic. -/
theorem fromSql_infinity : fromSql Jiff.reference 9223372036854775807 = none ∧
    ¬ Decodes Jiff.reference.asNanosecond Jiff.minNanosecond Jiff.maxNanosecond
      9223372036854775807 (fromSql Jiff.reference 9223372036854775807) := by
  have hnone : fromSql Jiff.reference 9223372036854775807 = none := by rfl
  refine ⟨hnone, fun h => ?_⟩
  obtain ⟨e, he⟩ := h.error (by decide)
  rw [hnone] at he
  cases he

end Timestamp

/-! ### Rounding -/

namespace Timestamptz

variable {J : Jiff}

variable (J) in
/-- A client reads the same number before a timestamp is stored and after it was
loaded again. -/
def RoundsAlike (t : J.Timestamp) : Prop :=
  ∃ u t', toSql J t = some u ∧ fromSql J u = some t' ∧ serialize J t' = serialize J t

/-- What is loaded after a timestamp was stored. -/
theorem exists_fromSql_toSql (hJ : J.TimestampLaws) (t : J.Timestamp) :
    ∃ u t', toSql J t = some u ∧ fromSql J u = some t' ∧ serialize J t' = epochMicros + u ∧
      u = (J.asNanosecond t - 1000 * epochMicros).tdiv 1000 := by
  have hdiv := tdiv_tmod_spec (J.asNanosecond t - 1000 * epochMicros) (k := 1000) (by decide)
  have ht := hJ.asNanosecond_mem t
  simp only [Jiff.minNanosecond, Jiff.maxNanosecond] at ht
  have hepoch : epochMicros = 946684800000000 := by decide
  -- the stored instant is no further from 2000 than the timestamp
  obtain ⟨t', ht'⟩ := hJ.exists_asNanosecond
    (1000 * (epochMicros + (J.asNanosecond t - 1000 * epochMicros).tdiv 1000))
    (by rw [Jiff.minNanosecond]; omega) (by rw [Jiff.maxNanosecond]; omega)
  refine ⟨_, t', toSql_eq hJ t, (fromSql_eq_some_iff hJ ?_ t').mpr ht', ?_, rfl⟩
  · rw [Fits]
    omega
  · rw [serialize, hJ.asMicrosecond, ht']
    exact Int.mul_tdiv_cancel_left _ (by decide)

/-- **When JSON and SQL round alike**: up to 1970, from 2000 on, and on whole
microseconds. -/
theorem roundsAlike_iff (hJ : J.TimestampLaws) (t : J.Timestamp) :
    RoundsAlike J t ↔ J.asNanosecond t ≤ 0 ∨ 1000 * epochMicros ≤ J.asNanosecond t ∨
      1000 ∣ J.asNanosecond t := by
  obtain ⟨u, t', hu, ht', hser, rfl⟩ := exists_fromSql_toSql hJ t
  have hiff : RoundsAlike J t ↔ serialize J t' = serialize J t := by
    constructor
    · rintro ⟨u', t'', hu', ht'', heq⟩
      obtain rfl := Option.some.inj (hu.symm.trans hu')
      obtain rfl := Option.some.inj (ht'.symm.trans ht'')
      exact heq
    · exact fun heq => ⟨_, t', hu, ht', heq⟩
  have hsince2000 := tdiv_tmod_spec (J.asNanosecond t - 1000 * epochMicros) (k := 1000) (by decide)
  have hsince1970 := tdiv_tmod_spec (J.asNanosecond t) (k := 1000) (by decide)
  have hepoch : epochMicros = 946684800000000 := by decide
  rw [hiff, hser, serialize, hJ.asMicrosecond]
  omega

/-- A nanosecond before 1970 rounds alike. -/
theorem roundsAlike_before_epoch : RoundsAlike Jiff.reference ⟨-1, by decide⟩ :=
  (roundsAlike_iff Jiff.reference_timestampLaws _).mpr (.inl (by decide))

/-- A nanosecond after 1970 is sent as 0 at first, and as 1 once it was stored. -/
theorem roundsAlike_after_epoch :
    ∃ t : Jiff.reference.Timestamp, Jiff.reference.asNanosecond t = 1 ∧
      serialize Jiff.reference t = 0 ∧
      ((toSql Jiff.reference t).bind (fromSql Jiff.reference)).map (serialize Jiff.reference) =
        some 1 ∧
      ¬ RoundsAlike Jiff.reference t := by
  refine ⟨⟨1, by decide⟩, rfl, by decide, by decide, ?_⟩
  rintro ⟨u, t', hu, ht', heq⟩
  have hback : ((toSql Jiff.reference ⟨1, by decide⟩).bind (fromSql Jiff.reference)).map
      (serialize Jiff.reference) = some 1 := by
    decide
  rw [hu, Option.bind_some, ht', Option.map_some, heq] at hback
  exact absurd hback (by decide)

end Timestamptz

end Lockinspiel
