/-
Lockinspiel/Jiff.lean

The `jiff` crate, as far as the services use it.

`jiff` is not part of the repository, so it enters as a parameter: a `Jiff`
is a choice of its types and functions, with `none` for a panic and for an
`Err`.  What the services rely on are the law structures:

* `Jiff.SpanLaws`: every unit of a `Span` stays within its own documented
  limit, and the setters panic exactly outside theirs;
* `Jiff.SignLaws`: the units of a `Span` share one sign, and what the setters
  do with it;
* `Jiff.TimestampLaws`: a `Timestamp` is a number of nanoseconds since the
  Unix epoch within the documented range, a `SignedDuration` a number of
  nanoseconds, and the functions between them are exact, with truncation
  toward zero where a coarser unit is read off.  `from_microsecond` has a
  range of its own, which ends at a whole second: the microseconds of the
  last second of a `Timestamp` are outside it.

`Jiff.reference` is one implementation, with `Span`s stored as `jiff` stores
them: a sign, and the magnitude of every unit.
-/
import Mathlib.Data.Sign.Defs
import Mathlib.Algebra.Order.Group.Abs
import Mathlib.Algebra.Order.Ring.Int
import Mathlib.Tactic.NormNum

namespace Lockinspiel

/-- The types and functions of `jiff` behind the SQL and JSON codecs. -/
structure Jiff where
  Span : Type
  /-- `Span::new`: every unit is zero. -/
  newSpan : Span
  getYears : Span → ℤ
  getMonths : Span → ℤ
  getWeeks : Span → ℤ
  getDays : Span → ℤ
  getHours : Span → ℤ
  getMinutes : Span → ℤ
  getSeconds : Span → ℤ
  getMilliseconds : Span → ℤ
  getMicroseconds : Span → ℤ
  getNanoseconds : Span → ℤ
  /-- `Span::microseconds`; `none` is its panic. -/
  microseconds : Span → ℤ → Option Span
  /-- `Span::days`; `none` is its panic. -/
  days : Span → ℤ → Option Span
  /-- `Span::months`; `none` is its panic. -/
  months : Span → ℤ → Option Span
  SignedDuration : Type
  /-- `SignedDuration::new`: seconds, and nanoseconds on top. -/
  newDuration : ℤ → ℤ → SignedDuration
  fromSecs : ℤ → SignedDuration
  asSecs : SignedDuration → ℤ
  subsecMicros : SignedDuration → ℤ
  asNanos : SignedDuration → ℤ
  Timestamp : Type
  unixEpoch : Timestamp
  /-- `Timestamp::from_microsecond`; `none` is its `Err`. -/
  fromMicrosecond : ℤ → Option Timestamp
  asMicrosecond : Timestamp → ℤ
  asNanosecond : Timestamp → ℤ
  durationSince : Timestamp → Timestamp → SignedDuration
  /-- `Timestamp + SignedDuration`; `none` is its panic. -/
  add : Timestamp → SignedDuration → Option Timestamp

namespace Jiff

/-! ### Spans -/

/-- The limit of the months of a `Span`, in either direction. -/
def maxMonths : ℤ := 239976

/-- The limit of the days of a `Span`. -/
def maxDays : ℤ := 7304484

/-- The limit of the microseconds of a `Span`. -/
def maxMicroseconds : ℤ := 631107417600000000

/-- What is assumed of `Span`: the limits of the units, and the panics of the
setters. -/
structure SpanLaws (J : Jiff) : Prop where
  years : ∀ s, |J.getYears s| ≤ 19998
  months : ∀ s, |J.getMonths s| ≤ maxMonths
  weeks : ∀ s, |J.getWeeks s| ≤ 1043497
  days : ∀ s, |J.getDays s| ≤ maxDays
  hours : ∀ s, |J.getHours s| ≤ 175307616
  minutes : ∀ s, |J.getMinutes s| ≤ 10518456960
  seconds : ∀ s, |J.getSeconds s| ≤ 631107417600
  milliseconds : ∀ s, |J.getMilliseconds s| ≤ 631107417600000
  microseconds : ∀ s, |J.getMicroseconds s| ≤ maxMicroseconds
  nanoseconds : ∀ s, |J.getNanoseconds s| ≤ 9223372036854775807
  setMicroseconds : ∀ s n, (J.microseconds s n).isSome ↔ |n| ≤ maxMicroseconds
  setDays : ∀ s n, (J.days s n).isSome ↔ |n| ≤ maxDays
  setMonths : ∀ s n, (J.months s n).isSome ↔ |n| ≤ maxMonths

inductive SpanUnit
  | years | months | weeks | days | hours | minutes | seconds | milliseconds | microseconds
  | nanoseconds
deriving DecidableEq

/-- The getter of a unit. -/
def get (J : Jiff) : SpanUnit → J.Span → ℤ
  | .years => J.getYears
  | .months => J.getMonths
  | .weeks => J.getWeeks
  | .days => J.getDays
  | .hours => J.getHours
  | .minutes => J.getMinutes
  | .seconds => J.getSeconds
  | .milliseconds => J.getMilliseconds
  | .microseconds => J.getMicroseconds
  | .nanoseconds => J.getNanoseconds

/-- No unit is negative. -/
def NonNeg (J : Jiff) (s : J.Span) : Prop := ∀ u, 0 ≤ J.get u s

/-- No unit is positive. -/
def NonPos (J : Jiff) (s : J.Span) : Prop := ∀ u, J.get u s ≤ 0

/-- What the setter of a unit makes of `s`: a negative unit makes the span
negative, any other keeps the sign of a span that is not zero. -/
structure Sets (J : Jiff) (unit : SpanUnit) (s : J.Span) (n : ℤ) (s' : J.Span) : Prop where
  magnitude : |J.get unit s'| = |n|
  others : ∀ u ≠ unit, |J.get u s'| = |J.get u s|
  negative : n < 0 → J.NonPos s'
  nonneg : 0 ≤ n → J.NonNeg s → J.NonNeg s'
  nonpos : 0 ≤ n → J.NonPos s → (∃ u, J.get u s ≠ 0) → J.NonPos s'

/-- What is assumed of the signs: all units of a `Span` share one, and the
setters treat it as `Sets` says. -/
structure SignLaws (J : Jiff) : Prop where
  oneSign : ∀ s, J.NonNeg s ∨ J.NonPos s
  newSpan : ∀ u, J.get u J.newSpan = 0
  microseconds : ∀ s n s', J.microseconds s n = some s' → J.Sets .microseconds s n s'
  days : ∀ s n s', J.days s n = some s' → J.Sets .days s n s'
  months : ∀ s n s', J.months s n = some s' → J.Sets .months s n s'

/-! ### Timestamps -/

/-- `Timestamp::MIN`, -9999-01-02T01:59:59Z, in nanoseconds. -/
def minNanosecond : ℤ := -377705023201 * 1000000000

/-- `Timestamp::MAX`, 9999-12-30T22:00:00.999999999Z, in nanoseconds. -/
def maxNanosecond : ℤ := 253402207200 * 1000000000 + 999999999

/-- The first number that `Timestamp::from_microsecond` takes. -/
def minMicrosecond : ℤ := -377705023201 * 1000000

/-- The last number that it takes, 9999-12-30T22:00:00Z. -/
def maxMicrosecond : ℤ := 253402207200 * 1000000

/-- What is assumed of `Timestamp` and `SignedDuration`: both are exact
numbers of nanoseconds. -/
structure TimestampLaws (J : Jiff) : Prop where
  asNanosecond_injective : Function.Injective J.asNanosecond
  asNanosecond_mem : ∀ t, minNanosecond ≤ J.asNanosecond t ∧ J.asNanosecond t ≤ maxNanosecond
  exists_asNanosecond : ∀ n, minNanosecond ≤ n → n ≤ maxNanosecond →
    ∃ t, J.asNanosecond t = n
  unixEpoch : J.asNanosecond J.unixEpoch = 0
  fromMicrosecond : ∀ m t, J.fromMicrosecond m = some t ↔
    J.asNanosecond t = 1000 * m ∧ minMicrosecond ≤ m ∧ m ≤ maxMicrosecond
  asMicrosecond : ∀ t, J.asMicrosecond t = (J.asNanosecond t).tdiv 1000
  durationSince : ∀ t u, J.asNanos (J.durationSince t u) = J.asNanosecond t - J.asNanosecond u
  add : ∀ t d u, J.add t d = some u ↔ J.asNanosecond u = J.asNanosecond t + J.asNanos d
  fromSecs : ∀ s, |s| < 2 ^ 63 → J.asNanos (J.fromSecs s) = s * 1000000000
  newDuration : ∀ s n, |s| < 2 ^ 63 → |n| < 1000000000 →
    J.asNanos (J.newDuration s n) = s * 1000000000 + n
  asSecs : ∀ d, J.asSecs d = (J.asNanos d).tdiv 1000000000
  subsecMicros : ∀ d, J.subsecMicros d = ((J.asNanos d).tmod 1000000000).tdiv 1000

/-! ### The reference implementation -/

/-- The magnitudes of the units of a span. -/
structure Units where
  years : ℕ := 0
  months : ℕ := 0
  weeks : ℕ := 0
  days : ℕ := 0
  hours : ℕ := 0
  minutes : ℕ := 0
  seconds : ℕ := 0
  milliseconds : ℕ := 0
  microseconds : ℕ := 0
  nanoseconds : ℕ := 0
deriving DecidableEq

/-- Every magnitude is within its limit. -/
def Units.Within (u : Units) : Prop :=
  u.years ≤ 19998 ∧ u.months ≤ 239976 ∧ u.weeks ≤ 1043497 ∧ u.days ≤ 7304484 ∧
    u.hours ≤ 175307616 ∧ u.minutes ≤ 10518456960 ∧ u.seconds ≤ 631107417600 ∧
    u.milliseconds ≤ 631107417600000 ∧ u.microseconds ≤ 631107417600000000 ∧
    u.nanoseconds ≤ 9223372036854775807

instance : DecidablePred Units.Within := fun u => by unfold Units.Within; infer_instance

/-- A span as `jiff` stores it: one sign for all units, which is zero for the
zero span alone. -/
structure RefSpan where
  sign : SignType
  units : Units
  within : units.Within ∧ (sign = 0 ↔ units = {})
deriving DecidableEq

namespace RefSpan

/-- The signed value of a unit. -/
def get (unit : Units → ℕ) (s : RefSpan) : ℤ := s.sign * (unit s.units : ℤ)

theorem abs_get_le {unit : Units → ℕ} (limit : ℕ) {s : RefSpan}
    (h : unit s.units ≤ limit) : |s.get unit| ≤ limit := by
  have hcast : (unit s.units : ℤ) ≤ limit := by exact_mod_cast h
  rw [get]
  rcases s.sign with - | - | - <;> simp <;> omega

/-- The sign after one unit of `s` was set to `n` and the magnitudes became
`u`: a negative unit makes the span negative, any other unit keeps the sign
of a span that was not zero. -/
def resign (s : RefSpan) (n : ℤ) (u : Units) : SignType :=
  if u = {} then 0
  else if n < 0 then -1
  else if s.units = {} then 1
  else s.sign

theorem resign_eq_zero {s : RefSpan} {n : ℤ} {u : Units} : s.resign n u = 0 ↔ u = {} := by
  unfold resign
  split_ifs with hu hn hs
  · exact iff_of_true rfl hu
  · exact iff_of_false (by decide) hu
  · exact iff_of_false (by decide) hu
  · exact iff_of_false (fun h => hs (s.within.2.mp h)) hu

/-- A setter: `none` where the new magnitudes leave their limits. -/
def set (s : RefSpan) (n : ℤ) (u : Units) : Option RefSpan :=
  if h : u.Within then some ⟨s.resign n u, u, h, resign_eq_zero⟩ else none

theorem isSome_set {s : RefSpan} {n : ℤ} {u : Units} : (s.set n u).isSome ↔ u.Within := by
  unfold set
  split <;> simp [*]

end RefSpan

/-- The microseconds of `from_microsecond` are in the range of a
`Timestamp`. -/
theorem microsecond_mem {m : ℤ} (h : minMicrosecond ≤ m ∧ m ≤ maxMicrosecond) :
    minNanosecond ≤ 1000 * m ∧ 1000 * m ≤ maxNanosecond := by
  simp only [minMicrosecond, maxMicrosecond, minNanosecond, maxNanosecond] at h ⊢
  omega

/-- `jiff`, with spans as `jiff` stores them and nanosecond counts for the
rest. -/
def reference : Jiff where
  Span := RefSpan
  newSpan := ⟨0, {}, by decide⟩
  getYears := RefSpan.get Units.years
  getMonths := RefSpan.get Units.months
  getWeeks := RefSpan.get Units.weeks
  getDays := RefSpan.get Units.days
  getHours := RefSpan.get Units.hours
  getMinutes := RefSpan.get Units.minutes
  getSeconds := RefSpan.get Units.seconds
  getMilliseconds := RefSpan.get Units.milliseconds
  getMicroseconds := RefSpan.get Units.microseconds
  getNanoseconds := RefSpan.get Units.nanoseconds
  microseconds := fun s n => s.set n { s.units with microseconds := n.natAbs }
  days := fun s n => s.set n { s.units with days := n.natAbs }
  months := fun s n => s.set n { s.units with months := n.natAbs }
  SignedDuration := ℤ
  newDuration := fun s n => s * 1000000000 + n
  fromSecs := fun s => s * 1000000000
  asSecs := fun d => d.tdiv 1000000000
  subsecMicros := fun d => (d.tmod 1000000000).tdiv 1000
  asNanos := id
  Timestamp := { n : ℤ // minNanosecond ≤ n ∧ n ≤ maxNanosecond }
  unixEpoch := ⟨0, by decide⟩
  fromMicrosecond := fun m =>
    if h : minMicrosecond ≤ m ∧ m ≤ maxMicrosecond then some ⟨1000 * m, microsecond_mem h⟩
    else none
  asMicrosecond := fun t => t.val.tdiv 1000
  asNanosecond := Subtype.val
  durationSince := fun t u => t.val - u.val
  add := fun t d =>
    if h : minNanosecond ≤ t.val + d ∧ t.val + d ≤ maxNanosecond then some ⟨t.val + d, h⟩ else none

theorem reference_spanLaws : reference.SpanLaws where
  years s := RefSpan.abs_get_le 19998 s.within.1.1
  months s := RefSpan.abs_get_le 239976 s.within.1.2.1
  weeks s := RefSpan.abs_get_le 1043497 s.within.1.2.2.1
  days s := RefSpan.abs_get_le 7304484 s.within.1.2.2.2.1
  hours s := RefSpan.abs_get_le 175307616 s.within.1.2.2.2.2.1
  minutes s := RefSpan.abs_get_le 10518456960 s.within.1.2.2.2.2.2.1
  seconds s := RefSpan.abs_get_le 631107417600 s.within.1.2.2.2.2.2.2.1
  milliseconds s := RefSpan.abs_get_le 631107417600000 s.within.1.2.2.2.2.2.2.2.1
  microseconds s := RefSpan.abs_get_le 631107417600000000 s.within.1.2.2.2.2.2.2.2.2.1
  nanoseconds s := RefSpan.abs_get_le 9223372036854775807 s.within.1.2.2.2.2.2.2.2.2.2
  setMicroseconds s n := by
    have h := s.within.1
    rw [maxMicroseconds, abs_le]
    refine RefSpan.isSome_set.trans ?_
    simp only [Units.Within] at h ⊢
    omega
  setDays s n := by
    have h := s.within.1
    rw [maxDays, abs_le]
    refine RefSpan.isSome_set.trans ?_
    simp only [Units.Within] at h ⊢
    omega
  setMonths s n := by
    have h := s.within.1
    rw [maxMonths, abs_le]
    refine RefSpan.isSome_set.trans ?_
    simp only [Units.Within] at h ⊢
    omega

/-- The magnitude of a unit. -/
def Units.get : SpanUnit → Units → ℕ
  | .years => Units.years
  | .months => Units.months
  | .weeks => Units.weeks
  | .days => Units.days
  | .hours => Units.hours
  | .minutes => Units.minutes
  | .seconds => Units.seconds
  | .milliseconds => Units.milliseconds
  | .microseconds => Units.microseconds
  | .nanoseconds => Units.nanoseconds

theorem reference_get (u : SpanUnit) (s : RefSpan) : reference.get u s = s.get (Units.get u) := by
  cases u <;> rfl

theorem Units.eq_zero {v : Units} (h : ∀ u, v.get u = 0) : v = {} := by
  cases v
  exact Units.mk.injEq .. ▸ ⟨h .years, h .months, h .weeks, h .days, h .hours, h .minutes,
    h .seconds, h .milliseconds, h .microseconds, h .nanoseconds⟩

namespace RefSpan

theorem abs_get (u : SpanUnit) (s : RefSpan) : |s.get (Units.get u)| = Units.get u s.units := by
  rw [get]
  rcases h : s.sign with - | - | -
  · -- the zero span
    rw [s.within.2.mp h]
    cases u <;> rfl
  · simp
  · simp

/-- No unit is negative unless the sign is. -/
theorem nonNeg_iff {s : RefSpan} : reference.NonNeg s ↔ s.sign ≠ -1 := by
  simp only [NonNeg, reference_get, get]
  constructor
  · intro h hsign
    have hzero : s.units = {} := Units.eq_zero fun u => by simpa [hsign] using h u
    rw [s.within.2.mpr hzero] at hsign
    cases hsign
  · intro h u
    rcases hsign : s.sign with - | - | -
    · simp
    · exact absurd hsign h
    · simp

theorem nonPos_iff {s : RefSpan} : reference.NonPos s ↔ s.sign ≠ 1 := by
  simp only [NonPos, reference_get, get]
  constructor
  · intro h hsign
    have hzero : s.units = {} := Units.eq_zero fun u => by simpa [hsign] using h u
    rw [s.within.2.mpr hzero] at hsign
    cases hsign
  · intro h u
    rcases hsign : s.sign with - | - | -
    · simp
    · simp
    · exact absurd hsign h

/-- What a setter does that changes the magnitude of one unit. -/
theorem sets_of_set {unit : SpanUnit} {s s' : RefSpan} {n : ℤ} {v : Units}
    (hunit : v.get unit = n.natAbs) (hothers : ∀ u ≠ unit, v.get u = s.units.get u)
    (h : s.set n v = some s') : reference.Sets unit s n s' := by
  unfold set at h
  split at h
  swap
  · cases h
  obtain rfl := Option.some.inj h
  have hne : n < 0 → v ≠ {} := by
    rintro hn rfl
    have hzero : Units.get unit {} = 0 := by cases unit <;> rfl
    omega
  refine ⟨?_, fun u hu => ?_, fun hn => ?_, fun hn hs => ?_, fun hn hs hnz => ?_⟩
  · rw [reference_get, abs_get, hunit, Int.natCast_natAbs]
  · rw [reference_get, abs_get, reference_get, abs_get, hothers u hu]
  · refine nonPos_iff.mpr ?_
    simp only [resign, hne hn, hn, if_true, if_false]
    decide
  · refine nonNeg_iff.mpr ?_
    have hs' := nonNeg_iff.mp hs
    show s.resign n v ≠ -1
    unfold resign
    split_ifs
    · decide
    · omega
    · decide
    · exact hs'
  · refine nonPos_iff.mpr ?_
    have hs' := nonPos_iff.mp hs
    have hunits : s.units ≠ {} := by
      intro hzero
      obtain ⟨u, hu⟩ := hnz
      rw [reference_get, get, s.within.2.mpr hzero] at hu
      exact hu (by simp)
    show s.resign n v ≠ 1
    unfold resign
    split_ifs
    · decide
    · omega
    · exact hs'

end RefSpan

theorem reference_signLaws : reference.SignLaws where
  oneSign s := by
    refine Or.imp RefSpan.nonNeg_iff.mpr RefSpan.nonPos_iff.mpr ?_
    change RefSpan at s
    rcases s.sign with - | - | - <;> decide
  newSpan u := by cases u <;> rfl
  microseconds s n s' :=
    RefSpan.sets_of_set rfl fun u hu => by cases u <;> first | rfl | exact absurd rfl hu
  days s n s' :=
    RefSpan.sets_of_set rfl fun u hu => by cases u <;> first | rfl | exact absurd rfl hu
  months s n s' :=
    RefSpan.sets_of_set rfl fun u hu => by cases u <;> first | rfl | exact absurd rfl hu

theorem reference_timestampLaws : reference.TimestampLaws where
  asNanosecond_injective := Subtype.val_injective
  asNanosecond_mem t := t.2
  exists_asNanosecond n hmin hmax := ⟨⟨n, hmin, hmax⟩, rfl⟩
  unixEpoch := rfl
  fromMicrosecond m t := by
    simp only [reference]
    constructor
    · intro h
      split at h
      · rename_i hm
        exact ⟨(congrArg Subtype.val (Option.some.inj h)).symm, hm⟩
      · cases h
    · rintro ⟨h, hm⟩
      rw [dif_pos hm]
      exact congrArg some (Subtype.ext h.symm)
  asMicrosecond _ := rfl
  durationSince _ _ := rfl
  add t d u := by
    simp only [reference]
    constructor
    · intro h
      split at h
      · exact (congrArg Subtype.val (Option.some.inj h)).symm
      · cases h
    · intro h
      rw [dif_pos (h ▸ u.2)]
      exact congrArg some (Subtype.ext h.symm)
  fromSecs _ _ := rfl
  newDuration _ _ _ _ := rfl
  asSecs _ := rfl
  subsecMicros _ := rfl

end Jiff

end Lockinspiel
