/-
Lockinspiel/Intervals.lean

What of an interval survives its way through the database.

A `Span` has ten units under one sign, a Postgres `INTERVAL` three numbers with
a sign each.  On the way in the nanoseconds are left out, which loses a whole
microsecond as soon as there are a thousand of them (`toSql_exact_iff`).  On the
way out each setter gives its sign to the whole span, so what comes back are the
three magnitudes (`fromSql_magnitudes`) under one sign: the three numbers
themselves exactly if no two of them have different signs
(`fromSql_readsBack_iff`).  Those of a span never do, so an interval that was
read back once is stable (`toSql_stable`).
-/
import Lockinspiel.SqlTypes

namespace Lockinspiel

/-- `Span::is_positive`. -/
def Jiff.IsPositive (J : Jiff) (s : J.Span) : Prop := ∃ u, 0 < J.get u s

/-- `Span::is_negative`. -/
def Jiff.IsNegative (J : Jiff) (s : J.Span) : Prop := ∃ u, J.get u s < 0

namespace Interval

/-! ### Nanoseconds -/

section

variable (J : Jiff)

/-- The units from hours down, in nanoseconds. -/
def totalNanoseconds (s : J.Span) : ℤ :=
  3600000000000 * J.getHours s + 60000000000 * J.getMinutes s + 1000000000 * J.getSeconds s +
    1000000 * J.getMilliseconds s + 1000 * J.getMicroseconds s + J.getNanoseconds s

/-- The three numbers hold the span, to the microsecond. -/
structure StoresExactly (s : J.Span) (pg : PgInterval) : Prop where
  months : pg.months = 12 * J.getYears s + J.getMonths s
  days : pg.days = 7 * J.getWeeks s + J.getDays s
  microseconds : pg.microseconds = (totalNanoseconds J s).tdiv 1000

end

variable {J : Jiff}

/-- Thousands of one sign with something on top. -/
theorem tdiv_thousand_iff {m n : ℤ} (h : (0 ≤ m ∧ 0 ≤ n) ∨ (m ≤ 0 ∧ n ≤ 0)) :
    m = (1000 * m + n).tdiv 1000 ↔ |n| < 1000 := by
  have hdiv := tdiv_tmod_spec (1000 * m + n) (k := 1000) (by decide)
  rw [abs_lt]
  obtain h | h := h <;> omega

/-- What holds of all units, for the getters that `to_sql` calls. -/
theorem stored_units {P : ℤ → Prop} {s : J.Span} (h : ∀ u, P (J.get u s)) :
    P (J.getYears s) ∧ P (J.getMonths s) ∧ P (J.getWeeks s) ∧ P (J.getDays s) ∧
      P (J.getHours s) ∧ P (J.getMinutes s) ∧ P (J.getSeconds s) ∧ P (J.getMilliseconds s) ∧
      P (J.getMicroseconds s) :=
  ⟨h .years, h .months, h .weeks, h .days, h .hours, h .minutes, h .seconds, h .milliseconds,
    h .microseconds⟩

/-- The three numbers of a span have its sign. -/
theorem stored_sign (hS : J.SignLaws) (s : J.Span) :
    (J.NonNeg s ∧ 0 ≤ months J s ∧ 0 ≤ days J s ∧ 0 ≤ microseconds J s) ∨
      (J.NonPos s ∧ months J s ≤ 0 ∧ days J s ≤ 0 ∧ microseconds J s ≤ 0) := by
  rw [months, days, microseconds]
  obtain h | h := hS.oneSign s
  · obtain ⟨hy, hmo, hw, hd, hh, hmi, hs, hms, hus⟩ := stored_units (P := (0 ≤ ·)) h
    exact .inl ⟨h, by omega, by omega, by omega⟩
  · obtain ⟨hy, hmo, hw, hd, hh, hmi, hs, hms, hus⟩ := stored_units (P := (· ≤ 0)) h
    exact .inr ⟨h, by omega, by omega, by omega⟩

/-- A span whose units are all zero is stored as nothing. -/
theorem stored_zero {s : J.Span} (h : ∀ u, J.get u s = 0) :
    months J s = 0 ∧ days J s = 0 ∧ microseconds J s = 0 := by
  obtain ⟨hy, hmo, hw, hd, hh, hmi, hs, hms, hus⟩ := stored_units (P := (· = 0)) h
  rw [months, days, microseconds, hy, hmo, hw, hd, hh, hmi, hs, hms, hus]
  decide

/-- **When a span is stored to the microsecond.**  Months, days and everything
down to the microseconds always are; the nanoseconds are left out, which makes
no difference exactly if they are less than a microsecond. -/
theorem toSql_exact_iff (hJ : J.SpanLaws) (hS : J.SignLaws) (s : J.Span) :
    (∃ pg, toSql J s = some pg ∧ StoresExactly J s pg) ↔ |J.getNanoseconds s| < 1000 := by
  have htotal : totalNanoseconds J s = 1000 * microseconds J s + J.getNanoseconds s := by
    rw [totalNanoseconds, microseconds]
    omega
  have hsign : (0 ≤ microseconds J s ∧ 0 ≤ J.getNanoseconds s) ∨
      (microseconds J s ≤ 0 ∧ J.getNanoseconds s ≤ 0) :=
    (stored_sign hS s).imp (fun h => ⟨h.2.2.2, h.1 .nanoseconds⟩)
      fun h => ⟨h.2.2.2, h.1 .nanoseconds⟩
  rw [← tdiv_thousand_iff hsign, ← htotal]
  constructor
  · rintro ⟨pg, hpg, h⟩
    obtain rfl := Option.some.inj ((toSql_eq hJ s).symm.trans hpg)
    exact h.microseconds
  · intro h
    exact ⟨_, toSql_eq hJ s, rfl, rfl, h⟩

/-- 25 minutes and 999 nanoseconds are stored to the microsecond. -/
theorem toSql_exact_minutes :
    ∃ pg, toSql Jiff.reference ⟨1, { minutes := 25, nanoseconds := 999 }, by decide⟩ = some pg ∧
      StoresExactly Jiff.reference ⟨1, { minutes := 25, nanoseconds := 999 }, by decide⟩ pg :=
  (toSql_exact_iff Jiff.reference_spanLaws Jiff.reference_signLaws _).mpr (by decide)

/-- A span of 1500 nanoseconds is stored as nothing at all. -/
theorem toSql_drops_nanoseconds :
    ∃ s : Jiff.reference.Span, Jiff.reference.getNanoseconds s = 1500 ∧
      toSql Jiff.reference s = some ⟨0, 0, 0⟩ ∧
      ¬ ∃ pg, toSql Jiff.reference s = some pg ∧ StoresExactly Jiff.reference s pg := by
  refine ⟨⟨1, { nanoseconds := 1500 }, by decide⟩, by decide, by decide, ?_⟩
  rintro ⟨pg, hpg, h⟩
  have hpg' : toSql Jiff.reference ⟨1, { nanoseconds := 1500 }, by decide⟩ = some ⟨0, 0, 0⟩ := by
    decide
  obtain rfl := Option.some.inj (hpg.symm.trans hpg')
  exact absurd h.microseconds (by decide)

/-! ### The setters of `from_sql` -/

/-- Each of the three numbers is within the limit of its unit. -/
structure WithinLimits (pg : PgInterval) : Prop where
  months : |pg.months| ≤ Jiff.maxMonths
  days : |pg.days| ≤ Jiff.maxDays
  microseconds : |pg.microseconds| ≤ Jiff.maxMicroseconds

section

variable (J)

/-- The span has these three units and no other. -/
structure Carries (s : J.Span) (pg : PgInterval) : Prop where
  months : J.getMonths s = pg.months
  days : J.getDays s = pg.days
  microseconds : J.getMicroseconds s = pg.microseconds
  rest : ∀ u, u ≠ .months → u ≠ .days → u ≠ .microseconds → J.get u s = 0

/-- The span has the magnitudes of the three numbers, under the sign that the
setters leave: that of any negative one. -/
structure CarriesMagnitudes (s : J.Span) (pg : PgInterval) : Prop where
  months : |J.getMonths s| = |pg.months|
  days : |J.getDays s| = |pg.days|
  microseconds : |J.getMicroseconds s| = |pg.microseconds|
  rest : ∀ u, u ≠ .months → u ≠ .days → u ≠ .microseconds → J.get u s = 0
  nonNeg : 0 ≤ pg.months → 0 ≤ pg.days → 0 ≤ pg.microseconds → J.NonNeg s
  nonPos : pg.months < 0 ∨ pg.days < 0 ∨ pg.microseconds < 0 → J.NonPos s

end

/-- **What `from_sql` makes of three numbers.** -/
theorem fromSql_magnitudes (hJ : J.SpanLaws) (hS : J.SignLaws) {pg : PgInterval}
    (h : WithinLimits pg) : ∃ s, fromSql J pg = some s ∧ CarriesMagnitudes J s pg := by
  obtain ⟨s₁, h₁⟩ :=
    Option.isSome_iff_exists.mp ((hJ.setMicroseconds J.newSpan _).mpr h.microseconds)
  obtain ⟨s₂, h₂⟩ := Option.isSome_iff_exists.mp ((hJ.setDays s₁ _).mpr h.days)
  obtain ⟨s₃, h₃⟩ := Option.isSome_iff_exists.mp ((hJ.setMonths s₂ _).mpr h.months)
  refine ⟨s₃, by simp only [fromSql, h₁, h₂, h₃, Option.bind_eq_bind, Option.bind_some], ?_⟩
  have hset₁ := hS.microseconds _ _ _ h₁
  have hset₂ := hS.days _ _ _ h₂
  have hset₃ := hS.months _ _ _ h₃
  have hmicros₁ : |J.get .microseconds s₁| = |pg.microseconds| := hset₁.magnitude
  have hmicros₂ : |J.get .microseconds s₂| = |pg.microseconds| :=
    (hset₂.others _ (by decide)).trans hmicros₁
  have hdays₂ : |J.get .days s₂| = |pg.days| := hset₂.magnitude
  have hne : ∀ {s : J.Span} {u : Jiff.SpanUnit} {n : ℤ}, |J.get u s| = |n| → n < 0 →
      ∃ u, J.get u s ≠ 0 := by
    intro s u n heq hn
    refine ⟨u, fun hzero => ?_⟩
    rw [hzero, abs_zero, eq_comm, abs_eq_zero] at heq
    exact Int.ne_of_lt hn heq
  refine ⟨hset₃.magnitude, (hset₃.others _ (by decide)).trans hdays₂,
    (hset₃.others _ (by decide)).trans hmicros₂, fun u hmo hd hus => ?_, fun hmo hd hus => ?_, ?_⟩
  · have habs := ((hset₃.others u hmo).trans (hset₂.others u hd)).trans (hset₁.others u hus)
    rwa [hS.newSpan u, abs_zero, abs_eq_zero] at habs
  · have hnew : J.NonNeg J.newSpan := fun u => Int.le_of_eq (hS.newSpan u).symm
    exact hset₃.nonneg hmo (hset₂.nonneg hd (hset₁.nonneg hus hnew))
  · -- from the setter of a negative number on the span is negative
    intro hneg
    by_cases hmo : pg.months < 0
    · exact hset₃.negative hmo
    by_cases hd : pg.days < 0
    · exact hset₃.nonpos (by omega) (hset₂.negative hd) (hne hdays₂ hd)
    have hus : pg.microseconds < 0 := by omega
    refine hset₃.nonpos (by omega) ?_ (hne hmicros₂ hus)
    exact hset₂.nonpos (by omega) (hset₁.negative hus) (hne hmicros₁ hus)

/-- A span that carries three numbers is stored as them. -/
theorem Carries.toSql (hJ : J.SpanLaws) {s : J.Span} {pg : PgInterval} (h : Carries J s pg) :
    toSql J s = some pg := by
  have hy : J.getYears s = 0 := h.rest .years (by decide) (by decide) (by decide)
  have hw : J.getWeeks s = 0 := h.rest .weeks (by decide) (by decide) (by decide)
  have hh : J.getHours s = 0 := h.rest .hours (by decide) (by decide) (by decide)
  have hmi : J.getMinutes s = 0 := h.rest .minutes (by decide) (by decide) (by decide)
  have hs : J.getSeconds s = 0 := h.rest .seconds (by decide) (by decide) (by decide)
  have hms : J.getMilliseconds s = 0 := h.rest .milliseconds (by decide) (by decide) (by decide)
  rw [toSql_eq hJ, Interval.months, Interval.days, Interval.microseconds, hy, hw, hh, hmi, hs, hms,
    h.months, h.days, h.microseconds]
  simp

/-- No two of the numbers have different signs. -/
def OneSign (pg : PgInterval) : Prop :=
  (0 ≤ pg.months ∧ 0 ≤ pg.days ∧ 0 ≤ pg.microseconds) ∨
    (pg.months ≤ 0 ∧ pg.days ≤ 0 ∧ pg.microseconds ≤ 0)

instance : DecidablePred OneSign := fun _ => inferInstanceAs (Decidable (_ ∨ _))

theorem eq_of_abs_eq {a b : ℤ} (h : |a| = |b|) (hsign : (0 ≤ a ∧ 0 ≤ b) ∨ (a ≤ 0 ∧ b ≤ 0)) :
    a = b := by
  obtain ⟨ha, hb⟩ | ⟨ha, hb⟩ := hsign
  · rwa [abs_of_nonneg ha, abs_of_nonneg hb] at h
  · rwa [abs_of_nonpos ha, abs_of_nonpos hb, neg_inj] at h

/-- Numbers of one sign come back as they are, under this sign. -/
theorem fromSql_carries (hJ : J.SpanLaws) (hS : J.SignLaws) {pg : PgInterval}
    (h : WithinLimits pg) (hone : OneSign pg) : ∃ s, fromSql J pg = some s ∧ Carries J s pg := by
  obtain ⟨s, hs, hc⟩ := fromSql_magnitudes hJ hS h
  refine ⟨s, hs, ?_⟩
  have hsame : (J.NonNeg s ∧ 0 ≤ pg.months ∧ 0 ≤ pg.days ∧ 0 ≤ pg.microseconds) ∨
      (J.NonPos s ∧ pg.months ≤ 0 ∧ pg.days ≤ 0 ∧ pg.microseconds ≤ 0) := by
    by_cases hneg : pg.months < 0 ∨ pg.days < 0 ∨ pg.microseconds < 0
    · refine .inr ⟨hc.nonPos hneg, ?_⟩
      obtain hone | hone := hone
      · omega
      · exact hone
    · have hpos : 0 ≤ pg.months ∧ 0 ≤ pg.days ∧ 0 ≤ pg.microseconds := by omega
      exact .inl ⟨hc.nonNeg hpos.1 hpos.2.1 hpos.2.2, hpos⟩
  obtain ⟨hsign, hmo, hd, hus⟩ | ⟨hsign, hmo, hd, hus⟩ := hsame
  · exact ⟨eq_of_abs_eq hc.months (.inl ⟨hsign .months, hmo⟩),
      eq_of_abs_eq hc.days (.inl ⟨hsign .days, hd⟩),
      eq_of_abs_eq hc.microseconds (.inl ⟨hsign .microseconds, hus⟩), hc.rest⟩
  · exact ⟨eq_of_abs_eq hc.months (.inr ⟨hsign .months, hmo⟩),
      eq_of_abs_eq hc.days (.inr ⟨hsign .days, hd⟩),
      eq_of_abs_eq hc.microseconds (.inr ⟨hsign .microseconds, hus⟩), hc.rest⟩

variable (J) in
/-- `from_sql` returns the three numbers, which are stored again as they are.
It has no error of its own, and within the limits no setter panics. -/
def ReadsBack (pg : PgInterval) : Prop :=
  ∃ s, fromSql J pg = some s ∧ J.getMonths s = pg.months ∧ J.getDays s = pg.days ∧
    J.getMicroseconds s = pg.microseconds ∧ toSql J s = some pg

/-- **When an interval of Postgres is read as it is.**  Within the limits,
exactly if no two of its numbers have different signs. -/
theorem fromSql_readsBack_iff (hJ : J.SpanLaws) (hS : J.SignLaws) (pg : PgInterval)
    (h : WithinLimits pg) : ReadsBack J pg ↔ OneSign pg := by
  constructor
  · rintro ⟨s, -, hmo, hd, hus, -⟩
    rw [OneSign, ← hmo, ← hd, ← hus]
    exact (hS.oneSign s).imp (fun hs => ⟨hs .months, hs .days, hs .microseconds⟩)
      fun hs => ⟨hs .months, hs .days, hs .microseconds⟩
  · intro hone
    obtain ⟨s, hs, hc⟩ := fromSql_carries hJ hS h hone
    exact ⟨s, hs, hc.months, hc.days, hc.microseconds, hc.toSql hJ⟩

/-- A month and three days, both back, are read as they are. -/
theorem fromSql_readsBack_negative : ReadsBack Jiff.reference ⟨0, -3, -1⟩ :=
  (fromSql_readsBack_iff Jiff.reference_spanLaws Jiff.reference_signLaws ⟨0, -3, -1⟩
    ⟨by decide, by decide, by decide⟩).mpr (by decide)

/-- A month less three days is read as a month and three days back. -/
theorem fromSql_mixed : (fromSql Jiff.reference ⟨0, -3, 1⟩).map
      (fun s => (Jiff.reference.getMonths s, Jiff.reference.getDays s)) = some (-1, -3) ∧
    ¬ ReadsBack Jiff.reference ⟨0, -3, 1⟩ := by
  have hmonths : (fromSql Jiff.reference ⟨0, -3, 1⟩).map Jiff.reference.getMonths = some (-1) := by
    decide
  refine ⟨by decide, ?_⟩
  rintro ⟨s, hs, hmo, -⟩
  rw [hs, Option.map_some, hmo] at hmonths
  exact absurd hmonths (by decide)

/-! ### Storing again -/

theorem not_isNegative (hS : J.SignLaws) {s : J.Span} (hpos : J.IsPositive s) :
    ¬ J.IsNegative s := by
  obtain ⟨u, hu⟩ := hpos
  rintro ⟨v, hv⟩
  obtain h | h := hS.oneSign s
  · exact absurd (h v) (Int.not_le.mpr hv)
  · exact absurd (h u) (Int.not_le.mpr hu)

/-- What carries the numbers of a span has its sign, unless they are zero. -/
theorem sign_of_carries (hS : J.SignLaws) {s s' : J.Span} {pg : PgInterval}
    (hpg : pg = ⟨microseconds J s, days J s, months J s⟩) (hc : Carries J s' pg)
    (hne : pg ≠ ⟨0, 0, 0⟩) :
    (J.IsPositive s' ↔ J.IsPositive s) ∧ (J.IsNegative s' ↔ J.IsNegative s) := by
  have hmo : J.get .months s' = months J s := hc.months.trans (by rw [hpg])
  have hd : J.get .days s' = days J s := hc.days.trans (by rw [hpg])
  have hus : J.get .microseconds s' = microseconds J s := hc.microseconds.trans (by rw [hpg])
  have hnz : ¬ (months J s = 0 ∧ days J s = 0 ∧ microseconds J s = 0) := by
    rintro ⟨h₁, h₂, h₃⟩
    exact hne (by rw [hpg, h₁, h₂, h₃])
  obtain ⟨hsign, hmo₀, hd₀, hus₀⟩ | ⟨hsign, hmo₀, hd₀, hus₀⟩ := stored_sign hS s
  · have hpos : J.IsPositive s := by
      by_contra hno
      refine hnz (stored_zero fun u => ?_)
      exact Int.le_antisymm (Int.not_lt.mp fun hu => hno ⟨u, hu⟩) (hsign u)
    have hpos' : J.IsPositive s' := by
      by_contra hno
      have hle : ∀ u, J.get u s' ≤ 0 := fun u => Int.not_lt.mp fun hu => hno ⟨u, hu⟩
      have h₁ := hle .months
      have h₂ := hle .days
      have h₃ := hle .microseconds
      omega
    exact ⟨iff_of_true hpos' hpos,
      iff_of_false (not_isNegative hS hpos') (not_isNegative hS hpos)⟩
  · have hneg : J.IsNegative s := by
      by_contra hno
      refine hnz (stored_zero fun u => ?_)
      exact Int.le_antisymm (hsign u) (Int.not_lt.mp fun hu => hno ⟨u, hu⟩)
    have hneg' : J.IsNegative s' := by
      by_contra hno
      have hle : ∀ u, 0 ≤ J.get u s' := fun u => Int.not_lt.mp fun hu => hno ⟨u, hu⟩
      have h₁ := hle .months
      have h₂ := hle .days
      have h₃ := hle .microseconds
      omega
    exact ⟨iff_of_false (fun h => not_isNegative hS h hneg') fun h => not_isNegative hS h hneg,
      iff_of_true hneg' hneg⟩

/-- The three numbers fit the types of their columns. -/
theorem toSql_fits (hJ : J.SpanLaws) (s : J.Span) :
    Fits 31 (months J s) ∧ Fits 31 (days J s) ∧ Fits 63 (microseconds J s) := by
  have hy := abs_le.mp (hJ.years s)
  have hmo := abs_le.mp (hJ.months s)
  have hw := abs_le.mp (hJ.weeks s)
  have hd := abs_le.mp (hJ.days s)
  have hh := abs_le.mp (hJ.hours s)
  have hmi := abs_le.mp (hJ.minutes s)
  have hs := abs_le.mp (hJ.seconds s)
  have hms := abs_le.mp (hJ.milliseconds s)
  have hus := abs_le.mp (hJ.microseconds s)
  simp only [Jiff.maxMonths, Jiff.maxDays, Jiff.maxMicroseconds] at hmo hd hus
  simp only [Fits, months, days, microseconds]
  omega

/-- **An interval is stable.**  No operation of `to_sql` overflows, and it stores
the months, days and microseconds that the units of the span come to; and if the
three numbers are within the limits of their units, they are read back as a span
with these three units alone, under the sign of the span that was stored, and
stored again as they are. -/
theorem toSql_stable (hJ : J.SpanLaws) (hS : J.SignLaws) (s : J.Span) :
    ∃ pg, toSql J s = some pg ∧ pg = ⟨microseconds J s, days J s, months J s⟩ ∧
      Fits 31 pg.months ∧ Fits 31 pg.days ∧ Fits 63 pg.microseconds ∧
      (WithinLimits pg → ∃ s', fromSql J pg = some s' ∧ Carries J s' pg ∧
        (pg ≠ ⟨0, 0, 0⟩ → (J.IsPositive s' ↔ J.IsPositive s) ∧
          (J.IsNegative s' ↔ J.IsNegative s)) ∧
        toSql J s' = some pg) := by
  obtain ⟨hmo, hd, hus⟩ := toSql_fits hJ s
  refine ⟨_, toSql_eq hJ s, rfl, hmo, hd, hus, fun h => ?_⟩
  have hone : OneSign ⟨microseconds J s, days J s, months J s⟩ :=
    (stored_sign hS s).imp And.right And.right
  obtain ⟨s', hs', hc⟩ := fromSql_carries hJ hS h hone
  exact ⟨s', hs', hc, sign_of_carries hS rfl hc, hc.toSql hJ⟩

/-- Five days and an hour back are stored, read back and stored again. -/
theorem toSql_stable_negative :
    ∃ pg, toSql Jiff.reference ⟨-1, { days := 5, hours := 1 }, by decide⟩ = some pg ∧
      ∃ s', fromSql Jiff.reference pg = some s' ∧ toSql Jiff.reference s' = some pg := by
  obtain ⟨pg, hpg, -, -, -, -, h⟩ :=
    toSql_stable Jiff.reference_spanLaws Jiff.reference_signLaws
      ⟨-1, { days := 5, hours := 1 }, by decide⟩
  have hpg' : toSql Jiff.reference ⟨-1, { days := 5, hours := 1 }, by decide⟩ =
      some ⟨-3600000000, -5, 0⟩ := by
    decide
  obtain rfl := Option.some.inj (hpg.symm.trans hpg')
  obtain ⟨s', hs', -, -, hagain⟩ := h ⟨by decide, by decide, by decide⟩
  exact ⟨_, hpg, s', hs', hagain⟩

end Interval

end Lockinspiel
