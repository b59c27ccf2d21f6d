/-
Lockinspiel/TimerDisplay.lean

What the page shows of the timer.

The template shows the remaining time in minutes and seconds, rounded up to
whole seconds, and names what the button will do.  Both are computed from the
component alone, so what is shown after a run is a matter of what the component
keeps (`Shown`): as long as the clock does not go back, the remaining time lies
between nothing and 25 minutes and is never less than what the deadline leaves.

Main results: `display` for the time, and `buttons` for the two buttons.
-/
import Mathlib.Tactic.IntervalCases
import Lockinspiel.Countdown

namespace Lockinspiel.Frontend

/-! ### The template -/

/-- `padStart`. -/
def padStart (s : String) (targetLength : ℕ) (padString : Char) : String :=
  String.ofList (s.toList.leftpad targetLength padString)

/-- `Math.ceil(ms / 1000)`. -/
def ceilSeconds (ms : ℤ) : ℤ := -(-ms / 1000)

/-- The text of `time`, for these milliseconds. -/
def timeText (remainingMs : ℤ) : String :=
  let seconds := ceilSeconds remainingMs
  padStart (toString (seconds / 60)) 2 '0' ++ ":" ++ padStart (toString (seconds.tmod 60)) 2 '0'

namespace TimerComponent

def time (self : TimerComponent) : String := timeText self.remainingMs

def actionLabel (self : TimerComponent) : String :=
  match self.state with
  | .running => "Pause the timer"
  | .paused => "Resume the timer"
  | .complete => "Start a new 25 minute timer"
  | .ready => "Start the timer"

/-- The icon of the first button. -/
def icon (self : TimerComponent) : String :=
  if self.state = .running then "pause" else "play_arrow"

/-- `[disabled]` of the second button. -/
def resetDisabled (self : TimerComponent) : Bool := self.state = .ready

end TimerComponent

/-! ### The text of a time -/

/-- A number below a hundred, with two digits. -/
def twoDigits (n : ℕ) : List Char := [Nat.digitChar (n / 10), Nat.digitChar (n % 10)]

theorem padStart_toString {n : ℕ} (h : n < 100) :
    padStart (toString (n : ℤ)) 2 '0' = String.ofList (twoDigits n) := by
  interval_cases n <;> rfl

theorem digitChar_inj {m n : ℕ} (hm : m < 10) (hn : n < 10)
    (h : Nat.digitChar m = Nat.digitChar n) : m = n := by
  have hchars := congrArg Char.toNat h
  rw [Nat.toNat_digitChar_of_lt_ten hm, Nat.toNat_digitChar_of_lt_ten hn] at hchars
  omega

theorem twoDigits_inj {m n : ℕ} (hm : m < 100) (hn : n < 100) (h : twoDigits m = twoDigits n) :
    m = n := by
  obtain ⟨htens, hones⟩ := List.cons.inj h
  have htens' := digitChar_inj (by omega) (by omega) htens
  have hones' := digitChar_inj (by omega) (by omega) (List.cons.inj hones).1
  omega

/-- Less than a hundred minutes, in milliseconds. -/
theorem timeText_eq {ms : ℤ} {seconds : ℕ} (hlow : 1000 * (seconds : ℤ) - 1000 < ms)
    (hhigh : ms ≤ 1000 * seconds) (hmax : seconds < 6000) :
    timeText ms =
      String.ofList (twoDigits (seconds / 60) ++ ':' :: twoDigits (seconds % 60)) := by
  have hceil : ceilSeconds ms = seconds := by
    rw [ceilSeconds]
    omega
  have hdiv : (seconds : ℤ) / 60 = ((seconds / 60 : ℕ) : ℤ) := (Int.natCast_ediv seconds 60).symm
  have hmod : (seconds : ℤ).tmod 60 = ((seconds % 60 : ℕ) : ℤ) := rfl
  rw [timeText, hceil, hdiv, hmod, padStart_toString (by omega), padStart_toString (by omega),
    ← String.toList_inj]
  simp

/-- The whole seconds that are shown. -/
theorem exists_seconds {ms : ℤ} (h : 0 ≤ ms) :
    ∃ seconds : ℕ, 1000 * (seconds : ℤ) - 1000 < ms ∧ ms ≤ 1000 * seconds :=
  ⟨(ceilSeconds ms).toNat, by rw [ceilSeconds]; omega, by rw [ceilSeconds]; omega⟩

/-- Below a hundred minutes, the text tells the seconds. -/
theorem timeText_inj {ms ms' : ℤ} {seconds seconds' : ℕ}
    (hlow : 1000 * (seconds : ℤ) - 1000 < ms) (hhigh : ms ≤ 1000 * seconds)
    (hmax : seconds < 6000) (hlow' : 1000 * (seconds' : ℤ) - 1000 < ms')
    (hhigh' : ms' ≤ 1000 * seconds') (hmax' : seconds' < 6000) :
    timeText ms = timeText ms' ↔ seconds = seconds' := by
  rw [timeText_eq hlow hhigh hmax, timeText_eq hlow' hhigh' hmax']
  constructor
  · intro h
    obtain ⟨hminutes, hrest⟩ := List.append_inj (String.ofList_injective h) rfl
    have hm := twoDigits_inj (by omega) (by omega) hminutes
    have hs := twoDigits_inj (by omega) (by omega) (List.cons.inj hrest).2
    omega
  · rintro rfl
    rfl

/-! ### What the component keeps to be shown -/

/-- The clock does not go back: every reading is at least all earlier ones. -/
def Forward (start : ℤ) (es : List Event) : Prop :=
  (start :: es.map Event.now).Pairwise (· ≤ ·)

instance (start : ℤ) (es : List Event) : Decidable (Forward start es) := by
  unfold Forward
  infer_instance

/-- At a reading of the clock. -/
structure Shown (p : Page) (last : ℤ) : Prop where
  tidy : p.Tidy
  nonneg : 0 ≤ p.remainingMs
  le_duration : p.remainingMs ≤ timerDurationMs
  complete : p.remainingMs = 0 ↔ p.state = .complete
  ready : p.state = .ready → p.remainingMs = timerDurationMs
  running : p.state = .running → p.deadline - last ≤ p.remainingMs

/-- The event gives the component all of its time again. -/
def Page.Restarts (p : Page) (e : Event) : Prop :=
  e.action = .reset ∨ (e.action = .toggle ∧ p.state = .complete)

section

variable {p : Page} {last : ℤ} {e : Event}

theorem duration_pos : 0 < timerDurationMs := by decide

theorem shown_initial (last : ℤ) : Shown {} last where
  tidy := tidy_initial
  nonneg := by decide
  le_duration := le_refl _
  complete := by decide
  ready _ := rfl
  running h := by cases h

/-- **One event**, at a later reading: nothing is shown again that is over. -/
theorem Shown.step (h : Shown p last) (hlast : last ≤ e.now) :
    Shown (p.step e) e.now ∧
      (¬ p.Restarts e → (p.step e).remainingMs ≤ p.remainingMs) := by
  have hm := step_moves h.tidy e
  have htidy := hm.tidy h.tidy
  have hle := h.le_duration
  have hnonneg := h.nonneg
  generalize p.step e = p' at hm htidy
  cases hm with
  | idle hid =>
      refine ⟨⟨htidy, hnonneg, hle, h.complete, h.ready, fun hrun => ?_⟩, fun _ => le_refl _⟩
      have hdeadline := h.running hrun
      omega
  | count hid hrun hnow =>
      have hdeadline := h.running hrun
      dsimp only at hlast ⊢
      refine ⟨⟨htidy, ?_, ?_, iff_of_false ?_ ?_, fun hs => ?_, fun _ => le_refl _⟩, fun _ => ?_⟩
      · dsimp only
        omega
      · dsimp only
        omega
      · dsimp only
        omega
      · rw [hrun]
        decide
      · cases hrun.symm.trans hs
      · omega
  | pause hrun hnow =>
      have hdeadline := h.running hrun
      dsimp only at hlast ⊢
      refine ⟨⟨htidy, ?_, ?_, iff_of_false ?_ nofun, nofun, nofun⟩, fun _ => ?_⟩
      · dsimp only
        omega
      · dsimp only
        omega
      · dsimp only
        omega
      · omega
  | complete hrun hnow hact =>
      exact ⟨⟨htidy, le_refl _, duration_pos.le, iff_of_true rfl rfl, nofun, nofun⟩,
        fun _ => hnonneg⟩
  | start hrun =>
      -- all of the time after a complete countdown, or what is left of one
      obtain ⟨r, hr⟩ : ∃ r, r = if p.state = .complete then timerDurationMs else p.remainingMs :=
        ⟨_, rfl⟩
      have hbounds : 0 < r ∧ r ≤ timerDurationMs ∧
          (p.state ≠ .complete → r ≤ p.remainingMs) := by
        by_cases hcomplete : p.state = .complete
        · rw [if_pos hcomplete] at hr
          exact ⟨hr ▸ duration_pos, hr.le, fun hno => absurd hcomplete hno⟩
        · rw [if_neg hcomplete] at hr
          have hne := mt h.complete.mp hcomplete
          exact ⟨by omega, hr ▸ hle, fun _ => hr.le⟩
      rw [← hr] at htidy ⊢
      obtain ⟨hpos, hmax, hleft⟩ := hbounds
      refine ⟨⟨htidy, hpos.le, hmax, iff_of_false hpos.ne' nofun, nofun, fun _ => ?_⟩,
        fun hno => ?_⟩
      · dsimp only
        omega
      · exact hleft fun hcomplete => hno (.inr ⟨rfl, hcomplete⟩)
  | reset =>
      refine ⟨⟨htidy, duration_pos.le, le_refl _, iff_of_false duration_pos.ne' nofun,
        fun _ => rfl, nofun⟩, fun hno => ?_⟩
      exact absurd (.inl rfl) hno

/-- The last reading of the clock. -/
def lastReading (start : ℤ) (es : List Event) : ℤ := (es.map Event.now).getLastD start

theorem shown_run {start : ℤ} {es : List Event} (hclock : Forward start es) (h : Shown p start) :
    Shown (p.run es) (lastReading start es) := by
  induction es generalizing p start with
  | nil => exact h
  | cons e es ih =>
      obtain ⟨hstart, hrest⟩ := List.pairwise_cons.mp hclock
      have hnow : start ≤ e.now := hstart _ List.mem_cons_self
      have hlast : lastReading start (e :: es) = lastReading e.now es := by
        cases es <;> rfl
      rw [hlast]
      exact ih hrest (h.step hnow).1

/-- The seconds that are shown, and their text. -/
theorem Shown.time_eq (h : Shown p last) :
    ∃ seconds : ℕ, seconds ≤ 1500 ∧ 1000 * (seconds : ℤ) - 1000 < p.remainingMs ∧
      p.remainingMs ≤ 1000 * seconds ∧
      p.time = String.ofList (twoDigits (seconds / 60) ++ ':' :: twoDigits (seconds % 60)) := by
  obtain ⟨seconds, hlow, hhigh⟩ := exists_seconds h.nonneg
  have hle := h.le_duration
  have hduration : timerDurationMs = 1500000 := rfl
  exact ⟨seconds, by omega, hlow, hhigh, timeText_eq hlow hhigh (by omega)⟩

/-- `00:00` is shown exactly if nothing is left. -/
theorem Shown.time_eq_zero_iff (h : Shown p last) : p.time = "00:00" ↔ p.state = .complete := by
  obtain ⟨seconds, hle, hlow, hhigh, -⟩ := h.time_eq
  have hzero : timeText p.remainingMs = timeText 0 ↔ seconds = 0 :=
    timeText_inj hlow hhigh (by omega) (by omega) (by omega) (by omega)
  have hnonneg := h.nonneg
  rw [← h.complete]
  refine hzero.trans ⟨fun hseconds => ?_, fun hremaining => ?_⟩ <;> omega

end

/-- **What is shown of the time.**  After any events, as long as the clock does
not go back: the text is a time in minutes and seconds of at most 25 minutes,
which is what the component keeps, rounded up; it is `00:00` exactly if the component is complete,
and `25:00` if it is ready; until the component gets all of its time again, what
is shown next is not more; and after a callback or the button that pauses it is
the rest of the 25 minutes that were not spent in `running`. -/
theorem display (start : ℤ) (es : List Event) (hclock : Forward start es) :
    let x := (Watched.initial start).run es
    (∃ minutes seconds : ℕ, 60 * minutes + seconds ≤ 1500 ∧ minutes ≤ 25 ∧ seconds < 60 ∧
      1000 * (60 * (minutes : ℤ) + seconds) - 1000 < x.page.remainingMs ∧
      x.page.remainingMs ≤ 1000 * (60 * (minutes : ℤ) + seconds) ∧
      x.page.time = String.ofList (twoDigits minutes ++ ':' :: twoDigits seconds)) ∧
    (x.page.time = "00:00" ↔ x.page.state = .complete) ∧
    (x.page.state = .ready → x.page.time = "25:00") ∧
    ∀ e, lastReading start es ≤ e.now →
      (¬ x.page.Restarts e → (x.step e).page.remainingMs ≤ x.page.remainingMs) ∧
      (x.page.Updates e →
        (x.step e).page.time = timeText (max 0 (timerDurationMs - (x.step e).elapsed))) := by
  intro x
  have hpage : x.page = Page.run {} es := page_run _ es
  have hshown : Shown x.page (lastReading start es) := by
    rw [hpage]
    exact shown_run hclock (shown_initial start)
  have hcounts : Counts x := counts_run (counts_initial start) es
  refine ⟨?_, hshown.time_eq_zero_iff, fun hready => ?_, fun e hnow => ⟨?_, fun hup => ?_⟩⟩
  · obtain ⟨seconds, hle, hlow, hhigh, htime⟩ := hshown.time_eq
    exact ⟨seconds / 60, seconds % 60, by omega, by omega, by omega, by omega, by omega, htime⟩
  · rw [TimerComponent.time, hshown.ready hready]
    rfl
  · exact (hshown.step hnow).2
  · rw [TimerComponent.time, (hcounts.updates hup).1]

/-- A second and a quarter, a pause of a minute, and three quarters of a second:
the clock shows `24:58`. -/
def fractions : List Event :=
  [⟨0, .toggle⟩, ⟨1250, .tick 0⟩, ⟨1250, .toggle⟩, ⟨61250, .toggle⟩, ⟨62000, .tick 1⟩]

theorem display_fractions :
    ((Watched.initial 0).run fractions).page.time = "24:58" ∧
      ((Watched.initial 0).run fractions).page.time ≠ "00:00" := by
  refine ⟨by decide +kernel, fun hzero => ?_⟩
  obtain ⟨-, hcomplete, -⟩ := display 0 fractions (by decide)
  exact absurd (hcomplete.mp hzero) (by decide)

/-! ### The buttons -/

theorem actionLabel_eq (p : Page) :
    (p.actionLabel = "Pause the timer" ↔ p.state = .running) ∧
    (p.actionLabel = "Resume the timer" ↔ p.state = .paused) ∧
    (p.actionLabel = "Start a new 25 minute timer" ↔ p.state = .complete) ∧
    (p.actionLabel = "Start the timer" ↔ p.state = .ready) := by
  rw [TimerComponent.actionLabel]
  cases p.state <;> decide

/-- The button, while the component does not run. -/
theorem step_toggle_stopped {p : Page} (h : p.Tidy) (hstop : p.state ≠ .running) (now : ℤ) :
    (p.step ⟨now, .toggle⟩).state = .running ∧
      (p.step ⟨now, .toggle⟩).remainingMs =
        (if p.state = .complete then timerDurationMs else p.remainingMs) ∧
      (p.step ⟨now, .toggle⟩).deadline =
        now + if p.state = .complete then timerDurationMs else p.remainingMs := by
  have hm := step_moves h ⟨now, .toggle⟩
  generalize p.step ⟨now, .toggle⟩ = p' at hm
  cases hm with
  | pause hrun | complete hrun => exact absurd hrun hstop
  | start => exact ⟨rfl, rfl, rfl⟩

/-- **The buttons do what they say**, after any events and at any reading of the
clock: the first one pauses or completes a running countdown, resumes a paused
one where it was, and starts one of 25 minutes otherwise; its icon and its label
agree; and the second one is disabled exactly if it would change nothing. -/
theorem buttons (es : List Event) (now : ℤ) :
    let p := Page.run {} es
    let p' := p.step ⟨now, .toggle⟩
    (p.actionLabel = "Pause the timer" → p'.state = .paused ∨ p'.state = .complete) ∧
    (p.actionLabel = "Resume the timer" → p'.state = .running ∧ p'.time = p.time ∧
      p'.deadline = now + p.remainingMs) ∧
    (p.actionLabel = "Start the timer" ∨ p.actionLabel = "Start a new 25 minute timer" →
      p'.state = .running ∧ p'.time = "25:00" ∧ p'.deadline = now + timerDurationMs) ∧
    (p.icon = "pause" ↔ p.actionLabel = "Pause the timer") ∧
    (p.resetDisabled = true ↔ p.step ⟨now, .reset⟩ = p) := by
  intro p
  have hcounts : Counts ((Watched.initial now).run es) := counts_run (counts_initial now) es
  have hpage : ((Watched.initial now).run es).page = p := page_run _ es
  have htidy : p.Tidy := hpage ▸ hcounts.tidy
  have hready : p.state = .ready → p.remainingMs = timerDurationMs := hpage ▸ hcounts.ready
  obtain ⟨hpause, hresume, hagain, hstart⟩ := actionLabel_eq p
  rw [hpause, hresume, hagain, hstart]
  clear_value p
  refine ⟨fun hrun => ?_, fun hpaused => ?_, fun hstopped => ?_, ?_, ?_⟩
  · have hm := step_moves htidy ⟨now, .toggle⟩
    generalize p.step ⟨now, .toggle⟩ = p' at hm
    cases hm with
    | pause => exact .inl rfl
    | complete => exact .inr rfl
    | start hno => exact absurd hrun hno
  · obtain ⟨hrun, hremaining, hdeadline⟩ := step_toggle_stopped htidy (by rw [hpaused]; decide) now
    rw [if_neg (by rw [hpaused]; decide)] at hremaining hdeadline
    exact ⟨hrun, congrArg timeText hremaining, hdeadline⟩
  · have hno : p.state ≠ .running := by
      rcases hstopped with h | h <;> rw [h] <;> decide
    -- a component that is ready has all of its time as well
    have hall : (if p.state = .complete then timerDurationMs else p.remainingMs) =
        timerDurationMs := by
      rcases hstopped with h | h
      · rw [if_neg (by rw [h]; decide), hready h]
      · exact if_pos h
    obtain ⟨hrun, hremaining, hdeadline⟩ := step_toggle_stopped htidy hno now
    rw [hall] at hremaining hdeadline
    exact ⟨hrun, by rw [TimerComponent.time, hremaining]; rfl, hdeadline⟩
  · rw [TimerComponent.icon]
    split
    · exact iff_of_true rfl ‹_›
    · exact iff_of_false (by decide) ‹_›
  · rw [TimerComponent.resetDisabled, decide_eq_true_eq]
    show p.state = .ready ↔ p.reset = p
    rw [Page.reset, stopInterval_eq htidy.scheduled]
    constructor
    · intro h
      have hnone : p.intervalId = none := by
        rw [← Option.not_isSome_iff_eq_none, htidy.running, h]
        decide
      have hscheduled : p.scheduled = [] := by rw [htidy.scheduled, hnone]; rfl
      have hremaining := hready h
      obtain ⟨⟨remainingMs, deadline, intervalId, state⟩, scheduled, nextId⟩ := p
      cases h
      cases hnone
      cases hscheduled
      cases hremaining
      rfl
    · intro h
      rw [← h]

end Lockinspiel.Frontend
