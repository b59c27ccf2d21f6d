/-
Lockinspiel/TimerLifecycle.lean

The timer from its creation to its destruction.

`Countdown` is about what the component shows.  This module is about what it
leaves in the browser: a callback that stays scheduled would go on changing the
component after a pause, or after the component is gone.  A `Lifetime` is the
page together with whether the component was destroyed.  Its buttons go with it,
a callback that is still scheduled does not.

Main result: `lifecycle`.  At every moment, the interval of the component is
scheduled exactly while it runs, and the time that it keeps fits its state
(`InStep`).  For this the clock may read anything; as long as it does not go
back, that time also stays within the 25 minutes.
-/
import Lockinspiel.Countdown

namespace Lockinspiel.Frontend

/-- What can happen in the life of the component. -/
inductive LifeEvent
  | event (e : Event)
  | destroy
deriving DecidableEq

/-- The page, from the creation of the component on. -/
structure Lifetime where
  page : Page := {}
  destroyed : Bool := false
deriving DecidableEq

namespace Lifetime

/-- One event.  A component that is destroyed has no buttons, and it is not
destroyed again. -/
def step (x : Lifetime) : LifeEvent → Lifetime
  | .event e => if x.destroyed && e.byUser then x else { x with page := x.page.step e }
  | .destroy => if x.destroyed then x else { page := x.page.onDestroy, destroyed := true }

/-- The events one after the other. -/
def run (x : Lifetime) (es : List LifeEvent) : Lifetime := es.foldl step x

/-- A pause, a reset or a completion. -/
def Stops (x : Lifetime) (e : LifeEvent) : Prop :=
  (∃ now, e = .event ⟨now, .reset⟩) ∨ (x.step e).page.state = .paused ∨
    (x.step e).page.state = .complete

end Lifetime

/-- The button that starts and pauses. -/
def LifeEvent.Toggles (e : LifeEvent) : Prop := ∃ now, e = .event ⟨now, .toggle⟩

/-- What the clock reads.  A reset does not read it. -/
def LifeEvent.reading : LifeEvent → Option ℤ
  | .event ⟨_, .reset⟩ | .destroy => none
  | .event ⟨now, _⟩ => some now

/-- What it reads in the events. -/
def readings (es : List LifeEvent) : List ℤ := es.filterMap LifeEvent.reading

/-- The state of the component, the time that it keeps and the intervals of the
browser agree.  At most one interval is scheduled, the one that the component
knows. -/
structure InStep (x : Lifetime) : Prop where
  scheduled : x.page.scheduled = x.page.intervalId.toList
  running : x.destroyed = false → (x.page.scheduled ≠ [] ↔ x.page.state = .running)
  destroyed : x.destroyed = true → x.page.scheduled = []
  ready : x.page.state = .ready → x.page.remainingMs = timerDurationMs
  paused : x.page.state = .paused → 0 < x.page.remainingMs
  complete : x.page.state = .complete → x.page.remainingMs = 0

/-- The time that is kept is within the 25 minutes, and so it will be at the
next readings of the clock. -/
structure Within (x : Lifetime) (next : List ℤ) : Prop where
  remaining : 0 ≤ x.page.remainingMs ∧ x.page.remainingMs ≤ timerDurationMs
  deadline : x.page.state = .running → ∀ now ∈ next, x.page.deadline ≤ now + timerDurationMs

/-! ### One event -/

section

variable {x : Lifetime} {p p' : Page} {e : LifeEvent} {ev : Event} {next : List ℤ}

theorem inStep_initial : InStep {} where
  scheduled := rfl
  running _ := by simp
  destroyed _ := rfl
  ready _ := rfl
  paused h := by cases h
  complete h := by cases h

theorem within_initial (next : List ℤ) : Within {} next :=
  ⟨by decide, fun h => by cases h⟩

/-- Until it is destroyed, the component is `Tidy`. -/
theorem InStep.tidy (h : InStep ⟨p, false⟩) : p.Tidy := by
  refine ⟨h.scheduled, ?_⟩
  have hrunning := h.running rfl
  have hscheduled : p.scheduled = p.intervalId.toList := h.scheduled
  rw [← hrunning]
  dsimp only
  rw [hscheduled]
  cases p.intervalId <;> simp

/-- A component that is destroyed is left alone. -/
theorem InStep.step_of_destroyed (h : InStep ⟨p, true⟩) (e : LifeEvent) :
    Lifetime.step ⟨p, true⟩ e = ⟨p, true⟩ := by
  cases e with
  | destroy => rfl
  | event ev =>
      obtain ⟨now, action⟩ := ev
      cases action with
      | toggle => rfl
      | reset => rfl
      | tick id =>
          -- no callback is left
          have hscheduled : p.scheduled = [] := h.destroyed rfl
          have hidle : p.step ⟨now, .tick id⟩ = p := if_neg (by simp [hscheduled])
          show Lifetime.mk (p.step ⟨now, .tick id⟩) true = _
          rw [hidle]

theorem step_event : Lifetime.step ⟨p, false⟩ (.event ev) = ⟨p.step ev, false⟩ := rfl

theorem step_destroy : Lifetime.step ⟨p, false⟩ .destroy = ⟨p.onDestroy, true⟩ := rfl

/-- A move keeps the component in step. -/
theorem InStep.moves (h : InStep ⟨p, false⟩) (hm : Moves p ev p') : InStep ⟨p', false⟩ := by
  have htidy := hm.tidy h.tidy
  have hrunning : p'.scheduled ≠ [] ↔ p'.state = .running := by
    rw [← htidy.running, htidy.scheduled]
    cases p'.intervalId <;> simp
  have hpaused : p'.state = .paused → 0 < p'.remainingMs := by
    intro hs
    cases hm with
    | idle hid => exact h.paused hs
    | count hid hrun hnow => cases hrun.symm.trans hs
    | pause hrun hnow =>
        dsimp only
        omega
    | _ => cases hs
  exact ⟨htidy.scheduled, fun _ => hrunning, fun hd => (by cases hd),
    hm.remaining_of_ready h.ready, hpaused, hm.remaining_of_complete h.complete⟩

/-- The destruction changes nothing but the intervals. -/
theorem onDestroy_eq (h : p.Tidy) : p.onDestroy = { p with scheduled := [], intervalId := none } :=
  stopInterval_eq h.scheduled

theorem InStep.destroy (h : InStep ⟨p, false⟩) : InStep ⟨p.onDestroy, true⟩ := by
  rw [onDestroy_eq h.tidy]
  exact ⟨rfl, fun hd => (by cases hd), fun _ => rfl, h.ready, h.paused, h.complete⟩

/-- Every event keeps the component in step. -/
theorem InStep.step (h : InStep x) (e : LifeEvent) : InStep (x.step e) := by
  obtain ⟨p, destroyed⟩ := x
  cases destroyed with
  | true =>
      rw [h.step_of_destroyed]
      exact h
  | false =>
      cases e with
      | event ev => exact h.moves (step_moves h.tidy ev)
      | destroy => exact h.destroy

/-- What is scheduled only by the button that starts. -/
theorem InStep.quiet (h : InStep x) (hquiet : x.page.scheduled = []) (he : ¬ e.Toggles) :
    (x.step e).page.scheduled = [] := by
  obtain ⟨p, destroyed⟩ := x
  cases destroyed with
  | true =>
      rw [h.step_of_destroyed]
      exact hquiet
  | false =>
      cases e with
      | destroy => exact onDestroy_scheduled h.tidy
      | event ev =>
          have hm := step_moves h.tidy ev
          rw [step_event]
          dsimp only at hquiet ⊢
          generalize p.step ev = p' at hm
          cases hm with
          | start hrun => exact absurd ⟨_, rfl⟩ he
          | _ => first | exact hquiet | rfl

/-- After a pause, a reset or a completion nothing is scheduled. -/
theorem InStep.stops (h : InStep x) (hstops : x.Stops e) : (x.step e).page.scheduled = [] := by
  have h' := h.step e
  cases hd : (x.step e).destroyed with
  | true => exact h'.destroyed hd
  | false =>
      have hstate : (x.step e).page.state ≠ .running := by
        rcases hstops with ⟨now, rfl⟩ | hpaused | hcomplete
        · obtain ⟨p, destroyed⟩ := x
          cases destroyed with
          | true => cases hd
          | false => exact fun hrun => by cases hrun
        · rw [hpaused]
          decide
        · rw [hcomplete]
          decide
      by_contra hscheduled
      exact hstate ((h'.running hd).mp hscheduled)

/-- A move keeps the time within the 25 minutes, if the clock does not go
back. -/
theorem Within.moves (hw : Within ⟨p, false⟩ ((LifeEvent.event ev).reading.toList ++ next))
    (hnext : ∀ r ∈ (LifeEvent.event ev).reading.toList, ∀ now ∈ next, r ≤ now)
    (hm : Moves p ev p') : Within ⟨p', false⟩ next := by
  obtain ⟨hremaining, hdeadline⟩ := hw
  dsimp only at hremaining hdeadline
  cases hm with
  | idle hid => exact ⟨hremaining, fun hrun now hmem => hdeadline hrun now (.tail _ hmem)⟩
  | count hid hrun hnow =>
      have hlimit := hdeadline hrun _ (.head _)
      exact ⟨⟨by dsimp only; omega, by dsimp only; omega⟩,
        fun _ now hmem => hdeadline hrun now (.tail _ hmem)⟩
  | pause hrun hnow =>
      have hlimit := hdeadline hrun _ (.head _)
      exact ⟨⟨by dsimp only; omega, by dsimp only; omega⟩, fun hrun => by cases hrun⟩
  | complete hrun hnow hact => exact ⟨by dsimp only; decide, fun hrun => by cases hrun⟩
  | start hrun =>
      have hkept : 0 ≤ (if p.state = .complete then timerDurationMs else p.remainingMs) ∧
          (if p.state = .complete then timerDurationMs else p.remainingMs) ≤ timerDurationMs := by
        split
        · decide
        · exact hremaining
      refine ⟨hkept, fun _ now hmem => ?_⟩
      have hle := hnext _ (.head _) now hmem
      dsimp only
      omega
  | reset => exact ⟨by dsimp only; decide, fun hrun => by cases hrun⟩

/-- So does every event. -/
theorem Within.step (hw : Within x (e.reading.toList ++ next)) (h : InStep x)
    (hnext : ∀ r ∈ e.reading.toList, ∀ now ∈ next, r ≤ now) : Within (x.step e) next := by
  obtain ⟨p, destroyed⟩ := x
  have hlater : Within ⟨p, destroyed⟩ next :=
    ⟨hw.remaining, fun hrun now hmem => hw.deadline hrun now (List.mem_append_right _ hmem)⟩
  cases destroyed with
  | true =>
      rw [h.step_of_destroyed]
      exact hlater
  | false =>
      cases e with
      | event ev => exact hw.moves hnext (step_moves h.tidy ev)
      | destroy =>
          rw [step_destroy, onDestroy_eq h.tidy]
          exact ⟨hlater.remaining, hlater.deadline⟩

end

/-! ### All runs -/

theorem inStep_run {x : Lifetime} (h : InStep x) (es : List LifeEvent) : InStep (x.run es) := by
  induction es generalizing x with
  | nil => exact h
  | cons e es ih => exact ih (h.step e)

/-- Without the button that starts, nothing is scheduled again. -/
theorem InStep.run_quiet {x : Lifetime} (h : InStep x) (hquiet : x.page.scheduled = [])
    (later : List LifeEvent) (hlater : ∀ e ∈ later, ¬ e.Toggles) :
    (x.run later).page.scheduled = [] := by
  induction later generalizing x with
  | nil => exact hquiet
  | cons e later ih =>
      have he := hlater e (.head _)
      exact ih (h.step e) (h.quiet hquiet he) fun e' hmem => hlater e' (.tail _ hmem)

/-- A component that is destroyed is left alone for good. -/
theorem InStep.run_destroyed {p : Page} (h : InStep ⟨p, true⟩) (later : List LifeEvent) :
    Lifetime.run ⟨p, true⟩ later = ⟨p, true⟩ := by
  induction later with
  | nil => rfl
  | cons e later ih =>
      show Lifetime.run (Lifetime.step ⟨p, true⟩ e) later = _
      rw [h.step_of_destroyed, ih]

theorem readings_cons (e : LifeEvent) (es : List LifeEvent) :
    readings (e :: es) = e.reading.toList ++ readings es := by
  rw [readings, List.filterMap_cons]
  cases e.reading <;> rfl

theorem within_run {x : Lifetime} (h : InStep x) {es : List LifeEvent}
    (hw : Within x (readings es)) (hclock : (readings es).Pairwise (· ≤ ·)) :
    Within (x.run es) [] := by
  induction es generalizing x with
  | nil => exact hw
  | cons e es ih =>
      rw [readings_cons] at hw hclock
      obtain ⟨-, hclock, hnext⟩ := List.pairwise_append.mp hclock
      exact ih (h.step e) (hw.step h hnext) hclock

/-- **The component and its callback never disagree.**  At every moment of its
life they are `InStep`, at any readings of the clock; if these do not go back,
the time that is kept is within the 25 minutes.  After a pause, a reset or a
completion no callback is scheduled before the button that starts, and after the
destruction none at all. -/
theorem lifecycle (es : List LifeEvent) :
    let x := Lifetime.run {} es
    InStep x ∧
    ((readings es).Pairwise (· ≤ ·) →
      0 ≤ x.page.remainingMs ∧ x.page.remainingMs ≤ timerDurationMs) ∧
    (∀ e, x.Stops e → ∀ later : List LifeEvent, (∀ e' ∈ later, ¬ e'.Toggles) →
      ((x.step e).run later).page.scheduled = []) ∧
    ∀ later, ((x.step .destroy).run later).page.scheduled = [] := by
  intro x
  have h : InStep x := inStep_run inStep_initial es
  refine ⟨h, fun hclock => ?_, fun e hstops later hlater => ?_, fun later => ?_⟩
  · exact (within_run inStep_initial (within_initial _) hclock).remaining
  · exact (h.step e).run_quiet (h.stops hstops) later hlater
  · have h' := h.step .destroy
    have hd : (x.step .destroy).destroyed = true := by
      rw [Lifetime.step]
      split
      · assumption
      · rfl
    generalize x.step .destroy = x' at h' hd
    obtain ⟨p, destroyed⟩ := x'
    obtain rfl : destroyed = true := hd
    rw [h'.run_destroyed]
    exact h'.destroyed rfl

end Lockinspiel.Frontend
