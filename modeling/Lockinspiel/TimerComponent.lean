/-
Lockinspiel/TimerComponent.lean

The timer of the web frontend, with the intervals it schedules.

A `Page` is the component together with the part of the browser it uses: the
intervals that are scheduled, each under an id of its own.  The component has
two buttons, which call `toggle` and `reset`, and the callback of an interval,
which can run at any time while its interval is scheduled.  All of them read the
clock at most once, and whatever the clock reads is part of the event.  Clock
readings and lengths are whole milliseconds.

Main result: `step_moves`.  As long as the intervals are `Tidy`, an event does
one of six things, and the intervals stay tidy: exactly the one that the
component knows is scheduled, and that only while it runs.
-/
import Mathlib.Order.Lattice
import Mathlib.Data.Int.Order.Basic

namespace Lockinspiel.Frontend

/-- `TIMER_DURATION_MS`. -/
def timerDurationMs : ℤ := 25 * 60 * 1000

inductive TimerState
  | ready | running | paused | complete
deriving DecidableEq

/-- The fields of the component. -/
structure TimerComponent where
  remainingMs : ℤ := timerDurationMs
  deadline : ℤ := 0
  intervalId : Option ℕ := none
  state : TimerState := .ready
deriving DecidableEq

/-- The component and the intervals of the browser. -/
structure Page extends TimerComponent where
  /-- The ids of the intervals that are scheduled. -/
  scheduled : List ℕ := []
  /-- The id that the next interval gets. -/
  nextId : ℕ := 0
deriving DecidableEq

namespace Page

/-- `stopInterval`. -/
def stopInterval (p : Page) : Page :=
  match p.intervalId with
  | some id => { p with scheduled := p.scheduled.filter (· != id), intervalId := none }
  | none => p

/-- `updateRemaining`. -/
def updateRemaining (now : ℤ) (p : Page) : Page :=
  let remaining := max 0 (p.deadline - now)
  let p := { p with remainingMs := remaining }
  if remaining = 0 then { p.stopInterval with state := .complete } else p

/-- `toggle`. -/
def toggle (now : ℤ) (p : Page) : Page :=
  if p.state = .running then
    let p := (p.updateRemaining now).stopInterval
    if p.state ≠ .complete then { p with state := .paused } else p
  else
    let p := if p.state = .complete then { p with remainingMs := timerDurationMs } else p
    { p with
      deadline := now + p.remainingMs
      state := .running
      intervalId := some p.nextId
      scheduled := p.nextId :: p.scheduled
      nextId := p.nextId + 1 }

/-- `reset`. -/
def reset (p : Page) : Page :=
  { p.stopInterval with remainingMs := timerDurationMs, state := .ready }

/-- The component is destroyed. -/
def onDestroy (p : Page) : Page := p.stopInterval

end Page

/-- What can happen on the page: a button, or the callback of an interval. -/
inductive Action
  | toggle
  | reset
  | tick (id : ℕ)
deriving DecidableEq

/-- An action, with what the clock reads. -/
structure Event where
  now : ℤ
  action : Action
deriving DecidableEq

/-- One event.  The callback of an interval that is not scheduled does not
run. -/
def Page.step (p : Page) (e : Event) : Page :=
  match e.action with
  | .toggle => p.toggle e.now
  | .reset => p.reset
  | .tick id => if id ∈ p.scheduled then p.updateRemaining e.now else p

/-- The events one after the other. -/
def Page.run (p : Page) (es : List Event) : Page := es.foldl Page.step p

/-! ### What an event does -/

/-- The interval that the component knows is the only one that is scheduled, and
it is there exactly while the component runs. -/
structure Page.Tidy (p : Page) : Prop where
  scheduled : p.scheduled = p.intervalId.toList
  running : p.intervalId.isSome ↔ p.state = .running

/-- The moves of the component. -/
inductive Moves (p : Page) : Event → Page → Prop
  /-- A callback that does not run. -/
  | idle {now id} (hid : id ∉ p.scheduled) : Moves p ⟨now, .tick id⟩ p
  /-- A callback before the deadline. -/
  | count {now id} (hid : id ∈ p.scheduled) (hrun : p.state = .running)
      (hnow : now < p.deadline) :
      Moves p ⟨now, .tick id⟩ { p with remainingMs := p.deadline - now }
  /-- The button, before the deadline. -/
  | pause {now} (hrun : p.state = .running) (hnow : now < p.deadline) :
      Moves p ⟨now, .toggle⟩
        { p with
          remainingMs := p.deadline - now, state := .paused, intervalId := none, scheduled := [] }
  /-- A callback or the button, from the deadline on. -/
  | complete {now action} (hrun : p.state = .running) (hnow : p.deadline ≤ now)
      (hact : action = .toggle ∨ ∃ id ∈ p.scheduled, action = .tick id) :
      Moves p ⟨now, action⟩
        { p with remainingMs := 0, state := .complete, intervalId := none, scheduled := [] }
  /-- The button, while the component does not run. -/
  | start {now} (hrun : p.state ≠ .running) :
      Moves p ⟨now, .toggle⟩
        { p with
          remainingMs := if p.state = .complete then timerDurationMs else p.remainingMs
          deadline := now + if p.state = .complete then timerDurationMs else p.remainingMs
          state := .running, intervalId := some p.nextId, scheduled := [p.nextId]
          nextId := p.nextId + 1 }
  /-- The other button. -/
  | reset {now} :
      Moves p ⟨now, .reset⟩
        { p with
          remainingMs := timerDurationMs, state := .ready, intervalId := none, scheduled := [] }

section

variable {p p' : Page} {e : Event} {now : ℤ}

/-- One interval is scheduled, and it is stopped; or none is. -/
theorem stopInterval_eq (h : p.scheduled = p.intervalId.toList) :
    p.stopInterval = { p with scheduled := [], intervalId := none } := by
  obtain ⟨⟨remainingMs, deadline, intervalId, state⟩, scheduled, nextId⟩ := p
  cases intervalId with
  | none =>
      obtain rfl : scheduled = [] := h
      rfl
  | some id =>
      obtain rfl : scheduled = [id] := h
      rw [Page.stopInterval]
      simp

theorem updateRemaining_of_lt (h : now < p.deadline) :
    p.updateRemaining now = { p with remainingMs := p.deadline - now } := by
  have hmax : max 0 (p.deadline - now) = p.deadline - now := max_eq_right (by omega)
  rw [Page.updateRemaining, hmax]
  exact if_neg (by omega)

theorem updateRemaining_of_le (hp : p.scheduled = p.intervalId.toList) (h : p.deadline ≤ now) :
    p.updateRemaining now =
      { p with remainingMs := 0, state := .complete, intervalId := none, scheduled := [] } := by
  have hmax : max 0 (p.deadline - now) = 0 := max_eq_left (by omega)
  have hstop : Page.stopInterval { p with remainingMs := 0 } = _ := stopInterval_eq hp
  rw [Page.updateRemaining, hmax]
  dsimp only
  rw [if_pos rfl, hstop]

/-- **What an event does.** -/
theorem step_moves (h : p.Tidy) (e : Event) : Moves p e (p.step e) := by
  obtain ⟨now, action⟩ := e
  cases action with
  | toggle =>
      show Moves p _ (p.toggle now)
      rw [Page.toggle]
      by_cases hrun : p.state = .running
      · -- the button of a running component pauses it, unless the time is over
        rw [if_pos hrun]
        obtain hnow | hnow := lt_or_ge now p.deadline
        · have hstop : Page.stopInterval { p with remainingMs := p.deadline - now } = _ :=
            stopInterval_eq h.scheduled
          have hstate : p.state ≠ .complete := by rw [hrun]; decide
          rw [updateRemaining_of_lt hnow]
          dsimp only
          rw [hstop, if_pos hstate]
          exact .pause hrun hnow
        · rw [updateRemaining_of_le h.scheduled hnow]
          exact .complete hrun hnow (.inl rfl)
      · rw [if_neg hrun]
        -- no interval is scheduled, so there is none that the start forgets
        have hnone : p.intervalId = none := by
          rw [← Option.not_isSome_iff_eq_none, h.running]
          exact hrun
        have hsched : p.scheduled = [] := by
          rw [h.scheduled, hnone]
          rfl
        have hstart : Moves p ⟨now, .toggle⟩ _ := .start hrun
        by_cases hcomplete : p.state = .complete
        · simpa [hcomplete, hsched] using hstart
        · simpa [hcomplete, hsched] using hstart
  | reset =>
      show Moves p _ p.reset
      rw [Page.reset, stopInterval_eq h.scheduled]
      exact .reset
  | tick id =>
      show Moves p _ (if id ∈ p.scheduled then p.updateRemaining now else p)
      by_cases hid : id ∈ p.scheduled
      · rw [if_pos hid]
        -- a callback of a scheduled interval finds the component running
        have hrun : p.state = .running := by
          rw [← h.running]
          rw [h.scheduled, Option.mem_toList] at hid
          rw [hid]
          rfl
        obtain hnow | hnow := lt_or_ge now p.deadline
        · rw [updateRemaining_of_lt hnow]
          exact .count hid hrun hnow
        · rw [updateRemaining_of_le h.scheduled hnow]
          exact .complete hrun hnow (.inr ⟨id, hid, rfl⟩)
      · rw [if_neg hid]
        exact .idle hid

theorem Moves.tidy (hm : Moves p e p') (h : p.Tidy) : p'.Tidy := by
  cases hm with
  | idle hid => exact h
  | count hid hrun hnow => exact ⟨h.scheduled, h.running⟩
  | pause hrun hnow => exact ⟨rfl, by simp⟩
  | complete hrun hnow hact => exact ⟨rfl, by simp⟩
  | start hrun => exact ⟨rfl, by simp⟩
  | reset => exact ⟨rfl, by simp⟩

/-- A component that is ready has all of its time, ... -/
theorem Moves.remaining_of_ready (hm : Moves p e p')
    (h : p.state = .ready → p.remainingMs = timerDurationMs) (hs : p'.state = .ready) :
    p'.remainingMs = timerDurationMs := by
  cases hm with
  | idle hid => exact h hs
  | count hid hrun hnow => cases hrun.symm.trans hs
  | reset => rfl
  | _ => cases hs

/-- ... and one that is complete has none. -/
theorem Moves.remaining_of_complete (hm : Moves p e p')
    (h : p.state = .complete → p.remainingMs = 0) (hs : p'.state = .complete) :
    p'.remainingMs = 0 := by
  cases hm with
  | idle hid => exact h hs
  | count hid hrun hnow => cases hrun.symm.trans hs
  | complete hrun hnow hact => rfl
  | _ => cases hs

/-- A component that is destroyed leaves nothing scheduled. -/
theorem onDestroy_scheduled (h : p.Tidy) : p.onDestroy.scheduled = [] := by
  rw [Page.onDestroy, stopInterval_eq h.scheduled]

end

theorem tidy_initial : Page.Tidy {} := ⟨rfl, by simp⟩

end Lockinspiel.Frontend
