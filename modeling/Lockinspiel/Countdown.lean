/-
Lockinspiel/Countdown.lean

The countdown of the timer neither loses nor gains time.

The component does not store how long it has been running: it keeps a deadline
while it runs and the remaining time while it does not, and computes each from
the other at every pause and resume.  `Watched` is the component with an
observer who does store it: the time spent in `running` since the last start,
and the last reading of the clock.  The invariant `Counts` ties the two
together, for any readings of the clock.

Main result: `countdown`.  The button that starts or resumes gives the countdown
the rest of the 25 minutes, what is shown after a callback or a pause is what is
left of them, the component completes exactly when they are over, and the
callbacks do not matter for what a pause keeps.
-/
import Lockinspiel.TimerComponent

namespace Lockinspiel.Frontend

/-- The component and its observer. -/
structure Watched where
  page : Page
  /-- The time spent in `running` since the last start from `ready` or
  `complete`. -/
  elapsed : ℤ
  /-- The last reading of the clock. -/
  last : ℤ
deriving DecidableEq

/-- A button starts a new countdown. -/
def Page.Starts (p : Page) (e : Event) : Prop :=
  e.action = .toggle ∧ (p.state = .ready ∨ p.state = .complete)

instance (p : Page) (e : Event) : Decidable (p.Starts e) := by
  unfold Page.Starts
  infer_instance

def Watched.step (x : Watched) (e : Event) : Watched where
  page := x.page.step e
  elapsed :=
    if x.page.Starts e then 0
    else if x.page.state = .running then x.elapsed + (e.now - x.last)
    else x.elapsed
  last := e.now

/-- The component as it is created, while the clock reads `now`. -/
def Watched.initial (now : ℤ) : Watched where
  page := {}
  elapsed := 0
  last := now

def Watched.run (x : Watched) (es : List Event) : Watched := es.foldl Watched.step x

/-- What the component keeps, in terms of the observer. -/
structure Counts (x : Watched) : Prop where
  tidy : x.page.Tidy
  ready : x.page.state = .ready → x.page.remainingMs = timerDurationMs
  running : x.page.state = .running → x.page.deadline - x.last = timerDurationMs - x.elapsed
  paused : x.page.state = .paused →
    x.page.remainingMs = timerDurationMs - x.elapsed ∧ x.elapsed < timerDurationMs
  complete : x.page.state = .complete → x.page.remainingMs = 0

/-- A callback that runs, or the button that pauses. -/
def Page.Updates (p : Page) (e : Event) : Prop :=
  (∃ id ∈ p.scheduled, e.action = .tick id) ∨ (e.action = .toggle ∧ p.state = .running)

/-! ### One event -/

section

variable {x : Watched} {e : Event}

theorem counts_initial (now : ℤ) : Counts (.initial now) where
  tidy := tidy_initial
  ready _ := rfl
  running h := by cases h
  paused h := by cases h
  complete h := by cases h

/-- The observer while the component runs. -/
theorem elapsed_of_running (hrun : x.page.state = .running) (e : Event) :
    (x.step e).elapsed = x.elapsed + (e.now - x.last) := by
  have hno : ¬ x.page.Starts e := by
    rintro ⟨-, h | h⟩ <;> rw [hrun] at h <;> cases h
  rw [Watched.step, if_neg hno, if_pos hrun]

/-- ... while it does not run, ... -/
theorem elapsed_of_stopped (hno : ¬ x.page.Starts e) (hrun : x.page.state ≠ .running) :
    (x.step e).elapsed = x.elapsed := by
  rw [Watched.step, if_neg hno, if_neg hrun]

/-- ... and when a countdown starts. -/
theorem elapsed_of_starts (hstart : x.page.Starts e) : (x.step e).elapsed = 0 := by
  rw [Watched.step, if_pos hstart]

/-- Until the deadline is as long as the rest of the 25 minutes, at any time. -/
theorem Counts.deadline_sub (h : Counts x) (hrun : x.page.state = .running) (e : Event) :
    x.page.deadline - e.now = timerDurationMs - (x.step e).elapsed := by
  have hlast := h.running hrun
  rw [elapsed_of_running hrun]
  omega

/-- What is left when the button starts or resumes the countdown. -/
theorem Counts.remaining_start (h : Counts x) (hrun : x.page.state ≠ .running) (now : ℤ) :
    (if x.page.state = .complete then timerDurationMs else x.page.remainingMs) =
      timerDurationMs - (x.step ⟨now, .toggle⟩).elapsed := by
  cases hs : x.page.state with
  | ready =>
      rw [elapsed_of_starts ⟨rfl, .inl hs⟩, if_neg (by decide), h.ready hs, Int.sub_zero]
  | running => exact absurd hs hrun
  | paused =>
      have hno : ¬ x.page.Starts ⟨now, .toggle⟩ := by
        rintro ⟨-, h | h⟩ <;> cases hs.symm.trans h
      rw [elapsed_of_stopped hno hrun, if_neg (by decide), (h.paused hs).1]
  | complete => rw [elapsed_of_starts ⟨rfl, .inr hs⟩, if_pos rfl, Int.sub_zero]

/-- One event keeps the invariant. -/
theorem Counts.step (h : Counts x) (e : Event) : Counts (x.step e) := by
  have hm := step_moves h.tidy e
  have htidy := hm.tidy h.tidy
  have hdeadline := h.deadline_sub
  have hpage : (x.step e).page = x.page.step e := rfl
  have hlast : (x.step e).last = e.now := rfl
  generalize x.page.step e = p' at hm htidy hpage
  refine ⟨hpage ▸ htidy, ?_, ?_, ?_, ?_⟩ <;> rw [hpage] <;> intro hs
  · exact hm.remaining_of_ready h.ready hs
  · rw [hlast]
    cases hm with
    | idle hid => exact hdeadline hs _
    | count hid hrun hnow => exact hdeadline hrun _
    | start hrun =>
        dsimp only
        rw [Int.add_comm, Int.add_sub_cancel]
        exact h.remaining_start hrun _
    | _ => cases hs
  · cases hm with
    | idle hid =>
        rw [elapsed_of_stopped (fun hstart => by cases hstart.1) (by rw [hs]; decide)]
        exact h.paused hs
    | count hid hrun hnow => cases hrun.symm.trans hs
    | @pause now hrun hnow =>
        have hrest := hdeadline hrun ⟨now, .toggle⟩
        dsimp only at hrest ⊢
        exact ⟨hrest, by omega⟩
    | _ => cases hs
  · exact hm.remaining_of_complete h.complete hs

/-- The button starts or resumes a countdown that does not run, for the rest of
the 25 minutes; at a start nothing of them is spent. -/
theorem Counts.starts (h : Counts x) (hrun : x.page.state ≠ .running) (now : ℤ) :
    let x' := x.step ⟨now, .toggle⟩
    x'.page.state = .running ∧ (∃ id, x'.page.scheduled = [id]) ∧
      x'.page.remainingMs = timerDurationMs - x'.elapsed ∧
      x'.page.deadline = now + (timerDurationMs - x'.elapsed) ∧
      x'.elapsed = if x.page.state = .paused then x.elapsed else 0 := by
  intro x'
  have hm := step_moves h.tidy ⟨now, .toggle⟩
  have hrest := h.remaining_start hrun now
  have helapsed : x'.elapsed = if x.page.state = .paused then x.elapsed else 0 := by
    by_cases hpaused : x.page.state = .paused
    · have hno : ¬ x.page.Starts ⟨now, .toggle⟩ := by
        rintro ⟨-, hs | hs⟩ <;> cases hpaused.symm.trans hs
      rw [if_pos hpaused]
      exact elapsed_of_stopped hno hrun
    · have hstart : x.page.Starts ⟨now, .toggle⟩ := by
        refine ⟨rfl, ?_⟩
        cases hs : x.page.state with
        | ready => exact .inl rfl
        | complete => exact .inr rfl
        | running => exact absurd hs hrun
        | paused => exact absurd hs hpaused
      rw [if_neg hpaused]
      exact elapsed_of_starts hstart
  have hpage : x'.page = x.page.step ⟨now, .toggle⟩ := rfl
  change _ = timerDurationMs - x'.elapsed at hrest
  generalize x.page.step ⟨now, .toggle⟩ = p' at hm hpage
  rw [hpage]
  cases hm with
  | pause hstate | complete hstate => exact absurd hstate hrun
  | start => exact ⟨rfl, ⟨_, rfl⟩, hrest, congrArg (now + ·) hrest, helapsed⟩

/-- After a callback or the button that pauses, the rest of the 25 minutes is
shown, and they are over exactly if the component is complete. -/
theorem Counts.updates (h : Counts x) (hup : x.page.Updates e) :
    (x.step e).page.remainingMs = max 0 (timerDurationMs - (x.step e).elapsed) ∧
      ((x.step e).page.state = .complete ↔ timerDurationMs ≤ (x.step e).elapsed) := by
  have hm := step_moves h.tidy e
  have hdeadline := h.deadline_sub
  have hpage : (x.step e).page = x.page.step e := rfl
  generalize x.page.step e = p' at hm hpage
  rw [hpage]
  cases hm with
  | idle hid =>
      obtain ⟨id, hmem, hact⟩ | ⟨hact, -⟩ := hup
      · cases hact
        exact absurd hmem hid
      · cases hact
  | @count now id hid hrun hnow =>
      have hrest := hdeadline hrun ⟨now, .tick id⟩
      dsimp only at hrest ⊢
      rw [hrun, ← hrest, max_eq_right (by omega)]
      exact ⟨rfl, iff_of_false (by decide) (by omega)⟩
  | @pause now hrun hnow =>
      have hrest := hdeadline hrun ⟨now, .toggle⟩
      dsimp only at hrest ⊢
      rw [← hrest, max_eq_right (by omega)]
      exact ⟨rfl, iff_of_false (by decide) (by omega)⟩
  | @complete now action hrun hnow hact =>
      have hrest := hdeadline hrun ⟨now, action⟩
      dsimp only at hrest ⊢
      rw [← hrest, max_eq_left (by omega)]
      exact ⟨rfl, iff_of_true rfl (by omega)⟩
  | start hrun =>
      obtain ⟨id, -, hact⟩ | ⟨-, hstate⟩ := hup
      · cases hact
      · exact absurd hstate hrun
  | reset =>
      obtain ⟨id, -, hact⟩ | ⟨hact, -⟩ := hup <;> cases hact

/-- Nothing else completes the component. -/
theorem Counts.complete_of_step (h : Counts x) (hstate : x.page.state ≠ .complete)
    (hcomplete : (x.step e).page.state = .complete) : x.page.Updates e := by
  have hm := step_moves h.tidy e
  change (x.page.step e).state = .complete at hcomplete
  generalize x.page.step e = p' at hm hcomplete
  cases hm with
  | idle hid => exact absurd hcomplete hstate
  | count hid hrun hnow => cases hrun.symm.trans hcomplete
  | complete hrun hnow hact =>
      obtain rfl | ⟨id, hid, rfl⟩ := hact
      · exact .inr ⟨rfl, hrun⟩
      · exact .inl ⟨id, hid, rfl⟩
  | _ => cases hcomplete

end

/-! ### The callbacks do not matter -/

/-- The buttons, not a callback. -/
def Event.byUser (e : Event) : Bool :=
  match e.action with
  | .tick _ => false
  | _ => true

/-- Two components that differ at most in what they show while they run. -/
structure SameUnlessShown (p q : Page) : Prop where
  state : q.state = p.state
  deadline : p.state = .running → q.deadline = p.deadline
  remaining : p.state ≠ .running → q.remainingMs = p.remainingMs

section

variable {p q : Page} {e : Event}

/-- A button does the same to both. -/
theorem SameUnlessShown.step (h : SameUnlessShown p q) (hp : p.Tidy) (hq : q.Tidy)
    (he : e.byUser = true) : SameUnlessShown (p.step e) (q.step e) := by
  have hmp := step_moves hp e
  have hmq := step_moves hq e
  generalize p.step e = p' at hmp
  generalize q.step e = q' at hmq
  have hstate := h.state
  cases hmp with
  | idle hid => cases he
  | count hid hrun hnow => cases he
  | pause hrun hnow =>
      have hdeadline := h.deadline hrun
      cases hmq with
      | pause hrun' hnow' => exact ⟨rfl, fun h => (by cases h), fun _ => by dsimp only; omega⟩
      | complete hrun' hnow' hact => omega
      | start hrun' => exact absurd (hstate.trans hrun) hrun'
  | complete hrun hnow hact =>
      have hdeadline := h.deadline hrun
      cases hmq with
      | idle hid => cases he
      | count hid hrun' hnow' => cases he
      | pause hrun' hnow' => omega
      | complete hrun' hnow' hact' => exact ⟨rfl, fun _ => hdeadline, fun _ => rfl⟩
      | start hrun' => exact absurd (hstate.trans hrun) hrun'
      | reset =>
          obtain hact | ⟨id, -, hact⟩ := hact <;> cases hact
  | start hrun =>
      have hremaining := h.remaining hrun
      cases hmq with
      | pause hrun' hnow' => exact absurd (hstate.symm.trans hrun') hrun
      | complete hrun' hnow' hact' => exact absurd (hstate.symm.trans hrun') hrun
      | start hrun' => exact ⟨rfl, fun _ => by rw [hstate, hremaining], fun h => absurd rfl h⟩
  | reset =>
      cases hmq with
      | complete hrun' hnow' hact' =>
          obtain hact | ⟨id, -, hact⟩ := hact' <;> cases hact
      | reset => exact ⟨rfl, fun h => (by cases h), fun _ => rfl⟩

/-- A callback that does not complete the component changes what is shown. -/
theorem SameUnlessShown.tick (h : SameUnlessShown p q) (hp : p.Tidy) (he : e.byUser = false)
    (hshort : (p.step e).state ≠ .complete) : SameUnlessShown (p.step e) q := by
  have hmp := step_moves hp e
  generalize p.step e = p' at hmp hshort
  cases hmp with
  | idle hid => exact h
  | count hid hrun hnow => exact ⟨h.state, h.deadline, fun hstop => absurd hrun hstop⟩
  | complete hrun hnow hact => exact absurd rfl hshort
  | _ => cases he

/-- Events that never complete the component leave it as the buttons among them
do. -/
theorem SameUnlessShown.run (h : SameUnlessShown p q) (hp : p.Tidy) (hq : q.Tidy)
    (es : List Event) (hshort : ∀ pre, pre <+: es → (p.run pre).state ≠ .complete) :
    SameUnlessShown (p.run es) (q.run (es.filter Event.byUser)) := by
  induction es generalizing p q with
  | nil => exact h
  | cons e es ih =>
      have hrest : ∀ pre, pre <+: es → ((p.step e).run pre).state ≠ .complete := by
        intro pre hpre
        exact hshort (e :: pre) (List.cons_prefix_cons.mpr ⟨rfl, hpre⟩)
      have hp' := (step_moves hp e).tidy hp
      cases he : e.byUser with
      | true =>
          rw [List.filter_cons_of_pos he]
          exact ih (h.step hp hq he) hp' ((step_moves hq e).tidy hq) hrest
      | false =>
          rw [List.filter_cons_of_neg (by rw [he]; decide)]
          exact ih (h.tick hp he (hrest [] List.nil_prefix)) hp' hq hrest

end

/-! ### All runs -/

theorem counts_run {x : Watched} (h : Counts x) (es : List Event) : Counts (x.run es) := by
  induction es generalizing x with
  | nil => exact h
  | cons e es ih => exact ih (h.step e)

theorem page_run (x : Watched) (es : List Event) : (x.run es).page = x.page.run es := by
  induction es generalizing x with
  | nil => rfl
  | cons e es ih => exact ih (x.step e)

/-- No event of the list completes the component. -/
def StaysShort (start : ℤ) (es : List Event) : Prop :=
  ∀ pre, pre <+: es → ((Watched.initial start).run pre).page.state ≠ .complete

theorem StaysShort.page {start : ℤ} {es : List Event} (h : StaysShort start es) :
    ∀ pre, pre <+: es → (Page.run {} pre).state ≠ .complete := by
  intro pre hpre
  have hpage : ((Watched.initial start).run pre).page = Page.run {} pre := page_run _ pre
  rw [← hpage]
  exact h pre hpre

/-- **The countdown neither loses nor gains time.**  After any events, at any
readings of the clock: the button of a component that does not run starts a
countdown of 25 minutes, or resumes a paused one for the rest of them; a callback
or the button that pauses leaves the rest of the 25 minutes that were not spent
in `running`; the component becomes complete exactly at such an event, and
exactly if they are all spent; it is paused only while they are not.  And if
other callbacks come between the same buttons, and the component completes in
neither case, both keep the same at every pause. -/
theorem countdown (start : ℤ) (es : List Event) :
    let x := (Watched.initial start).run es
    (∀ now, x.page.state ≠ .running → let x' := x.step ⟨now, .toggle⟩
      x'.page.state = .running ∧ (∃ id, x'.page.scheduled = [id]) ∧
        x'.page.remainingMs = timerDurationMs - x'.elapsed ∧
        x'.page.deadline = now + (timerDurationMs - x'.elapsed) ∧
        x'.elapsed = if x.page.state = .paused then x.elapsed else 0) ∧
    (∀ e, let x' := x.step e
      (x.page.Updates e → x'.page.remainingMs = max 0 (timerDurationMs - x'.elapsed)) ∧
      (x.page.state ≠ .complete →
        (x'.page.state = .complete ↔ x.page.Updates e ∧ timerDurationMs ≤ x'.elapsed))) ∧
    (x.page.state = .paused → x.elapsed < timerDurationMs) ∧
    ∀ es', es'.filter Event.byUser = es.filter Event.byUser →
      StaysShort start es → StaysShort start es' →
      let y := (Watched.initial start).run es'
      y.page.state = x.page.state ∧
        (x.page.state = .paused → y.page.remainingMs = x.page.remainingMs) := by
  intro x
  have hx : Counts x := counts_run (counts_initial start) es
  refine ⟨fun now hrun => hx.starts hrun now,
    fun e => ⟨fun hup => (hx.updates hup).1, fun hstate => ?_⟩,
    fun hpaused => (hx.paused hpaused).2, fun es' hsame hshort hshort' => ?_⟩
  · constructor
    · intro hcomplete
      have hup := hx.complete_of_step hstate hcomplete
      exact ⟨hup, (hx.updates hup).2.mp hcomplete⟩
    · rintro ⟨hup, hover⟩
      exact (hx.updates hup).2.mpr hover
  · -- both runs are compared with the run of the buttons alone
    have hrefl : SameUnlessShown ({} : Page) {} := ⟨rfl, fun _ => rfl, fun _ => rfl⟩
    have h := hrefl.run tidy_initial tidy_initial es hshort.page
    have h' := hrefl.run tidy_initial tidy_initial es' hshort'.page
    rw [hsame] at h'
    intro y
    have hstate : y.page.state = x.page.state := by
      rw [page_run, page_run]
      exact h'.state.symm.trans h.state
    refine ⟨hstate, fun hpaused => ?_⟩
    have hstop : x.page.state ≠ .running := by
      rw [hpaused]
      decide
    have hstop' : y.page.state ≠ .running := hstate ▸ hstop
    rw [page_run] at hstop hstop' ⊢
    rw [page_run]
    exact (h'.remaining hstop').symm.trans (h.remaining hstop)

end Lockinspiel.Frontend
