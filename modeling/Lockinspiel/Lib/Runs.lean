/-
Lockinspiel/Lib/Runs.lean

Runs of a machine that takes one step after the other, and what can be said
about every moment of one.

A run is `List.foldl`: its moments are the states after the first so many
steps.  `always_of_eachStep` is the rule for a property that a step keeps if it
meets a condition, and `always_iff_eachStep` for one that it keeps exactly then:
the property holds at every moment of a run exactly if every step of the run
meets the condition where it is taken.
-/
import Mathlib.Logic.Basic

namespace Runs

variable {σ A : Type} (step : σ → A → σ)

/-- `I` holds at every moment of the run. -/
def Always (I : σ → Prop) (as : List A) (s : σ) : Prop :=
  ∀ before after, as = before ++ after → I (before.foldl step s)

/-- Every step of the run meets the condition where it is taken. -/
def EachStep (Ok : σ → A → Prop) (as : List A) (s : σ) : Prop :=
  ∀ before a after, as = before ++ a :: after → Ok (before.foldl step s) a

variable {step} {I : σ → Prop} {Ok : σ → A → Prop} {a : A} {as : List A} {s : σ}

theorem always_nil : Always step I [] s ↔ I s := by
  constructor
  · intro h
    exact h [] [] rfl
  · intro h before after heq
    obtain ⟨rfl, -⟩ := List.append_eq_nil_iff.mp heq.symm
    exact h

theorem always_cons : Always step I (a :: as) s ↔ I s ∧ Always step I as (step s a) := by
  constructor
  · intro h
    refine ⟨h [] _ rfl, fun before after heq => h (a :: before) after ?_⟩
    rw [heq, List.cons_append]
  · rintro ⟨hs, h⟩ before after heq
    rcases List.cons_eq_append_iff.mp heq with ⟨rfl, -⟩ | ⟨before', rfl, hrest⟩
    · exact hs
    · exact h before' after hrest

theorem eachStep_nil : EachStep step Ok [] s := by
  intro before a after heq
  exact absurd heq.symm (by simp)

theorem eachStep_cons :
    EachStep step Ok (a :: as) s ↔ Ok s a ∧ EachStep step Ok as (step s a) := by
  constructor
  · intro h
    refine ⟨h [] a as rfl, fun before b after heq => h (a :: before) b after ?_⟩
    rw [heq, List.cons_append]
  · rintro ⟨hs, h⟩ before b after heq
    rcases List.cons_eq_append_iff.mp heq with ⟨rfl, hcons⟩ | ⟨before', rfl, hrest⟩
    · obtain ⟨rfl, rfl⟩ := List.cons.inj hcons
      exact hs
    · exact h before' b after hrest

instance decidableEachStep [∀ s, DecidablePred (Ok s)] :
    ∀ as s, Decidable (EachStep step Ok as s)
  | [], _ => isTrue eachStep_nil
  | a :: as, s =>
      have := decidableEachStep as (step s a)
      decidable_of_iff (Ok s a ∧ EachStep step Ok as (step s a)) eachStep_cons.symm

/-- What every step keeps that meets the condition. -/
theorem always_of_eachStep (hstep : ∀ s a, I s → Ok s a → I (step s a)) (as : List A) (s : σ)
    (hs : I s) (h : EachStep step Ok as s) : Always step I as s := by
  induction as generalizing s with
  | nil => exact always_nil.mpr hs
  | cons a as ih =>
      obtain ⟨hok, h⟩ := eachStep_cons.mp h
      exact always_cons.mpr ⟨hs, ih _ (hstep s a hs hok) h⟩

/-- **Good at every moment.**  What a step keeps exactly if it meets the
condition. -/
theorem always_iff_eachStep (hstep : ∀ s a, I s → (I (step s a) ↔ Ok s a)) (as : List A)
    (s : σ) (hs : I s) : Always step I as s ↔ EachStep step Ok as s := by
  induction as generalizing s with
  | nil => exact ⟨fun _ => eachStep_nil, fun _ => always_nil.mpr hs⟩
  | cons a as ih =>
      rw [always_cons, eachStep_cons]
      constructor
      · rintro ⟨-, h⟩
        have hs' : I (step s a) := h [] as rfl
        exact ⟨(hstep s a hs).mp hs', (ih _ hs').mp h⟩
      · rintro ⟨hok, h⟩
        exact ⟨hs, (ih _ ((hstep s a hs).mpr hok)).mpr h⟩

/-! ### Runs of a relation -/

/-- `s'` can come after `s`, one step for every label. -/
def Path (R : A → σ → σ → Prop) : List A → σ → σ → Prop
  | [], s, s' => s = s'
  | a :: as, s, s' => ∃ t, R a s t ∧ Path R as t s'

end Runs
