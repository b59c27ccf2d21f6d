/-
Lockinspiel/Lib/Terminated.lean

Values that are written one after the other with a separator behind each; the
separator behind the last one may be missing.

The grammar is `Terminated`, over any grammar of the single values, and the
parser is `parseTerminated`, over any parser that takes one value from the front
of the tokens.  If that parser reads the grammar of the values (`Reads`), the
list is parsed exactly if it is derived (`parseTerminated_iff`), so a list is
derived in at most one way.
-/
import Mathlib.Data.List.Basic
import Mathlib.Data.List.Forall2

namespace Grammar

variable {τ α : Type}

/-- `as` is written as the tokens; `P a ts` says that `a` is written as `ts`. -/
inductive Terminated (isSep : τ → Bool) (P : α → List τ → Prop) : List α → List τ → Prop
  | nil : Terminated isSep P [] []
  | last {a ts} (h : P a ts) : Terminated isSep P [a] ts
  | cons {a ts t as rest} (h : P a ts) (ht : isSep t = true)
      (hrest : Terminated isSep P as rest) : Terminated isSep P (a :: as) (ts ++ t :: rest)

/-- Takes a value from the front of the tokens. -/
abbrev Parser (τ α : Type) := List τ → Option (α × List τ)

variable (isSep : τ → Bool) (parse : Parser τ α)

/-- At most `n` values: a value, then a separator unless the tokens are over. -/
def parseValues : ℕ → List τ → Option (List α)
  | _, [] => some []
  | 0, _ :: _ => none
  | n + 1, t :: ts => do
      let (a, rest) ← parse (t :: ts)
      match rest with
      | [] => return [a]
      | t :: rest =>
          if isSep t then
            let as ← parseValues n rest
            return a :: as
          else none

/-- All of the tokens.  A value takes at least one of them. -/
def parseTerminated (ts : List τ) : Option (List α) := parseValues isSep parse ts.length ts

/-- The parser takes what is written as a value, and all of it if a separator or
nothing follows. -/
structure Reads (P : α → List τ → Prop) : Prop where
  ne_nil : ∀ {a ts}, P a ts → ts ≠ []
  sound : ∀ {ts a rest}, parse ts = some (a, rest) → ∃ front, ts = front ++ rest ∧ P a front
  complete : ∀ {a front rest}, P a front → (∀ t ∈ rest.head?, isSep t = true) →
    parse (front ++ rest) = some (a, rest)

variable {isSep parse} {P : α → List τ → Prop}

theorem parseValues_sound (hP : Reads isSep parse P) (n : ℕ) {ts : List τ} {as : List α}
    (h : parseValues isSep parse n ts = some as) : Terminated isSep P as ts := by
  induction n generalizing ts as with
  | zero =>
      cases ts with
      | nil =>
          obtain rfl := Option.some.inj h
          exact .nil
      | cons t ts => cases h
  | succ n ih =>
      cases ts with
      | nil =>
          obtain rfl := Option.some.inj h
          exact .nil
      | cons t ts =>
          obtain ⟨⟨a, rest⟩, hparse, h⟩ := Option.bind_eq_some_iff.mp h
          obtain ⟨front, hfront, ha⟩ := hP.sound hparse
          rw [hfront]
          cases rest with
          | nil =>
              obtain rfl := Option.some.inj h
              rw [List.append_nil]
              exact .last ha
          | cons sep rest =>
              dsimp only at h
              split at h
              · obtain ⟨as, hrest, h⟩ := Option.bind_eq_some_iff.mp h
                obtain rfl := Option.some.inj h
                exact .cons ha ‹_› (ih hrest)
              · cases h

theorem parseValues_complete (hP : Reads isSep parse P) {ts : List τ} {as : List α}
    (h : Terminated isSep P as ts) (n : ℕ) (hn : ts.length ≤ n) :
    parseValues isSep parse n ts = some as := by
  induction h generalizing n with
  | nil =>
      cases n <;> rfl
  | @last a ts ha =>
      obtain ⟨t, ts, rfl⟩ := List.exists_cons_of_ne_nil (hP.ne_nil ha)
      obtain ⟨n, rfl⟩ := Nat.exists_eq_add_one_of_ne_zero (n := n) (by simp at hn; omega)
      have hparse : parse (t :: ts) = some (a, []) := by
        have hall : parse (t :: ts ++ []) = some (a, []) := hP.complete ha (by simp)
        rwa [List.append_nil] at hall
      rw [parseValues, hparse]
      rfl
  | @cons a ts sep as rest ha hsep hrest ih =>
      obtain ⟨t, ts, rfl⟩ := List.exists_cons_of_ne_nil (hP.ne_nil ha)
      obtain ⟨n, rfl⟩ := Nat.exists_eq_add_one_of_ne_zero (n := n) (by simp at hn; omega)
      have hparse : parse (t :: (ts ++ sep :: rest)) = some (a, sep :: rest) :=
        hP.complete ha (by simpa using hsep)
      rw [List.cons_append, parseValues, hparse]
      show (if isSep sep then _ else none) = _
      rw [if_pos hsep, ih n (by simp at hn; omega)]
      rfl

/-- **The parser accepts exactly the grammar.** -/
theorem parseTerminated_iff (hP : Reads isSep parse P) (ts : List τ) (as : List α) :
    parseTerminated isSep parse ts = some as ↔ Terminated isSep P as ts :=
  ⟨parseValues_sound hP _, fun h => parseValues_complete hP h _ (Nat.le_refl _)⟩

/-- Values with a separator between any two. -/
theorem Terminated.intercalate {t : τ} (ht : isSep t = true) {as : List α} {tss : List (List τ)}
    (h : List.Forall₂ P as tss) : Terminated isSep P as ([t].intercalate tss) := by
  induction h with
  | nil => exact .nil
  | @cons a ts as tss ha h ih =>
      cases h with
      | nil =>
          rw [List.intercalate_singleton]
          exact .last ha
      | cons =>
          rw [List.intercalate_cons_cons, List.append_assoc]
          exact .cons ha ht ih

theorem Terminated.exists_of_mem {ts : List τ} {as : List α} (h : Terminated isSep P as ts)
    {a : α} (ha : a ∈ as) : ∃ ts, P a ts := by
  induction h with
  | nil => cases ha
  | last h =>
      rw [List.mem_singleton] at ha
      exact ⟨_, ha ▸ h⟩
  | cons h _ _ ih =>
      obtain rfl | ha := List.mem_cons.mp ha
      · exact ⟨_, h⟩
      · exact ih ha

/-- What is written tells the values. -/
theorem Terminated.unique (hP : Reads isSep parse P) {ts : List τ} {as as' : List α}
    (h : Terminated isSep P as ts) (h' : Terminated isSep P as' ts) : as = as' :=
  Option.some.inj (((parseTerminated_iff hP ts as).mpr h).symm.trans
    ((parseTerminated_iff hP ts as').mpr h'))

end Grammar
