/-
Lockinspiel/Lib/History.lean

What the clients of a system see: the threads that have ended, each with its
value, in the order in which they ended.

A thread that ended before another one started stands before it in the
history, so a history that is allowed, entry after entry, by an abstract state
is a linearization: the clients cannot tell the system from the abstract state
that takes the ended threads one at a time.  `System.history_refines` is the
rule.  The abstract state has to follow the store where a thread ends, and
nowhere else, and the value of a thread has to be one that the abstract state
allows.
-/
import Lockinspiel.Lib.Program
import Lockinspiel.Lib.Runs

namespace Effects

open Runs

variable {S : Sig} {L A α β σ κ : Type}

/-! ### Where a program stands -/

/-- `q` is what is left of `p` after the answers `past`, the last first. -/
inductive Program.After (p : Program S α) : List S.Event → Program S α → Prop
  | start : After p [] p
  | answer {past op k} (h : After p past (.call op k)) (r : S.Res op) :
      After p (⟨op, r⟩ :: past) (k r)

/-- Nothing comes after the value of a program. -/
theorem Program.After.of_done {a : α} {past : List S.Event} {q : Program S α}
    (h : After (.done a) past q) : past = [] ∧ q = .done a := by
  induction h with
  | start => exact ⟨rfl, rfl⟩
  | answer _ _ ih => cases ih.2

/-- What the program asks and comes to, the rest of it asks and comes to. -/
theorem Program.After.follows {R : List S.Event → S.Op → Prop} {Q : List S.Event → α → Prop}
    {p q : Program S α} {past : List S.Event} (h : After p past q) (hp : p.Follows R Q []) :
    q.Follows R Q past := by
  induction h with
  | start => exact hp
  | answer _ r ih => exact ih.2 r

/-- A program that asks one operation is about to ask it, or has ended. -/
theorem Program.After.of_single {op₀ op : S.Op} {k₀ : S.Res op₀ → Program S α}
    {k : S.Res op → Program S α} {past : List S.Event} (hk₀ : ∀ r, ∃ a, k₀ r = .done a)
    (h : After (.call op₀ k₀) past (.call op k)) :
    past = [] ∧ Program.call op k = .call op₀ k₀ := by
  have hall : ∀ past q, After (.call op₀ k₀) past q →
      (past = [] ∧ q = .call op₀ k₀) ∨ ∃ a, q = .done a := by
    intro past q hq
    induction hq with
    | start => exact .inl ⟨rfl, rfl⟩
    | answer _ r ih =>
        obtain ⟨-, heq⟩ | ⟨a, ha⟩ := ih
        · obtain ⟨rfl, hk⟩ := Program.call.inj heq
          cases hk
          exact .inr (hk₀ r)
        · cases ha
  obtain hstart | ⟨a, ha⟩ := hall _ _ h
  · exact hstart
  · cases ha

/-! ### The threads that have ended -/

/-- The value of a thread that has ended, with what belongs to the thread. -/
def Thread.ended : Thread S L α → Option (L × α)
  | ⟨l, _, .done a⟩ => some (l, a)
  | _ => none

namespace System

variable (sys : System S L α σ κ A)

/-- The threads that end with an act. -/
def ends (cfg : Config S L α σ) : Act A κ → List (L × α)
  | .arrive a => (sys.start a).ended.toList
  | .step i c =>
      match cfg.threads[i]? with
      | some ⟨l, past, .call op k⟩ =>
          (resume l past op k (sys.exec l c op cfg.shared).1).ended.toList
      | _ => []

/-- The threads that end in a run, in the order in which they end. -/
def history : List (Act A κ) → Config S L α σ → List (L × α)
  | [], _ => []
  | a :: as, cfg => sys.ends cfg a ++ history as (sys.act cfg a)

variable {sys}

/-- The threads that have ended, in the order in which they started. -/
def finished (cfg : Config S L α σ) : List (L × α) := cfg.threads.filterMap Thread.ended

/-- A thread that answers leaves its place to what it has become. -/
theorem filterMap_set {γ δ : Type} {f : γ → Option δ} {l : List γ} {i : ℕ} {x y : γ}
    (hi : l[i]? = some x) (hx : f x = none) :
    ((l.set i y).filterMap f).Perm (l.filterMap f ++ (f y).toList) := by
  induction l generalizing i with
  | nil => cases hi
  | cons z l ih =>
      cases i with
      | zero =>
          obtain rfl := Option.some.inj hi
          rw [List.set_cons_zero, List.filterMap_cons_none hx]
          rcases hy : f y with - | d
          · rw [List.filterMap_cons_none hy]
            simp
          · rw [List.filterMap_cons_some hy]
            exact (List.perm_append_singleton d _).symm
      | succ i =>
          have hset := ih hi
          rw [List.set_cons_succ]
          rcases hz : f z with - | d
          · rw [List.filterMap_cons_none hz, List.filterMap_cons_none hz]
            exact hset
          · rw [List.filterMap_cons_some hz, List.filterMap_cons_some hz]
            exact hset.cons d

/-- **The history has every ended thread once.** -/
theorem history_perm (acts : List (Act A κ)) (cfg : Config S L α σ) :
    (finished (sys.run acts cfg)).Perm (finished cfg ++ sys.history acts cfg) := by
  induction acts generalizing cfg with
  | nil => simp [history]
  | cons a as ih =>
      rw [run_cons, history, ← List.append_assoc]
      refine (ih _).trans (List.Perm.append_right _ ?_)
      cases a with
      | arrive a =>
          rw [finished, act, List.filterMap_append]
          rcases hended : (sys.start a).ended with - | v <;> simp [ends, hended, finished]
      | step i c =>
          rcases hi : cfg.threads[i]? with - | ⟨l, past, v | ⟨op, k⟩⟩
          · simp only [act, ends, hi]
            simp
          · simp only [act, ends, hi]
            simp
          · simp only [act, ends, hi]
            exact filterMap_set hi rfl

/-! ### The rule -/

section

variable {P : Thread S L α → Prop} {R : σ → β → Prop} {record : β → L × α → β}
  {Allowed : β → L × α → Prop}

/-- The abstract state after a thread: it follows only a thread that has
ended. -/
def recorded (record : β → L × α → β) (b : β) (t : Thread S L α) : β :=
  t.ended.elim b (record b)

/-- A thread that has come to a value that is recorded and allowed. -/
theorem recorded_of_done {l : L} {past : List S.Event} {p : Program S α} {s : σ} {b : β} {a : α}
    (hp : p = .done a) (h : R s (record b (l, a)) ∧ Allowed b (l, a)) :
    R s (recorded record b ⟨l, past, p⟩) ∧ ∀ w ∈ Thread.ended ⟨l, past, p⟩, Allowed b w := by
  subst hp
  refine ⟨h.1, fun w hw => ?_⟩
  cases hw
  exact h.2

/-- A thread that the abstract state is not about. -/
theorem recorded_of_other {l : L} {past : List S.Event} {p : Program S α} {s : σ} {b : β}
    (hs : R s b) (h : ∀ a, record b (l, a) = b ∧ Allowed b (l, a)) :
    R s (recorded record b ⟨l, past, p⟩) ∧ ∀ w ∈ Thread.ended ⟨l, past, p⟩, Allowed b w := by
  cases p with
  | done a =>
      refine recorded_of_done rfl ⟨?_, (h a).2⟩
      rw [(h a).1]
      exact hs
  | call op k => exact ⟨hs, fun _ hw => by cases hw⟩

/-- **Linearization.**  Let `R` relate stores and abstract states, and `P` hold
of every thread.  If a thread that starts, and a thread that gets an answer,
keep `R` with the abstract state that has recorded the thread if it has ended,
and an ended thread is one that the abstract state before it allows, then after
every run the store is related to the record of the history, and every entry
of the history is allowed after those before it. -/
theorem history_refines (hstart : ∀ a, P (sys.start a))
    (hresume : ∀ l past op k, P ⟨l, past, .call op k⟩ → ∀ r, P (resume l past op k r))
    (hended : ∀ a s b, R s b → ∀ v ∈ (sys.start a).ended, R s (record b v) ∧ Allowed b v)
    (hanswer : ∀ l past op k c s b, P ⟨l, past, .call op k⟩ → R s b →
      let t := resume l past op k (sys.exec l c op s).1
      R (sys.exec l c op s).2 (recorded record b t) ∧ ∀ v ∈ t.ended, Allowed b v)
    (acts : List (Act A κ)) (cfg : Config S L α σ) (b : β) (hcfg : ∀ t ∈ cfg.threads, P t)
    (hR : R cfg.shared b) :
    R (sys.run acts cfg).shared ((sys.history acts cfg).foldl record b) ∧
      EachStep record Allowed (sys.history acts cfg) b := by
  induction acts generalizing cfg b with
  | nil => exact ⟨hR, eachStep_nil⟩
  | cons a as ih =>
      -- one act ends at most one thread
      have hact : ∀ v : Option (L × α), sys.ends cfg a = v.toList →
          R (sys.act cfg a).shared (v.elim b (record b)) → (∀ w ∈ v, Allowed b w) →
          R (sys.run (a :: as) cfg).shared ((sys.history (a :: as) cfg).foldl record b) ∧
            EachStep record Allowed (sys.history (a :: as) cfg) b := by
        intro v hends hshared hallowed
        have hthreads := thread_invariant hstart hresume [a] cfg hcfg
        rw [run_cons, history, hends]
        cases v with
        | none => exact ih _ b hthreads hshared
        | some w =>
            obtain ⟨hrest, heach⟩ := ih _ (record b w) hthreads hshared
            exact ⟨hrest, eachStep_cons.mpr ⟨hallowed w rfl, heach⟩⟩
      cases a with
      | arrive a =>
          refine hact (sys.start a).ended rfl ?_ fun v hv => (hended a cfg.shared b hR v hv).2
          rcases hv : (sys.start a).ended with - | v
          · exact hR
          · exact (hended a cfg.shared b hR v hv).1
      | step i c =>
          rcases hi : cfg.threads[i]? with - | ⟨l, past, v | ⟨op, k⟩⟩
          · refine hact none (by simp only [ends, hi]; rfl) ?_ (fun _ h => by cases h)
            simp only [act, hi]
            exact hR
          · refine hact none (by simp only [ends, hi]; rfl) ?_ (fun _ h => by cases h)
            simp only [act, hi]
            exact hR
          · obtain ⟨hR', hallowed⟩ := hanswer l past op k c cfg.shared b
              (hcfg _ (List.mem_of_getElem? hi)) hR
            refine hact _ (by simp only [ends, hi]) ?_ hallowed
            simp only [act, hi]
            exact hR'

end

end System

end Effects
