/-
Lockinspiel/Lib/Program.lean

Programs that talk to a shared store, and what happens when many of them run
at once.

A `Program S α` is a tree of operations of the signature `S`: it is either
finished with a value, or it asks one operation and goes on with the answer.
The same tree is read in two ways:

* `Program.run` runs one program alone, from its first operation to its
  value;
* a `System` starts such programs as threads and lets them take one operation
  each in any order (`System.run`, over a list of `Act`s).

Whatever the store may decide for itself (a failure, the order of an answer)
is the *choice* that each operation is run with, so both readings are
functions, and a statement about every run is a statement about every list of
acts or every stream of choices.

Main results: the induction rules.  `Program.run_invariant` is the one for a
program alone, `System.run_invariant` the one for threads, with a condition
on the acts; `System.interference_free` is the form for a store invariant
together with one assertion per thread, where an operation of one thread has
to keep the assertions of the others.  `System.run_alone` says that a program
run alone is one of the interleavings.
-/
import Mathlib.Data.List.Basic

namespace Effects

/-- A signature of operations: what a program may ask for, and the type of
the answer to each. -/
structure Sig where
  Op : Type
  Res : Op → Type

/-- An operation that was asked, with its answer. -/
abbrev Sig.Event (S : Sig) : Type := Σ op : S.Op, S.Res op

/-- A program over `S`: finished, or waiting for the answer to one
operation. -/
inductive Program (S : Sig) (α : Type) : Type
  | done (a : α)
  | call (op : S.Op) (k : S.Res op → Program S α)

variable {S : Sig} {α β σ κ : Type}

namespace Program

/-- Run `p`, then `f` on its value. -/
def bind : Program S α → (α → Program S β) → Program S β
  | done a, f => f a
  | call op k, f => call op fun r => (k r).bind f

instance : Monad (Program S) where
  pure := done
  bind := bind

theorem bind_done : ∀ p : Program S α, p.bind done = p
  | done _ => rfl
  | call op k => congrArg (call op) (funext fun r => bind_done (k r))

theorem bind_bind {γ : Type} (f : α → Program S β) (g : β → Program S γ) :
    ∀ p : Program S α, (p.bind f).bind g = p.bind fun a => (f a).bind g
  | done _ => rfl
  | call op k => congrArg (call op) (funext fun r => bind_bind f g (k r))

instance : LawfulMonad (Program S) :=
  LawfulMonad.mk' (Program S) bind_done (fun _ _ => rfl) fun p f g => bind_bind f g p

/-- The operation a program is about to ask. -/
def next : Program S α → Option S.Op
  | done _ => none
  | call op _ => some op

/-! ### One program alone -/

/-- Run a program to its value; the `n`-th operation is run with the choice
`c n`. -/
def run (exec : κ → (op : S.Op) → σ → S.Res op × σ) :
    (ℕ → κ) → Program S α → σ → α × σ
  | _, done a, s => (a, s)
  | c, call op k, s =>
      run exec (fun n => c (n + 1)) (k (exec (c 0) op s).1) (exec (c 0) op s).2

variable {exec : κ → (op : S.Op) → σ → S.Res op × σ}

@[simp] theorem run_done (c : ℕ → κ) (a : α) (s : σ) :
    run exec c (done a : Program S α) s = (a, s) := rfl

theorem run_call (c : ℕ → κ) (op : S.Op) (k : S.Res op → Program S α) (s : σ) :
    run exec c (call op k) s = run exec (fun n => c (n + 1))
      (k (exec (c 0) op s).1) (exec (c 0) op s).2 := rfl

/-- The operations a run asks, in order, each with the store it is asked
in. -/
def asked (exec : κ → (op : S.Op) → σ → S.Res op × σ) :
    (ℕ → κ) → Program S α → σ → List (S.Op × σ)
  | _, done _, _ => []
  | c, call op k, s =>
      (op, s) :: asked exec (fun n => c (n + 1)) (k (exec (c 0) op s).1) (exec (c 0) op s).2

/-- What every operation keeps holds in every store of the run. -/
theorem asked_invariant {I : σ → Prop} (h : ∀ c op s, I s → I (exec c op s).2) :
    ∀ (p : Program S α) (c : ℕ → κ) (s : σ), I s → ∀ a ∈ asked exec c p s, I a.2
  | done _, _, _, _, _, ha => by cases ha
  | call op k, c, s, hs, a, ha => by
      rcases List.mem_cons.mp ha with rfl | ha
      · exact hs
      · exact asked_invariant h _ _ _ (h _ _ _ hs) a ha

/-- What every operation keeps, a program alone keeps. -/
theorem run_invariant {I : σ → Prop} (h : ∀ c op s, I s → I (exec c op s).2) :
    ∀ (p : Program S α) (c : ℕ → κ) (s : σ), I s → I (run exec c p s).2
  | done _, _, _, hs => hs
  | call op k, c, s, hs => by
      rw [run_call]
      exact run_invariant h _ _ _ (h _ _ _ hs)

/-! ### What a program does along the way -/

/-- Given what was asked before (the last first), every operation the program
can come to ask satisfies `R`, and every value it can come to satisfies
`Q`. -/
def Follows (R : List S.Event → S.Op → Prop) (Q : List S.Event → α → Prop) :
    List S.Event → Program S α → Prop
  | past, done a => Q past a
  | past, call op k => R past op ∧ ∀ r, Follows R Q (⟨op, r⟩ :: past) (k r)

/-- What every operation keeps that a program can come to ask, the program
keeps. -/
theorem run_follows {I : σ → Prop} {R : List S.Event → S.Op → Prop}
    {Q : List S.Event → α → Prop}
    (h : ∀ past c op s, R past op → I s → I (exec c op s).2) :
    ∀ (p : Program S α) (past : List S.Event) (c : ℕ → κ) (s : σ), p.Follows R Q past → I s →
      I (run exec c p s).2
  | done _, _, _, _, _, hs => hs
  | call op k, past, c, s, hp, hs => by
      rw [run_call]
      exact run_follows h _ _ _ _ (hp.2 _) (h past _ _ _ hp.1 hs)

/-- The same for what is known of the answers as well. -/
theorem run_follows_past {I : List S.Event → σ → Prop} {R : List S.Event → S.Op → Prop}
    {Q : List S.Event → α → Prop}
    (h : ∀ past c op s, R past op → I past s →
      I (⟨op, (exec c op s).1⟩ :: past) (exec c op s).2) :
    ∀ (p : Program S α) (past : List S.Event) (c : ℕ → κ) (s : σ), p.Follows R Q past →
      I past s → ∃ past', Q past' (run exec c p s).1 ∧ I past' (run exec c p s).2
  | done _, past, _, _, hp, hs => ⟨past, hp, hs⟩
  | call op k, past, c, s, hp, hs => by
      rw [run_call]
      exact run_follows_past h _ _ _ _ (hp.2 _) (h past _ _ _ hp.1 hs)

end Program

/-! ### Many programs over one store -/

variable {L A : Type}

/-- A running program, with what belongs to it alone and a record of what it
has asked so far, the last first. -/
structure Thread (S : Sig) (L α : Type) where
  loc : L
  past : List S.Event
  prog : Program S α

/-- The store and the threads.  A finished thread stays in the list, with its
value. -/
structure Config (S : Sig) (L α σ : Type) where
  shared : σ
  threads : List (Thread S L α)

/-- What can happen next: a new thread starts, or thread `i` asks its next
operation. -/
inductive Act (A κ : Type)
  | arrive (a : A)
  | step (i : ℕ) (choice : κ)

/-- How threads start and how the store answers them. -/
structure System (S : Sig) (L α σ κ A : Type) where
  start : A → Thread S L α
  exec : L → κ → (op : S.Op) → σ → S.Res op × σ

namespace System

variable (sys : System S L α σ κ A)

/-- A thread at `call op k`, after it got the answer `r`. -/
def resume (l : L) (past : List S.Event) (op : S.Op) (k : S.Res op → Program S α)
    (r : S.Res op) : Thread S L α :=
  ⟨l, ⟨op, r⟩ :: past, k r⟩

/-- The configuration after thread `i`, which stands at `call op k`, has asked
its operation. -/
def answer (cfg : Config S L α σ) (i : ℕ) (c : κ) (l : L) (past : List S.Event)
    (op : S.Op) (k : S.Res op → Program S α) : Config S L α σ where
  shared := (sys.exec l c op cfg.shared).2
  threads := cfg.threads.set i (resume l past op k (sys.exec l c op cfg.shared).1)

/-- One act.  A step of a thread that is finished or does not exist changes
nothing. -/
def act (cfg : Config S L α σ) : Act A κ → Config S L α σ
  | .arrive a => { cfg with threads := cfg.threads ++ [sys.start a] }
  | .step i c =>
      match cfg.threads[i]? with
      | some ⟨l, past, .call op k⟩ => sys.answer cfg i c l past op k
      | _ => cfg

/-- A run: any acts in any order. -/
def run (acts : List (Act A κ)) (cfg : Config S L α σ) : Config S L α σ :=
  acts.foldl sys.act cfg

/-- Every act of the run meets the condition `Ok` where it happens. -/
def Meets (Ok : Config S L α σ → Act A κ → Prop) :
    List (Act A κ) → Config S L α σ → Prop
  | [], _ => True
  | a :: as, cfg => Ok cfg a ∧ Meets Ok as (sys.act cfg a)

instance decidableMeets (Ok : Config S L α σ → Act A κ → Prop)
    [∀ cfg, DecidablePred (Ok cfg)] :
    ∀ acts cfg, Decidable (sys.Meets Ok acts cfg)
  | [], _ => inferInstanceAs (Decidable True)
  | a :: as, cfg =>
      have := decidableMeets Ok as (sys.act cfg a)
      inferInstanceAs (Decidable (Ok cfg a ∧ sys.Meets Ok as (sys.act cfg a)))

/-- A step either answers a waiting thread or changes nothing. -/
theorem act_step_cases (cfg : Config S L α σ) (i : ℕ) (c : κ) :
    (∃ l past op k, cfg.threads[i]? = some ⟨l, past, .call op k⟩ ∧
      sys.act cfg (.step i c) = sys.answer cfg i c l past op k) ∨
    sys.act cfg (.step i c) = cfg := by
  rcases h : cfg.threads[i]? with - | ⟨l, past, a | ⟨op, k⟩⟩
  · exact .inr (by simp only [act, h])
  · exact .inr (by simp only [act, h])
  · exact .inl ⟨l, past, op, k, rfl, by simp only [act, h]⟩

/-- A step of a thread that waits for an answer. -/
theorem act_of_call {cfg : Config S L α σ} {i : ℕ} {l : L} {past : List S.Event} {op : S.Op}
    {k : S.Res op → Program S α} (hi : cfg.threads[i]? = some ⟨l, past, .call op k⟩) (c : κ) :
    sys.act cfg (.step i c) = sys.answer cfg i c l past op k := by
  simp only [act, hi]

variable {sys}

@[simp] theorem run_nil (cfg : Config S L α σ) : sys.run [] cfg = cfg := rfl

@[simp] theorem run_cons (a : Act A κ) (as : List (Act A κ)) (cfg : Config S L α σ) :
    sys.run (a :: as) cfg = sys.run as (sys.act cfg a) := rfl

theorem run_append (as bs : List (Act A κ)) (cfg : Config S L α σ) :
    sys.run (as ++ bs) cfg = sys.run bs (sys.run as cfg) :=
  List.foldl_append

/-! ### The rules -/

/-- **Invariants of conditioned runs.**  What a new thread keeps, and every
answered operation keeps where the condition holds, holds after the run. -/
theorem run_invariant {I : Config S L α σ → Prop}
    {Ok : Config S L α σ → Act A κ → Prop}
    (harrive : ∀ cfg a, I cfg → I { cfg with threads := cfg.threads ++ [sys.start a] })
    (hstep : ∀ cfg i c l past op k, cfg.threads[i]? = some ⟨l, past, .call op k⟩ →
      Ok cfg (.step i c) → I cfg → I (sys.answer cfg i c l past op k)) :
    ∀ acts cfg, sys.Meets Ok acts cfg → I cfg → I (sys.run acts cfg)
  | [], _, _, hI => hI
  | a :: as, cfg, hOk, hI => by
      refine run_invariant harrive hstep as (sys.act cfg a) hOk.2 ?_
      cases a with
      | arrive a => exact harrive cfg a hI
      | step i c =>
          obtain ⟨l, past, op, k, hi, h⟩ | h := sys.act_step_cases cfg i c
          · rw [h]
            exact hstep cfg i c l past op k hi hOk.1 hI
          · rw [h]
            exact hI

theorem meets_true : ∀ (acts : List (Act A κ)) (cfg : Config S L α σ),
    sys.Meets (fun _ _ => True) acts cfg
  | [], _ => trivial
  | _ :: as, _ => ⟨trivial, meets_true as _⟩

/-- What holds of the threads that start in a run, and the answers that operations
really give keep, holds of all threads. -/
theorem exec_invariant {P : Thread S L α → Prop} (acts : List (Act A κ))
    (hstart : ∀ a, .arrive a ∈ acts → P (sys.start a))
    (hanswer : ∀ l past op k c s, P ⟨l, past, .call op k⟩ →
      P (resume l past op k (sys.exec l c op s).1))
    (cfg : Config S L α σ) (hcfg : ∀ t ∈ cfg.threads, P t) :
    ∀ t ∈ (sys.run acts cfg).threads, P t := by
  induction acts generalizing cfg with
  | nil => exact hcfg
  | cons a as ih =>
      refine ih (fun a ha => hstart a (List.mem_cons_of_mem _ ha)) (sys.act cfg a) ?_
      intro t ht
      cases a with
      | arrive a =>
          rcases List.mem_append.mp ht with ht | ht
          · exact hcfg t ht
          · rw [List.mem_singleton.mp ht]
            exact hstart a List.mem_cons_self
      | step i c =>
          obtain ⟨l, past, op, k, hi, h⟩ | h := sys.act_step_cases cfg i c <;> rw [h] at ht
          · rcases List.mem_or_eq_of_mem_set ht with ht | rfl
            · exact hcfg t ht
            · exact hanswer l past op k c cfg.shared (hcfg _ (List.mem_of_getElem? hi))
          · exact hcfg t ht

/-- What every answer keeps of a thread holds of all threads. -/
theorem thread_invariant {P : Thread S L α → Prop} (hstart : ∀ a, P (sys.start a))
    (hanswer : ∀ l past op k, P ⟨l, past, .call op k⟩ → ∀ r, P (resume l past op k r))
    (acts : List (Act A κ)) (cfg : Config S L α σ) (hcfg : ∀ t ∈ cfg.threads, P t) :
    ∀ t ∈ (sys.run acts cfg).threads, P t :=
  exec_invariant acts (fun a _ => hstart a) (fun l past op k _ _ h => hanswer l past op k h _) cfg
    hcfg

/-- A store invariant, an assertion of every thread about the store, and a
relation between any two different threads. -/
structure Safe (I : σ → Prop) (T : Thread S L α → σ → Prop)
    (X : Thread S L α → Thread S L α → Prop) (cfg : Config S L α σ) : Prop where
  store : I cfg.shared
  thread : ∀ (i : ℕ) t, cfg.threads[i]? = some t → T t cfg.shared
  apart : ∀ (i j : ℕ) t u, i ≠ j → cfg.threads[i]? = some t → cfg.threads[j]? = some u → X t u

section

variable {I : σ → Prop} {T : Thread S L α → σ → Prop} {X : Thread S L α → Thread S L α → Prop}

/-- A new thread joins threads that are safe. -/
theorem Safe.arrive {cfg : Config S L α σ} (h : Safe I T X cfg) {x : Thread S L α}
    (hT : T x cfg.shared) (hX : ∀ t, X x t) (hsymm : ∀ {t u}, X t u → X u t) :
    Safe I T X ⟨cfg.shared, cfg.threads ++ [x]⟩ := by
  -- a position of the longer list is an old one or the new last one
  have hpos : ∀ i t, (cfg.threads ++ [x])[i]? = some t →
      cfg.threads[i]? = some t ∨ (i = cfg.threads.length ∧ t = x) := by
    intro i t hi
    rw [List.getElem?_append] at hi
    split at hi
    · exact .inl hi
    · refine .inr ?_
      obtain ⟨hlt, hget⟩ := List.getElem?_eq_some_iff.mp hi
      simp only [List.length_singleton] at hlt
      exact ⟨by omega, by simpa using hget.symm⟩
  refine ⟨h.store, fun i t hi => ?_, fun i j t u hij hi hj => ?_⟩
  · obtain hi | ⟨-, rfl⟩ := hpos i t hi
    · exact h.thread i t hi
    · exact hT
  · obtain hi | ⟨hi, rfl⟩ := hpos i t hi
    · obtain hj | ⟨-, rfl⟩ := hpos j u hj
      · exact h.apart i j t u hij hi hj
      · exact hsymm (hX t)
    · exact hX u

/-- One thread moves, and keeps what is asserted of the others. -/
theorem Safe.set {cfg : Config S L α σ} (h : Safe I T X cfg) {i : ℕ} {x x' : Thread S L α}
    {s' : σ} (hi : cfg.threads[i]? = some x) (hI : I s') (hT : T x' s')
    (hother : ∀ u, T u cfg.shared → X x u → T u s' ∧ X x' u)
    (hsymm : ∀ {t u}, X t u → X u t) : Safe I T X ⟨s', cfg.threads.set i x'⟩ := by
  have hlt : i < cfg.threads.length := (List.getElem?_eq_some_iff.mp hi).1
  refine ⟨hI, fun j t hj => ?_, fun j j' t u hne hj hj' => ?_⟩
  · by_cases hij : i = j
    · subst hij
      rw [List.getElem?_set_self hlt] at hj
      obtain rfl := Option.some.inj hj
      exact hT
    · rw [List.getElem?_set_ne hij] at hj
      exact (hother t (h.thread j t hj) (h.apart i j _ _ hij hi hj)).1
  · -- at most one of the two positions is the one that moved
    by_cases hij : i = j
    · subst hij
      rw [List.getElem?_set_self hlt] at hj
      rw [List.getElem?_set_ne hne] at hj'
      obtain rfl := Option.some.inj hj
      exact (hother u (h.thread j' u hj') (h.apart i j' _ _ hne hi hj')).2
    · rw [List.getElem?_set_ne hij] at hj
      by_cases hij' : i = j'
      · subst hij'
        rw [List.getElem?_set_self hlt] at hj'
        obtain rfl := Option.some.inj hj'
        exact hsymm (hother t (h.thread j t hj) (h.apart i j _ _ hij hi hj)).2
      · rw [List.getElem?_set_ne hij'] at hj'
        exact h.apart j j' t u hne hj hj'

/-- **Interference freedom.**  If an answered operation keeps the store
invariant, the assertion of its own thread, and the assertions of the threads
it is apart from, then all of them hold after every run.  What every operation
guarantees of the stores before and after it, `G`, the run guarantees as
well. -/
theorem interference_free {G : σ → σ → Prop}
    (hrefl : ∀ s, G s s) (htrans : ∀ {s s' s''}, G s s' → G s' s'' → G s s'')
    (hsymm : ∀ {t u}, X t u → X u t)
    (hstart : ∀ a s, I s → T (sys.start a) s ∧ ∀ t, X (sys.start a) t)
    (hown : ∀ l past op k c s, I s → T ⟨l, past, .call op k⟩ s →
      I (sys.exec l c op s).2 ∧ G s (sys.exec l c op s).2 ∧
        T (resume l past op k (sys.exec l c op s).1) (sys.exec l c op s).2)
    (hother : ∀ l past op k c s u, I s → T ⟨l, past, .call op k⟩ s → T u s →
      X ⟨l, past, .call op k⟩ u →
      T u (sys.exec l c op s).2 ∧ X (resume l past op k (sys.exec l c op s).1) u)
    (acts : List (Act A κ)) (cfg : Config S L α σ) (hcfg : Safe I T X cfg) :
    Safe I T X (sys.run acts cfg) ∧ G cfg.shared (sys.run acts cfg).shared := by
  refine run_invariant (I := fun cfg' => Safe I T X cfg' ∧ G cfg.shared cfg'.shared) ?_ ?_ acts
    cfg (meets_true acts cfg) ⟨hcfg, hrefl _⟩
  · rintro cfg a ⟨hsafe, hG⟩
    obtain ⟨hT, hX⟩ := hstart a cfg.shared hsafe.store
    exact ⟨hsafe.arrive hT hX hsymm, hG⟩
  · rintro cfg i c l past op k hi - ⟨hsafe, hG⟩
    have hTi := hsafe.thread i _ hi
    obtain ⟨hI', hG', hT'⟩ := hown l past op k c cfg.shared hsafe.store hTi
    exact ⟨hsafe.set hi hI' hT'
      (fun u => hother l past op k c cfg.shared u hsafe.store hTi) hsymm, htrans hG hG'⟩

end

/-! ### A thread alone -/

variable (sys) in
/-- **A program alone is an interleaving**: let thread `i` take all its steps
with nobody in between, and the store and its value are those of
`Program.run`. -/
theorem run_alone (i : ℕ) (l : L) :
    ∀ (p : Program S α) (past : List S.Event) (c : ℕ → κ) (cfg : Config S L α σ),
      cfg.threads[i]? = some ⟨l, past, p⟩ →
      ∃ acts past', sys.run acts cfg = ⟨(p.run (sys.exec l) c cfg.shared).2,
        cfg.threads.set i ⟨l, past', .done (p.run (sys.exec l) c cfg.shared).1⟩⟩
  | .done a, past, c, cfg, hi => by
      refine ⟨[], past, ?_⟩
      obtain ⟨hlt, hget⟩ := List.getElem?_eq_some_iff.mp hi
      have hset : cfg.threads.set i ⟨l, past, .done a⟩ = cfg.threads := by
        rw [← hget]
        exact List.set_getElem_self hlt
      rw [Program.run_done, hset]
      rfl
  | .call op k, past, c, cfg, hi => by
      have hlt : i < cfg.threads.length := (List.getElem?_eq_some_iff.mp hi).1
      obtain ⟨acts, past', h⟩ := run_alone i l (k (sys.exec l (c 0) op cfg.shared).1)
        (⟨op, (sys.exec l (c 0) op cfg.shared).1⟩ :: past) (fun n => c (n + 1))
        (sys.answer cfg i (c 0) l past op k) (List.getElem?_set_self hlt)
      refine ⟨.step i (c 0) :: acts, past', ?_⟩
      rw [run_cons, sys.act_of_call hi, h, Program.run_call]
      simp only [answer, List.set_set]

end System

end Effects
