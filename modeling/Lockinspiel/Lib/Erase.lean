/-
Lockinspiel/Lib/Erase.lean

Threads that leave no trace.

A thread all of whose answers leave the store as it was can be taken out of a
run: the other threads take the same steps in the same order, get the same
answers and leave the same store (`System.exists_erased`).  Which threads these
are is known at the end of the run only, from what they have asked
(`Thread.past`), so the rule looks at the whole run.  `System.erased_act` is
its step, for two stores that are only related.
-/
import Lockinspiel.Lib.Program

namespace Effects

variable {S : Sig} {L A α σ κ τ : Type}

/-! ### Some of the elements of a list -/

/-- The elements whose places are kept. -/
def sift : (ℕ → Bool) → List τ → List τ
  | _, [] => []
  | keep, t :: ts => if keep 0 then t :: sift (fun i => keep (i + 1)) ts
      else sift (fun i => keep (i + 1)) ts

/-- The new place of an element that is kept. -/
def place : (ℕ → Bool) → ℕ → ℕ
  | _, 0 => 0
  | keep, i + 1 => if keep 0 then place (fun i => keep (i + 1)) i + 1
      else place (fun i => keep (i + 1)) i

section

variable {keep : ℕ → Bool} {ts : List τ} {t : τ} {i : ℕ}

theorem sift_append (ts : List τ) (t : τ) :
    sift keep (ts ++ [t]) = sift keep ts ++ if keep ts.length then [t] else [] := by
  induction ts generalizing keep with
  | nil => rfl
  | cons t' ts ih =>
      rw [List.cons_append, sift, sift, ih, List.length_cons]
      split <;> rfl

theorem sift_set_of_not (h : keep i = false) (ts : List τ) (t : τ) :
    sift keep (ts.set i t) = sift keep ts := by
  induction ts generalizing keep i with
  | nil => rfl
  | cons t' ts ih =>
      cases i with
      | zero => rw [List.set_cons_zero, sift, sift, h]; rfl
      | succ i =>
          have hrest : sift (fun i => keep (i + 1)) (ts.set i t) =
              sift (fun i => keep (i + 1)) ts := ih h
          rw [List.set_cons_succ, sift, sift, hrest]

theorem sift_set (h : keep i = true) (ts : List τ) (t : τ) :
    sift keep (ts.set i t) = (sift keep ts).set (place keep i) t := by
  induction ts generalizing keep i with
  | nil => rfl
  | cons t' ts ih =>
      cases i with
      | zero => rw [List.set_cons_zero, sift, sift, h, place]; rfl
      | succ i =>
          have hrest : sift (fun i => keep (i + 1)) (ts.set i t) =
              (sift (fun i => keep (i + 1)) ts).set (place (fun i => keep (i + 1)) i) t := ih h
          rw [List.set_cons_succ, sift, sift, place, hrest]
          split
          · rw [List.set_cons_succ]
          · rfl

theorem getElem?_sift (h : keep i = true) (ts : List τ) :
    (sift keep ts)[place keep i]? = ts[i]? ∨ ts[i]? = none := by
  induction ts generalizing keep i with
  | nil => exact .inr rfl
  | cons t' ts ih =>
      cases i with
      | zero => rw [sift, h]; exact .inl rfl
      | succ i =>
          rw [sift, place, List.getElem?_cons_succ]
          split
          · rw [List.getElem?_cons_succ]
            exact ih h
          · exact ih h

theorem sift_eq_filter {q : τ → Bool} (h : ∀ i t, ts[i]? = some t → keep i = q t) :
    sift keep ts = ts.filter q := by
  induction ts generalizing keep with
  | nil => rfl
  | cons t ts ih =>
      rw [sift, h 0 t rfl, ih fun i t' hi => h (i + 1) t' hi]
      cases hq : q t with
      | true => rw [List.filter_cons_of_pos hq]; rfl
      | false => rw [List.filter_cons_of_neg (by rw [hq]; exact Bool.false_ne_true)]; rfl

end

/-! ### Threads without a trace -/

namespace System

variable {sys : System S L α σ κ A}

/-- What a thread has asked, it has asked. -/
theorem past_suffix (acts : List (Act A κ)) (cfg : Config S L α σ) {i : ℕ} {t : Thread S L α}
    (hi : cfg.threads[i]? = some t) :
    ∃ t', (sys.run acts cfg).threads[i]? = some t' ∧ t'.loc = t.loc ∧ t.past <:+ t'.past := by
  refine run_invariant (I := fun cfg' => ∃ t', cfg'.threads[i]? = some t' ∧ t'.loc = t.loc ∧
    t.past <:+ t'.past) ?_ ?_ acts cfg (meets_true acts cfg) ⟨t, hi, rfl, List.suffix_rfl⟩
  · rintro cfg' a ⟨t', hi', hloc, hpast⟩
    have hlt := (List.getElem?_eq_some_iff.mp hi').1
    exact ⟨t', (List.getElem?_append_left hlt).trans hi', hloc, hpast⟩
  · rintro cfg' j c l past op k hj - ⟨t', hi', hloc, hpast⟩
    by_cases hij : j = i
    · subst hij
      obtain rfl := Option.some.inj (hi'.symm.trans hj)
      have hlt := (List.getElem?_eq_some_iff.mp hj).1
      exact ⟨_, List.getElem?_set_self hlt, hloc, hpast.trans (List.suffix_cons _ _)⟩
    · exact ⟨t', (List.getElem?_set_ne hij).trans hi', hloc, hpast⟩

/-- One act, over two stores that are related, where the second one has the
threads that are kept: it is the same act there, or none.  A thread that is kept
gets the same answer from both stores, and one that is not kept changes the first
store to one that is still related. -/
theorem erased_act {R : σ → σ → Prop} {keep : ℕ → Bool} {cfg : Config S L α σ} {s : σ}
    (hR : R cfg.shared s) (a : Act A κ)
    (hkept : ∀ i c l past op k, a = .step i c → cfg.threads[i]? = some ⟨l, past, .call op k⟩ →
      keep i = true → (sys.exec l c op s).1 = (sys.exec l c op cfg.shared).1 ∧
        R (sys.exec l c op cfg.shared).2 (sys.exec l c op s).2)
    (hdropped : ∀ i c l past op k, a = .step i c →
      cfg.threads[i]? = some ⟨l, past, .call op k⟩ → keep i = false →
        R (sys.exec l c op cfg.shared).2 s) :
    ∃ acts s', sys.run acts ⟨s, sift keep cfg.threads⟩ =
      ⟨s', sift keep (sys.act cfg a).threads⟩ ∧ R (sys.act cfg a).shared s' := by
  cases a with
  | arrive a =>
      have hthreads : (sys.act cfg (.arrive a)).threads = cfg.threads ++ [sys.start a] := rfl
      rw [hthreads, sift_append]
      cases hk : keep cfg.threads.length with
      | true => exact ⟨[.arrive a], s, rfl, hR⟩
      | false =>
          rw [if_neg Bool.false_ne_true, List.append_nil]
          exact ⟨[], s, rfl, hR⟩
  | step i c =>
      obtain ⟨l, past, op, k, hi, hact⟩ | hact := sys.act_step_cases cfg i c
      · rw [hact]
        cases hk : keep i with
        | true =>
            -- the thread takes the same step at its new place
            have hplace : (sift keep cfg.threads)[place keep i]? = _ :=
              ((getElem?_sift hk cfg.threads).resolve_right (by rw [hi]; simp)).trans hi
            obtain ⟨hanswer, hR'⟩ := hkept i c l past op k rfl hi hk
            refine ⟨[.step (place keep i) c], _, ?_, hR'⟩
            rw [run_cons, run_nil, sys.act_of_call hplace, answer, answer, sift_set hk, hanswer]
        | false =>
            refine ⟨[], s, ?_, hdropped i c l past op k rfl hi hk⟩
            rw [answer, sift_set_of_not hk]
            rfl
      · rw [hact]
        exact ⟨[], s, rfl, hR⟩

/-- **Erasure.**  Let an answer that satisfies `Q` leave the store as it was.
If the places of a run that are not kept hold threads with such answers alone,
then there is a run of the other threads that ends with the same store and with
the same threads at these places. -/
theorem exists_erased {P : Thread S L α → Prop} {Q : L → S.Event → Prop} (keep : ℕ → Bool)
    (hstart : ∀ a, P (sys.start a))
    (hresume : ∀ l past op k, P ⟨l, past, .call op k⟩ → ∀ r, P (resume l past op k r))
    (hsilent : ∀ l past op k c s, P ⟨l, past, .call op k⟩ →
      Q l ⟨op, (sys.exec l c op s).1⟩ → (sys.exec l c op s).2 = s)
    (acts : List (Act A κ)) (cfg : Config S L α σ) (hcfg : ∀ t ∈ cfg.threads, P t)
    (hkeep : ∀ i t, (sys.run acts cfg).threads[i]? = some t → keep i = false →
      ∀ e ∈ t.past, Q t.loc e) :
    ∃ acts', sys.run acts' ⟨cfg.shared, sift keep cfg.threads⟩ =
      ⟨(sys.run acts cfg).shared, sift keep (sys.run acts cfg).threads⟩ := by
  induction acts generalizing cfg with
  | nil => exact ⟨[], rfl⟩
  | cons a acts ih =>
      obtain ⟨acts', hrun⟩ :=
        ih (sys.act cfg a) (thread_invariant hstart hresume [a] cfg hcfg) hkeep
      have hdropped : ∀ i c l past op k, a = .step i c →
          cfg.threads[i]? = some ⟨l, past, .call op k⟩ → keep i = false →
            (sys.exec l c op cfg.shared).2 = cfg.shared := by
        rintro i c l past op k rfl hi hk
        have hlt := (List.getElem?_eq_some_iff.mp hi).1
        have hact := sys.act_of_call hi c
        have hi' : (sys.act cfg (.step i c)).threads[i]? =
            some (resume l past op k (sys.exec l c op cfg.shared).1) := by
          rw [hact]
          exact List.getElem?_set_self hlt
        -- the answer is among those of the whole run
        obtain ⟨t, ht, hloc, hpast⟩ := past_suffix acts _ hi'
        have hquiet := hkeep i t ht hk _ (hpast.subset List.mem_cons_self)
        rw [hloc] at hquiet
        exact hsilent l past op k c cfg.shared (hcfg _ (List.mem_of_getElem? hi)) hquiet
      obtain ⟨acts₁, s, hfirst, rfl⟩ := erased_act (R := Eq) rfl a
        (fun _ _ _ _ _ _ _ _ _ => ⟨rfl, rfl⟩) hdropped
      exact ⟨acts₁ ++ acts', by rw [run_append, hfirst, hrun]; rfl⟩

end System

end Effects
