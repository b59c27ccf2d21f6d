/-
Lockinspiel/Lib/Slab.lean

Slabs: storage that hands out the keys itself, and hands them out again once
they are free.

A `Slab` is a choice of the type and its operations.  What its users rely on are
the `Slab.Laws`: seen through `get`, an operation changes the entry of one key
and no other, and a new entry gets a key that is vacant.  `Slab.freeList` is one
implementation, which hands out first the key that was given back last; every key
of its list is vacant by construction (`FreeList`).
-/
import Mathlib.Data.List.Basic
import Mathlib.Data.List.Nodup

/-- The operations of a slab. -/
structure Slab (α : Type) where
  State : Type
  new : State
  get : State → ℕ → Option α
  /-- A new value for the entry of a key. -/
  set : State → ℕ → α → State
  /-- The key that the next entry gets. -/
  vacantKey : State → ℕ
  insert : State → α → State
  /-- Nothing happens if there is no entry. -/
  tryRemove : State → ℕ → State

namespace Slab

variable {α : Type}

/-- What is assumed of a slab. -/
structure Laws (S : Slab α) : Prop where
  get_new : ∀ k, S.get S.new k = none
  get_vacantKey : ∀ s, S.get s (S.vacantKey s) = none
  get_insert : ∀ s a k, S.get (S.insert s a) k = if k = S.vacantKey s then some a else S.get s k
  get_set : ∀ s key a k, (S.get s key).isSome →
    S.get (S.set s key a) k = if k = key then some a else S.get s k
  get_tryRemove : ∀ s key k, S.get (S.tryRemove s key) k = if k = key then none else S.get s k

/-! ### Free lists -/

/-- The entries, and the keys that were given back. -/
structure FreeList (α : Type) where
  entries : List (Option α)
  free : List ℕ
  nodup : free.Nodup
  vacant : ∀ k ∈ free, entries[k]? = some none

namespace FreeList

def get (s : FreeList α) (k : ℕ) : Option α := s.entries[k]?.join

/-- The last key that was given back, or a new one. -/
def vacantKey (s : FreeList α) : ℕ := s.free.headD s.entries.length

theorem get_vacantKey (s : FreeList α) : s.get s.vacantKey = none := by
  obtain ⟨entries, free, nodup, vacant⟩ := s
  cases free with
  | nil =>
      show entries[entries.length]?.join = none
      rw [List.getElem?_eq_none (Nat.le_refl _)]
      rfl
  | cons k free =>
      show entries[k]?.join = none
      rw [vacant k (.head _)]
      rfl

theorem vacant_set {entries : List (Option α)} {free : List ℕ}
    (vacant : ∀ k ∈ free, entries[k]? = some none) {key : ℕ} (h : key ∉ free) (o : Option α) :
    ∀ k ∈ free, (entries.set key o)[k]? = some none := by
  intro k hk
  have hne : key ≠ k := by
    rintro rfl
    exact h hk
  rw [List.getElem?_set_ne hne]
  exact vacant k hk

/-- A new entry at the vacant key. -/
def insert : FreeList α → α → FreeList α
  | ⟨entries, [], _, _⟩, a =>
      { entries := entries ++ [some a]
        free := []
        nodup := List.nodup_nil
        vacant := fun _ hk => absurd hk List.not_mem_nil }
  | ⟨entries, key :: free, nodup, vacant⟩, a =>
      { entries := entries.set key (some a)
        free := free
        nodup := (List.nodup_cons.mp nodup).2
        vacant := vacant_set (fun k hk => vacant k (.tail _ hk)) (List.nodup_cons.mp nodup).1 _ }

theorem not_mem_free {s : FreeList α} {key : ℕ} (h : (s.get key).isSome) : key ∉ s.free := by
  intro hmem
  rw [get, s.vacant key hmem] at h
  cases h

theorem lt_length {s : FreeList α} {key : ℕ} (h : (s.get key).isSome) : key < s.entries.length := by
  by_contra hge
  rw [get, List.getElem?_eq_none (Nat.le_of_not_lt hge)] at h
  cases h

/-- A new value at a key that has one. -/
def set (s : FreeList α) (key : ℕ) (a : α) : FreeList α :=
  if h : (s.get key).isSome then
    { entries := s.entries.set key (some a)
      free := s.free
      nodup := s.nodup
      vacant := vacant_set s.vacant (not_mem_free h) _ }
  else s

/-- The key of an entry is given back. -/
def tryRemove (s : FreeList α) (key : ℕ) : FreeList α :=
  if h : (s.get key).isSome then
    { entries := s.entries.set key none
      free := key :: s.free
      nodup := List.nodup_cons.mpr ⟨not_mem_free h, s.nodup⟩
      vacant := by
        rw [List.forall_mem_cons, List.getElem?_set_self (lt_length h)]
        exact ⟨rfl, vacant_set s.vacant (not_mem_free h) _⟩ }
  else s

theorem join_set {entries : List (Option α)} {key : ℕ} (h : key < entries.length) (o : Option α)
    (k : ℕ) : (entries.set key o)[k]?.join = if k = key then o else entries[k]?.join := by
  by_cases hk : k = key
  · rw [if_pos hk, hk, List.getElem?_set_self h]
    rfl
  · rw [if_neg hk, List.getElem?_set_ne (Ne.symm hk)]

theorem get_insert (s : FreeList α) (a : α) (k : ℕ) :
    (s.insert a).get k = if k = s.vacantKey then some a else s.get k := by
  obtain ⟨entries, free, nodup, vacant⟩ := s
  cases free with
  | nil =>
      show (entries ++ [some a])[k]?.join = if k = entries.length then some a else entries[k]?.join
      split
      · next hk =>
          rw [hk, List.getElem?_concat_length]
          rfl
      · next hk =>
          rw [List.getElem?_append]
          split
          · rfl
          · next hge =>
              have hbehind : [some a].length ≤ k - entries.length := by
                rw [List.length_singleton]
                omega
              rw [List.getElem?_eq_none (Nat.le_of_not_lt hge), List.getElem?_eq_none hbehind]
  | cons key free =>
      have hlt : key < entries.length := (List.getElem?_eq_some_iff.mp (vacant key (.head _))).1
      exact join_set hlt (some a) k

theorem get_set {s : FreeList α} {key : ℕ} (h : (s.get key).isSome) (a : α) (k : ℕ) :
    (s.set key a).get k = if k = key then some a else s.get k := by
  rw [set, dif_pos h]
  exact join_set (lt_length h) (some a) k

theorem get_tryRemove (s : FreeList α) (key k : ℕ) :
    (s.tryRemove key).get k = if k = key then none else s.get k := by
  rw [tryRemove]
  split
  · next h => exact join_set (lt_length h) none k
  · next h =>
      by_cases hk : k = key
      · rw [if_pos hk, hk]
        exact Option.not_isSome_iff_eq_none.mp h
      · rw [if_neg hk]

end FreeList

/-- The slab with a free list. -/
def freeList (α : Type) : Slab α where
  State := FreeList α
  new := ⟨[], [], List.nodup_nil, fun _ hk => absurd hk List.not_mem_nil⟩
  get := FreeList.get
  set := FreeList.set
  vacantKey := FreeList.vacantKey
  insert := FreeList.insert
  tryRemove := FreeList.tryRemove

theorem freeList_laws (α : Type) : (freeList α).Laws where
  get_new _ := rfl
  get_vacantKey := FreeList.get_vacantKey
  get_insert := FreeList.get_insert
  get_set _ _ a k h := FreeList.get_set h a k
  get_tryRemove := FreeList.get_tryRemove

/-- A key that is given back is handed out next. -/
example : let s := ((FreeList.insert ((freeList ℕ).new) 5).insert 6).tryRemove 0
    s.get 0 = none ∧ s.get 1 = some 6 ∧ (s.insert 7).get 0 = some 7 := by
  decide

end Slab
