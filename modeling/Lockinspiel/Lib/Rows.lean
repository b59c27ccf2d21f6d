/-
Lockinspiel/Lib/Rows.lean

Tables as lists of rows, with the parts of SQL that decide which rows a
statement sees and writes:

* `setWhere` is `UPDATE .. SET .. WHERE` on the rows alone, `orderBy` is
  `ORDER BY` on one integer column;
* `pick plan` is an answer whose order SQL leaves open: any list of numbers
  is a plan, and what it gives is a rearrangement (`pick_perm`);
* a `Table` carries its owner, its grants and its row level security
  policies, and `Table.select`, `Table.insert` and `Table.update` are the
  three commands as one role runs them.

A policy applies to a role that is a member of the role it is written `TO`.
The policies are permissive: one that passes is enough, and a command no
policy applies to touches nothing.  The owner of the table is exempt, and so
is everybody while row level security is not enabled.  An `UPDATE` that reads
columns touches only rows that are visible as well.
-/
import Mathlib.Data.List.Sort
import Mathlib.Data.List.Perm.Basic
import Mathlib.Logic.Function.Basic

namespace Sql

variable {α ρ : Type}

/-! ### Answers in an unspecified order -/

/-- The rows of `l` in the order the plan names them: each number is the
position of the next row among those that are left. -/
def pick : List ℕ → List α → List α
  | [], l => l
  | i :: is, l =>
      match l[i]? with
      | some a => a :: pick is (l.eraseIdx i)
      | none => pick is l

theorem pick_perm (plan : List ℕ) (l : List α) : (pick plan l).Perm l := by
  induction plan generalizing l with
  | nil => exact .refl l
  | cons i is ih =>
      rw [pick]
      rcases h : l[i]? with - | a
      · exact ih l
      · obtain ⟨hlt, rfl⟩ := List.getElem?_eq_some_iff.mp h
        exact ((ih _).cons _).trans (List.getElem_cons_eraseIdx_perm hlt)

@[simp] theorem mem_pick {plan : List ℕ} {l : List α} {a : α} :
    a ∈ pick plan l ↔ a ∈ l :=
  (pick_perm plan l).mem_iff

/-! ### `ORDER BY` -/

/-- The rows by ascending `key`; rows with equal keys stay as they came. -/
def orderBy (key : ρ → ℤ) (l : List ρ) : List ρ :=
  l.insertionSort fun a b => key a ≤ key b

theorem orderBy_perm (key : ρ → ℤ) (l : List ρ) : (orderBy key l).Perm l :=
  List.perm_insertionSort _ l

@[simp] theorem mem_orderBy {key : ρ → ℤ} {l : List ρ} {r : ρ} :
    r ∈ orderBy key l ↔ r ∈ l :=
  (orderBy_perm key l).mem_iff

theorem orderBy_sorted (key : ρ → ℤ) (l : List ρ) :
    (orderBy key l).Pairwise fun a b => key a ≤ key b := by
  have : Std.Total fun a b : ρ => key a ≤ key b := ⟨fun a b => Int.le_total _ _⟩
  have : IsTrans ρ fun a b => key a ≤ key b := ⟨fun _ _ _ => Int.le_trans⟩
  exact List.pairwise_insertionSort _ l

/-- Rows with strictly ascending keys come out of a sorted answer in that
order, whatever other rows stand between them. -/
theorem filter_orderBy {key : ρ → ℤ} {l l₀ : List ρ} {q : ρ → Bool}
    (hperm : (l.filter q).Perm l₀) (hstrict : l₀.Pairwise fun a b => key a < key b) :
    (orderBy key l).filter q = l₀ := by
  have hp : ((orderBy key l).filter q).Perm l₀ :=
    ((orderBy_perm key l).filter q).trans hperm
  have hnodup : (l₀.map key).Nodup :=
    List.pairwise_map.mpr (hstrict.imp Int.ne_of_lt)
  refine hp.eq_of_pairwise ?_ ((orderBy_sorted key l).filter q) (hstrict.imp Int.le_of_lt)
  intro a b ha hb hab hba
  exact List.inj_on_of_nodup_map hnodup (hp.subset ha) hb (Int.le_antisymm hab hba)

/-- A row whose key no other row reaches from below comes first. -/
theorem head?_orderBy {key : ρ → ℤ} {l : List ρ} {r : ρ} (hr : r ∈ l)
    (hmin : ∀ r' ∈ l, key r' ≤ key r → r' = r) : (orderBy key l).head? = some r := by
  have hmem : r ∈ orderBy key l := mem_orderBy.mpr hr
  have hsorted := orderBy_sorted key l
  rcases h : orderBy key l with - | ⟨a, rest⟩
  · rw [h] at hmem
    cases hmem
  · rw [h] at hmem hsorted
    have ha : a ∈ l := (orderBy_perm key l).subset (h ▸ List.mem_cons_self)
    rcases List.mem_cons.mp hmem with rfl | hrest
    · rfl
    · rw [hmin a ha (List.rel_of_pairwise_cons hsorted hrest)]
      rfl

/-- The first row of an answer, where no two rows share a key. -/
theorem head?_orderBy_iff {key : ρ → ℤ} {l : List ρ}
    (hinj : ∀ a ∈ l, ∀ b ∈ l, key a = key b → a = b) {r : ρ} :
    (orderBy key l).head? = some r ↔ r ∈ l ∧ ∀ r' ∈ l, key r ≤ key r' := by
  constructor
  · intro h
    obtain ⟨rest, hrest⟩ := List.head?_eq_some_iff.mp h
    have hr : r ∈ l := mem_orderBy.mp (hrest ▸ List.mem_cons_self)
    refine ⟨hr, fun r' hr' => ?_⟩
    have hmem : r' ∈ r :: rest := hrest ▸ mem_orderBy.mpr hr'
    have hsorted := orderBy_sorted key l
    rw [hrest] at hsorted
    obtain rfl | htail := List.mem_cons.mp hmem
    · exact Int.le_refl _
    · exact List.rel_of_pairwise_cons hsorted htail
  · rintro ⟨hr, hmin⟩
    refine head?_orderBy hr fun r' hr' hle => ?_
    exact hinj r' hr' r hr (Int.le_antisymm hle (hmin r' hr'))

theorem head?_orderBy_eq_none {key : ρ → ℤ} {l : List ρ} :
    (orderBy key l).head? = none ↔ l = [] := by
  rw [List.head?_eq_none_iff]
  constructor
  · intro h
    exact List.Perm.eq_nil (h ▸ (orderBy_perm key l).symm)
  · rintro rfl
    rfl

/-- Answers with the same rows have the same first row. -/
theorem head?_orderBy_congr {key : ρ → ℤ} {l l' : List ρ}
    (hinj : ∀ a ∈ l, ∀ b ∈ l, key a = key b → a = b) (h : ∀ r, r ∈ l' ↔ r ∈ l) :
    (orderBy key l').head? = (orderBy key l).head? := by
  have hinj' : ∀ a ∈ l', ∀ b ∈ l', key a = key b → a = b :=
    fun a ha b hb => hinj a ((h a).mp ha) b ((h b).mp hb)
  apply Option.ext
  intro r
  rw [head?_orderBy_iff hinj', head?_orderBy_iff hinj, h r]
  simp only [h]

/-- **When a selection keeps the first row**: exactly if it selects it. -/
theorem head?_orderBy_filter {key : ρ → ℤ} {l : List ρ}
    (hinj : ∀ a ∈ l, ∀ b ∈ l, key a = key b → a = b) (q : ρ → Bool) :
    (orderBy key (l.filter q)).head? = (orderBy key l).head? ↔
      ∀ r ∈ (orderBy key l).head?, q r = true := by
  have hinj' : ∀ a ∈ l.filter q, ∀ b ∈ l.filter q, key a = key b → a = b :=
    fun a ha b hb => hinj a (List.mem_of_mem_filter ha) b (List.mem_of_mem_filter hb)
  constructor
  · intro h r hr
    obtain ⟨hmem, -⟩ := (head?_orderBy_iff hinj').mp (h.trans hr)
    exact (List.mem_filter.mp hmem).2
  · intro h
    rcases hfirst : (orderBy key l).head? with - | r
    · rw [head?_orderBy_eq_none] at hfirst ⊢
      rw [hfirst]
      rfl
    · obtain ⟨hr, hmin⟩ := (head?_orderBy_iff hinj).mp hfirst
      have hq : q r = true := h r hfirst
      refine (head?_orderBy_iff hinj').mpr ⟨List.mem_filter.mpr ⟨hr, hq⟩, fun r' hr' => ?_⟩
      exact hmin r' (List.mem_of_mem_filter hr')

/-! ### Rows by key -/

/-- Rows taken out of a list key by key are the rows with one of the keys, each
as often as in the list. -/
theorem flatMap_filter_perm [DecidableEq α] {keys : List α} (hkeys : keys.Nodup) (key : ρ → α)
    (l : List ρ) :
    (keys.flatMap fun k => l.filter fun r => k == key r).Perm
      (l.filter fun r => key r ∈ keys) := by
  induction keys with
  | nil => simp
  | cons k keys ih =>
      obtain ⟨hk, hkeys⟩ := List.nodup_cons.mp hkeys
      have hfirst : (l.filter fun r => key r ∈ k :: keys).filter (fun r => k == key r) =
          l.filter fun r => k == key r := by
        rw [List.filter_filter]
        refine List.filter_congr fun r _ => ?_
        by_cases hr : k = key r <;> simp [hr]
      -- `k` is not among the other keys
      have hrest : (l.filter fun r => key r ∈ k :: keys).filter (fun r => !(k == key r)) =
          l.filter fun r => key r ∈ keys := by
        rw [List.filter_filter]
        refine List.filter_congr fun r _ => ?_
        by_cases hr : k = key r
        · simp [← hr, hk]
        · simp [hr, Ne.symm hr]
      have hsplit := List.filter_append_perm (fun r => k == key r)
        (l.filter fun r => key r ∈ k :: keys)
      rw [hfirst, hrest] at hsplit
      rw [List.flatMap_cons]
      exact ((ih hkeys).append_left _).trans hsplit

/-! ### `UPDATE` -/

/-- `f` on the rows that satisfy `p`, in place. -/
def setWhere (p : ρ → Bool) (f : ρ → ρ) (rows : List ρ) : List ρ :=
  rows.map fun r => if p r then f r else r

theorem mem_setWhere {p : ρ → Bool} {f : ρ → ρ} {rows : List ρ} {r : ρ} :
    r ∈ setWhere p f rows ↔
      (∃ r₀ ∈ rows, p r₀ = true ∧ f r₀ = r) ∨ (r ∈ rows ∧ p r = false) := by
  simp only [setWhere, List.mem_map]
  constructor
  · rintro ⟨r₀, h₀, rfl⟩
    cases hp : p r₀ with
    | true => exact .inl ⟨r₀, h₀, hp, by simp only [if_true]⟩
    | false => exact .inr ⟨by simpa using h₀, by simpa using hp⟩
  · rintro (⟨r₀, h₀, hp, rfl⟩ | ⟨h₀, hp⟩)
    · exact ⟨r₀, h₀, by simp only [hp, if_true]⟩
    · exact ⟨r, h₀, by simp [hp]⟩

theorem setWhere_false {p : ρ → Bool} {f : ρ → ρ} (hp : ∀ r, p r = false) (rows : List ρ) :
    setWhere p f rows = rows := by
  simp [setWhere, hp]

/-- An update that changes nothing. -/
theorem setWhere_eq_self {p : ρ → Bool} {f : ρ → ρ} {rows : List ρ} :
    setWhere p f rows = rows ↔ ∀ r ∈ rows, p r = true → f r = r := by
  have hmap : setWhere p f rows = rows ↔ ∀ r ∈ rows, (if p r then f r else r) = id r := by
    rw [← List.map_inj_left, List.map_id, setWhere]
  rw [hmap]
  refine forall₂_congr fun r _ => ?_
  by_cases hp : p r = true
  · rw [if_pos hp]
    exact ⟨fun h _ => h, fun h => h hp⟩
  · rw [if_neg hp]
    exact iff_of_true rfl fun h => absurd h hp

@[simp] theorem length_setWhere (p : ρ → Bool) (f : ρ → ρ) (rows : List ρ) :
    (setWhere p f rows).length = rows.length :=
  List.length_map _

/-- A column the update does not write reads the same down the table. -/
theorem map_setWhere {p : ρ → Bool} {f : ρ → ρ} {g : ρ → α} (hg : ∀ r, g (f r) = g r)
    (rows : List ρ) : (setWhere p f rows).map g = rows.map g := by
  rw [setWhere, List.map_map]
  refine List.map_congr_left fun r _ => ?_
  simp only [Function.comp_apply]
  split
  · exact hg r
  · rfl

/-- Every row has a successor, and every successor a row, with the columns
the update does not write. -/
theorem exists_mem_setWhere {p : ρ → Bool} {f : ρ → ρ} {rows : List ρ} {r : ρ}
    (hr : r ∈ rows) : (if p r then f r else r) ∈ setWhere p f rows :=
  List.mem_map_of_mem hr

/-- Rows outside a selection that the update neither enters nor leaves are
selected as before. -/
theorem filter_setWhere {p : ρ → Bool} {f : ρ → ρ} {q : ρ → Bool} {rows : List ρ}
    (h : ∀ r ∈ rows, p r = true → q r = false ∧ q (f r) = false) :
    (setWhere p f rows).filter q = rows.filter q := by
  induction rows with
  | nil => rfl
  | cons r rows ih =>
      have hrest := ih fun r' hr' => h r' (List.mem_cons_of_mem r hr')
      rw [setWhere] at hrest ⊢
      cases hp : p r with
      | false =>
          simp only [List.map_cons, hp, Bool.false_eq_true, if_false, List.filter_cons, hrest]
      | true =>
          obtain ⟨hq, hq'⟩ := h r List.mem_cons_self hp
          simp only [List.map_cons, hp, if_true, List.filter_cons, hq, hq', Bool.false_eq_true,
            if_false, hrest]

/-- Selecting on columns the update does not write, then updating. -/
theorem filter_setWhere_comm {p : ρ → Bool} {f : ρ → ρ} {q : ρ → Bool}
    (hq : ∀ r, q (f r) = q r) (rows : List ρ) :
    (setWhere p f rows).filter q = setWhere p f (rows.filter q) := by
  rw [setWhere, setWhere, List.filter_map]
  congr 1
  refine List.filter_congr fun r _ => ?_
  simp only [Function.comp_apply]
  split
  · exact hq r
  · rfl

/-! ### Rows that are converted one by one -/

section

variable {β γ : Type} {f : α → Option β}

theorem mapM_eq_some {l : List α} {l' : List β} :
    l.mapM f = some l' ↔ List.Forall₂ (fun a b => f a = some b) l l' := by
  induction l generalizing l' with
  | nil => simp [List.forall₂_nil_left_iff, eq_comm]
  | cons a l ih =>
      simp only [List.mapM_cons, Option.bind_eq_bind, Option.bind_eq_some_iff, Option.pure_def,
        Option.some.injEq, List.forall₂_cons_left_iff, ih]
      constructor
      · rintro ⟨b, hb, bs, hbs, rfl⟩
        exact ⟨b, bs, hb, hbs, rfl⟩
      · rintro ⟨b, bs, hb, hbs, rfl⟩
        exact ⟨b, hb, bs, hbs, rfl⟩

/-- A column that the conversion only copies. -/
theorem map_of_mapM {g : β → γ} {h : α → γ} (hgh : ∀ a b, f a = some b → g b = h a)
    {l : List α} {l' : List β} (hl : l.mapM f = some l') : l'.map g = l.map h := by
  induction mapM_eq_some.mp hl with
  | nil => rfl
  | cons hab _ ih => rw [List.map_cons, List.map_cons, hgh _ _ hab, ih (mapM_eq_some.mpr ‹_›)]

/-- A conversion that succeeds on every row is `filterMap`. -/
theorem mapM_eq_filterMap {l : List α} (h : ∀ a ∈ l, (f a).isSome) :
    l.mapM f = some (l.filterMap f) := by
  induction l with
  | nil => rfl
  | cons a l ih =>
      obtain ⟨b, hb⟩ := Option.isSome_iff_exists.mp (h a List.mem_cons_self)
      have hrest := ih fun a ha => h a (List.mem_cons_of_mem _ ha)
      simp [hb, hrest]

/-- ... and only such a one. -/
theorem mapM_isSome {l : List α} {l' : List β} (hl : l.mapM f = some l') :
    l.filterMap f = l' ∧ ∀ a ∈ l, (f a).isSome := by
  have hall : ∀ a ∈ l, (f a).isSome := by
    induction mapM_eq_some.mp hl with
    | nil =>
        intro a ha
        cases ha
    | cons hab hrest ih =>
        intro a ha
        rcases List.mem_cons.mp ha with rfl | ha
        · rw [hab]
          rfl
        · exact ih (mapM_eq_some.mpr hrest) a ha
  rw [mapM_eq_filterMap hall, Option.some.injEq] at hl
  exact ⟨hl, hall⟩

/-- A conversion fails on one of the rows. -/
theorem exists_of_mapM_eq_none {l : List α} (hl : l.mapM f = none) : ∃ a ∈ l, f a = none := by
  by_contra hall
  have hsome : ∀ a ∈ l, (f a).isSome := fun a ha =>
    Option.isSome_iff_ne_none.mpr fun hnone => hall ⟨a, ha, hnone⟩
  rw [mapM_eq_filterMap hsome] at hl
  cases hl

/-- Selecting on a column that the conversion only copies. -/
theorem filter_filterMap_comm {g : β → Bool} {h : α → Bool}
    (hgh : ∀ a b, f a = some b → g b = h a) (l : List α) :
    (l.filterMap f).filter g = (l.filter h).filterMap f := by
  induction l with
  | nil => rfl
  | cons a l ih =>
      rcases hfa : f a with - | b
      · rw [List.filterMap_cons_none hfa, ih, List.filter_cons]
        split
        · rw [List.filterMap_cons_none hfa]
        · rfl
      · rw [List.filterMap_cons_some hfa, List.filter_cons, List.filter_cons, hgh a b hfa, ih]
        split
        · rw [List.filterMap_cons_some hfa]
        · rfl

theorem exists_of_mem_mapM {l : List α} {l' : List β} (hl : l.mapM f = some l') {b : β}
    (hb : b ∈ l') : ∃ a ∈ l, f a = some b := by
  induction mapM_eq_some.mp hl with
  | nil => cases hb
  | cons hab hrest ih =>
      rcases List.mem_cons.mp hb with rfl | hb
      · exact ⟨_, List.mem_cons_self, hab⟩
      · obtain ⟨a, ha, hf⟩ := ih (mapM_eq_some.mpr hrest) hb
        exact ⟨a, List.mem_cons_of_mem _ ha, hf⟩

end

/-! ### Rows that are kept -/

/-- Every row has a successor: nothing is deleted, and what is changed stays
related. -/
def Kept (R : ρ → ρ → Prop) (rows rows' : List ρ) : Prop :=
  ∀ r ∈ rows, ∃ r' ∈ rows', R r r'

section

variable {R : ρ → ρ → Prop} {rows rows' rows'' : List ρ}

theorem Kept.refl (hR : ∀ r, R r r) (rows : List ρ) : Kept R rows rows :=
  fun r hr => ⟨r, hr, hR r⟩

theorem Kept.trans (hR : ∀ {a b c}, R a b → R b c → R a c) (h : Kept R rows rows')
    (h' : Kept R rows' rows'') : Kept R rows rows'' := by
  intro r hr
  obtain ⟨r', hr', hrr'⟩ := h r hr
  obtain ⟨r'', hr'', hr'r''⟩ := h' r' hr'
  exact ⟨r'', hr'', hR hrr' hr'r''⟩

theorem Kept.append (hR : ∀ r, R r r) (rows new : List ρ) : Kept R rows (rows ++ new) :=
  fun r hr => ⟨r, List.mem_append_left _ hr, hR r⟩

theorem Kept.setWhere (hR : ∀ r, R r r) {f : ρ → ρ} (hf : ∀ r, R r (f r)) (p : ρ → Bool)
    (rows : List ρ) : Kept R rows (Sql.setWhere p f rows) := by
  intro r hr
  refine ⟨_, exists_mem_setWhere hr, ?_⟩
  split
  · exact hf r
  · exact hR r

/-- Where a key is unique, the row with the same key is the successor. -/
theorem Kept.of_key {key : ρ → α} (h : Kept R rows rows') (hnodup : (rows'.map key).Nodup)
    (hkey : ∀ {a b}, R a b → key b = key a) {r r' : ρ} (hr : r ∈ rows) (hr' : r' ∈ rows')
    (heq : key r' = key r) : R r r' := by
  obtain ⟨r₁, hr₁, hR⟩ := h r hr
  have hsame : r' = r₁ :=
    List.inj_on_of_nodup_map hnodup hr' hr₁ (heq.trans (hkey hR).symm)
  exact hsame ▸ hR

/-- **A soft deletion is final**: what was selected among the rows that are
not deleted, and then was not any more, is never selected again. -/
theorem Kept.gone {key : ρ → α} {deleted q : ρ → Bool} (h : Kept R rows rows')
    (h' : Kept R rows' rows'') (hnodup : (rows''.map key).Nodup)
    (hkey : ∀ {a b}, R a b → key b = key a) (hq : ∀ {a b}, R a b → q b = q a)
    (hdeleted : ∀ {a b}, R a b → deleted a = true → deleted b = true) {k : α}
    (hshown : k ∈ (rows.filter fun r => !deleted r && q r).map key)
    (hgone : k ∉ (rows'.filter fun r => !deleted r && q r).map key) :
    k ∉ (rows''.filter fun r => !deleted r && q r).map key := by
  obtain ⟨r, hr, rfl⟩ := List.mem_map.mp hshown
  obtain ⟨hr, hsel⟩ := List.mem_filter.mp hr
  rw [Bool.and_eq_true] at hsel
  obtain ⟨r', hr', hrr'⟩ := h r hr
  -- the successor satisfies `q` as well, so it is not selected because it is deleted
  have hdel : deleted r' = true := by
    by_contra hnot
    refine hgone (List.mem_map.mpr ⟨r', List.mem_filter.mpr ⟨hr', ?_⟩, hkey hrr'⟩)
    rw [hq hrr', hsel.2, Bool.eq_false_iff.mpr hnot]
    rfl
  intro hback
  obtain ⟨r'', hr'', hk⟩ := List.mem_map.mp hback
  obtain ⟨hr'', hsel''⟩ := List.mem_filter.mp hr''
  have hsucc := h'.of_key hnodup hkey hr' hr'' (hk.trans (hkey hrr').symm)
  rw [hdeleted hsucc hdel] at hsel''
  cases hsel''

end

/-! ### Rows as a map -/

/-- The rows are the graph of the map `m`, a key with its value written as the
row `enc k v`. -/
def Represents {κ ν : Type} (enc : κ → ν → ρ) (rows : List ρ) (m : κ → Option ν) : Prop :=
  ∀ r, r ∈ rows ↔ ∃ k v, m k = some v ∧ enc k v = r

section

variable {κ ν : Type} {enc : κ → ν → ρ} {rows : List ρ} {m : κ → Option ν}

theorem represents_nil : Represents enc [] fun _ => none := by
  intro r
  simp

/-- A new key is a new row. -/
theorem Represents.append [DecidableEq κ] (h : Represents enc rows m) {k : κ} (hk : m k = none)
    (v : ν) : Represents enc (rows ++ [enc k v]) (Function.update m k (some v)) := by
  intro r
  rw [List.mem_append, List.mem_singleton, h r]
  constructor
  · rintro (⟨k', v', hv', rfl⟩ | rfl)
    · refine ⟨k', v', ?_, rfl⟩
      rw [Function.update_of_ne, hv']
      rintro rfl
      cases hk.symm.trans hv'
    · exact ⟨k, v, Function.update_self .., rfl⟩
  · rintro ⟨k', v', hv', rfl⟩
    by_cases hkk : k' = k
    · subst hkk
      rw [Function.update_self, Option.some.injEq] at hv'
      exact .inr (by rw [hv'])
    · rw [Function.update_of_ne hkk] at hv'
      exact .inl ⟨k', v', hv', rfl⟩

/-- An update of the row of one key, where its value satisfies `q`. -/
theorem Represents.modify [DecidableEq κ] (h : Represents enc rows m) {k : κ} {q : ν → Bool}
    {g : ν → ν} {p : ρ → Bool} {f : ρ → ρ}
    (hp : ∀ k' v, p (enc k' v) = true ↔ k' = k ∧ q v = true)
    (hf : ∀ v, f (enc k v) = enc k (g v)) :
    Represents enc (Sql.setWhere p f rows)
      (Function.update m k ((m k).map fun v => if q v then g v else v)) := by
  intro r
  rw [mem_setWhere]
  constructor
  · rintro (⟨r₀, hr₀, hpr, rfl⟩ | ⟨hr, hpr⟩)
    · obtain ⟨k', v, hv, rfl⟩ := (h r₀).mp hr₀
      obtain ⟨rfl, hq⟩ := (hp k' v).mp hpr
      exact ⟨k', g v, by rw [Function.update_self, hv, Option.map_some, if_pos hq], (hf v).symm⟩
    · obtain ⟨k', v, hv, rfl⟩ := (h r).mp hr
      refine ⟨k', v, ?_, rfl⟩
      by_cases hkk : k' = k
      · subst hkk
        have hq : ¬ q v = true := fun hq => by
          rw [(hp k' v).mpr ⟨rfl, hq⟩] at hpr
          cases hpr
        rw [Function.update_self, hv, Option.map_some, if_neg hq]
      · rw [Function.update_of_ne hkk, hv]
  · rintro ⟨k', v, hv, rfl⟩
    by_cases hkk : k' = k
    · subst hkk
      rw [Function.update_self] at hv
      obtain ⟨v₀, hv₀, rfl⟩ := Option.map_eq_some_iff.mp hv
      by_cases hq : q v₀ = true
      · rw [if_pos hq]
        exact .inl ⟨enc k' v₀, (h _).mpr ⟨k', v₀, hv₀, rfl⟩, (hp k' v₀).mpr ⟨rfl, hq⟩, hf v₀⟩
      · rw [if_neg hq]
        refine .inr ⟨(h _).mpr ⟨k', v₀, hv₀, rfl⟩, Bool.eq_false_iff.mpr fun hpr => ?_⟩
        exact hq ((hp k' v₀).mp hpr).2
    · rw [Function.update_of_ne hkk] at hv
      refine .inr ⟨(h _).mpr ⟨k', v, hv, rfl⟩, Bool.eq_false_iff.mpr fun hpr => ?_⟩
      exact hkk ((hp k' v).mp hpr).1

/-- An update of the rows of one key replaces its value, if it has one. -/
theorem Represents.setWhere [DecidableEq κ] (h : Represents enc rows m) {k : κ} {v : ν}
    {p : ρ → Bool} {f : ρ → ρ} (hp : ∀ k' v', p (enc k' v') = true ↔ k' = k)
    (hf : ∀ v', f (enc k v') = enc k v) :
    Represents enc (Sql.setWhere p f rows)
      (if (m k).isSome then Function.update m k (some v) else m) := by
  intro r
  rw [mem_setWhere]
  constructor
  · rintro (⟨r₀, hr₀, hpr, rfl⟩ | ⟨hr, hpr⟩)
    · obtain ⟨k', v', hv', rfl⟩ := (h r₀).mp hr₀
      obtain rfl := (hp k' v').mp hpr
      refine ⟨k', v, ?_, (hf v').symm⟩
      rw [if_pos (by rw [hv']; rfl), Function.update_self]
    · obtain ⟨k', v', hv', rfl⟩ := (h r).mp hr
      have hne : k' ≠ k := by
        intro heq
        rw [(hp k' v').mpr heq] at hpr
        cases hpr
      refine ⟨k', v', ?_, rfl⟩
      split
      · rw [Function.update_of_ne hne, hv']
      · exact hv'
  · rintro ⟨k', v', hv', rfl⟩
    by_cases hkk : k' = k
    · subst hkk
      obtain ⟨v₀, hv₀⟩ : ∃ v₀, m k' = some v₀ := by
        rcases hm : m k' with - | v₀
        · simp [hm] at hv'
        · exact ⟨v₀, rfl⟩
      rw [if_pos (by rw [hv₀]; rfl), Function.update_self, Option.some.injEq] at hv'
      subst hv'
      exact .inl ⟨enc k' v₀, (h _).mpr ⟨k', v₀, hv₀, rfl⟩, (hp k' v₀).mpr rfl, hf v₀⟩
    · refine .inr ⟨(h _).mpr ⟨k', v', ?_, rfl⟩, ?_⟩
      · split at hv'
        · rw [Function.update_of_ne hkk] at hv'
          exact hv'
        · exact hv'
      · rw [Bool.eq_false_iff]
        intro hpr
        exact hkk ((hp k' v').mp hpr)

end

/-! ### Row level security -/

/-- The commands a grant or a policy is for. -/
inductive Command
  | select | insert | update
deriving DecidableEq

/-- One policy: the command, the role it is written `TO`, and its two
expressions over the environment `E` of the statement and a row.  `visible`
is `USING`, `check` is `WITH CHECK`; the one a command does not have stays
`true`. -/
structure Policy (R E ρ : Type) where
  command : Command
  grantee : R
  visible : E → ρ → Bool := fun _ _ => true
  check : E → ρ → Bool := fun _ _ => true

/-- Why a statement is refused. -/
inductive SqlError
  | permissionDenied
  | rowSecurity
  | uniqueViolation
  | foreignKeyViolation
  | untranslatableCharacter
  | datetimeFieldOverflow
  | tooManyParameters
  | connectionLost
deriving DecidableEq

/-- A table: its owner, its grants, and its policies where row level security
is enabled. -/
structure Table (R E ρ : Type) where
  owner : R
  grants : List (Command × R)
  policies : Option (List (Policy R E ρ))

namespace Table

variable {R E : Type} [DecidableEq R]
variable (T : Table R E ρ) (member : R → R → Bool) (role : R) (env : E)

/-- May `role` run the command on the table at all? -/
def granted (c : Command) : Bool :=
  role == T.owner || T.grants.any fun g => g.1 == c && member role g.2

/-- Does one of the policies for the command let the row pass? -/
def passes (c : Command) (expr : Policy R E ρ → E → ρ → Bool) (r : ρ) : Bool :=
  match T.policies with
  | none => true
  | some ps => role == T.owner ||
      ps.any fun p => p.command == c && member role p.grantee && expr p env r

/-- The rows of a `SELECT .. WHERE p`. -/
def select (p : ρ → Bool) (rows : List ρ) : Except SqlError (List ρ) :=
  if T.granted member role .select then
    .ok (rows.filter fun r => T.passes member role env .select Policy.visible r && p r)
  else .error .permissionDenied

/-- The table after an `INSERT` of the rows `new`. -/
def insert (new : List ρ) (rows : List ρ) : Except SqlError (List ρ) :=
  if T.granted member role .insert then
    if new.all (T.passes member role env .insert Policy.check) then .ok (rows ++ new)
    else .error .rowSecurity
  else .error .permissionDenied

/-- The rows an `UPDATE .. WHERE p` touches. -/
def touches (p : ρ → Bool) (r : ρ) : Bool :=
  T.passes member role env .select Policy.visible r &&
    T.passes member role env .update Policy.visible r && p r

/-- The table after an `UPDATE .. SET f WHERE p`, and the number of rows it
touched. -/
def update (p : ρ → Bool) (f : ρ → ρ) (rows : List ρ) : Except SqlError (ℕ × List ρ) :=
  if T.granted member role .update && T.granted member role .select then
    if rows.all fun r => !T.touches member role env p r ||
        T.passes member role env .update Policy.check (f r) then
      .ok ((rows.filter (T.touches member role env p)).length,
        setWhere (T.touches member role env p) f rows)
    else .error .rowSecurity
  else .error .permissionDenied

variable {T member role env}

/-! What a command that succeeds has passed. -/

theorem select_ok {p : ρ → Bool} {rows rows' : List ρ}
    (h : T.select member role env p rows = .ok rows') :
    rows' = rows.filter fun r => T.passes member role env .select Policy.visible r && p r := by
  unfold select at h
  split at h
  · exact (Except.ok.inj h).symm
  · cases h

theorem insert_ok {new rows rows' : List ρ}
    (h : T.insert member role env new rows = .ok rows') :
    T.granted member role .insert = true ∧
      (∀ r ∈ new, T.passes member role env .insert Policy.check r = true) ∧
      rows' = rows ++ new := by
  unfold insert at h
  split at h
  · rename_i hgrant
    split at h
    · rename_i hcheck
      exact ⟨hgrant, List.all_eq_true.mp hcheck, (Except.ok.inj h).symm⟩
    · cases h
  · cases h

theorem update_ok {p : ρ → Bool} {f : ρ → ρ} {rows rows' : List ρ} {n : ℕ}
    (h : T.update member role env p f rows = .ok (n, rows')) :
    T.granted member role .update = true ∧
      (∀ r ∈ rows, T.touches member role env p r = true →
        T.passes member role env .update Policy.check (f r) = true) ∧
      rows' = setWhere (T.touches member role env p) f rows := by
  unfold update at h
  split at h
  · rename_i hgrant
    split at h
    · rename_i hcheck
      simp only [Bool.and_eq_true] at hgrant
      simp only [List.all_eq_true, Bool.or_eq_true, Bool.not_eq_true'] at hcheck
      obtain ⟨-, rfl⟩ := Prod.mk.inj (Except.ok.inj h)
      refine ⟨hgrant.1, fun r hr ht => (hcheck r hr).resolve_left ?_, rfl⟩
      rw [ht]
      exact Bool.noConfusion
    · cases h
  · cases h

/-- An update of columns the policies do not read: where everything is visible,
and the policies for updates pass the rows that satisfy `q`, it touches exactly
those. -/
theorem update_eq {p q : ρ → Bool} {f : ρ → ρ} {rows : List ρ}
    (hupdate : T.granted member role .update = true)
    (hselect : T.granted member role .select = true)
    (hsel : ∀ r, T.passes member role env .select Policy.visible r = true)
    (hvisible : ∀ r, T.passes member role env .update Policy.visible r = q r)
    (hcheck : ∀ r, T.passes member role env .update Policy.check r = q r)
    (hf : ∀ r, q (f r) = q r) :
    T.update member role env p f rows =
      .ok ((rows.filter fun r => q r && p r).length, setWhere (fun r => q r && p r) f rows) := by
  have htouch : T.touches member role env p = fun r => q r && p r := by
    funext r
    rw [touches, hsel, hvisible, Bool.true_and]
  have hpass : (rows.all fun r => !(q r && p r) ||
      T.passes member role env .update Policy.check (f r)) = true := by
    refine List.all_eq_true.mpr fun r _ => ?_
    rw [hcheck, hf]
    cases q r <;> cases p r <;> rfl
  rw [update, hupdate, hselect, htouch, hpass]
  rfl

end Table

end Sql
