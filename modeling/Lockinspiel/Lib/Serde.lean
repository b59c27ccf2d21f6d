/-
Lockinspiel/Lib/Serde.lean

JSON values, and how records are written as such and read again.

A `Codec` writes values of a type as JSON and reads them.  What it reads is more
than what it writes: the members of a record may come in another order and with
others among them, and a record may be an array of its members.  `Codec.Shows` is
what is read, and `Codec.Valid` what the type of the source holds, where the one
of the model holds more.  That what is written is read as it was is part of the
structure.  So codecs are put together, of texts, numbers, options, lists and
records, and nothing has to be proved of them again.
-/
import Lockinspiel.Lib.Rows
import Mathlib.Algebra.Order.Ring.Int
import Mathlib.Logic.Equiv.Defs

namespace Serde

inductive Json
  | null
  | bool (b : Bool)
  | number (n : ℤ)
  /-- A number with a point or an exponent, or `-0`. -/
  | fraction (text : String)
  | string (s : String)
  | array (items : List Json)
  | object (members : List (String × Json))

/-! ### Codecs -/

structure Codec (α : Type) where
  encode : α → Json
  decode : Json → Option α
  Valid : α → Prop
  Shows : α → Json → Prop
  shows_encode : ∀ a, Valid a → Shows a (encode a)
  valid_of_shows : ∀ a j, Shows a j → Valid a
  decode_iff : ∀ j a, decode j = some a ↔ Shows a j

namespace Codec

variable {α β : Type}

def text : Codec String where
  encode := .string
  decode
    | .string s => some s
    | _ => none
  Valid _ := True
  Shows s j := j = .string s
  shows_encode _ _ := rfl
  valid_of_shows _ _ _ := trivial
  decode_iff j s := by
    cases j <;> simp

/-- A signed integer of `bits + 1` bits. -/
def int (bits : ℕ) : Codec ℤ where
  encode := .number
  decode
    | .number n => if -2 ^ bits ≤ n ∧ n < 2 ^ bits then some n else none
    | _ => none
  Valid n := -2 ^ bits ≤ n ∧ n < 2 ^ bits
  Shows n j := j = .number n ∧ -2 ^ bits ≤ n ∧ n < 2 ^ bits
  shows_encode _ h := ⟨rfl, h⟩
  valid_of_shows _ _ h := h.2
  decode_iff j n := by
    cases j with
    | number k =>
        rw [Option.ite_none_right_eq_some, Option.some.injEq, Json.number.injEq]
        constructor
        · rintro ⟨hk, rfl⟩
          exact ⟨rfl, hk⟩
        · rintro ⟨rfl, hk⟩
          exact ⟨hk, rfl⟩
    | _ => simp

/-- `u32`. -/
def word : Codec UInt32 where
  encode n := .number n.toNat
  decode
    | .number n => if 0 ≤ n ∧ n < 4294967296 then some (UInt32.ofNat n.toNat) else none
    | _ => none
  Valid _ := True
  Shows n j := j = .number n.toNat
  shows_encode _ _ := rfl
  valid_of_shows _ _ _ := trivial
  decode_iff j n := by
    cases j with
    | number k =>
        have hn : n.toNat < 4294967296 := n.toNat_lt
        simp only [Json.number.injEq]
        split
        · next hk =>
            have hk' : (UInt32.ofNat k.toNat).toNat = k.toNat :=
              UInt32.toNat_ofNat_of_lt' (show k.toNat < 4294967296 by omega)
            rw [Option.some.injEq, ← UInt32.toNat_inj, hk']
            omega
        · next hk =>
            refine iff_of_false nofun ?_
            rintro rfl
            omega
    | _ => simp

/-- `Option`, of what is never `null`. -/
def option (c : Codec α) (hnull : ∀ a, ¬c.Shows a .null) : Codec (Option α) where
  encode
    | some a => c.encode a
    | none => .null
  decode
    | .null => some none
    | j => (c.decode j).map some
  Valid o := ∀ a ∈ o, c.Valid a
  Shows
    | some a, j => c.Shows a j
    | none, j => j = .null
  shows_encode
    | some a, h => c.shows_encode a (h a rfl)
    | none, _ => rfl
  valid_of_shows
    | some a, j, h => fun _ ha => Option.some.inj ha ▸ c.valid_of_shows a j h
    | none, _, _ => nofun
  decode_iff j a := by
    cases a <;> cases j <;> simp [c.decode_iff, hnull]

def list (c : Codec α) : Codec (List α) where
  encode as := .array (as.map c.encode)
  decode
    | .array items => items.mapM c.decode
    | _ => none
  Valid as := ∀ a ∈ as, c.Valid a
  Shows as j := ∃ items, j = .array items ∧ List.Forall₂ (fun j a => c.Shows a j) items as
  shows_encode as h := ⟨_, rfl, by
    rw [List.forall₂_map_left_iff]
    exact List.forall₂_same.mpr fun a ha => c.shows_encode a (h a ha)⟩
  valid_of_shows := by
    rintro as j ⟨items, -, h⟩
    induction h with
    | nil => nofun
    | cons ha _ ih => exact List.forall_mem_cons.mpr ⟨c.valid_of_shows _ _ ha, ih⟩
  decode_iff j as := by
    cases j <;> simp [Sql.mapM_eq_some, c.decode_iff]

/-- The same JSON, of another type. -/
def equiv (c : Codec α) (e : α ≃ β) : Codec β where
  encode b := c.encode (e.symm b)
  decode j := (c.decode j).map e
  Valid b := c.Valid (e.symm b)
  Shows b j := c.Shows (e.symm b) j
  shows_encode b := c.shows_encode _
  valid_of_shows b := c.valid_of_shows _
  decode_iff j b := by
    rw [Option.map_eq_some_iff, ← c.decode_iff]
    constructor
    · rintro ⟨a, ha, rfl⟩
      rwa [e.symm_apply_apply]
    · exact fun h => ⟨_, h, e.apply_symm_apply b⟩

end Codec

/-! ### Records -/

/-- A member of a record: its name, and its value where it is missing. -/
structure Member (β : Type) where
  name : String
  codec : Codec β
  missing : Option β
  valid_missing : ∀ b ∈ missing, codec.Valid b

namespace Member

variable {β : Type}

/-- A member that must be there. -/
def required (name : String) (codec : Codec β) : Member β := ⟨name, codec, none, nofun⟩

/-- A member of type `Option`, which is `None` where it is missing. -/
def optional (name : String) (codec : Codec β) (hnull : ∀ b, ¬codec.Shows b .null) :
    Member (Option β) where
  name
  codec := codec.option hnull
  missing := some none
  valid_missing := by
    rintro _ ⟨⟩
    nofun

variable (f : Member β)

def decode : Option Json → Option β
  | some j => f.codec.decode j
  | none => f.missing

def Shows (b : β) : Option Json → Prop
  | some j => f.codec.Shows b j
  | none => f.missing = some b

theorem valid_of_shows (b : β) (j : Option Json) (h : f.Shows b j) : f.codec.Valid b := by
  cases j with
  | none => exact f.valid_missing b h
  | some j => exact f.codec.valid_of_shows b j h

theorem shows_required {name : String} {c : Codec β} {b : β} {j : Option Json} :
    (required name c).Shows b j ↔ ∃ i, j = some i ∧ c.Shows b i := by
  cases j <;> simp [required, Shows]

theorem decode_iff (j : Option Json) (b : β) : f.decode j = some b ↔ f.Shows b j := by
  cases j with
  | none => exact Iff.rfl
  | some j => exact f.codec.decode_iff j b

end Member

/-- The members of a record, as they are looked up by their names. -/
structure Members (α : Type) where
  names : List String
  encode : α → List Json
  decode : (String → Option Json) → Option α
  Valid : α → Prop
  Shows : α → (String → Option Json) → Prop
  length_encode : ∀ a, (encode a).length = names.length
  shows_encode : ∀ a look, Valid a → (∀ m ∈ names.zip (encode a), look m.1 = some m.2) →
    Shows a look
  valid_of_shows : ∀ a look, Shows a look → Valid a
  decode_iff : ∀ look a, decode look = some a ↔ Shows a look

namespace Members

variable {α β : Type}

def nil : Members Unit where
  names := []
  encode _ := []
  decode _ := some ()
  Valid _ := True
  Shows _ _ := True
  length_encode _ := rfl
  shows_encode _ _ _ _ := trivial
  valid_of_shows _ _ _ := trivial
  decode_iff _ _ := by simp

def cons (f : Member β) (fs : Members α) : Members (β × α) where
  names := f.name :: fs.names
  encode a := f.codec.encode a.1 :: fs.encode a.2
  decode look := do
    let b ← f.decode (look f.name)
    let a ← fs.decode look
    return (b, a)
  Valid a := f.codec.Valid a.1 ∧ fs.Valid a.2
  Shows a look := f.Shows a.1 (look f.name) ∧ fs.Shows a.2 look
  length_encode a := by rw [List.length_cons, List.length_cons, fs.length_encode]
  shows_encode a look hvalid h := by
    rw [List.zip_cons_cons, List.forall_mem_cons] at h
    refine ⟨?_, fs.shows_encode a.2 look hvalid.2 h.2⟩
    rw [show look f.name = some (f.codec.encode a.1) from h.1]
    exact f.codec.shows_encode a.1 hvalid.1
  valid_of_shows a look h := ⟨f.valid_of_shows _ _ h.1, fs.valid_of_shows _ _ h.2⟩
  decode_iff look a := by
    simp only [Option.bind_eq_bind, Option.bind_eq_some_iff, f.decode_iff, fs.decode_iff]
    constructor
    · rintro ⟨b, hb, a', ha', h⟩
      cases h
      exact ⟨hb, ha'⟩
    · exact fun ⟨hb, ha⟩ => ⟨a.1, hb, a.2, ha, rfl⟩

/-- The members of a record with these names: those of an object that has none of
them twice, or the items of an array that has as many. -/
def ofJson (names : List String) : Json → Option (List (String × Json))
  | .object ms => if ((ms.map Prod.fst).filter (· ∈ names)).Nodup then some ms else none
  | .array items => if items.length = names.length then some (names.zip items) else none
  | _ => none

/-- What is listed under names without a duplicate is found there. -/
theorem lookup_of_mem {ms : List (String × Json)} (h : (ms.map Prod.fst).Nodup) :
    ∀ m ∈ ms, ms.lookup m.1 = some m.2 := by
  induction ms with
  | nil => simp
  | cons m ms ih =>
      rw [List.map_cons, List.nodup_cons] at h
      rintro m' (_ | ⟨_, hm'⟩)
      · exact List.lookup_cons_self
      · have hne : (m'.1 == m.1) = false :=
          beq_eq_false_iff_ne.mpr fun heq => h.1 (heq ▸ List.mem_map_of_mem hm')
        rw [List.lookup_cons, hne]
        exact ih h.2 m' hm'

/-- An object with these members and others is read as the record. -/
theorem shows_of_mem (fs : Members α) {ms : List (String × Json)}
    (hms : (ms.map Prod.fst).Nodup) {a : α} (hvalid : fs.Valid a)
    (h : ∀ m ∈ fs.names.zip (fs.encode a), m ∈ ms) :
    ofJson fs.names (.object ms) = some ms ∧ fs.Shows a fun name => ms.lookup name :=
  ⟨if_pos (hms.filter _), fs.shows_encode a _ hvalid fun m hm => lookup_of_mem hms m (h m hm)⟩

end Members

/-- A record, as `serde` derives it: members that are not known are passed over,
and an array is read as the members in their order. -/
def Codec.record {α : Type} (fs : Members α) (hnames : fs.names.Nodup) : Codec α where
  encode a := .object (fs.names.zip (fs.encode a))
  decode j := do
    let ms ← Members.ofJson fs.names j
    fs.decode fun name => ms.lookup name
  Valid := fs.Valid
  Shows a j := ∃ ms, Members.ofJson fs.names j = some ms ∧ fs.Shows a fun name => ms.lookup name
  shows_encode a hvalid := by
    have hfst : (fs.names.zip (fs.encode a)).map Prod.fst = fs.names :=
      List.map_fst_zip (fs.length_encode a).ge
    exact ⟨_, fs.shows_of_mem (hfst.symm ▸ hnames) hvalid fun _ hm => hm⟩
  valid_of_shows a j := by
    rintro ⟨ms, -, h⟩
    exact fs.valid_of_shows a _ h
  decode_iff j a := by
    simp only [Option.bind_eq_bind, Option.bind_eq_some_iff, fs.decode_iff]

end Serde
