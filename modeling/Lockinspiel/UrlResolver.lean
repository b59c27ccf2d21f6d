/-
Lockinspiel/UrlResolver.lean

Where the user service keeps an avatar: the location in the column
`avatar_location`, the key of the object in the bucket, and the path that
`put_avatar` builds from a user id and a file extension.

The text of a `Uuid` comes from a crate, so it is a parameter: a `UuidFormat`
is any text of 36 characters that tells the ids apart, and
`UuidFormat.hyphenated` is the one of the crate.  That is enough for the paths
of different users to be different, whatever the extensions are
(`avatarPath_inj`): the extension starts at the same position in all of them.
-/
import Lockinspiel.Auth
import Mathlib.Algebra.Group.Nat.Defs
import Mathlib.Data.List.OfFn

namespace Lockinspiel

namespace User

/-! ### Locations -/

inductive UrlOrigin
  | s3
  | userService
deriving DecidableEq

structure UrlLocation where
  location : UrlOrigin
  path : String
deriving DecidableEq

/-- A JSON object whose members are strings. -/
abbrev JsonObject := List (String × String)

/-- `Serialize for UrlOrigin`, with `rename_all = "snake_case"`. -/
def UrlOrigin.serialize : UrlOrigin → String
  | .s3 => "s3"
  | .userService => "user_service"

/-- `Deserialize for UrlOrigin`. -/
def UrlOrigin.deserialize (s : String) : Option UrlOrigin :=
  if s = "s3" then some .s3
  else if s = "user_service" then some .userService
  else none

/-- `Serialize for UrlLocation`. -/
def UrlLocation.serialize (l : UrlLocation) : JsonObject :=
  [("location", l.location.serialize), ("path", l.path)]

/-- `Deserialize for UrlLocation`. -/
def UrlLocation.deserialize (value : JsonObject) : Option UrlLocation := do
  let location ← UrlOrigin.deserialize (← value.lookup "location")
  let path ← value.lookup "path"
  return { location, path }

/-- A location is read back as it was written. -/
@[simp] theorem UrlLocation.deserialize_serialize (l : UrlLocation) :
    UrlLocation.deserialize l.serialize = some l := by
  rcases l with ⟨location, path⟩
  cases location <;> rfl

/-- `trim_start_matches('/')`. -/
def trimStartSlashes (s : String) : String := String.ofList (s.toList.dropWhile fun c => c == '/')

/-- The key of the object in the bucket. -/
def UrlLocation.key (l : UrlLocation) : String := trimStartSlashes l.path

/-! ### Paths of avatars -/

/-- `Display for Uuid`. -/
structure UuidFormat where
  display : Uuid → String
  length_display : ∀ u, (display u).toList.length = 36
  injective : Function.Injective display

variable (F : UuidFormat)

/-- `format!("avatars/{}.{}", user_id, file_extension)`. -/
def avatarPath (userId : Uuid) (fileExtension : String) : String :=
  "avatars/" ++ F.display userId ++ "." ++ fileExtension

/-- The location that `put_avatar` writes. -/
def avatarAt (userId : Uuid) (fileExtension : String) : UrlLocation where
  location := .s3
  path := avatarPath F userId fileExtension

variable {F}

theorem toList_avatarPath (userId : Uuid) (fileExtension : String) :
    (avatarPath F userId fileExtension).toList =
      "avatars/".toList ++ (F.display userId).toList ++ '.' :: fileExtension.toList := by
  simp [avatarPath]

/-- A path tells both the user and the extension, whatever the extension
contains. -/
theorem avatarPath_inj {u v : Uuid} {e e' : String} :
    avatarPath F u e = avatarPath F v e' ↔ u = v ∧ e = e' := by
  constructor
  · intro h
    have hlist := congrArg String.toList h
    rw [toList_avatarPath, toList_avatarPath] at hlist
    obtain ⟨hfront, hext⟩ := List.append_inj hlist (by simp [F.length_display])
    have huser := List.append_cancel_left hfront
    exact ⟨F.injective (String.toList_inj.mp huser),
      String.toList_inj.mp (List.cons.inj hext).2⟩
  · rintro ⟨rfl, rfl⟩
    rfl

/-- Nothing is trimmed off the path of an avatar. -/
@[simp] theorem key_avatarAt (userId : Uuid) (fileExtension : String) :
    (avatarAt F userId fileExtension).key = avatarPath F userId fileExtension := by
  rw [UrlLocation.key, avatarAt, trimStartSlashes, toList_avatarPath]
  have htrim : ∀ l : List Char, ("avatars/".toList ++ l).dropWhile (fun c => c == '/') =
      "avatars/".toList ++ l := fun l => rfl
  rw [List.append_assoc, htrim, ← List.append_assoc, ← toList_avatarPath, String.ofList_toList]

/-! ### The hyphenated form -/

namespace UuidFormat

/-- The 32 hexadecimal digits of an id. -/
def hexDigits (u : Uuid) : List Char :=
  List.ofFn fun i : Fin 32 => Nat.digitChar (u.toNat / 16 ^ (31 - i.val) % 16)

/-- Groups of 8, 4, 4, 4 and 12 digits. -/
def hyphenate (d : List Char) : List Char :=
  d.take 8 ++ '-' :: ((d.drop 8).take 4 ++ '-' :: ((d.drop 12).take 4 ++
    '-' :: ((d.drop 16).take 4 ++ '-' :: d.drop 20)))

theorem digitChar_inj {m n : ℕ} (hm : m < 16) (hn : n < 16)
    (h : Nat.digitChar m = Nat.digitChar n) : m = n := by
  have hall : ∀ i j : Fin 16, Nat.digitChar i = Nat.digitChar j → i = j := by decide
  exact congrArg Fin.val (hall ⟨m, hm⟩ ⟨n, hn⟩ h)

/-- A number below `16 ^ k` is determined by its `k` digits. -/
theorem eq_of_digits {k a b : ℕ} (ha : a < 16 ^ k) (hb : b < 16 ^ k)
    (h : ∀ i < k, a / 16 ^ i % 16 = b / 16 ^ i % 16) : a = b := by
  induction k generalizing a b with
  | zero => omega
  | succ k ih =>
      have hlow := h 0 (Nat.succ_pos k)
      have hhigh : a / 16 = b / 16 := by
        refine ih (by omega) (by omega) fun i hi => ?_
        have hdigit := h (i + 1) (Nat.succ_lt_succ hi)
        rwa [Nat.pow_succ', ← Nat.div_div_eq_div_mul, ← Nat.div_div_eq_div_mul] at hdigit
      rw [Nat.pow_zero, Nat.div_one, Nat.div_one] at hlow
      omega

theorem hexDigits_injective : Function.Injective hexDigits := by
  intro u v h
  refine BitVec.eq_of_toNat_eq (eq_of_digits (k := 32) u.isLt v.isLt fun i hi => ?_)
  have hdigit := congrFun (List.ofFn_injective h) ⟨31 - i, by omega⟩
  have hsub : 31 - (31 - i) = i := by omega
  have hmod : ∀ n : ℕ, n % 16 < 16 := fun n => Nat.mod_lt n (by decide)
  simp only [hsub] at hdigit
  exact digitChar_inj (hmod _) (hmod _) hdigit

/-- The digits are what is between the hyphens. -/
theorem hyphenate_inj {d d' : List Char} (hd : d.length = 32) (hd' : d'.length = 32)
    (h : hyphenate d = hyphenate d') : d = d' := by
  rw [hyphenate, hyphenate] at h
  obtain ⟨h₁, h⟩ := List.append_inj h (by simp [hd, hd'])
  obtain ⟨h₂, h⟩ := List.append_inj (List.cons.inj h).2 (by simp [hd, hd'])
  obtain ⟨h₃, h⟩ := List.append_inj (List.cons.inj h).2 (by simp [hd, hd'])
  obtain ⟨h₄, h⟩ := List.append_inj (List.cons.inj h).2 (by simp [hd, hd'])
  have h₅ := (List.cons.inj h).2
  have hsplit : ∀ l : List Char, l = l.take 8 ++ ((l.drop 8).take 4 ++ ((l.drop 12).take 4 ++
      ((l.drop 16).take 4 ++ l.drop 20))) := by
    intro l
    have hnext : ∀ (m n : ℕ), (l.drop m).take n ++ l.drop (m + n) = l.drop m := by
      intro m n
      rw [← List.drop_drop, List.take_append_drop]
    rw [hnext 16 4, hnext 12 4, hnext 8 4, List.take_append_drop]
  rw [hsplit d, hsplit d', h₁, h₂, h₃, h₄, h₅]

/-- The hyphenated form, with lower case digits. -/
def hyphenated : UuidFormat where
  display u := String.ofList (hyphenate (hexDigits u))
  length_display u := by simp [hyphenate, hexDigits]
  injective u v h := by
    refine hexDigits_injective (hyphenate_inj (by simp [hexDigits]) (by simp [hexDigits]) ?_)
    have hlist := congrArg String.toList h
    simpa only [String.toList_ofList] using hlist

example : hyphenated.display 0xABC = "00000000-0000-0000-0000-000000000abc" := by decide

end UuidFormat

end User

end Lockinspiel
