import Sirah.Lib.CString

/-!
# JSON values as json-c holds them

A `json_object *` is a value of `Json`; the NULL pointer, which json-c also uses for the JSON `null`, is
`Json.null`. An object's members keep the order of their first insertion.

The accessors follow json-c: reading a member of something that is no object finds nothing, the scalar
getters coerce, and adding a member to something that is no object, or taking the length of something
that is no array, is a failed assertion (`none`).

`lookup_set` and `set_set` say how adding and reading members fit together.
-/

/-- A JSON value. A number with a fraction or an exponent is `mantissa * 10 ^ exponent`. -/
inductive Json where
  | null
  | bool (b : Bool)
  | int (i : Int)
  | double (mantissa exponent : Int)
  | str (s : CString)
  | arr (items : List Json)
  | obj (members : List (CString × Json))
  deriving Repr

namespace Json

/-! ## Members -/

/-- The value of a key. -/
def lookup (key : CString) : List (CString × Json) → Option Json
  | [] => none
  | (k, v) :: ms => if k = key then some v else lookup key ms

/-- A value under a key: in place of the one there is, else at the end. -/
def set (key : CString) (value : Json) : List (CString × Json) → List (CString × Json)
  | [] => [(key, value)]
  | (k, v) :: ms => if k = key then (k, value) :: ms else (k, v) :: set key value ms

/-- `json_object_object_get_ex`. -/
def getEx (j : Json) (key : CString) : Option Json :=
  match j with
  | obj ms => lookup key ms
  | _ => none

/-- `json_object_object_get`. -/
def get (j : Json) (key : CString) : Json := (j.getEx key).getD null

/-- `json_object_object_add`. -/
def add (j : Json) (key : CString) (value : Json) : Option Json :=
  match j with
  | obj ms => some (obj (set key value ms))
  | _ => none

/-- `json_object_array_length` with the elements it counts. -/
def elems (j : Json) : Option (List Json) :=
  match j with
  | arr js => some js
  | _ => none

/-! ## Scalars -/

/-- `json_object_get_boolean`. -/
def getBoolean : Json → Bool
  | bool b => b
  | int i => i ≠ 0
  | double m _ => m ≠ 0
  | str s => s ≠ []
  | _ => false

/-- The nearest `int64_t`. -/
def clampInt64 (i : Int) : Int := max (-2 ^ 63) (min i (2 ^ 63 - 1))

/-- `json_object_get_int64`. -/
def getInt64 : Json → Int
  | bool b => if b then 1 else 0
  | int i => clampInt64 i
  | double m e => clampInt64 (if 0 ≤ e then m * 10 ^ e.toNat else m.tdiv (10 ^ (-e).toNat))
  | str s => clampInt64 (CString.atoi s)
  | _ => 0

/-- `json_object_get_int`. -/
def getInt (j : Json) : Int := max (-2 ^ 31) (min j.getInt64 (2 ^ 31 - 1))

/-- `json_object_get_string`, given `json_object_to_json_string`. -/
def getString (render : Json → CString) : Json → Option CString
  | null => none
  | str s => some s
  | j => some (render j)

/-! ## Adding and reading -/

theorem lookup_set (key key' : CString) (v : Json) (ms : List (CString × Json)) :
    lookup key' (set key v ms) = if key = key' then some v else lookup key' ms := by
  induction ms with
  | nil => rfl
  | cons m ms ih =>
    obtain ⟨k, w⟩ := m
    by_cases hk : k = key
    · subst hk
      by_cases hkk : k = key' <;> simp [set, lookup, hkk]
    · by_cases hkk : k = key'
      · subst hkk
        simp [set, lookup, hk, Ne.symm hk]
      · simp [set, lookup, hk, hkk, ih]

@[simp] theorem lookup_set_self (key : CString) (v : Json) (ms : List (CString × Json)) :
    lookup key (set key v ms) = some v := by
  rw [lookup_set, if_pos rfl]

theorem lookup_set_ne {key key' : CString} (h : key ≠ key') (v : Json) (ms : List (CString × Json)) :
    lookup key' (set key v ms) = lookup key' ms := by
  rw [lookup_set, if_neg h]

/-- The last value added under a key counts. -/
@[simp] theorem set_set (key : CString) (v w : Json) (ms : List (CString × Json)) :
    set key w (set key v ms) = set key w ms := by
  induction ms with
  | nil => simp [set]
  | cons m ms ih =>
    obtain ⟨k, u⟩ := m
    by_cases hk : k = key
    · simp [set, hk]
    · simp [set, hk, ih]

/-- What is read from a member is there, and in an object. -/
theorem exists_of_get_ne_null {j : Json} {key : CString} (h : j.get key ≠ null) :
    ∃ ms, j = obj ms ∧ lookup key ms = some (j.get key) := by
  cases j with
  | obj ms =>
    cases hl : lookup key ms with
    | none => exact absurd (by simp [get, getEx, hl]) h
    | some v => exact ⟨ms, rfl, by simp [get, getEx, hl]⟩
  | _ => exact absurd rfl h

end Json
