import Sirah.Lib.CString

/-!
# The object version tracker

Model of `sirah/internal/apiserver/cas_handler.c` and of the counter it draws versions from,
`resource_version.c`. The tracker is a table of 10000 slots, all zero at process start; a slot in use
has a key (`resource_type/namespace/name`, cut at 255 bytes by the `char key[256]` it is built in)
and a version.

* The table is modelled by its touched part `slots`: the slots past it are zero. A freed or untouched
  slot has no key (`key = NULL`) and reads as version 0.
* `tracker.current_version` is a `uint64_t` that starts at 1000.
* A slot is passed around by its index, as the C code passes `&objects[i]`.

Each definition below is one critical section of the source, under `objects_lock` or the slot's lock,
or a sequential composition of them (`casCheckVersion`, `casUpdateVersion`, `casGetVersion`).
-/

namespace Sirah.CasHandler

/-- The object an operation names. -/
structure ObjectRef where
  resourceType : CString
  ns : CString
  name : CString
  deriving DecidableEq, Repr

/-- `object_version_t`. -/
structure Slot where
  key : Option CString
  version : Nat
  deriving DecidableEq, Repr

/-- `MAX_TRACKED_OBJECTS`. -/
def maxTrackedObjects : Nat := 10000

/-- The statics of `cas_handler.c` and `resource_version.c`. -/
structure Tracker where
  slots : List Slot
  currentVersion : Nat
  initialized : Bool
  deriving DecidableEq, Repr

/-- The state at process start. -/
def Tracker.start : Tracker := ⟨[], 1000, false⟩

/-- `cas_result_t`. -/
inductive CasResult where
  | ok
  | conflict
  | notFound
  | error
  deriving DecidableEq, Repr

/-- `generate_key` into `char key[256]`. -/
def generateKey (o : ObjectRef) : CString :=
  CString.snprintf 256 (o.resourceType ++ "/" ++ o.ns ++ "/" ++ o.name)

/-- `resource_version_next`: the counter after the increment. -/
def resourceVersionNext (t : Tracker) : Nat := (t.currentVersion + 1) % 2 ^ 64

/-- The slot array after a write to index `i`, at most one past its touched part. -/
def writeSlot (slots : List Slot) (i : Nat) (s : Slot) : List Slot :=
  if i < slots.length then slots.set i s else slots ++ [s]

/-- A write of the next version under key `k`: slot `i` and the counter change together. -/
def stamp (t : Tracker) (i : Nat) (k : Option CString) : Tracker :=
  { t with
    slots := writeSlot t.slots i ⟨k, resourceVersionNext t⟩
    currentVersion := resourceVersionNext t }

/-- `get_object_version`: the slot of the object's key, else the first free slot, which then gets
the key and the next version, else `NULL`. -/
def getObjectVersion (t : Tracker) (o : ObjectRef) : Option Nat × Tracker :=
  match t.slots.findIdx? fun s => s.key = some (generateKey o) with
  | some i => (some i, t)
  | none =>
    let i := t.slots.findIdx fun s => s.key = none
    if i < maxTrackedObjects then (some i, stamp t i (some (generateKey o))) else (none, t)

/-- The locked part of `cas_handler_init`: `memset` of the table. -/
def resetObjects (t : Tracker) : Tracker :=
  { t with slots := t.slots.map fun _ => ⟨none, 0⟩, initialized := true }

/-- `cas_handler_init`. -/
def casHandlerInit (t : Tracker) : Tracker := if t.initialized then t else resetObjects t

/-- `obj_ver->version`, read under the slot's lock. -/
def slotVersion (t : Tracker) (i : Nat) : Nat := ((t.slots[i]?).map Slot.version).getD 0

/-- `obj_ver->version = resource_version_next()` under the slot's lock; the key is left alone. -/
def bumpSlot (t : Tracker) (i : Nat) : Tracker := stamp t i ((t.slots[i]?).bind Slot.key)

/-- `cas_check_version`. -/
def casCheckVersion (t : Tracker) (o : ObjectRef) (expected : Nat) : CasResult × Tracker :=
  match getObjectVersion (casHandlerInit t) o with
  | (none, t') => (.error, t')
  | (some i, t') => (if expected ≠ slotVersion t' i then .conflict else .ok, t')

/-- `cas_update_version`: `0`, or `-1` without a slot. -/
def casUpdateVersion (t : Tracker) (o : ObjectRef) : Int × Tracker :=
  match getObjectVersion t o with
  | (none, t') => (-1, t')
  | (some i, t') => (0, bumpSlot t' i)

/-- `cas_mark_updated`. -/
def casMarkUpdated (t : Tracker) (o : ObjectRef) : Int × Tracker := casUpdateVersion t o

/-- `cas_get_version`: `0` without a slot. -/
def casGetVersion (t : Tracker) (o : ObjectRef) : Nat × Tracker :=
  match getObjectVersion t o with
  | (none, t') => (0, t')
  | (some i, t') => (slotVersion t' i, t')

/-! ## Reading the table after a write -/

theorem writeSlot_getElem? {slots : List Slot} {i : Nat} (hi : i ≤ slots.length) (s : Slot)
    (j : Nat) : (writeSlot slots i s)[j]? = if j = i then some s else slots[j]? := by
  unfold writeSlot
  split
  · rename_i h
    rw [List.getElem?_set]
    by_cases hj : j = i
    · subst hj; simp [h]
    · simp [hj, Ne.symm hj]
  · have hi' : i = slots.length := by omega
    subst hi'
    rcases lt_trichotomy j slots.length with hj | rfl | hj
    · rw [List.getElem?_append_left hj, if_neg (by omega)]
    · simp
    · rw [List.getElem?_append_right (by omega), if_neg (by omega),
        List.getElem?_eq_none (by simp; omega), List.getElem?_eq_none (by omega)]

/-- **What `get_object_version` can do**: find the key, stamp a free slot with it, or fail. -/
theorem getObjectVersion_cases (t : Tracker) (o : ObjectRef) :
    (∃ i s, getObjectVersion t o = (some i, t) ∧ t.slots[i]? = some s ∧
      s.key = some (generateKey o)) ∨
    (∃ i, i ≤ t.slots.length ∧ (∀ s, t.slots[i]? = some s → s.key = none) ∧
      getObjectVersion t o = (some i, stamp t i (some (generateKey o)))) ∨
    getObjectVersion t o = (none, t) := by
  unfold getObjectVersion
  cases hf : t.slots.findIdx? fun s => s.key = some (generateKey o) with
  | some i =>
    left
    obtain ⟨hlt, hk, -⟩ := List.findIdx?_eq_some_iff_getElem.mp hf
    exact ⟨i, t.slots[i], rfl, List.getElem?_eq_getElem hlt, by simpa using hk⟩
  | none =>
    right
    simp only
    split
    · left
      refine ⟨_, List.findIdx_le_length, fun s hs => ?_, rfl⟩
      obtain ⟨hlt, rfl⟩ := List.getElem?_eq_some_iff.mp hs
      simpa using List.findIdx_getElem (w := hlt)
    · exact Or.inr rfl

example : (casCheckVersion Tracker.start ⟨"pods", "default", "web"⟩ 1001).1 = .ok := by decide

end Sirah.CasHandler
