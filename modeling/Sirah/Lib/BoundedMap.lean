import Mathlib.Data.Set.Card
import Sirah.Lib.Represents

/-!
# Calls of a bounded map

What a table with a limit is for: a map that takes a value at a new key while it has fewer than `limit` keys, changes
the value of a key that it has, and forgets a key.

`Represents.insertNew`, `Represents.editAt` and `Represents.erase` say which change of a list of records is which call
of the map that it represents.
-/

namespace KeyedRecords

variable {α β κ : Type*} [DecidableEq κ]

open Classical in
/-- A value at a new key, if there is room. -/
noncomputable def insertNew (limit : Nat) (k : κ) (v : β) (m : κ → Option β) : κ → Option β :=
  if m k = none ∧ {k | m k ≠ none}.ncard < limit then Function.update m k (some v) else m

/-- A change of the value of a key, which may be refused. -/
def editAt (k : κ) (f : β → Option β) (m : κ → Option β) : κ → Option β :=
  match (m k).bind f with
  | some v => Function.update m k (some v)
  | none => m

/-- A key forgotten. -/
def erase (k : κ) (m : κ → Option β) : κ → Option β := Function.update m k none

variable {key : α → κ} {R : α → β → Prop} {l pre post : List α} {m : κ → Option β} {k : κ} {x y : α} {v : β}
  {limit : Nat} {f : β → Option β}

/-- The map has as many keys as the table has records. -/
theorem Represents.ncard (h : Represents key R l m) : {k | m k ≠ none}.ncard = l.length := by
  have hkeys : {k | m k ≠ none} = ((l.map key).toFinset : Set κ) := by
    ext k
    rw [Set.mem_ofPred_eq, Finset.mem_coe, List.mem_toFinset, h.mem_keys_iff]
  rw [hkeys, Set.ncard_coe_finset, List.toFinset_card_of_nodup h.distinct, List.length_map]

theorem Represents.eq_none_iff (h : Represents key R l m) : m k = none ↔ k ∉ l.map key := by
  rw [h.mem_keys_iff, not_not]

theorem insertNew_of_taken (h : m k ≠ none) : insertNew limit k v m = m := if_neg fun hnew => h hnew.1

theorem Represents.insertNew_of_full (h : Represents key R l m) (hfull : limit ≤ l.length) :
    insertNew limit k v m = m := by
  refine if_neg fun hnew => ?_
  rw [h.ncard] at hnew
  omega

/-- **A record appended to a table with room.** -/
theorem Represents.insertNew (h : Represents key R l m) (hroom : l.length < limit) (hfree : key x ∉ l.map key)
    (hR : R x v) : Represents key R (l ++ [x]) (insertNew limit (key x) v m) := by
  rw [KeyedRecords.insertNew, if_pos ⟨h.eq_none_iff.mpr hfree, h.ncard.symm ▸ hroom⟩]
  exact (represents_concat_iff h hfree).mpr ⟨rfl, hR⟩

theorem editAt_of_none (h : m k = none) : editAt k f m = m := by
  rw [editAt, h, Option.bind_none]

theorem editAt_of_some {v' : β} (h : m k = some v) (hf : f v = some v') :
    editAt k f m = Function.update m k (some v') := by
  rw [editAt, h, Option.bind_some, hf]

theorem editAt_of_refused (h : m k = some v) (hf : f v = none) : editAt k f m = m := by
  rw [editAt, h, Option.bind_some, hf]

/-- **A record changed in its place.** -/
theorem Represents.editAt {v' : β} (h : Represents key R (pre ++ x :: post) m) (hv : m (key x) = some v)
    (hf : f v = some v') (hkey : key y = key x) (hR : R y v') :
    Represents key R (pre ++ y :: post) (editAt (key x) f m) := by
  rw [editAt_of_some hv hf]
  exact (represents_replace_iff h).mpr ⟨hkey, hR⟩

/-- **A record taken out.** -/
theorem Represents.erase (h : Represents key R (pre ++ x :: post) m) :
    Represents key R (pre ++ post) (erase (key x) m) := h.remove

theorem Represents.erase_of_free (h : Represents key R l m) (hfree : k ∉ l.map key) :
    KeyedRecords.erase k m = m := by
  rw [KeyedRecords.erase, ← h.eq_none_iff.mpr hfree, Function.update_eq_self]

end KeyedRecords
