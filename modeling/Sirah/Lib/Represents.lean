import Mathlib.Data.List.Basic
import Mathlib.Data.Option.Basic
import Mathlib.Logic.Function.Basic
import Sirah.Lib.SplitFirst

/-!
# Lists of records as finite maps

A table that is a list of records, each with a key, and a map `m : κ → Option β` that says what the table is for.
`R x v` says that the record `x` shows the value `v`.

* `lookup key k l`: the first record of the key `k`.
* `Represents key R l m`: the keys are distinct, and at every key the table and the map have nothing, or a record and
  a value that it shows.

**`represents_insert_iff`**: with a record put at a free key the table represents the map with a new value there
**iff** the record has that key and shows the value. `represents_concat_iff` and `represents_replace_iff` are this
rule for a record at the end and for one that takes the place of another, `Represents.remove` is the one for a
record taken out, and `Represents.map` the one for a change of them all.
-/

namespace KeyedRecords

variable {α β κ : Type*} [DecidableEq κ]

/-- The first record with this key. -/
def lookup (key : α → κ) (k : κ) (l : List α) : Option α := l.find? fun x => decide (key x = k)

/-- **The table represents the map.** -/
structure Represents (key : α → κ) (R : α → β → Prop) (l : List α) (m : κ → Option β) : Prop where
  distinct : (l.map key).Nodup
  found : ∀ k, Option.Rel R (lookup key k l) (m k)

variable {key : α → κ} {R : α → β → Prop} {l pre post : List α} {m : κ → Option β} {k : κ} {x y : α} {v : β}

/-! ## What is found -/

theorem lookup_eq_none : lookup key k l = none ↔ k ∉ l.map key := by
  simp only [lookup, List.find?_eq_none, decide_eq_true_eq, List.mem_map, not_exists, not_and]

theorem lookup_insert_of_ne (h : key x ≠ k) : lookup key k (pre ++ x :: post) = lookup key k (pre ++ post) := by
  rw [lookup, List.find?_append, List.find?_cons_of_neg (by rw [decide_eq_true_eq]; exact h), ← List.find?_append]
  rfl

/-- At a key that is free without it, the record is found if it has this key. -/
theorem lookup_insert (hfree : k ∉ (pre ++ post).map key) :
    lookup key k (pre ++ x :: post) = if key x = k then some x else none := by
  split
  · next heq =>
    rw [List.map_append, List.mem_append, not_or] at hfree
    have hpre : pre.find? (fun x => decide (key x = k)) = none := lookup_eq_none.mpr hfree.1
    rw [lookup, List.find?_append, hpre, Option.none_or, List.find?_cons_of_pos (by rw [decide_eq_true_eq]; exact heq)]
  · next hne => rw [lookup_insert_of_ne hne, lookup_eq_none.mpr hfree]

/-- **The representation read out**: the table has a record exactly where the map has a value, which the record shows. -/
theorem represents_iff : Represents key R l m ↔ (l.map key).Nodup ∧
    (∀ k, (∃ x, lookup key k l = some x) ↔ m k ≠ none) ∧
      ∀ k x v, lookup key k l = some x → m k = some v → R x v := by
  have hrel : ∀ k, Option.Rel R (lookup key k l) (m k) ↔
      ((∃ x, lookup key k l = some x) ↔ m k ≠ none) ∧
        ∀ x v, lookup key k l = some x → m k = some v → R x v := by
    intro k
    cases lookup key k l <;> cases m k <;> simp
  constructor
  · intro h
    exact ⟨h.distinct, fun k => ((hrel k).mp (h.found k)).1, fun k => ((hrel k).mp (h.found k)).2⟩
  · rintro ⟨hdistinct, hsome, hshows⟩
    exact ⟨hdistinct, fun k => (hrel k).mpr ⟨hsome k, hshows k⟩⟩

/-- **What a record and the value that it shows agree on**, the table and the map agree on at every key. -/
theorem Represents.map_lookup {γ : Type*} {f : α → γ} {g : β → γ} (h : Represents key R l m)
    (hfg : ∀ x v, R x v → f x = g v) (k : κ) : (lookup key k l).map f = (m k).map g := by
  have hfound := h.found k
  generalize lookup key k l = a at hfound
  generalize m k = b at hfound
  cases hfound with
  | none => rfl
  | some hR => exact congrArg some (hfg _ _ hR)

/-- The keys of the table are those of the map. -/
theorem Represents.mem_keys_iff (h : Represents key R l m) : k ∈ l.map key ↔ m k ≠ none := by
  have hkeys := h.map_lookup (f := fun _ => ()) (g := fun _ => ()) (fun _ _ _ => rfl) k
  rw [← not_iff_not, not_not, ← lookup_eq_none, ← Option.map_eq_none_iff (f := fun _ => ()), hkeys,
    Option.map_eq_none_iff]

/-- No other record has the key of a record of the table. -/
theorem Represents.free (h : Represents key R (pre ++ x :: post) m) : key x ∉ (pre ++ post).map key :=
  fun hmem => ((List.mem_map_remove_iff h.distinct).mp hmem).2 rfl

/-- The value that a record of the table shows. -/
theorem Represents.value_of_mem (h : Represents key R (pre ++ x :: post) m) : ∃ v, m (key x) = some v ∧ R x v := by
  have hfound := h.found (key x)
  rw [lookup_insert h.free, if_pos rfl] at hfound
  cases hm : m (key x) with
  | none => rw [hm] at hfound; cases hfound
  | some v =>
    rw [hm] at hfound
    cases hfound with
    | some hR => exact ⟨v, rfl, hR⟩

/-! ## What the calls of a table do -/

theorem represents_nil : Represents key R [] fun _ => none :=
  ⟨List.nodup_nil, fun _ => Option.Rel.none⟩

/-- **A record taken out.** -/
theorem Represents.remove (h : Represents key R (pre ++ x :: post) m) :
    Represents key R (pre ++ post) (Function.update m (key x) none) := by
  refine ⟨List.nodup_remove h.distinct, fun k => ?_⟩
  by_cases hk : k = key x
  · rw [hk, lookup_eq_none.mpr h.free, Function.update_self]
    exact Option.Rel.none
  · rw [Function.update_of_ne hk, ← lookup_insert_of_ne (Ne.symm hk)]
    exact h.found k

/-- **A record put at a free key.** -/
theorem represents_insert_iff (h : Represents key R (pre ++ post) m) (hfree : k ∉ (pre ++ post).map key) :
    Represents key R (pre ++ x :: post) (Function.update m k (some v)) ↔ key x = k ∧ R x v := by
  constructor
  · intro hafter
    have hk := hafter.found k
    rw [lookup_insert hfree, Function.update_self] at hk
    by_cases heq : key x = k
    · rw [if_pos heq] at hk
      cases hk with
      | some hR => exact ⟨heq, hR⟩
    · rw [if_neg heq] at hk
      cases hk
  · rintro ⟨rfl, hR⟩
    refine ⟨?_, fun k => ?_⟩
    · rw [List.map_append, List.map_cons, List.nodup_middle, ← List.map_append, List.nodup_cons]
      exact ⟨hfree, h.distinct⟩
    · by_cases hk : k = key x
      · rw [hk, lookup_insert hfree, if_pos rfl, Function.update_self]
        exact Option.Rel.some hR
      · rw [lookup_insert_of_ne (Ne.symm hk), Function.update_of_ne hk]
        exact h.found k

/-- A record put at the end. -/
theorem represents_concat_iff (h : Represents key R l m) (hfree : k ∉ l.map key) :
    Represents key R (l ++ [x]) (Function.update m k (some v)) ↔ key x = k ∧ R x v := by
  rw [← List.append_nil l] at h hfree
  exact represents_insert_iff h hfree

/-- **A change of every record** that leaves the keys changes every value. -/
theorem Represents.map {f : α → α} {g : β → β} (h : Represents key R l m) (hkey : ∀ x, key (f x) = key x)
    (hfg : ∀ x v, R x v → R (f x) (g v)) : Represents key R (l.map f) fun k => (m k).map g := by
  have hkeys : (l.map f).map key = l.map key := by
    rw [List.map_map]
    exact List.map_congr_left fun x _ => hkey x
  refine ⟨hkeys ▸ h.distinct, fun k => ?_⟩
  have hlookup : lookup key k (l.map f) = (lookup key k l).map f := by
    have hsame : (fun x => decide (key x = k)) ∘ f = fun x => decide (key x = k) := by
      funext x
      rw [Function.comp_apply, hkey]
    rw [lookup, lookup, List.find?_map, hsame]
  rw [hlookup]
  have hfound := h.found k
  generalize lookup key k l = a at hfound
  generalize m k = b at hfound
  cases hfound with
  | none => exact Option.Rel.none
  | some hR => exact Option.Rel.some (hfg _ _ hR)

/-- A record that takes the place of another. -/
theorem represents_replace_iff (h : Represents key R (pre ++ y :: post) m) :
    Represents key R (pre ++ x :: post) (Function.update m (key y) (some v)) ↔ key x = key y ∧ R x v := by
  have hinsert := represents_insert_iff (x := x) (v := v) h.remove h.free
  rwa [Function.update_idem] at hinsert

end KeyedRecords
