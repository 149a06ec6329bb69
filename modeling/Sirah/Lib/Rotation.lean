import Mathlib.Data.Int.Order.Basic
import Mathlib.Data.List.Rotate

/-!
# Choosing in turn

The element of a list at the remainder of an index that counts up. The remainder is the one of a signed division: that of a
negative index is not positive, and a place only if it is zero.

* `pick_of_neg`: a negative index picks nothing, unless it is a multiple of the length.
* **`window_perm`**: as many picks as there are elements, at places one after the other, take each element once.
* `pick_over`: at the end of the negative numbers two picks in a row do not both succeed.
-/

namespace Rotation

variable {α : Type*} {l : List α} {x : Int} {f : Nat → Int} {j : Nat}

/-- The element at the remainder of the index, if this is a place. -/
def pick (l : List α) (x : Int) : Option α :=
  if 0 ≤ x.tmod l.length ∧ x.tmod l.length < l.length then l[(x.tmod l.length).toNat]? else none

theorem pick_of_nonneg (hl : l ≠ []) (i : Nat) : pick l i = l[i % l.length]? := by
  have hpos : 0 < l.length := List.length_pos_iff.mpr hl
  have hmod : (i : Int).tmod l.length = (i % l.length : Nat) := rfl
  have hlt : i % l.length < l.length := Nat.mod_lt i hpos
  rw [pick, hmod, if_pos (by omega), Int.toNat_natCast]

theorem pick_of_dvd (hl : l ≠ []) (h : (l.length : Int) ∣ x) : pick l x = l[0]? := by
  have hpos : 0 < l.length := List.length_pos_iff.mpr hl
  rw [pick, Int.tmod_eq_zero_of_dvd h, if_pos (by omega)]
  rfl

/-- **A negative index** picks nothing, unless it is a multiple. -/
theorem pick_of_neg (hx : x ≤ 0) (h : ¬ (l.length : Int) ∣ x) : pick l x = none := by
  refine if_neg fun hplace => h (Int.dvd_of_tmod_eq_zero ?_)
  have hneg : 0 ≤ (-x).tmod l.length := Int.tmod_nonneg _ (by omega)
  rw [Int.neg_tmod] at hneg
  omega

/-- Of two negative indices in a row one picks nothing. -/
theorem pick_over (hl : 2 ≤ l.length) (hx : x + 1 ≤ 0) : pick l x = none ∨ pick l (x + 1) = none := by
  by_cases h : (l.length : Int) ∣ x
  · refine .inr (pick_of_neg hx fun hnext => ?_)
    have hone : (l.length : Int) ∣ 1 := (Int.dvd_add_right h).mp hnext
    have := Int.le_of_dvd Int.one_pos hone
    omega
  · exact .inl (pick_of_neg (by omega) h)

/-- As many picks as there are elements. -/
def window (l : List α) (f : Nat → Int) : List (Option α) := (List.range l.length).map fun j => pick l (f j)

/-- **Places one after the other**: every element is picked once. -/
theorem window_perm (i : Nat) (h : ∀ j < l.length, pick l (f j) = l[(j + i) % l.length]?) :
    (window l f).Perm (l.map some) := by
  have hrotate : window l f = (l.rotate i).map some := by
    refine List.ext_getElem? fun j => ?_
    rw [window, List.getElem?_map, List.getElem?_map]
    by_cases hj : j < l.length
    · have hlt : (j + i) % l.length < l.length := Nat.mod_lt _ (by omega)
      rw [List.getElem?_range hj, List.getElem?_rotate hj, Option.map_some, h j hj, List.getElem?_eq_getElem hlt,
        Option.map_some]
    · have hrange : (List.range l.length)[j]? = none := List.getElem?_eq_none (by simp; omega)
      have hrotated : (l.rotate i)[j]? = none := List.getElem?_eq_none (by simp; omega)
      rw [hrange, hrotated]
      rfl
  rw [hrotate]
  exact (List.rotate_perm l i).map some

/-- **A pick that fails** leaves an element out. -/
theorem not_window_perm (hj : j < l.length) (h : pick l (f j) = none) : ¬ (window l f).Perm (l.map some) := by
  intro hperm
  have hmem : none ∈ window l f := List.mem_map.mpr ⟨j, List.mem_range.mpr hj, h⟩
  obtain ⟨x, -, hx⟩ := List.mem_map.mp (hperm.mem_iff.mp hmem)
  exact Option.some_ne_none x hx

end Rotation
