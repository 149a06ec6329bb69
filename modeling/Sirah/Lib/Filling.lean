import Mathlib.Algebra.Group.Int.Defs
import Mathlib.Algebra.Order.BigOperators.Group.List
import Mathlib.Algebra.Order.Group.Int
import Mathlib.Algebra.Ring.Int.Defs

/-!
# Filling the lowest place

Units that are put one by one into places of a list, each into one that holds least at that time.

* `Fills l l' k`: `l'` may come of `l` in this way with `k` units: a place that got one holds at most one more than any other.
* **`Fills.next`**: one more unit. `Fills.even`: when there were enough units to fill every place up to the highest one, the
  places differ by one at most.
-/

namespace Filling

variable {l l' pre post : List Int} {m M : Int} {k : Nat}

/-- **Filled from below**: what got a unit holds at most one more than any other place. -/
structure Fills (l l' : List Int) (k : Nat) : Prop where
  length : l'.length = l.length
  sum : l'.sum = l.sum + k
  level : ∀ p ∈ l.zip l', p.1 = p.2 ∨ p.1 < p.2 ∧ ∀ y ∈ l', p.2 ≤ y + 1

theorem Fills.refl (l : List Int) : Fills l l 0 := by
  refine ⟨rfl, (Int.add_zero _).symm, fun p hp => .inl ?_⟩
  obtain ⟨i, hi⟩ := List.mem_iff_getElem?.mp hp
  obtain ⟨hfst, hsnd⟩ := List.getElem?_zip_eq_some.mp hi
  exact Option.some.inj (hfst.symm.trans hsnd)

/-- **One more unit** goes to a place that holds least. -/
theorem Fills.next (h : Fills l (pre ++ m :: post) k) (hleast : ∀ y ∈ pre ++ m :: post, m ≤ y) :
    Fills l (pre ++ (m + 1) :: post) (k + 1) := by
  have hlength := h.length
  obtain ⟨a, rest, rfl, ha⟩ : ∃ a rest, l = a ++ rest ∧ a.length = pre.length := by
    refine ⟨l.take pre.length, l.drop pre.length, (List.take_append_drop _ _).symm, ?_⟩
    rw [List.length_append, List.length_cons] at hlength
    rw [List.length_take]
    omega
  obtain ⟨b, c, rfl⟩ : ∃ b c, rest = b :: c := by
    refine List.exists_cons_of_ne_nil ?_
    rintro rfl
    simp only [List.length_append, List.length_cons, List.length_nil] at hlength
    omega
  -- what was at most one more than the others stays so
  have hlevel : ∀ x : Int, (∀ y ∈ pre ++ m :: post, x ≤ y + 1) → ∀ y ∈ pre ++ (m + 1) :: post, x ≤ y + 1 := by
    intro x hx y hy
    simp only [List.mem_append, List.mem_cons] at hx hy
    obtain hy | rfl | hy := hy
    · exact hx y (.inl hy)
    · have := hx m (.inr (.inl rfl))
      omega
    · exact hx y (.inr (.inr hy))
  refine ⟨?_, ?_, fun p hp => ?_⟩
  · rw [← hlength, List.length_append, List.length_append, List.length_cons, List.length_cons]
  · have hsum := h.sum
    simp only [List.sum_append, List.sum_cons] at hsum ⊢
    omega
  · rw [List.zip_append ha, List.zip_cons_cons] at hp
    have hold := h.level
    rw [List.zip_append ha, List.zip_cons_cons] at hold
    simp only [List.mem_append, List.mem_cons] at hp hold
    have hkept : p ∈ a.zip pre ∨ p = (b, m) ∨ p ∈ c.zip post →
        p.1 = p.2 ∨ p.1 < p.2 ∧ ∀ y ∈ pre ++ (m + 1) :: post, p.2 ≤ y + 1 := by
      intro hp
      obtain heq | ⟨hlt, hy⟩ := hold p hp
      · exact .inl heq
      · exact .inr ⟨hlt, hlevel p.2 fun y hmem => hy y (by simpa using hmem)⟩
    obtain hp | rfl | hp := hp
    · exact hkept (.inl hp)
    · have hle : b ≤ m := by
        obtain heq | ⟨hlt, -⟩ := hold (b, m) (.inr (.inl rfl))
        · exact le_of_eq heq
        · exact le_of_lt hlt
      refine .inr ⟨by dsimp only; omega, fun y hy => ?_⟩
      have hmy : m ≤ y := by
        simp only [List.mem_append, List.mem_cons] at hy hleast
        obtain hy | rfl | hy := hy
        · exact hleast y (.inl hy)
        · omega
        · exact hleast y (.inr (.inr hy))
      dsimp only
      omega
    · exact hkept (.inr (.inr hp))

/-- A place holds what some place held before, or at most one more than any other. -/
theorem Fills.mem_or_level (h : Fills l l' k) (z : Int) (hz : z ∈ l') : z ∈ l ∨ ∀ y ∈ l', z ≤ y + 1 := by
  obtain ⟨i, hi⟩ := List.mem_iff_getElem?.mp hz
  obtain ⟨hlt, -⟩ := List.getElem?_eq_some_iff.mp hi
  obtain ⟨a, ha⟩ : ∃ a, l[i]? = some a := ⟨_, List.getElem?_eq_getElem (h.length ▸ hlt)⟩
  have hpair : (l.zip l')[i]? = some (a, z) := List.getElem?_zip_eq_some.mpr ⟨ha, hi⟩
  obtain heq | ⟨-, hlevel⟩ := h.level _ (List.mem_of_getElem? hpair)
  · have heq : a = z := heq
    exact .inl (heq ▸ List.mem_of_getElem? ha)
  · exact .inr hlevel

/-- The room below a bound. -/
theorem sum_room (l : List Int) (M : Int) : (l.map (M - ·)).sum = l.length * M - l.sum := by
  induction l with
  | nil => simp
  | cons x l ih =>
    have hmul : ((l.length + 1 : Nat) : Int) * M = l.length * M + M := by
      rw [Int.natCast_add, Int.add_mul, Int.natCast_one, Int.one_mul]
    rw [List.map_cons, List.sum_cons, List.sum_cons, List.length_cons, ih, hmul]
    omega

/-- **Enough units even the places out.** -/
theorem Fills.even (h : Fills l l' k) (hM : ∀ x ∈ l, x ≤ M) (hk : (l.map (M - ·)).sum ≤ k) :
    ∀ x ∈ l', ∀ y ∈ l', x ≤ y + 1 := by
  intro x hx y hy
  by_contra hlt
  -- the highest place got nothing, so that no place is above the bound
  have hxM : x ≤ M := (h.mem_or_level x hx).elim (hM x) fun hlevel => absurd (hlevel y hy) hlt
  have hroom : ∀ z ∈ l'.map (M - ·), 0 ≤ z := by
    intro _ hroom
    obtain ⟨z, hz, rfl⟩ := List.mem_map.mp hroom
    obtain hold | hlevel := h.mem_or_level z hz
    · have := hM z hold
      omega
    · have := hlevel y hy
      omega
  have hy : M - y ≤ (l'.map (M - ·)).sum := List.single_le_sum hroom _ (List.mem_map_of_mem hy)
  rw [sum_room] at hy hk
  have hsum := h.sum
  rw [h.length] at hy
  omega

end Filling
