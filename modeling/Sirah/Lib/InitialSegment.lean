import Mathlib.Data.Int.Order.Basic
import Mathlib.Logic.Function.Basic
import Mathlib.Order.Bounds.Basic

/-!
# How far a property goes from the start

`upTo p` are the numbers `k ≥ -1` such that `p` holds at all places up to `k`: the greatest of them is the last
place before the first one without `p`, and -1 if there is none.

* `isGreatest_upTo_iff`: it is the one that `p` goes up to and not beyond.
* **`isGreatest_upTo_update_iff`**: a counter that goes one up when its next place is set is still right after a place
  was set or cleared **iff** the place cleared is not one it counts, and behind the one it goes up to comes none.
-/

namespace InitialSegment

variable {p : Nat → Bool} {k : Int} {i : Nat} {b : Bool}

/-- The numbers up to which `p` holds everywhere. -/
def upTo (p : Nat → Bool) : Set Int := {k | -1 ≤ k ∧ ∀ j : Nat, (j : Int) ≤ k → p j = true}

theorem isGreatest_upTo_iff : IsGreatest (upTo p) k ↔
    -1 ≤ k ∧ (∀ j : Nat, (j : Int) ≤ k → p j = true) ∧ p (k + 1).toNat = false := by
  constructor
  · rintro ⟨⟨hk, hall⟩, hmax⟩
    refine ⟨hk, hall, ?_⟩
    by_contra hnext
    rw [Bool.not_eq_false] at hnext
    have hmem : k + 1 ∈ upTo p := by
      refine ⟨by omega, fun j hj => ?_⟩
      rcases Int.lt_or_eq_of_le hj with hlt | heq
      · exact hall j (by omega)
      · obtain rfl : j = (k + 1).toNat := by omega
        exact hnext
    have hle := hmax hmem
    omega
  · rintro ⟨hk, hall, hnext⟩
    refine ⟨⟨hk, hall⟩, ?_⟩
    rintro x ⟨-, hx⟩
    by_contra hlt
    have hready := hx (k + 1).toNat (by omega)
    exact absurd (hnext.symm.trans hready) Bool.false_ne_true

/-- The counter after the place `i` was set to `b`. -/
def advance (k : Int) (i : Nat) (b : Bool) : Int := if b = true ∧ (i : Int) = k + 1 then i else k

/-- What keeps the counter right. -/
def Keeps (p : Nat → Bool) (k : Int) (i : Nat) : Bool → Prop
  | true => (i : Int) = k + 1 → p (i + 1) = false
  | false => k < i

/-- **The counter stays right, exactly.** -/
theorem isGreatest_upTo_update_iff (h : IsGreatest (upTo p) k) :
    IsGreatest (upTo (Function.update p i b)) (advance k i b) ↔ Keeps p k i b := by
  obtain ⟨hk, hall, hnext⟩ := isGreatest_upTo_iff.mp h
  rw [isGreatest_upTo_iff]
  cases b with
  | true =>
    unfold advance Keeps
    by_cases hi : (i : Int) = k + 1
    · rw [if_pos ⟨rfl, hi⟩]
      have hplace : ((i : Int) + 1).toNat = i + 1 := by omega
      rw [hplace, Function.update_of_ne (Nat.succ_ne_self i)]
      refine ⟨fun h' _ => h'.2.2, fun h' => ⟨by omega, fun j hj => ?_, h' hi⟩⟩
      rcases Nat.eq_or_lt_of_le (Int.ofNat_le.mp hj) with rfl | hlt
      · exact Function.update_self ..
      · rw [Function.update_of_ne (Nat.ne_of_lt hlt)]
        exact hall j (by omega)
    · rw [if_neg fun h' => hi h'.2]
      refine ⟨fun _ h' => absurd h' hi, fun _ => ⟨hk, fun j hj => ?_, ?_⟩⟩
      · rcases eq_or_ne j i with rfl | hne
        · exact Function.update_self ..
        · rw [Function.update_of_ne hne]
          exact hall j hj
      · rw [Function.update_of_ne (by omega)]
        exact hnext
  | false =>
    unfold advance Keeps
    rw [if_neg fun h' => Bool.false_ne_true h'.1]
    constructor
    · rintro ⟨-, hall', -⟩
      by_contra hi
      have hready := hall' i (by omega)
      rw [Function.update_self] at hready
      exact Bool.false_ne_true hready
    · intro hi
      refine ⟨hk, fun j hj => ?_, ?_⟩
      · rw [Function.update_of_ne (by omega)]
        exact hall j hj
      · rw [Function.update_apply]
        split
        · rfl
        · exact hnext

end InitialSegment
