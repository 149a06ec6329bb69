import Mathlib.Algebra.Group.Int.Defs
import Mathlib.Algebra.GroupWithZero.Nat

/-!
# Signed words

Sums of signed machine words of any width, read as integers. A sum of two words that are not negative is
exact if and only if it fits; a difference that is not negative is exact. `UInt32.toNat_succ_iff` is about a counter
without a sign that is copied and counted up. `Int.wrap32` is what an `int` makes of a number.
-/

/-- A number as an `int` holds it. -/
def Int.wrap32 (x : Int) : Int := x.bmod (2 ^ 32)

namespace Int

/-- An `int` holds a number that fits. -/
theorem wrap32_of_fits {x : Int} (hlo : -2 ^ 31 ≤ x) (hhi : x < 2 ^ 31) : x.wrap32 = x := by
  refine bmod_eq_of_le ?_ ?_
  · omega
  · omega

/-- What an `int` holds fits. -/
theorem wrap32_fits (x : Int) : -2 ^ 31 ≤ x.wrap32 ∧ x.wrap32 < 2 ^ 31 := by
  have hlo : -((2 ^ 32 : Nat) : Int) / 2 ≤ x.bmod (2 ^ 32) := le_bmod (by decide)
  have hhi : x.bmod (2 ^ 32) < ((2 ^ 32 : Nat) + 1 : Int) / 2 := bmod_lt (by decide)
  unfold wrap32
  omega

theorem wrap32_add (x y : Int) : (x.wrap32 + y).wrap32 = (x + y).wrap32 := bmod_add_bmod

end Int

namespace BitVec

variable {w : Nat} {a b : BitVec w}

/-- The number of words is twice the number of those that are not negative. -/
theorem natCast_two_pow (hw : 0 < w) : ((2 ^ w : Nat) : Int) = 2 * 2 ^ (w - 1) := by
  obtain ⟨n, rfl⟩ : ∃ n, w = n + 1 := ⟨w - 1, by omega⟩
  rw [Int.natCast_pow, Int.pow_succ, Nat.add_sub_cancel]
  exact Int.mul_comm _ _

/-- **A sum that fits is exact.** -/
theorem toInt_add_of_lt (ha : 0 ≤ a.toInt) (hb : 0 ≤ b.toInt) (h : a.toInt + b.toInt < 2 ^ (w - 1)) :
    (a + b).toInt = a.toInt + b.toInt := by
  rw [toInt_add]
  rcases Nat.eq_zero_or_pos w with rfl | hw
  · rw [toInt_zero_length, toInt_zero_length]
    rfl
  · have hhalf := natCast_two_pow hw
    refine Int.bmod_eq_of_le ?_ ?_
    · omega
    · omega

/-- **A sum is exact if and only if it fits.** -/
theorem toInt_add_eq_iff (ha : 0 ≤ a.toInt) (hb : 0 ≤ b.toInt) :
    (a + b).toInt = a.toInt + b.toInt ↔ a.toInt + b.toInt < 2 ^ (w - 1) := by
  refine ⟨fun h => ?_, toInt_add_of_lt ha hb⟩
  rw [← h]
  exact toInt_lt

/-- A difference that is not negative is exact. -/
theorem toInt_sub_of_le (hb : 0 ≤ b.toInt) (h : b.toInt ≤ a.toInt) : (a - b).toInt = a.toInt - b.toInt := by
  have hlt : a.toInt < 2 ^ (w - 1) := toInt_lt
  rw [toInt_sub]
  rcases Nat.eq_zero_or_pos w with rfl | hw
  · rw [toInt_zero_length, toInt_zero_length]
    rfl
  · have hhalf := natCast_two_pow hw
    refine Int.bmod_eq_of_le ?_ ?_
    · omega
    · omega

end BitVec

/-- The copy of a counter counted up is one more than the counter exactly if it is true to it and can be counted up. -/
theorem UInt32.toNat_succ_iff {copy counter : UInt32} :
    (copy + 1).toNat = counter.toNat + 1 ↔ copy = counter ∧ counter.toNat + 1 < 2 ^ 32 := by
  have hcopy := copy.toNat_lt
  have hcounter := counter.toNat_lt
  have hsum : (copy + 1).toNat = (copy.toNat + 1) % 2 ^ 32 := UInt32.toNat_add copy 1
  rw [hsum, ← UInt32.toNat_inj]
  omega
