import Mathlib.Algebra.Order.BigOperators.Group.List
import Mathlib.Algebra.Ring.Int.Defs

/-!
# Sums by key

`sumAt key w l k` is the sum of the weights `w` of the elements of `l` whose key is `k`: what the
entries of a ledger charge to one account. One lemma for each way a ledger changes.
-/

namespace List

variable {α κ : Type*} [DecidableEq κ] {key : α → κ} {w : α → Int} {l pre post : List α} {a : α} {k : κ}

/-- The weights of the elements with key `k`, summed. -/
def sumAt (key : α → κ) (w : α → Int) (l : List α) (k : κ) : Int :=
  ((l.filter fun a => key a == k).map w).sum

theorem sumAt_append_singleton :
    sumAt key w (l ++ [a]) k = sumAt key w l k + if key a = k then w a else 0 := by
  unfold sumAt
  by_cases h : key a = k <;> simp [h]

theorem sumAt_remove : sumAt key w (pre ++ a :: post) k =
    sumAt key w (pre ++ post) k + if key a = k then w a else 0 := by
  unfold sumAt
  by_cases h : key a = k
  · simp [h]
    omega
  · simp [h]

/-- **What an erased element leaves** is the sum less its weight. -/
theorem sumAt_erase [BEq α] [LawfulBEq α] (ha : a ∈ l) :
    sumAt key w l k = sumAt key w (l.erase a) k + if key a = k then w a else 0 := by
  obtain ⟨pre, post, hpre, rfl, herase⟩ := exists_erase_eq ha
  rw [herase, sumAt_remove]

/-- An element of another key does not count. -/
theorem sumAt_append_of_ne (h : key a ≠ k) : sumAt key w (l ++ [a]) k = sumAt key w l k := by
  rw [sumAt_append_singleton, if_neg h, Int.add_zero]

theorem sumAt_erase_of_ne [BEq α] [LawfulBEq α] (ha : a ∈ l) (h : key a ≠ k) :
    sumAt key w (l.erase a) k = sumAt key w l k := by
  rw [sumAt_erase ha, if_neg h, Int.add_zero]

theorem sumAt_nonneg (h : ∀ a ∈ l, 0 ≤ w a) : 0 ≤ sumAt key w l k := by
  unfold sumAt
  refine sum_nonneg ?_
  intro x hx
  obtain ⟨a, ha, rfl⟩ := mem_map.mp hx
  exact h a (mem_filter.mp ha).1

theorem sumAt_eq_zero (h : ∀ a ∈ l, key a ≠ k) : sumAt key w l k = 0 := by
  have hnil : l.filter (fun a => key a == k) = [] := by
    rw [filter_eq_nil_iff]
    intro a ha
    rw [beq_iff_eq]
    exact h a ha
  rw [sumAt, hnil]
  rfl

end List
