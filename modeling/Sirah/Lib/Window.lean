import Mathlib.Data.List.Basic

/-!
# The last elements of what came

A bounded log keeps the last `n` of the elements that come, which are `xs.drop (xs.length - n)`. With one more element
it loses its first one if it is full.

**`window_concat`**: what it loses and gains are the last elements again. `window_of_lt` and `window_of_le` are the two
cases.
-/

namespace List

variable {α : Type*} {xs w : List α} {n : Nat}

/-- **One more element comes.** -/
theorem window_concat (hn : 0 < n) (hw : w = xs.drop (xs.length - n)) (x : α) :
    w.drop (w.length + 1 - n) ++ [x] = (xs ++ [x]).drop ((xs ++ [x]).length - n) := by
  have hlength : w.length = xs.length - (xs.length - n) := by rw [hw, length_drop]
  have hstart : xs.length - n + (w.length + 1 - n) = xs.length + 1 - n := by omega
  have hle : xs.length + 1 - n ≤ xs.length := by omega
  rw [length_append, length_singleton, drop_append_of_le_length hle, ← hstart, ← drop_drop, ← hw]

/-- The log is not full. -/
theorem window_of_lt (hw : w = xs.drop (xs.length - n)) (hroom : w.length < n) (x : α) :
    w ++ [x] = (xs ++ [x]).drop ((xs ++ [x]).length - n) := by
  have hzero : w.length + 1 - n = 0 := by omega
  rw [← window_concat (Nat.zero_lt_of_lt hroom) hw x, hzero, drop_zero]

/-- The log is full. -/
theorem window_of_le (hn : 0 < n) (hw : w = xs.drop (xs.length - n)) (hfull : n ≤ xs.length) (x : α) :
    w.tail ++ [x] = (xs ++ [x]).drop ((xs ++ [x]).length - n) := by
  have hlength : w.length = xs.length - (xs.length - n) := by rw [hw, length_drop]
  have hone : w.length + 1 - n = 1 := by omega
  rw [← window_concat hn hw x, hone, drop_one]

end List
