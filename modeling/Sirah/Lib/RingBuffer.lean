import Mathlib.Algebra.Group.Fin.Basic
import Mathlib.Algebra.GroupWithZero.Nat
import Mathlib.Data.List.Basic
import Mathlib.Logic.Function.Basic
import Sirah.Lib.Window

/-!
# Ring buffers

A ring of `n` slots that overwrites its oldest element when it is full. `head` is the slot of the oldest
element and `tail` the next one to write; the fields say how the two and the size fit together.

* `toList`: the elements, oldest first.
* **`toList_push`**: pushing drops the oldest element of a full ring and appends.
* **`toList_push_of_toList`**: a ring that holds the last elements of a sequence holds the last elements of
  the longer one.
-/

/-- A ring buffer of `n` slots. -/
structure RingBuffer (α : Type*) (n : Nat) [NeZero n] where
  slots : Fin n → α
  head : Fin n
  tail : Fin n
  size : Nat
  size_le : size ≤ n
  tail_eq : tail = head + Fin.ofNat n size

namespace RingBuffer

variable {α : Type*} {n : Nat} [NeZero n]

/-- No elements; `x` fills the slots. -/
def empty (n : Nat) [NeZero n] (x : α) : RingBuffer α n where
  slots := fun _ => x
  head := 0
  tail := 0
  size := 0
  size_le := Nat.zero_le n
  tail_eq := by rw [Fin.ofNat_zero, add_zero]

theorem ofNat_succ (i : Nat) : Fin.ofNat n (i + 1) = Fin.ofNat n i + 1 := by
  apply Fin.ext
  simp [Fin.val_add]

/-- One more element, in place of the oldest if there is no room. -/
def push (b : RingBuffer α n) (x : α) : RingBuffer α n where
  slots := Function.update b.slots b.tail x
  head := if b.size = n then b.head + 1 else b.head
  tail := b.tail + 1
  size := if b.size = n then b.size else b.size + 1
  size_le := by
    have := b.size_le
    split <;> omega
  tail_eq := by
    rw [b.tail_eq]
    split
    · rw [add_right_comm]
    · rw [ofNat_succ, add_assoc]

/-- The elements, oldest first. -/
def toList (b : RingBuffer α n) : List α :=
  (List.range b.size).map fun i => b.slots (b.head + Fin.ofNat n i)

@[simp] theorem length_toList (b : RingBuffer α n) : b.toList.length = b.size := by
  simp [toList]

@[simp] theorem toList_empty (x : α) : (empty n x).toList = [] := rfl

/-- The slot to write is that of no element that stays. -/
theorem slot_ne_tail (b : RingBuffer α n) {i : Nat} (hi : i < b.size) (hpos : b.size = n → 0 < i) :
    b.head + Fin.ofNat n i ≠ b.tail := by
  intro h
  rw [b.tail_eq] at h
  have hval := congrArg Fin.val (add_left_cancel h)
  have hsize := b.size_le
  simp only [Fin.ofNat_eq_cast, Fin.val_natCast] at hval
  rw [Nat.mod_eq_of_lt (by omega)] at hval
  by_cases hfull : b.size = n
  · have := hpos hfull
    rw [hfull, Nat.mod_self] at hval
    omega
  · rw [Nat.mod_eq_of_lt (by omega)] at hval
    omega

/-- **Pushing drops the oldest element of a full ring and appends.** -/
theorem toList_push (b : RingBuffer α n) (x : α) :
    (b.push x).toList = b.toList.drop (b.size + 1 - n) ++ [x] := by
  have hn : 0 < n := Nat.pos_of_neZero n
  by_cases hfull : b.size = n
  · obtain ⟨k, hk⟩ : ∃ k, b.size = k + 1 := ⟨b.size - 1, by omega⟩
    have hdrop : b.size + 1 - n = 1 := by omega
    have hslot : ∀ i, b.head + 1 + Fin.ofNat n i = b.head + Fin.ofNat n (i + 1) := by
      intro i
      rw [ofNat_succ, add_assoc, add_comm 1]
    have hstay : b.toList.drop 1 =
        (List.range k).map fun i => b.slots (b.head + Fin.ofNat n (i + 1)) := by
      rw [toList, hk, List.range_succ_eq_map, List.map_cons, List.drop_one, List.tail_cons,
        List.map_map]
      rfl
    rw [hdrop, hstay]
    simp only [toList, push, if_pos hfull, hslot]
    rw [hk, List.range_succ, List.map_append]
    congr 1
    · refine List.map_congr_left fun i hi => Function.update_of_ne ?_ _ _
      have hlt := List.mem_range.mp hi
      exact b.slot_ne_tail (by omega) fun _ => Nat.succ_pos i
    · rw [List.map_singleton, ← hk, ← b.tail_eq, Function.update_self]
  · have hsize := b.size_le
    have hdrop : b.size + 1 - n = 0 := by omega
    rw [hdrop, List.drop_zero]
    simp only [toList, push, if_neg hfull]
    rw [List.range_succ, List.map_append]
    congr 1
    · refine List.map_congr_left fun i hi => Function.update_of_ne ?_ _ _
      exact b.slot_ne_tail (List.mem_range.mp hi) fun h => absurd h hfull
    · rw [List.map_singleton, ← b.tail_eq, Function.update_self]

/-- **A ring holds the last elements of what was pushed.** -/
theorem toList_push_of_toList {b : RingBuffer α n} {xs : List α} (h : b.toList = xs.drop (xs.length - n))
    (x : α) : (b.push x).toList = (xs ++ [x]).drop ((xs ++ [x]).length - n) := by
  rw [toList_push, ← length_toList]
  exact List.window_concat (Nat.pos_of_neZero n) h x

end RingBuffer
