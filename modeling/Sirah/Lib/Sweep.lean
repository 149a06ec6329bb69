import Mathlib.Data.List.Basic

/-!
# Sweeping a list

A loop over an array that removes an element by moving down what follows it.

* `sweep`: from the last place to the first. What was removed lies behind the places that are still to come, so the loop
  is a filter (`sweep_length`).
* `sweepUp`: from the first place to the last, with the place looked at once more after a removal, and a count of what
  was removed (`sweepUp_length`).
-/

namespace List

variable {α : Type*}

/-- The loop at the places below `i`: the elements that satisfy `p` are removed. -/
def sweep (p : α → Bool) : Nat → List α → List α
  | 0, l => l
  | i + 1, l => sweep p i (if l[i]?.any p then l.eraseIdx i else l)

/-- The places below `i` are filtered and the others stay. -/
theorem sweep_eq_append (p : α → Bool) {i : Nat} {l : List α} (hi : i ≤ l.length) :
    sweep p i l = (l.take i).filter (fun x => !p x) ++ l.drop i := by
  induction i generalizing l with
  | zero => rfl
  | succ i ih =>
    have hget : l[i]? = some l[i] := getElem?_eq_getElem hi
    rw [sweep, hget, Option.any_some, take_succ_eq_append_getElem hi, filter_append]
    cases hp : p l[i] with
    | true =>
      have hle : i ≤ (l.eraseIdx i).length := by
        rw [length_eraseIdx_of_lt hi]
        omega
      rw [if_pos rfl, ih hle, eraseIdx_eq_take_drop_succ,
        take_left' (length_take_of_le (Nat.le_of_succ_le hi)),
        drop_left' (length_take_of_le (Nat.le_of_succ_le hi)), filter_cons_of_neg (by simp [hp]), filter_nil,
        append_nil]
    | false =>
      rw [if_neg Bool.false_ne_true, ih (Nat.le_of_succ_le hi), filter_cons_of_pos (by simp [hp]), filter_nil,
        append_assoc, singleton_append, ← drop_eq_getElem_cons hi]

/-- **The sweep is a filter.** -/
theorem sweep_length (p : α → Bool) (l : List α) : sweep p l.length l = l.filter fun x => !p x := by
  rw [sweep_eq_append p (Nat.le_refl _), take_length, drop_length, append_nil]

/-- The loop from the place `i` on, in at most `fuel` rounds. -/
def sweepUp (p : α → Bool) : Nat → Nat → List α → List α × Nat
  | 0, _, l => (l, 0)
  | fuel + 1, i, l =>
    match l[i]? with
    | none => (l, 0)
    | some x =>
      if p x then ((sweepUp p fuel i (l.eraseIdx i)).1, (sweepUp p fuel i (l.eraseIdx i)).2 + 1)
      else sweepUp p fuel (i + 1) l

/-- Behind the last place nothing is left to filter. -/
theorem sweep_end (p : α → Bool) {i : Nat} {l : List α} (hi : l.length ≤ i) :
    (l.take i ++ (l.drop i).filter (fun x => !p x), (l.drop i).countP p) = (l, 0) := by
  rw [drop_eq_nil_of_le hi, take_of_length_le hi, filter_nil, append_nil, countP_nil]

/-- The places from `i` on are filtered, and every round takes one of them. -/
theorem sweepUp_eq (p : α → Bool) {fuel i : Nat} {l : List α} (hfuel : l.length ≤ i + fuel) :
    sweepUp p fuel i l = (l.take i ++ (l.drop i).filter (fun x => !p x), (l.drop i).countP p) := by
  induction fuel generalizing i l with
  | zero => exact (sweep_end p hfuel).symm
  | succ fuel ih =>
    rw [sweepUp]
    by_cases hi : i < l.length
    · rw [getElem?_eq_getElem hi, drop_eq_getElem_cons hi]
      dsimp only
      cases hp : p l[i] with
      | true =>
        have hlength := length_eraseIdx_of_lt hi
        have htake : (l.take i).length = i := length_take_of_le (Nat.le_of_lt hi)
        rw [if_pos rfl, ih (by omega), eraseIdx_eq_take_drop_succ, take_left' htake, drop_left' htake,
          filter_cons_of_neg (by simp [hp]), countP_cons_of_pos hp]
      | false =>
        rw [if_neg Bool.false_ne_true, ih (by omega), take_succ_eq_append_getElem hi, append_assoc,
          filter_cons_of_pos (by simp [hp]), countP_cons_of_neg (by simp [hp])]
        rfl
    · have hle : l.length ≤ i := Nat.le_of_not_lt hi
      rw [getElem?_eq_none hle]
      exact (sweep_end p hle).symm

/-- **This sweep is a filter, too**, and it counts what it removes. -/
theorem sweepUp_length (p : α → Bool) (l : List α) :
    sweepUp p l.length 0 l = (l.filter fun x => !p x, l.countP p) := by
  rw [sweepUp_eq p (by omega), take_zero, drop_zero, nil_append]

/-- Two filters leave the same exactly if they agree on the list. -/
theorem filter_eq_filter_iff {p q : α → Bool} {l : List α} :
    l.filter p = l.filter q ↔ ∀ x ∈ l, p x = q x := by
  refine ⟨fun h x hx => ?_, fun h => filter_congr h⟩
  have hiff : x ∈ l.filter p ↔ x ∈ l.filter q := by rw [h]
  simp only [mem_filter, hx, true_and] at hiff
  exact Bool.eq_iff_iff.mpr hiff

end List
