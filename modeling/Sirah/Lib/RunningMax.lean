import Mathlib.Algebra.BigOperators.Group.List.Basic
import Mathlib.Algebra.Order.Monoid.Canonical.Defs
import Mathlib.Algebra.Order.Monoid.Unbundled.MinMax
import Mathlib.Order.Bounds.Basic

/-!
# Totals that are raised

A loop over entries with two amounts: the first is added to the total, and the total is raised to the second if
that is greater. The second is compared with all that was added before it, so the order of the entries counts.

* **`isGreatest_total`**: the total is the greatest of the sum of all first amounts and, for each entry, its
  second amount with the first amounts behind it.
* `foldlM_within`: the loop with a bound on its numbers, that stops when one of them reaches it.
-/

namespace RunningMax

variable {α : Type*} [AddCommMonoid α]

/-- What the total is at least: everything added, or a second amount and what is added behind it. -/
def reaches (start : α) (ps : List (α × α)) : Set α :=
  {x | x = start + (ps.map Prod.fst).sum ∨ ∃ pre p post, ps = pre ++ p :: post ∧ x = p.2 + (post.map Prod.fst).sum}

theorem mem_reaches_cons {start : α} {p : α × α} {ps : List (α × α)} {x : α} : x ∈ reaches start (p :: ps) ↔
    x = start + p.1 + (ps.map Prod.fst).sum ∨ x = p.2 + (ps.map Prod.fst).sum ∨
      ∃ pre q post, ps = pre ++ q :: post ∧ x = q.2 + (post.map Prod.fst).sum := by
  unfold reaches
  rw [Set.mem_ofPred_eq, List.map_cons, List.sum_cons, add_assoc]
  refine or_congr_right ⟨?_, ?_⟩
  · rintro ⟨pre, q, post, heq, hx⟩
    cases pre with
    | nil =>
      obtain ⟨rfl, rfl⟩ := List.cons.inj heq
      exact .inl hx
    | cons r pre => exact .inr ⟨pre, q, post, (List.cons.inj heq).2, hx⟩
  · rintro (hx | ⟨pre, q, post, heq, hx⟩)
    · exact ⟨[], p, ps, rfl, hx⟩
    · exact ⟨p :: pre, q, post, by rw [heq, List.cons_append], hx⟩

variable [LinearOrder α]

/-- One entry. -/
def raise (total : α) (p : α × α) : α := max (total + p.1) p.2

/-- All entries. -/
def total (start : α) (ps : List (α × α)) : α := ps.foldl raise start

@[simp] theorem total_nil (start : α) : total start [] = start := rfl

@[simp] theorem total_cons (start : α) (p : α × α) (ps : List (α × α)) :
    total start (p :: ps) = total (raise start p) ps := rfl

/-- **The total is the greatest of what it reaches.** -/
theorem isGreatest_total [AddLeftMono α] [AddRightMono α] (start : α) (ps : List (α × α)) :
    IsGreatest (reaches start ps) (total start ps) := by
  induction ps generalizing start with
  | nil =>
    refine ⟨.inl (by simp), ?_⟩
    rintro x (hx | ⟨pre, p, post, heq, -⟩)
    · simp [hx]
    · cases pre <;> cases heq
  | cons p ps ih =>
    obtain ⟨hmem, hle⟩ := ih (raise start p)
    have hraise : raise start p + (ps.map Prod.fst).sum =
        max (start + p.1 + (ps.map Prod.fst).sum) (p.2 + (ps.map Prod.fst).sum) :=
      max_add_add_right _ _ _ |>.symm
    rw [total_cons]
    refine ⟨mem_reaches_cons.mpr ?_, fun x hx => ?_⟩
    · rcases hmem with hsum | hsplit
      · rw [hsum, hraise]
        rcases max_choice (start + p.1 + (ps.map Prod.fst).sum) (p.2 + (ps.map Prod.fst).sum) with h | h
        · exact .inl h
        · exact .inr (.inl h)
      · exact .inr (.inr hsplit)
    · have htop := hle (.inl rfl)
      rw [hraise] at htop
      rcases mem_reaches_cons.mp hx with rfl | rfl | hsplit
      · exact (le_max_left _ _).trans htop
      · exact (le_max_right _ _).trans htop
      · exact hle (.inr hsplit)

/-- The total is a number exactly if this is the greatest that is reached. -/
theorem total_eq_iff [AddLeftMono α] [AddRightMono α] {start x : α} {ps : List (α × α)} :
    total start ps = x ↔ IsGreatest (reaches start ps) x :=
  ⟨fun h => h ▸ isGreatest_total start ps, fun h => (isGreatest_total start ps).unique h⟩

/-! ## With a bound -/

variable [CanonicallyOrderedAdd α]

/-- One entry, with all numbers below a bound. -/
def raiseWithin (bound total : α) (p : α × α) : Option α :=
  if p.1 < bound ∧ total + p.1 < bound ∧ p.2 < bound then some (raise total p) else none

/-- The total does not fall. -/
theorem le_total (start : α) (ps : List (α × α)) : start ≤ total start ps := by
  induction ps generalizing start with
  | nil => exact le_refl start
  | cons p ps ih =>
    calc start ≤ start + p.1 := le_self_add
      _ ≤ raise start p := le_max_left _ _
      _ ≤ total (raise start p) ps := ih _

/-- **With a bound**: the loop ends with its total exactly if this is below the bound. -/
theorem foldlM_within {bound start : α} (hstart : start < bound) (ps : List (α × α)) :
    ps.foldlM (raiseWithin bound) start =
      if total start ps < bound then some (total start ps) else none := by
  induction ps generalizing start with
  | nil => exact (if_pos hstart).symm
  | cons p ps ih =>
    rw [List.foldlM_cons, total_cons]
    by_cases hraise : raise start p < bound
    · have hfirst : p.1 < bound := (le_add_self.trans (le_max_left _ _)).trans_lt hraise
      have hin : p.1 < bound ∧ start + p.1 < bound ∧ p.2 < bound :=
        ⟨hfirst, (le_max_left _ _).trans_lt hraise, (le_max_right _ _).trans_lt hraise⟩
      rw [raiseWithin, if_pos hin]
      exact ih hraise
    · have hout : ¬ (p.1 < bound ∧ start + p.1 < bound ∧ p.2 < bound) := by
        rintro ⟨-, hsum, hsecond⟩
        exact hraise (max_lt hsum hsecond)
      have htotal : ¬ total (raise start p) ps < bound := fun h => hraise ((le_total _ _).trans_lt h)
      rw [raiseWithin, if_neg hout, if_neg htotal]
      rfl

end RunningMax
