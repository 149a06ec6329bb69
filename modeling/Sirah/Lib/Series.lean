import Mathlib.Algebra.Order.Monoid.Unbundled.Basic
import Mathlib.Data.List.Chain

/-!
# Series of events

Times of events, the latest first, and a width `w`. A series before a time goes back from event to event as long as
the next one is at most `w` earlier.

* `IsSeries w t ts s`: `s` is the longest such series of the events `ts` before the time `t`.
* `isSeries_iff`: there is one, and `series` computes it.
* **`countP_window_le`**: an interval of length `w` that ends at or behind `t` holds no more of the events than the
  series before `t` has.
* `Limited w m ts`: every event and the series before it are together at most `m`. **`Limited.countP_window_le`**: then no
  interval of length `w` holds more than `m`.
-/

namespace Series

variable {α : Type*} [LinearOrder α] [Add α]

/-- Each event is at most `w` before the one in front of it. -/
def Close (w : α) (s : List α) : Prop := s.IsChain fun later earlier => later ≤ earlier + w

/-- **The longest series** of the events `ts` before the time `t`. -/
structure IsSeries (w t : α) (ts s : List α) : Prop where
  isPrefix : s <+: ts
  close : Close w (t :: s)
  longest : ∀ s', s' <+: ts → Close w (t :: s') → s'.length ≤ s.length

/-- It is computed from the latest event on. -/
def series (w : α) : α → List α → List α
  | _, [] => []
  | t, r :: ts => if t ≤ r + w then r :: series w r ts else []

/-- The events lie in the interval of length `w` from `a` on. -/
def inWindow (w a r : α) : Bool := decide (a ≤ r ∧ r ≤ a + w)

variable {w t r a : α} {ts s : List α} {m : Nat}

theorem series_cons_of_le (h : t ≤ r + w) : series w t (r :: ts) = r :: series w r ts := if_pos h

theorem series_cons_of_not_le (h : ¬ t ≤ r + w) : series w t (r :: ts) = [] := if_neg h

theorem isSeries_series (w t : α) (ts : List α) : IsSeries w t ts (series w t ts) := by
  induction ts generalizing t with
  | nil =>
    refine ⟨List.prefix_rfl, List.isChain_singleton t, fun s' hs' _ => ?_⟩
    rw [List.prefix_nil.mp hs']
    exact Nat.le_refl 0
  | cons r ts ih =>
    by_cases h : t ≤ r + w
    · rw [series_cons_of_le h]
      refine ⟨List.cons_prefix_cons.mpr ⟨rfl, (ih r).isPrefix⟩, List.isChain_cons_cons.mpr ⟨h, (ih r).close⟩, ?_⟩
      intro s' hs' hclose
      cases s' with
      | nil => exact Nat.zero_le _
      | cons x s' =>
        obtain ⟨rfl, hrest⟩ := List.cons_prefix_cons.mp hs'
        exact Nat.succ_le_succ ((ih x).longest s' hrest (List.isChain_cons_cons.mp hclose).2)
    · rw [series_cons_of_not_le h]
      refine ⟨List.nil_prefix, List.isChain_singleton t, fun s' hs' hclose => ?_⟩
      cases s' with
      | nil => exact Nat.le_refl 0
      | cons x s' =>
        obtain ⟨rfl, -⟩ := List.cons_prefix_cons.mp hs'
        exact absurd (List.isChain_cons_cons.mp hclose).1 h

/-- **There is one longest series**, the computed one. -/
theorem isSeries_iff : IsSeries w t ts s ↔ s = series w t ts := by
  constructor
  · intro h
    have hcomputed := isSeries_series w t ts
    refine (List.prefix_of_prefix_length_le h.isPrefix hcomputed.isPrefix ?_).eq_of_length_le ?_
    · exact hcomputed.longest s h.isPrefix h.close
    · exact h.longest _ hcomputed.isPrefix hcomputed.close
  · rintro rfl
    exact isSeries_series w t ts

section Window

variable [AddRightMono α]

/-- **An interval holds no more** than the series before a time that it reaches up to. -/
theorem countP_window_le (hsorted : (t :: ts).Pairwise (· ≥ ·)) (ht : t ≤ a + w) :
    ts.countP (inWindow w a) ≤ (series w t ts).length := by
  induction ts generalizing t with
  | nil => exact Nat.le_refl 0
  | cons r ts ih =>
    obtain ⟨hbefore, hrest⟩ := List.pairwise_cons.mp hsorted
    have hr : r ≤ t := hbefore r List.mem_cons_self
    by_cases ha : a ≤ r
    · rw [series_cons_of_le (ht.trans (add_le_add_left ha w)), List.length_cons, List.countP_cons]
      have := ih hrest (hr.trans ht)
      split <;> omega
    · -- the interval starts behind this event and all earlier ones
      have hzero : (r :: ts).countP (inWindow w a) = 0 := by
        rw [List.countP_eq_zero]
        intro x hx hin
        have hxr : x ≤ r := by
          rcases List.mem_cons.mp hx with rfl | hx
          · exact le_refl x
          · exact (List.pairwise_cons.mp hrest).1 x hx
        exact ha ((of_decide_eq_true hin).1.trans hxr)
      rw [hzero]
      exact Nat.zero_le _

/-- Every event and the series before it are at most `m`. -/
def Limited (w : α) (m : Nat) : List α → Prop
  | [] => True
  | r :: ts => (series w r ts).length + 1 ≤ m ∧ Limited w m ts

/-- **No interval of length `w` holds more than `m` events.** -/
theorem Limited.countP_window_le (h : Limited w m ts) (hsorted : ts.Pairwise (· ≥ ·)) (a : α) :
    ts.countP (inWindow w a) ≤ m := by
  induction ts with
  | nil => exact Nat.zero_le m
  | cons r ts ih =>
    have hrest := ih h.2 (List.pairwise_cons.mp hsorted).2
    rw [List.countP_cons]
    split
    · next hin =>
      have := Series.countP_window_le hsorted (of_decide_eq_true hin).2
      have := h.1
      omega
    · exact hrest

end Window

end Series
