import Mathlib.Data.List.Infix

/-!
# Words that end in a square

Words over any alphabet. `t ++ a ++ a` ends in the square of `a`; it may end in the square of a longer word too.

* `suffix_eq_iff`: the solutions of `t ++ a = t' ++ b ++ a ++ b`. They say that `a` is a tail of a power of `b`.
* **`square_eq_iff`**: the words that end in two squares, with the parts written out.
-/

namespace Words

variable {α : Type*}

/-- `w` written `k` times. -/
def pow (w : List α) (k : Nat) : List α := (List.replicate k w).flatten

@[simp] theorem pow_zero (w : List α) : pow w 0 = [] := rfl

theorem pow_succ (w : List α) (k : Nat) : pow w (k + 1) = w ++ pow w k := by
  simp [pow, List.replicate_succ]

theorem pow_succ_right (w : List α) (k : Nat) : pow w (k + 1) = pow w k ++ w := by
  simp [pow, List.replicate_succ']

variable {a a' b t t' : List α}

/-- Two words around the same word. -/
theorem suffix_eq_iff (hb : b ≠ []) :
    t ++ a = t' ++ b ++ a ++ b ↔ ∃ c r k, b = c ++ r ∧ a = r ++ pow b k ∧ t = t' ++ b ++ r ++ c := by
  constructor
  · intro h
    induction hn : a.length using Nat.strong_induction_on generalizing a with
    | _ n ih =>
      have hsuffix : a <:+ t' ++ b ++ a ++ b := ⟨t, h⟩
      have hsuffix' : b <:+ t' ++ b ++ a ++ b := ⟨t' ++ b ++ a, rfl⟩
      rcases Nat.le_total a.length b.length with hle | hle
      · -- `a` is a tail of `b`
        obtain ⟨c, hc⟩ := List.suffix_of_suffix_length_le hsuffix hsuffix' hle
        refine ⟨c, a, 0, hc.symm, by simp, ?_⟩
        refine (List.append_left_inj a).mp ?_
        rw [h, List.append_assoc _ c a, hc]
      · -- `a` ends in `b`, which is taken off
        obtain ⟨d, rfl⟩ := List.suffix_of_suffix_length_le hsuffix' hsuffix hle
        have hshort : t ++ d = t' ++ b ++ d ++ b := by
          refine (List.append_left_inj b).mp ?_
          rw [List.append_assoc, h]
          simp only [List.append_assoc]
        have hpos := List.length_pos_of_ne_nil hb
        rw [List.length_append] at hn
        obtain ⟨c, r, k, hbc, hd, ht⟩ := ih d.length (by omega) hshort rfl
        refine ⟨c, r, k + 1, hbc, ?_, ht⟩
        rw [pow_succ_right, ← List.append_assoc, ← hd]
  · rintro ⟨c, r, k, hbc, rfl, rfl⟩
    have hpow : pow b k ++ b = c ++ r ++ pow b k := by rw [← pow_succ_right, pow_succ, ← hbc]
    simp only [List.append_assoc] at hpow ⊢
    rw [hpow]

/-- **A word that ends in two squares.** -/
theorem square_eq_iff (hlt : a.length < a'.length) :
    t ++ a ++ a = t' ++ a' ++ a' ↔
      ∃ c r k, a = r ++ pow (c ++ r) k ∧ a' = c ++ r ++ a ∧ t = t' ++ c ++ r ++ r ++ c := by
  constructor
  · intro h
    have ha : a <:+ t ++ a ++ a := ⟨t ++ a, rfl⟩
    have ha' : a' <:+ t ++ a ++ a := ⟨t' ++ a', h.symm⟩
    obtain ⟨b, rfl⟩ := List.suffix_of_suffix_length_le ha ha' (Nat.le_of_lt hlt)
    have hb : b ≠ [] := by
      rintro rfl
      exact absurd hlt (Nat.lt_irrefl _)
    have hshort : t ++ a = t' ++ b ++ a ++ b := by
      refine (List.append_left_inj a).mp ?_
      rw [h]
      simp only [List.append_assoc]
    obtain ⟨c, r, k, rfl, ha, ht⟩ := (suffix_eq_iff hb).mp hshort
    exact ⟨c, r, k, ha, rfl, by rw [ht]; simp only [List.append_assoc]⟩
  · rintro ⟨c, r, k, ha, rfl, ht⟩
    have hb : c ++ r ≠ [] := by
      intro hnil
      rw [hnil] at hlt
      exact absurd hlt (Nat.lt_irrefl _)
    have hshort : t ++ a = t' ++ (c ++ r) ++ a ++ (c ++ r) := (suffix_eq_iff hb).mpr
      ⟨c, r, k, rfl, ha, by rw [ht]; simp only [List.append_assoc]⟩
    rw [hshort]
    simp only [List.append_assoc]

end Words
