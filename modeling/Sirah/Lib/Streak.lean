import Mathlib.Data.List.Induction

/-!
# Streaks

Observations come one after the other, the latest at the end of a list. `trailing p h` is how many of the
latest observations in a row satisfy `p`.

* `Reached p n h`: at some time `n` in a row did.
* `Since p n q k h`: at some time `n` in a row satisfied `p`, and since then there were never `k` in a row
  that satisfy `q`.

For `q` the negation of `p` the two kinds of streak exclude each other, and `Since` is decided by the latest
observation and what held before it (`since_concat`). A flag with two thresholds is such a `Since`.
-/

namespace Streak

variable {α : Type*}

/-- How many of the latest observations in a row satisfy `p`. -/
def trailing (p : α → Bool) (h : List α) : Nat := (h.reverse.takeWhile p).length

/-- At some time `n` in a row satisfied `p`. -/
def Reached (p : α → Bool) (n : Nat) (h : List α) : Prop := ∃ pre, pre <+: h ∧ n ≤ trailing p pre

/-- At some time `n` in a row satisfied `p`, and since then no `k` in a row satisfied `q`. -/
def Since (p : α → Bool) (n : Nat) (q : α → Bool) (k : Nat) (h : List α) : Prop :=
  ∃ pre post, h = pre ++ post ∧ n ≤ trailing p pre ∧ ¬ Reached q k post

variable {p q : α → Bool} {n k : Nat} {h : List α} {x : α}

@[simp] theorem trailing_nil : trailing p [] = 0 := rfl

theorem trailing_concat : trailing p (h ++ [x]) = if p x then trailing p h + 1 else 0 := by
  unfold trailing
  rw [List.reverse_append, List.reverse_singleton, List.singleton_append, List.takeWhile_cons]
  split <;> rfl

theorem reached_nil (hn : 1 ≤ n) : ¬ Reached p n [] := by
  rintro ⟨pre, hpre, hle⟩
  rw [List.prefix_nil.mp hpre, trailing_nil] at hle
  omega

/-- **A streak is reached** with the latest observation, or before it. -/
theorem reached_concat : Reached p n (h ++ [x]) ↔ Reached p n h ∨ n ≤ trailing p (h ++ [x]) := by
  constructor
  · rintro ⟨pre, hpre, hle⟩
    rcases List.prefix_concat_iff.mp hpre with rfl | hpre
    · exact .inr hle
    · exact .inl ⟨pre, hpre, hle⟩
  · rintro (⟨pre, hpre, hle⟩ | hle)
    · exact ⟨pre, hpre.trans (List.prefix_append h [x]), hle⟩
    · exact ⟨h ++ [x], List.prefix_rfl, hle⟩

theorem Since.reached (hs : Since p n q k h) : Reached p n h := by
  obtain ⟨pre, post, rfl, hle, -⟩ := hs
  exact ⟨pre, List.prefix_append pre post, hle⟩

theorem since_of_le (hk : 1 ≤ k) (hle : n ≤ trailing p h) : Since p n q k h :=
  ⟨h, [], (List.append_nil h).symm, hle, reached_nil hk⟩

/-- A streak goes back no further than to an observation that ends it. -/
theorem trailing_append_of_zero {pre post : List α} (hpre : trailing p pre = 0) :
    trailing p (pre ++ post) = trailing p post := by
  induction post using List.reverseRecOn with
  | nil => rw [List.append_nil, hpre, trailing_nil]
  | append_singleton post x ih => rw [← List.append_assoc, trailing_concat, trailing_concat, ih]

section Opposite

variable (hq : ∀ x, q x = !p x)

include hq

/-- Only one of two opposite streaks is going on. -/
theorem trailing_eq_zero_of_pos (hpos : 1 ≤ trailing p h) : trailing q h = 0 := by
  induction h using List.reverseRecOn with
  | nil => rfl
  | append_singleton h x _ =>
    rw [trailing_concat] at hpos ⊢
    cases hx : p x with
    | true => rw [hq, hx, Bool.not_true, if_neg Bool.false_ne_true]
    | false =>
      rw [hx, if_neg Bool.false_ne_true] at hpos
      omega

/-- **The latest observation decides**: the streak is reached with it, or was before and the opposite one is
not reached with it. -/
theorem since_concat (hn : 1 ≤ n) (hk : 1 ≤ k) :
    Since p n q k (h ++ [x]) ↔
      n ≤ trailing p (h ++ [x]) ∨ Since p n q k h ∧ trailing q (h ++ [x]) < k := by
  constructor
  · rintro ⟨pre, post, heq, hle, hnot⟩
    rcases List.eq_nil_or_concat post with rfl | ⟨post, y, rfl⟩
    · rw [List.append_nil] at heq
      exact .inl (heq ▸ hle)
    · rw [List.concat_eq_append] at heq hnot
      rw [← List.append_assoc] at heq
      obtain ⟨rfl, hy⟩ := List.append_inj' heq rfl
      obtain rfl : x = y := by simpa using hy
      refine .inr ⟨⟨pre, post, rfl, hle, fun hr => hnot (reached_concat.mpr (.inl hr))⟩, ?_⟩
      -- the opposite streak lies within what came since
      have hzero := trailing_eq_zero_of_pos hq (Nat.le_trans hn hle)
      rw [List.append_assoc, trailing_append_of_zero hzero]
      exact Nat.lt_of_not_le fun hge => hnot (reached_concat.mpr (.inr hge))
  · rintro (hle | ⟨⟨pre, post, rfl, hle, hnot⟩, hlt⟩)
    · exact ⟨h ++ [x], [], (List.append_nil _).symm, hle, reached_nil hk⟩
    · refine ⟨pre, post ++ [x], List.append_assoc _ _ _, hle, fun hr => ?_⟩
      have hzero := trailing_eq_zero_of_pos hq (Nat.le_trans hn hle)
      rw [List.append_assoc, trailing_append_of_zero hzero] at hlt
      rcases reached_concat.mp hr with hr | hge
      · exact hnot hr
      · omega

/-- **One of the two was reached last**, after a streak of `n`. -/
theorem since_or_since (hn : 1 ≤ n) (hk : 1 ≤ k) (hr : Reached p n h) : Since p n q k h ∨ Since q k p n h := by
  have hp : ∀ x, p x = !q x := fun x => by rw [hq, Bool.not_not]
  induction h using List.reverseRecOn with
  | nil => exact absurd hr (reached_nil hn)
  | append_singleton h x ih =>
    rw [since_concat hq hn hk, since_concat hp hk hn]
    rcases Nat.lt_or_ge (trailing p (h ++ [x])) n with hlt | hge
    · rcases Nat.lt_or_ge (trailing q (h ++ [x])) k with hlt' | hge'
      · have hbefore := (reached_concat.mp hr).resolve_right (Nat.not_le_of_lt hlt)
        exact (ih hbefore).imp (fun hs => .inr ⟨hs, hlt'⟩) fun hs => .inr ⟨hs, hlt⟩
      · exact .inr (.inl hge')
    · exact .inl (.inl hge)

/-- **And not both.** -/
theorem not_since_of_since (hn : 1 ≤ n) (hk : 1 ≤ k) (hs : Since p n q k h) : ¬ Since q k p n h := by
  have hp : ∀ x, p x = !q x := fun x => by rw [hq, Bool.not_not]
  induction h using List.reverseRecOn with
  | nil => exact absurd hs.reached (reached_nil hn)
  | append_singleton h x ih =>
    rw [since_concat hq hn hk] at hs
    rw [since_concat hp hk hn]
    rintro (hge' | ⟨hs', hlt⟩)
    · rcases hs with hge | ⟨-, hlt'⟩
      · have hzero := trailing_eq_zero_of_pos hq (Nat.le_trans hn hge)
        omega
      · omega
    · rcases hs with hge | ⟨hs, -⟩
      · omega
      · exact ih hs hs'

end Opposite

end Streak
