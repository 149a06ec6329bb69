import Mathlib.Data.List.Basic

/-!
# Loops whose rounds can fail

A loop over a list whose round gives a result, or none; the loop has a result if every round has one.

* `mapM_eq_some_iff_of_step`: rounds that work on one element each.
* `foldlM_eq_some_iff_of_step`: rounds that work on a state. Whether a round fails depends on its element alone.
-/

namespace List

variable {α β σ : Type*} {p : α → Prop}

/-- **A map** has a result exactly if every element has one. -/
theorem mapM_eq_some_iff_of_step {f : α → Option β} {g : α → β} (hstep : ∀ x y, f x = some y ↔ p x ∧ y = g x)
    {l : List α} {ys : List β} : l.mapM f = some ys ↔ (∀ x ∈ l, p x) ∧ ys = l.map g := by
  induction l generalizing ys with
  | nil => simp [eq_comm]
  | cons x l ih =>
    rw [mapM_cons, forall_mem_cons, map_cons]
    constructor
    · intro h
      obtain ⟨y, hy, h⟩ := Option.bind_eq_some_iff.mp h
      obtain ⟨rest, hrest, h⟩ := Option.bind_eq_some_iff.mp h
      obtain ⟨hx, rfl⟩ := (hstep x y).mp hy
      obtain ⟨hl, rfl⟩ := ih.mp hrest
      exact ⟨⟨hx, hl⟩, (Option.some_inj.mp h).symm⟩
    · rintro ⟨⟨hx, hl⟩, rfl⟩
      rw [(hstep x (g x)).mpr ⟨hx, rfl⟩, ih.mpr ⟨hl, rfl⟩]
      rfl

/-- **A loop** comes to its end exactly if every round does. -/
theorem foldlM_eq_some_iff_of_step {f : σ → α → Option σ} {g : σ → α → σ} {l : List α}
    (hstep : ∀ x ∈ l, ∀ s t, f s x = some t ↔ p x ∧ t = g s x) {s t : σ} :
    l.foldlM f s = some t ↔ (∀ x ∈ l, p x) ∧ t = l.foldl g s := by
  induction l generalizing s with
  | nil => simp [eq_comm]
  | cons x l ih =>
    rw [forall_mem_cons] at hstep
    rw [foldlM_cons, forall_mem_cons, foldl_cons]
    constructor
    · intro h
      obtain ⟨mid, hmid, h⟩ := Option.bind_eq_some_iff.mp h
      obtain ⟨hx, rfl⟩ := (hstep.1 s mid).mp hmid
      obtain ⟨hl, rfl⟩ := (ih hstep.2).mp h
      exact ⟨⟨hx, hl⟩, rfl⟩
    · rintro ⟨⟨hx, hl⟩, rfl⟩
      exact Option.bind_eq_some_iff.mpr ⟨g s x, (hstep.1 s _).mpr ⟨hx, rfl⟩, (ih hstep.2).mpr ⟨hl, rfl⟩⟩

end List
