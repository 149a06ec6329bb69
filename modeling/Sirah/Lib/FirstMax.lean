import Mathlib.Data.List.Basic
import Mathlib.Order.Lattice

/-!
# The first maximum

What a loop with a running maximum looks for when it replaces the best only by something better: the
first element of maximal `f` among those that satisfy `p`. `FirstMaxAt p f pre m post` says where it
stands, `FirstMax p f l m` that it does so somewhere in `l`.

* `FirstMaxAt.head`, `FirstMaxAt.cons`: the two cases of the loop, from the end of the list.
* `FirstMaxAt.unique`: there is only one.
* `FirstMax.map`, `FirstMax.restrict`: in an image of the list, and for a narrower property.
* **`FirstMax.holds_iff`**: when the first maximum has a further property: exactly when every element
  without it is beaten by one that has it.
-/

variable {α β γ : Type*} [LinearOrder β]

/-- Two places in a list: they are the same, or one is before the other. -/
theorem List.append_cons_cases {pre post pre' post' : List α} {x y : α}
    (h : pre ++ x :: post = pre' ++ y :: post') :
    (pre = pre' ∧ x = y ∧ post = post') ∨ (x ∈ pre' ∧ y ∈ post) ∨ (y ∈ pre ∧ x ∈ post') := by
  rcases List.append_eq_append_iff.mp h with ⟨between, rfl, htail⟩ | ⟨between, rfl, htail⟩
  · rcases List.cons_eq_append_iff.mp htail with ⟨rfl, heq⟩ | ⟨rest, rfl, rfl⟩
    · cases heq
      exact .inl ⟨(List.append_nil pre).symm, rfl, rfl⟩
    · exact .inr (.inl ⟨List.mem_append_right pre List.mem_cons_self,
        List.mem_append_right rest List.mem_cons_self⟩)
  · rcases List.cons_eq_append_iff.mp htail with ⟨rfl, heq⟩ | ⟨rest, rfl, rfl⟩
    · cases heq
      exact .inl ⟨List.append_nil pre', rfl, rfl⟩
    · exact .inr (.inr ⟨List.mem_append_right pre' List.mem_cons_self,
        List.mem_append_right rest List.mem_cons_self⟩)

/-- The element `m`, between `pre` and `post`, is the first of maximal `f` among those that satisfy `p`. -/
structure FirstMaxAt (p : α → Bool) (f : α → β) (pre : List α) (m : α) (post : List α) : Prop where
  holds : p m = true
  before : ∀ x ∈ pre, p x = true → f x < f m
  after : ∀ x ∈ post, p x = true → f x ≤ f m

/-- The first element of maximal `f` among those of `l` that satisfy `p`. -/
def FirstMax (p : α → Bool) (f : α → β) (l : List α) (m : α) : Prop :=
  ∃ pre post, l = pre ++ m :: post ∧ FirstMaxAt p f pre m post

variable {p q : α → Bool} {f : α → β} {l pre post : List α} {m x : α}

namespace FirstMaxAt

/-- The first element is the maximum. -/
theorem head (hx : p x = true) (hle : ∀ y ∈ l, p y = true → f y ≤ f x) : FirstMaxAt p f [] x l :=
  ⟨hx, List.forall_mem_nil _, hle⟩

/-- The maximum of the rest, if the first element does not reach it. -/
theorem cons (h : FirstMaxAt p f pre m post) (hx : p x = true → f x < f m) :
    FirstMaxAt p f (x :: pre) m post :=
  ⟨h.holds, List.forall_mem_cons.mpr ⟨hx, h.before⟩, h.after⟩

/-- Another element that satisfies `p` is beaten: strictly, if it stands before. -/
theorem beats {pre' post' : List α} (h : FirstMaxAt p f pre m post)
    (hl : pre' ++ x :: post' = pre ++ m :: post) (hx : p x = true) (hne : x ≠ m) :
    (m ∈ pre' ∧ f x ≤ f m) ∨ (m ∈ post' ∧ f x < f m) := by
  rcases List.append_cons_cases hl with ⟨-, heq, -⟩ | ⟨hpre, hpost⟩ | ⟨hpre, hpost⟩
  · exact absurd heq hne
  · exact .inr ⟨hpost, h.before x hpre hx⟩
  · exact .inl ⟨hpre, h.after x hpost hx⟩

/-- **There is only one first maximum.** -/
theorem unique {pre' post' : List α} {m' : α} (h : FirstMaxAt p f pre m post)
    (h' : FirstMaxAt p f pre' m' post') (hl : pre ++ m :: post = pre' ++ m' :: post') :
    pre = pre' ∧ m = m' ∧ post = post' := by
  rcases List.append_cons_cases hl with heq | ⟨hpre, hpost⟩ | ⟨hpre, hpost⟩
  · exact heq
  · exact absurd (h'.before m hpre h.holds) (not_lt_of_ge (h.after m' hpost h'.holds))
  · exact absurd (h.before m' hpre h'.holds) (not_lt_of_ge (h'.after m hpost h.holds))

end FirstMaxAt

namespace FirstMax

theorem mem (h : FirstMax p f l m) : m ∈ l := by
  obtain ⟨pre, post, rfl, -⟩ := h
  exact List.mem_append_right pre List.mem_cons_self

theorem holds (h : FirstMax p f l m) : p m = true := by
  obtain ⟨pre, post, -, hm⟩ := h
  exact hm.holds

theorem head (hx : p x = true) (hle : ∀ y ∈ l, p y = true → f y ≤ f x) : FirstMax p f (x :: l) x :=
  ⟨[], l, rfl, .head hx hle⟩

theorem cons (h : FirstMax p f l m) (hx : p x = true → f x < f m) : FirstMax p f (x :: l) m := by
  obtain ⟨pre, post, rfl, hm⟩ := h
  exact ⟨x :: pre, post, rfl, hm.cons hx⟩

/-- The first maximum of an image. -/
theorem map {p' : γ → Bool} {f' : γ → β} {g : α → γ} (h : FirstMax p f l m)
    (hp : ∀ x ∈ l, p' (g x) = p x) (hf : ∀ x ∈ l, p x = true → f' (g x) = f x) :
    FirstMax p' f' (l.map g) (g m) := by
  have hmem := h.mem
  obtain ⟨pre, post, rfl, hm⟩ := h
  refine ⟨pre.map g, post.map g, List.map_append, (hp m hmem).trans hm.holds, ?_, ?_⟩
  · rw [List.forall_mem_map]
    intro x hx hpx
    have hxl : x ∈ pre ++ m :: post := List.mem_append_left _ hx
    rw [hp x hxl] at hpx
    rw [hf x hxl hpx, hf m hmem hm.holds]
    exact hm.before x hx hpx
  · rw [List.forall_mem_map]
    intro x hx hpx
    have hxl : x ∈ pre ++ m :: post := List.mem_append_right _ (List.mem_cons_of_mem m hx)
    rw [hp x hxl] at hpx
    rw [hf x hxl hpx, hf m hmem hm.holds]
    exact hm.after x hx hpx

/-- The first maximum stays the first maximum among fewer elements. -/
theorem restrict (h : FirstMax p f l m) (hqm : q m = true) (hqp : ∀ x, q x = true → p x = true) :
    FirstMax q f l m := by
  obtain ⟨pre, post, rfl, hm⟩ := h
  exact ⟨pre, post, rfl, hqm, fun x hx hqx => hm.before x hx (hqp x hqx),
    fun x hx hqx => hm.after x hx (hqp x hqx)⟩

/-- **The first maximum has a further property exactly when every element without it is beaten**, by one
that stands before it with at least as much, or after it with more. -/
theorem holds_iff (h : FirstMax p f l m) :
    q m = true ↔ ∀ pre x post, l = pre ++ x :: post → p x = true → q x = false →
      (∃ y ∈ pre, (p y && q y) = true ∧ f x ≤ f y) ∨ ∃ y ∈ post, (p y && q y) = true ∧ f x < f y := by
  obtain ⟨pre, post, rfl, hm⟩ := h
  constructor
  · intro hqm pre' x post' hl hx hqx
    have hboth : (p m && q m) = true := Bool.and_eq_true_iff.mpr ⟨hm.holds, hqm⟩
    have hne : x ≠ m := by
      rintro rfl
      rw [hqm] at hqx
      cases hqx
    rcases hm.beats hl.symm hx hne with ⟨hmem, hle⟩ | ⟨hmem, hlt⟩
    · exact .inl ⟨m, hmem, hboth, hle⟩
    · exact .inr ⟨m, hmem, hboth, hlt⟩
  · intro hbeaten
    by_contra hqm
    rw [Bool.not_eq_true] at hqm
    rcases hbeaten pre m post rfl hm.holds hqm with ⟨y, hy, hboth, hle⟩ | ⟨y, hy, hboth, hlt⟩
    · exact absurd (hm.before y hy (Bool.and_eq_true_iff.mp hboth).1) (not_lt_of_ge hle)
    · exact absurd (hm.after y hy (Bool.and_eq_true_iff.mp hboth).1) (not_le_of_gt hlt)

end FirstMax
