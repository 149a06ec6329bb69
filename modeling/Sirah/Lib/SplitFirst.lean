import Mathlib.Data.List.Basic
import Mathlib.Data.List.Nodup

/-!
# Loops that act on the first match

A loop over an array that looks for the first element with some property and then changes, or removes,
this element. `splitFirst p l` is the element with what stands before and after it.

* `splitFirst_eq_some` / `splitFirst_eq_none`: what it finds; `mem_append_cons_iff`, `beside_sublist`: what is around it.
* `splitFirst_key_cases`: no element has the key, or the first one that has it stands between two parts.
* `nodup_replace_iff`: when the keys stay distinct after the element is replaced; `nodup_map_concat`: after one is added.
* `filter_replace_perm`, `filter_replace_of_not`, `filter_eq_singleton`: which elements are in use afterwards.
* `forall_mem_modify`: what holds of every element after the one at a place is changed. `mem_set_of_ne`: the others stay.
-/

namespace List

variable {α κ : Type*} {p : α → Bool}

/-- The first element that satisfies `p`, with what is before and after it. -/
def splitFirst (p : α → Bool) : List α → Option (List α × α × List α)
  | [] => none
  | x :: xs =>
    if p x then some ([], x, xs)
    else (splitFirst p xs).map fun r => (x :: r.1, r.2)

theorem splitFirst_eq_none {l : List α} : splitFirst p l = none ↔ ∀ x ∈ l, p x = false := by
  induction l with
  | nil => simp [splitFirst]
  | cons y ys ih =>
    unfold splitFirst
    by_cases hy : p y = true
    · simp [hy]
    · simp [hy, ih]

/-- **What is found** satisfies `p`, and nothing before it does. -/
theorem splitFirst_eq_some {l pre post : List α} {x : α} (h : splitFirst p l = some (pre, x, post)) :
    l = pre ++ x :: post ∧ p x = true ∧ ∀ y ∈ pre, p y = false := by
  induction l generalizing pre with
  | nil => cases h
  | cons y ys ih =>
    unfold splitFirst at h
    by_cases hy : p y = true
    · rw [if_pos hy] at h
      cases h
      exact ⟨rfl, hy, nofun⟩
    · rw [if_neg hy, Option.map_eq_some_iff] at h
      obtain ⟨⟨pre', x', post'⟩, hrec, heq⟩ := h
      cases heq
      obtain ⟨rfl, hx, hpre⟩ := ih hrec
      refine ⟨rfl, hx, ?_⟩
      rintro z (- | ⟨-, hz⟩)
      · simpa using hy
      · exact hpre z hz

/-- Nothing is found, or something is. -/
theorem splitFirst_cases (p : α → Bool) (l : List α) :
    (splitFirst p l = none ∧ ∀ x ∈ l, p x = false) ∨
      ∃ pre x post, splitFirst p l = some (pre, x, post) ∧ l = pre ++ x :: post ∧ p x = true := by
  cases hfirst : splitFirst p l with
  | none => exact .inl ⟨rfl, splitFirst_eq_none.mp hfirst⟩
  | some found =>
    obtain ⟨pre, x, post⟩ := found
    obtain ⟨hl, hx, -⟩ := splitFirst_eq_some hfirst
    exact .inr ⟨pre, x, post, rfl, hl, hx⟩

/-- The first element of an image that satisfies `p`. -/
theorem splitFirst_map {β : Type*} {f : β → α} (p : α → Bool) (l : List β) :
    (l.map f).splitFirst p = (l.splitFirst fun x => p (f x)).map fun r => (r.1.map f, f r.2.1, r.2.2.map f) := by
  induction l with
  | nil => rfl
  | cons x l ih =>
    rw [map_cons, splitFirst, splitFirst]
    split
    · rfl
    · rw [ih, Option.map_map, Option.map_map]
      rfl

/-- An element is the one in the middle, or beside it. -/
theorem mem_append_cons_iff {pre post : List α} {x z : α} :
    z ∈ pre ++ x :: post ↔ z = x ∨ z ∈ pre ++ post :=
  perm_middle.mem_iff.trans mem_cons

/-- What is beside an element is a part of the list. -/
theorem beside_sublist (pre : List α) (x : α) (post : List α) : (pre ++ post).Sublist (pre ++ x :: post) :=
  (sublist_cons_self x post).append_left pre

/-- **The element at a place is changed**: what the change keeps still holds of every element. -/
theorem forall_mem_modify {P : α → Prop} {l : List α} {i : Nat} {f : α → α} (h : ∀ x ∈ l, P x)
    (hf : ∀ x, P x → P (f x)) : ∀ x ∈ l.modify i f, P x := by
  intro x hx
  obtain ⟨j, hj⟩ := mem_iff_getElem?.mp hx
  rw [getElem?_modify] at hj
  obtain ⟨old, hold, rfl⟩ := Option.map_eq_some_iff.mp hj
  have hP := h old (mem_of_getElem? hold)
  split
  · exact hf old hP
  · exact hP

/-- Replacing the element at a place keeps the others. -/
theorem mem_set_of_ne {l : List α} {i : Nat} {x y new : α} (hget : l[i]? = some x) (hy : y ∈ l) (hne : y ≠ x) :
    y ∈ l.set i new := by
  obtain ⟨j, hj⟩ := mem_iff_getElem?.mp hy
  have hij : i ≠ j := by
    rintro rfl
    exact hne (Option.some_inj.mp (hj.symm.trans hget))
  exact mem_iff_getElem?.mpr ⟨j, by rw [getElem?_set_ne hij, hj]⟩

theorem set_getElem?_self {l : List α} {i : Nat} {x : α} (hget : l[i]? = some x) : l.set i x = l := by
  obtain ⟨hi, rfl⟩ := getElem?_eq_some_iff.mp hget
  exact set_getElem_self hi

/-- The only element that satisfies `p` is the first one. -/
theorem find?_eq_some_of_unique {l : List α} {x : α} (hx : x ∈ l) (hpx : p x = true)
    (hunique : ∀ y ∈ l, p y = true → y = x) : l.find? p = some x := by
  cases hfind : l.find? p with
  | none => exact absurd hpx (find?_eq_none.mp hfind x hx)
  | some y => rw [hunique y (mem_of_find?_eq_some hfind) (find?_some hfind)]

/-- The place of the first element that satisfies `p`. -/
theorem findIdx?_append_cons {pre post : List α} {x : α} (hpre : ∀ y ∈ pre, p y = false) (hx : p x = true) :
    (pre ++ x :: post).findIdx? p = some pre.length := by
  have hnone : pre.findIdx? p = none := findIdx?_eq_none_iff.mpr hpre
  rw [findIdx?_append, hnone, findIdx?_cons, if_pos hx]
  simp

/-- **The element in the middle is changed.** -/
theorem modify_append_cons (pre post : List α) (x : α) (f : α → α) :
    (pre ++ x :: post).modify pre.length f = pre ++ f x :: post := by
  induction pre with
  | nil => rfl
  | cons y pre ih => exact congrArg (y :: ·) ih

section Filter

variable {pre post : List α} {old new : α}

/-- **A free slot comes into use.** -/
theorem filter_replace_perm (pre post : List α) (hold : p old = false) (hnew : p new = true) :
    ((pre ++ new :: post).filter p).Perm (new :: (pre ++ old :: post).filter p) := by
  simp only [filter_append, filter_cons, hold, hnew, if_true, Bool.false_eq_true, if_false]
  exact perm_middle

/-- A slot that is not in use is replaced by another one. -/
theorem filter_replace_of_not (hold : p old = false) (hnew : p new = false) :
    (pre ++ new :: post).filter p = (pre ++ old :: post).filter p := by
  simp [hold, hnew]

theorem filter_eq_singleton {x : α} (hx : p x = true) (h : ∀ y ∈ pre ++ post, p y = false) :
    (pre ++ x :: post).filter p = [x] := by
  have hpre : pre.filter p = [] := filter_eq_nil_iff.mpr fun y hy => by simp [h y (mem_append_left _ hy)]
  have hpost : post.filter p = [] := filter_eq_nil_iff.mpr fun y hy => by simp [h y (mem_append_right _ hy)]
  rw [filter_append, filter_cons_of_pos hx, hpre, hpost]
  rfl

theorem cons_perm_cons_iff {x y : α} {l l' : List α} (h : l.Perm l') : (x :: l).Perm (y :: l') ↔ x = y := by
  constructor
  · intro hperm
    have hperm : ([x] ++ l).Perm ([y] ++ l) := hperm.trans (h.symm.cons y)
    exact singleton_perm_singleton.mp ((perm_append_right_iff l).mp hperm)
  · rintro rfl
    exact h.cons x

end Filter

section Keys

variable {key : α → κ} {pre post : List α} {x y : α}

/-- **No element has the key**, or the first one that has it is found. -/
theorem splitFirst_key_cases [DecidableEq κ] (key : α → κ) (l : List α) (k : κ) :
    (splitFirst (fun x => decide (key x = k)) l = none ∧ k ∉ l.map key) ∨
      ∃ pre x post, splitFirst (fun x => decide (key x = k)) l = some (pre, x, post) ∧ l = pre ++ x :: post ∧
        key x = k := by
  rcases splitFirst_cases (fun x => decide (key x = k)) l with ⟨hnone, hno⟩ | ⟨pre, x, post, hsome, hl, hx⟩
  · refine .inl ⟨hnone, fun hmem => ?_⟩
    obtain ⟨x, hx, hkey⟩ := mem_map.mp hmem
    exact of_decide_eq_false (hno x hx) hkey
  · exact .inr ⟨pre, x, post, hsome, hl, of_decide_eq_true hx⟩

/-- With distinct keys, what is beside the element has another key. -/
theorem key_ne_of_nodup (h : ((pre ++ x :: post).map key).Nodup) {z : α} (hz : z ∈ pre ++ post) :
    key z ≠ key x := by
  rw [map_append, map_cons, nodup_append] at h
  obtain ⟨-, hcons, hdisj⟩ := h
  rcases mem_append.mp hz with hz | hz
  · exact hdisj _ (mem_map_of_mem hz) _ mem_cons_self
  · intro heq
    exact (nodup_cons.mp hcons).1 (heq ▸ mem_map_of_mem hz)

/-- **What is beside the element** is what has another key. -/
theorem mem_beside_iff (h : ((pre ++ x :: post).map key).Nodup) {z : α} :
    z ∈ pre ++ post ↔ z ∈ pre ++ x :: post ∧ key z ≠ key x := by
  constructor
  · intro hz
    exact ⟨mem_append_cons_iff.mpr (.inr hz), key_ne_of_nodup h hz⟩
  · rintro ⟨hz, hne⟩
    rcases mem_append_cons_iff.mp hz with rfl | hz
    · exact absurd rfl hne
    · exact hz

/-- **Keys stay distinct** when the element is taken out. -/
theorem nodup_remove (h : ((pre ++ x :: post).map key).Nodup) : ((pre ++ post).map key).Nodup :=
  h.sublist ((beside_sublist pre x post).map key)

/-- The keys that are left then. -/
theorem mem_map_remove_iff (h : ((pre ++ x :: post).map key).Nodup) {k : κ} :
    k ∈ (pre ++ post).map key ↔ k ∈ (pre ++ x :: post).map key ∧ k ≠ key x := by
  simp only [mem_map]
  constructor
  · rintro ⟨z, hz, rfl⟩
    obtain ⟨hmem, hne⟩ := (mem_beside_iff h).mp hz
    exact ⟨⟨z, hmem, rfl⟩, hne⟩
  · rintro ⟨⟨z, hz, rfl⟩, hne⟩
    exact ⟨z, (mem_beside_iff h).mpr ⟨hz, hne⟩, rfl⟩

/-- **Keys with one more element** are distinct exactly if its own is new. -/
theorem nodup_map_concat : ((pre ++ [x]).map key).Nodup ↔ key x ∉ pre.map key ∧ (pre.map key).Nodup := by
  rw [map_append, map_singleton, nodup_append_comm, singleton_append, nodup_cons]

/-- **Keys after a replacement** are distinct exactly if no other element has the new one. -/
theorem nodup_replace_iff (h : ((pre ++ x :: post).map key).Nodup) :
    ((pre ++ y :: post).map key).Nodup ↔ ∀ z ∈ pre ++ post, key z ≠ key y := by
  refine ⟨fun hy z hz => key_ne_of_nodup hy hz, fun hne => ?_⟩
  rw [map_append, map_cons, nodup_append, nodup_cons] at h ⊢
  obtain ⟨hpre, ⟨-, hpost⟩, hdisj⟩ := h
  refine ⟨hpre, ⟨?_, hpost⟩, ?_⟩
  · intro hmem
    obtain ⟨z, hz, heq⟩ := mem_map.mp hmem
    exact hne z (mem_append_right _ hz) heq
  · intro a ha b hb
    rcases mem_cons.mp hb with rfl | hb
    · obtain ⟨z, hz, rfl⟩ := mem_map.mp ha
      exact hne z (mem_append_left _ hz)
    · exact hdisj a ha b (mem_cons_of_mem _ hb)

end Keys

end List
