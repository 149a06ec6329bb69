import Mathlib.Data.List.Nodup
import Sirah.Lib.SplitFirst

/-!
# Tables with distinct keys

A table is a list whose elements have distinct keys. `put x l` writes an element under its key, `without k l`
removes the one with key `k`.

* `mem_put`, `mem_without`: what is in the table afterwards.
* `nodup_put`, `nodup_without`: the keys stay distinct.
* `mem_foldl_put`: what is there after several elements are written.
* `countP_foldl_put_eq_iff`: writing elements that satisfy `p`, one after the other, adds as many of them
  as are written **iff** no key is written twice and none is the key of an element that satisfies `p`.
-/

namespace List

variable {α κ : Type*} [DecidableEq κ] (key : α → κ)

/-- The element takes the place of the one with its key, or comes last. -/
def put (x : α) (l : List α) : List α :=
  if key x ∈ l.map key then l.map fun y => if key y = key x then x else y else l ++ [x]

/-- The elements with another key. -/
def without (k : κ) (l : List α) : List α := l.filter fun y => key y ≠ k

variable {key} {x z : α} {k : κ} {l xs : List α} {p : α → Bool}

theorem mem_put : z ∈ put key x l ↔ z = x ∨ z ∈ l ∧ key z ≠ key x := by
  unfold put
  split
  · rename_i hmem
    rw [mem_map]
    constructor
    · rintro ⟨y, hy, rfl⟩
      split
      · exact .inl rfl
      · rename_i hne
        exact .inr ⟨hy, hne⟩
    · rintro (rfl | ⟨hz, hne⟩)
      · obtain ⟨y, hy, hkey⟩ := mem_map.mp hmem
        exact ⟨y, hy, if_pos hkey⟩
      · exact ⟨z, hz, if_neg hne⟩
  · rename_i hnew
    rw [mem_append, mem_singleton, or_comm]
    refine or_congr_right ⟨fun hz => ⟨hz, fun heq => hnew (heq ▸ mem_map_of_mem hz)⟩, And.left⟩

theorem mem_without : z ∈ without key k l ↔ z ∈ l ∧ key z ≠ k := by
  unfold without
  rw [mem_filter, decide_eq_true_iff]

/-- The keys after an element is written. -/
theorem map_key_put :
    (put key x l).map key = if key x ∈ l.map key then l.map key else l.map key ++ [key x] := by
  unfold put
  split
  · rw [map_map]
    refine map_congr_left fun y _ => ?_
    rw [Function.comp_apply]
    split
    · rename_i heq
      exact heq.symm
    · rfl
  · exact map_append

theorem nodup_put (h : (l.map key).Nodup) : ((put key x l).map key).Nodup := by
  rw [map_key_put]
  split
  · exact h
  · rename_i hnew
    rw [nodup_append]
    refine ⟨h, nodup_singleton _, fun a ha b hb => ?_⟩
    rw [mem_singleton.mp hb]
    exact fun heq => hnew (heq ▸ ha)

theorem nodup_without (h : (l.map key).Nodup) : ((without key k l).map key).Nodup :=
  h.sublist (filter_sublist.map key)

/-- With distinct keys, one element is replaced. -/
theorem put_append_cons {pre post : List α} {y : α} (h : ((pre ++ y :: post).map key).Nodup)
    (hkey : key y = key x) : put key x (pre ++ y :: post) = pre ++ x :: post := by
  have hbeside : ∀ {l : List α}, (∀ z ∈ l, z ∈ pre ++ post) →
      (l.map fun z => if key z = key x then x else z) = l := by
    intro l hl
    refine (map_congr_left fun z hz => ?_).trans (map_id l)
    exact if_neg (hkey ▸ key_ne_of_nodup h (hl z hz))
  have hmem : key x ∈ (pre ++ y :: post).map key := hkey ▸ mem_map_of_mem (mem_append_cons_iff.mpr (.inl rfl))
  unfold put
  rw [if_pos hmem, map_append, map_cons, if_pos hkey, hbeside fun z hz => mem_append_left _ hz,
    hbeside fun z hz => mem_append_right _ hz]

/-- **Writing an element that satisfies `p`** adds one, unless it takes the place of another one. -/
theorem countP_put (h : (l.map key).Nodup) (hx : p x = true) :
    countP p (put key x l) = countP p l + if ∃ y ∈ l, p y = true ∧ key y = key x then 0 else 1 := by
  by_cases hmem : key x ∈ l.map key
  · obtain ⟨y, hy, hkey⟩ := mem_map.mp hmem
    obtain ⟨pre, post, rfl⟩ := append_of_mem hy
    have hexists : (∃ z ∈ pre ++ y :: post, p z = true ∧ key z = key x) ↔ p y = true := by
      refine ⟨?_, fun hp => ⟨y, hy, hp, hkey⟩⟩
      rintro ⟨z, hz, hp, hz'⟩
      rwa [← inj_on_of_nodup_map h hz hy (hz'.trans hkey.symm)]
    rw [put_append_cons h hkey, countP_append, countP_append, countP_cons_of_pos hx, countP_cons]
    simp only [hexists]
    split <;> omega
  · have hnone : ¬ ∃ y ∈ l, p y = true ∧ key y = key x := by
      rintro ⟨y, hy, -, hkey⟩
      exact hmem (hkey ▸ mem_map_of_mem hy)
    unfold put
    rw [if_neg hmem, if_neg hnone, countP_append, countP_singleton, if_pos hx]

/-- **Removing an element that satisfies `p`** takes one away. -/
theorem countP_without {y : α} (h : (l.map key).Nodup) (hy : y ∈ l) (hp : p y = true) :
    countP p (without key (key y) l) + 1 = countP p l := by
  obtain ⟨pre, post, rfl⟩ := append_of_mem hy
  have hbeside : ∀ {l : List α}, (∀ z ∈ l, z ∈ pre ++ post) → without key (key y) l = l := by
    intro l hl
    exact filter_eq_self.mpr fun z hz => decide_eq_true (key_ne_of_nodup h (hl z hz))
  have hwithout : without key (key y) (pre ++ y :: post) = pre ++ post := by
    unfold without
    rw [filter_append, filter_cons_of_neg (by simp)]
    exact congrArg₂ _ (hbeside fun z hz => mem_append_left _ hz) (hbeside fun z hz => mem_append_right _ hz)
  rw [hwithout, countP_append, countP_append, countP_cons_of_pos hp]
  omega

/-- What is there after several elements are written was written, or has a key that was not. -/
theorem of_mem_foldl_put (hz : z ∈ xs.foldl (fun l x => put key x l) l) :
    z ∈ xs ∨ z ∈ l ∧ key z ∉ xs.map key := by
  induction xs generalizing l with
  | nil => exact .inr ⟨hz, not_mem_nil⟩
  | cons x xs ih =>
    rw [map_cons, mem_cons, mem_cons, not_or]
    rcases ih hz with hxs | ⟨hput, hnot⟩
    · exact .inl (.inr hxs)
    · rcases mem_put.mp hput with rfl | ⟨hl, hne⟩
      · exact .inl (.inl rfl)
      · exact .inr ⟨hl, hne, hnot⟩

/-- **What several elements leave** whose keys tell them apart: all of them, and what has another key. -/
theorem mem_foldl_put (hxs : ∀ x ∈ xs, ∀ y ∈ xs, key x = key y → x = y) :
    z ∈ xs.foldl (fun l x => put key x l) l ↔ z ∈ xs ∨ z ∈ l ∧ key z ∉ xs.map key := by
  refine ⟨of_mem_foldl_put, ?_⟩
  induction xs generalizing l with
  | nil => exact fun h => (h.resolve_left not_mem_nil).1
  | cons x xs ih =>
    have hrest : ∀ y ∈ xs, ∀ y' ∈ xs, key y = key y' → y = y' :=
      fun y hy y' hy' => hxs y (mem_cons_of_mem x hy) y' (mem_cons_of_mem x hy')
    rw [map_cons, mem_cons, mem_cons, not_or]
    rintro ((rfl | hz) | ⟨hl, hne, hnot⟩)
    · -- it is written again, or stays
      by_cases hagain : key z ∈ xs.map key
      · obtain ⟨y, hy, hkey⟩ := mem_map.mp hagain
        have heq : y = z := hxs y (mem_cons_of_mem z hy) z mem_cons_self hkey
        exact ih hrest (.inl (heq ▸ hy))
      · exact ih hrest (.inr ⟨mem_put.mpr (.inl rfl), hagain⟩)
    · exact ih hrest (.inl hz)
    · exact ih hrest (.inr ⟨mem_put.mpr (.inr ⟨hl, hne⟩), hnot⟩)

/-- Writing several elements adds at most as many. -/
theorem countP_foldl_put_le (h : (l.map key).Nodup) (hxs : ∀ x ∈ xs, p x = true) :
    countP p (xs.foldl (fun l x => put key x l) l) ≤ countP p l + xs.length := by
  induction xs generalizing l with
  | nil => exact Nat.le_refl _
  | cons x xs ih =>
    have hstep := countP_put (x := x) h (hxs x mem_cons_self)
    have hrest := ih (nodup_put (x := x) h) fun y hy => hxs y (mem_cons_of_mem x hy)
    rw [foldl_cons, length_cons]
    split at hstep <;> omega

/-- **Writing several elements that satisfy `p`** adds as many exactly if no key is written twice and none
is the key of an element that satisfies `p`. -/
theorem countP_foldl_put_eq_iff (h : (l.map key).Nodup) (hxs : ∀ x ∈ xs, p x = true) :
    countP p (xs.foldl (fun l x => put key x l) l) = countP p l + xs.length ↔
      (xs.map key).Nodup ∧ ∀ y ∈ l, p y = true → key y ∉ xs.map key := by
  induction xs generalizing l with
  | nil => simp
  | cons x xs ih =>
    have hx : p x = true := hxs x mem_cons_self
    have hrest : ∀ y ∈ xs, p y = true := fun y hy => hxs y (mem_cons_of_mem x hy)
    have hstep := countP_put (x := x) h hx
    have hle := countP_foldl_put_le (nodup_put (x := x) h) hrest
    have hiff := ih (nodup_put (x := x) h) hrest
    rw [foldl_cons, length_cons, map_cons, nodup_cons]
    simp only [mem_cons, not_or]
    constructor
    · intro hcount
      split at hstep
      · omega
      · rename_i hnone
        obtain ⟨hnodup, hnew⟩ := hiff.mp (by omega)
        refine ⟨⟨hnew x (mem_put.mpr (.inl rfl)) hx, hnodup⟩, fun y hy hp => ?_⟩
        have hne : key y ≠ key x := fun heq => hnone ⟨y, hy, hp, heq⟩
        exact ⟨hne, hnew y (mem_put.mpr (.inr ⟨hy, hne⟩)) hp⟩
    · rintro ⟨⟨hx', hnodup⟩, hnew⟩
      have hcount := hiff.mpr ⟨hnodup, fun y hy hp => ?_⟩
      · rw [if_neg fun ⟨y, hy, hp, heq⟩ => (hnew y hy hp).1 heq] at hstep
        omega
      · rcases mem_put.mp hy with rfl | ⟨hy, -⟩
        · exact hx'
        · exact (hnew y hy hp).2

/-! ## Writing what is missing -/

variable {β : Type*} {value : α → β} {table : κ → Option β}

/-- In a table as a function: the value is written under the key if nothing is there. -/
def putNew (key : α → κ) (value : α → β) (table : κ → Option β) (x : α) : κ → Option β :=
  if (table (key x)).isSome then table else Function.update table (key x) (some (value x))

theorem putNew_apply (x : α) (k : κ) :
    putNew key value table x k = (table k).or (if key x = k then some (value x) else none) := by
  unfold putNew
  by_cases hk : key x = k
  · subst hk
    cases htable : table (key x) with
    | none => simp
    | some old => simp [htable]
  · rw [if_neg hk, Option.or_none]
    split
    · rfl
    · exact Function.update_of_ne (Ne.symm hk) _ _

/-- **What is there stays, and under another key is the first element that has it.** -/
theorem foldl_putNew (l : List α) (table : κ → Option β) (k : κ) :
    l.foldl (putNew key value) table k = (table k).or ((l.find? fun x => key x = k).map value) := by
  induction l generalizing table with
  | nil => simp
  | cons x l ih =>
    rw [foldl_cons, ih, putNew_apply, Option.or_assoc, find?_cons]
    by_cases hk : key x = k
    · simp [hk]
    · simp [hk]

end List
