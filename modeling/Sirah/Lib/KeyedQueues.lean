import Mathlib.Logic.Function.Basic
import Sirah.Lib.SplitFirst

/-!
# Tables in which keys repeat

A table whose calls look for the first record of a key is, key by key, a queue: a call sees the head of its queue, and a
new record goes to the end.

* `queue key k l`: the records of the key `k`, in their order.
* `queue_of_found`: the first record that is found is the head. `queue_replace`, `queue_remove`, `queue_concat`: what
  the calls do to every queue.
* `found_alike`: in two tables that show the same, the same place is found.
* `Paired R l l'`: the queues of two tables are related, key by key. **`Paired.change`**: calls of one key on both
  tables keep this if they keep it at this key.
-/

namespace KeyedQueues

variable {α β κ : Type*} [DecidableEq κ]

/-- The records of a key. -/
def queue (key : α → κ) (k : κ) (l : List α) : List α := l.filter fun x => decide (key x = k)

variable {key : α → κ} {l pre post : List α} {x y : α} {k k' : κ}

theorem mem_queue : x ∈ queue key k l ↔ x ∈ l ∧ key x = k := by
  simp [queue]

@[simp] theorem queue_nil : queue key k [] = [] := rfl

theorem queue_insert_of_eq (h : key x = k) : queue key k (pre ++ x :: post) = queue key k pre ++ x :: queue key k post := by
  simp [queue, h]

theorem queue_insert_of_ne (h : key x ≠ k) : queue key k (pre ++ x :: post) = queue key k (pre ++ post) := by
  simp [queue, h]

/-- **What is found** is the head of its queue. -/
theorem queue_of_found (h : l.splitFirst (fun x => decide (key x = k)) = some (pre, x, post)) :
    l = pre ++ x :: post ∧ key x = k ∧ queue key k l = x :: queue key k post ∧ queue key k pre = [] := by
  obtain ⟨rfl, hx, hpre⟩ := List.splitFirst_eq_some h
  have hx : key x = k := of_decide_eq_true hx
  have hnone : queue key k pre = [] := by
    rw [queue, List.filter_eq_nil_iff]
    intro y hy
    rw [hpre y hy]
    exact Bool.false_ne_true
  refine ⟨rfl, hx, ?_, hnone⟩
  rw [queue_insert_of_eq hx, hnone, List.nil_append]

/-- Nothing is found where the queue is empty. -/
theorem queue_of_not_found (h : l.splitFirst (fun x => decide (key x = k)) = none) : queue key k l = [] := by
  rw [queue, List.filter_eq_nil_iff]
  intro x hx
  rw [List.splitFirst_eq_none.mp h x hx]
  exact Bool.false_ne_true

/-- The head of a queue that is not empty is found. -/
theorem found_of_queue {xs : List α} (h : queue key k l = x :: xs) : ∃ pre post,
    l.splitFirst (fun x => decide (key x = k)) = some (pre, x, post) ∧ queue key k post = xs := by
  cases hfound : l.splitFirst fun x => decide (key x = k) with
  | none => rw [queue_of_not_found hfound] at h; cases h
  | some found =>
    obtain ⟨pre, y, post⟩ := found
    obtain ⟨-, -, hqueue, -⟩ := queue_of_found hfound
    rw [hqueue] at h
    cases h
    exact ⟨pre, post, rfl, rfl⟩

/-- What takes the place of the head is found next time. -/
theorem found_replaced (h : l.splitFirst (fun x => decide (key x = k)) = some (pre, x, post)) (hy : key y = k) :
    (pre ++ y :: post).splitFirst (fun x => decide (key x = k)) = some (pre, y, post) := by
  obtain ⟨-, -, hpre⟩ := List.splitFirst_eq_some h
  clear h
  induction pre with
  | nil => simp [List.splitFirst, hy]
  | cons z pre ih =>
    have hz : decide (key z = k) = false := hpre z List.mem_cons_self
    rw [List.cons_append, List.splitFirst, hz, ih fun y hmem => hpre y (List.mem_cons_of_mem z hmem)]
    rfl

/-- **The head changes.** -/
theorem queue_replace (hpre : queue key k pre = []) (hy : key y = k) :
    queue key k (pre ++ y :: post) = y :: queue key k post := by
  rw [queue_insert_of_eq hy, hpre, List.nil_append]

/-- **The head goes.** -/
theorem queue_remove (hpre : queue key k pre = []) : queue key k (pre ++ post) = queue key k post := by
  rw [queue, List.filter_append]
  exact congrArg (· ++ queue key k post) hpre

/-- The other queues stay when a record changes. -/
theorem queue_replace_of_ne (hx : key x = k) (hy : key y = k) (hk : k' ≠ k) :
    queue key k' (pre ++ y :: post) = queue key k' (pre ++ x :: post) := by
  rw [queue_insert_of_ne (hy ▸ hk.symm), queue_insert_of_ne (hx ▸ hk.symm)]

/-- The other queues stay when a record goes. -/
theorem queue_remove_of_ne (hx : key x = k) (hk : k' ≠ k) :
    queue key k' (pre ++ post) = queue key k' (pre ++ x :: post) :=
  (queue_insert_of_ne (hx ▸ hk.symm)).symm

/-- **A record comes to the end** of its queue. -/
theorem queue_concat (hy : key y = k) : queue key k (l ++ [y]) = queue key k l ++ [y] :=
  queue_insert_of_eq hy

theorem queue_concat_of_ne (hy : key y = k) (hk : k' ≠ k) : queue key k' (l ++ [y]) = queue key k' l := by
  rw [queue_insert_of_ne (hy ▸ hk.symm), List.append_nil]

/-! ## Tables that show the same -/

/-- **In tables that show the same**, record by record, the same place is found. -/
theorem found_alike {γ : Type*} {f : α → γ} {g : β → γ} {l' : List β} (p : γ → Bool) (h : l.map f = l'.map g) :
    (l.splitFirst (fun x => p (f x)) = none ∧ l'.splitFirst (fun x => p (g x)) = none) ∨
      ∃ pre x post pre' x' post', l.splitFirst (fun x => p (f x)) = some (pre, x, post) ∧
        l'.splitFirst (fun x => p (g x)) = some (pre', x', post') ∧
        pre.map f = pre'.map g ∧ f x = g x' ∧ post.map f = post'.map g := by
  have hsplit := congrArg (List.splitFirst p) h
  rw [List.splitFirst_map, List.splitFirst_map] at hsplit
  cases hl : l.splitFirst fun x => p (f x) with
  | none =>
    rw [hl] at hsplit
    exact .inl ⟨rfl, Option.map_eq_none_iff.mp hsplit.symm⟩
  | some found =>
    obtain ⟨pre, x, post⟩ := found
    rw [hl] at hsplit
    obtain ⟨⟨pre', x', post'⟩, hl', heq⟩ := Option.map_eq_some_iff.mp hsplit.symm
    obtain ⟨hpre, hrest⟩ := Prod.mk.inj heq
    obtain ⟨hx, hpost⟩ := Prod.mk.inj hrest
    exact .inr ⟨pre, x, post, pre', x', post', rfl, hl', hpre.symm, hx.symm, hpost.symm⟩

/-! ## Two tables -/

/-- **The queues of two tables are related**, key by key. -/
def Paired (key : α → κ) (key' : β → κ) (R : List α → List β → Prop) (l : List α) (l' : List β) : Prop :=
  ∀ k, R (queue key k l) (queue key' k l')

variable {key' : β → κ} {R : List α → List β → Prop} {m : List α} {l' m' : List β}

/-- **Calls of one key** on both tables. -/
theorem Paired.change (h : Paired key key' R l l') (hl : ∀ k', k' ≠ k → queue key k' m = queue key k' l)
    (hl' : ∀ k', k' ≠ k → queue key' k' m' = queue key' k' l') (hk : R (queue key k m) (queue key' k m')) :
    Paired key key' R m m' := by
  intro k'
  by_cases heq : k' = k
  · rw [heq]
    exact hk
  · rw [hl k' heq, hl' k' heq]
    exact h k'

/-- **The keys of some records** of both tables are the same, and as often, if it is so in each pair of queues. -/
theorem Paired.keys_perm (h : Paired key key' R l l') {p : α → Bool} {q : β → Bool}
    (hR : ∀ xs ys, R xs ys → xs.countP p = ys.countP q) : ((l.filter p).map key).Perm ((l'.filter q).map key') := by
  refine List.perm_iff_count.mpr fun k => ?_
  have hk := hR _ _ (h k)
  simp only [queue, List.countP_filter] at hk
  simp only [List.count, List.countP_map, List.countP_filter]
  rw [← List.countP_congr (p := fun x => p x && decide (key x = k)), hk]
  · exact List.countP_congr fun y _ => by simp [and_comm]
  · exact fun x _ => by simp [and_comm]

/-- So they are as many. -/
theorem Paired.countP_eq (h : Paired key key' R l l') {p : α → Bool} {q : β → Bool}
    (hR : ∀ xs ys, R xs ys → xs.countP p = ys.countP q) : l.countP p = l'.countP q := by
  have hlength := (h.keys_perm hR).length_eq
  rw [List.length_map, List.length_map, ← List.countP_eq_length_filter, ← List.countP_eq_length_filter] at hlength
  exact hlength

section Heads

variable {pre' post' : List β} {x' y' : β} (h : Paired key key' R l l')
include h

/-- Both heads change. -/
theorem Paired.replace (hx : l.splitFirst (fun x => decide (key x = k)) = some (pre, x, post))
    (hx' : l'.splitFirst (fun x => decide (key' x = k)) = some (pre', x', post')) (hy : key y = k) (hy' : key' y' = k)
    (hR : R (y :: queue key k post) (y' :: queue key' k post')) :
    Paired key key' R (pre ++ y :: post) (pre' ++ y' :: post') := by
  obtain ⟨rfl, hkx, -, hpre⟩ := queue_of_found hx
  obtain ⟨rfl, hkx', -, hpre'⟩ := queue_of_found hx'
  refine h.change (fun _ => queue_replace_of_ne hkx hy) (fun _ => queue_replace_of_ne hkx' hy') ?_
  rw [queue_replace hpre hy, queue_replace hpre' hy']
  exact hR

/-- Both heads go. -/
theorem Paired.remove (hx : l.splitFirst (fun x => decide (key x = k)) = some (pre, x, post))
    (hx' : l'.splitFirst (fun x => decide (key' x = k)) = some (pre', x', post'))
    (hR : R (queue key k post) (queue key' k post')) : Paired key key' R (pre ++ post) (pre' ++ post') := by
  obtain ⟨rfl, hkx, -, hpre⟩ := queue_of_found hx
  obtain ⟨rfl, hkx', -, hpre'⟩ := queue_of_found hx'
  refine h.change (fun _ => queue_remove_of_ne hkx) (fun _ => queue_remove_of_ne hkx') ?_
  rw [queue_remove hpre, queue_remove hpre']
  exact hR

/-- The head of the first table goes. -/
theorem Paired.remove_left (hx : l.splitFirst (fun x => decide (key x = k)) = some (pre, x, post))
    (hR : R (queue key k post) (queue key' k l')) : Paired key key' R (pre ++ post) l' := by
  obtain ⟨rfl, hkx, -, hpre⟩ := queue_of_found hx
  refine h.change (fun _ => queue_remove_of_ne hkx) (fun _ _ => rfl) ?_
  rw [queue_remove hpre]
  exact hR

/-- A record comes to both tables. -/
theorem Paired.concat (hy : key y = k) (hy' : key' y' = k) (hR : R (queue key k l ++ [y]) (queue key' k l' ++ [y'])) :
    Paired key key' R (l ++ [y]) (l' ++ [y']) := by
  refine h.change (fun _ => queue_concat_of_ne hy) (fun _ => queue_concat_of_ne hy') ?_
  rw [queue_concat hy, queue_concat hy']
  exact hR

end Heads

end KeyedQueues
