import Mathlib.Data.List.Nodup
import Sirah.Watch.Delivery

/-!
# Two ways to read

`watch_manager_get_events_batch` (`internal/pkg/watch/watch_manager.c`) takes a resource version and compares
it with the sequence numbers of the buffered events; it looks at neither the filters nor the cursor of the
subscription.

* `deliverable`: what repeated calls of `watch_manager_get_event` would return.
* **`batch_agrees_iff`**: the batch is the first of these with the version asked for, or a later one, **iff**
  up to the event that fills it a buffered event has a sequence number from that version on exactly if it is
  deliverable and its version is.
-/

namespace Sirah.Watch

open Runs

/-! ## Prefixes of filtered lists -/

/-- Two filters of a list start with the same `k` elements exactly if they agree until the first has
found `k`. -/
theorem take_filter_eq_iff {α : Type*} {p q : α → Bool} {l : List α} (hl : l.Nodup) (k : Nat) :
    (l.filter p).take k = (l.filter q).take k ↔
      ∀ (i : Nat) (e : α), l[i]? = some e → ((l.take i).filter p).length < k → p e = q e := by
  induction l generalizing k with
  | nil => simp
  | cons a l ih =>
    obtain ⟨ha, hl⟩ := List.nodup_cons.mp hl
    -- an element of one list that the other lacks
    have hne : ∀ {r : α → Bool} {es : List α} {m : Nat}, a :: es ≠ (l.filter r).take m := by
      intro r es m heq
      have hmem : a ∈ (l.filter r).take m := heq ▸ List.mem_cons_self
      exact ha (List.mem_filter.mp (List.mem_of_mem_take hmem)).1
    cases k with
    | zero => simp
    | succ k =>
      have hsplit : ∀ {P : Nat → α → Prop},
          (∀ (i : Nat) (e : α), (a :: l)[i]? = some e → P i e) ↔
            P 0 a ∧ ∀ (i : Nat) (e : α), l[i]? = some e → P (i + 1) e := by
        intro P
        refine ⟨fun h => ⟨h 0 a rfl, fun i e he => h (i + 1) e he⟩, ?_⟩
        rintro ⟨h0, h⟩ i e he
        cases i with
        | zero =>
          cases he
          exact h0
        | succ i => exact h i e he
      rw [hsplit]
      by_cases hp : p a = true
      · by_cases hq : q a = true
        · rw [List.filter_cons_of_pos hp, List.filter_cons_of_pos hq, List.take_succ_cons,
            List.take_succ_cons, List.cons_inj_right, ih hl]
          simp [hp, hq]
        · rw [List.filter_cons_of_pos hp, List.filter_cons_of_neg hq, List.take_succ_cons]
          exact iff_of_false hne fun h => by simp [hp, hq] at h
      · by_cases hq : q a = true
        · rw [List.filter_cons_of_neg hp, List.filter_cons_of_pos hq, List.take_succ_cons]
          exact iff_of_false (Ne.symm hne) fun h => by simp [hp, hq] at h
        · rw [List.filter_cons_of_neg hp, List.filter_cons_of_neg hq, ih hl]
          simp [hp, hq]

/-! ## Reading one by one -/

section Deliverable

variable {n : Nat} [NeZero n] (render : Json → CString)

/-- What `k` calls of `watch_manager_get_event` return before one returns nothing. -/
def drain (id : Nat) : Nat → Manager n → List Event
  | 0, _ => []
  | k + 1, m =>
    match m.getEvent render id with
    | (none, _) => []
    | (some e, m) => e :: drain id k m

/-- What `watch_manager_get_event` would deliver of what is buffered. -/
def deliverable (id : Nat) (m : Manager n) : List Event := drain render id m.ring.size m

/-- A first element that passes, taken out. -/
theorem drop_filter_cons {p : Event → Bool} {es : List Event} {c i : Nat} {e : Event} (hci : c ≤ i)
    (he : es[i]? = some e) (hp : p e = true)
    (hskip : ∀ j, c ≤ j → j < i → ∀ e', es[j]? = some e' → p e' = false) :
    (es.drop c).filter p = e :: (es.drop (i + 1)).filter p := by
  have hc : (es.take c).filter p ++ (es.drop c).filter p = es.filter p := by
    rw [← List.filter_append, List.take_append_drop]
  have hi : (es.take (i + 1)).filter p ++ (es.drop (i + 1)).filter p = es.filter p := by
    rw [← List.filter_append, List.take_append_drop]
  rw [take_filter_concat hci he hp hskip, ← hc, List.append_assoc] at hi
  exact (List.append_cancel_left hi).symm

variable {render}

/-- Calls return, one after the other, what passes from the cursor on. -/
theorem Good.drain_eq {id : Nat} (k : Nat) : ∀ {w : World n} {sub : Subscription}, Good w →
    w.manager.subscriptions id = some sub → drain render id k w.manager =
      (if w.published.length ≤ sub.lastDeliveredEvent + 1 + n then
        (w.published.drop (sub.lastDeliveredEvent + 1).toNat).filter (passes render sub.filters)
      else []).take k := by
  induction k with
  | zero =>
    intro w sub h hsub
    rw [List.take_zero, drain]
  | succ k ih =>
    intro w sub h hsub
    rcases World.getEvent_cases render w.manager id with hnone | ⟨sub', e, hsub', hsome⟩
    · have hfst : (w.manager.getEvent render id).1 = _ := h.getEvent_eq hsub
      rw [hnone] at hfst
      rw [drain, hnone]
      by_cases hlag : w.published.length ≤ sub.lastDeliveredEvent + 1 + n
      · rw [if_pos hlag] at hfst ⊢
        have hempty := List.find?_eq_none.mp hfst.symm
        rw [List.filter_eq_nil_iff.mpr hempty, List.take_nil]
      · rw [if_neg hlag, List.take_nil]
    · cases hsub.symm.trans hsub'
      obtain ⟨i, hget, hseq, hlt, hlag, hpass, hskip⟩ :=
        h.getEvent_some (e := e) hsub (by rw [hsome])
      have hi := (List.getElem?_eq_some_iff.mp hget).1
      have hcur := (h.cursor id sub hsub).1
      have hstep : (w.step render (.getEvent id)).manager =
          w.manager.setSubscription id (some { sub with lastDeliveredEvent := e.sequenceNumber }) := by
        show (w.manager.getEvent render id).2 = _
        rw [hsome]
      have hsub'' : (w.step render (.getEvent id)).manager.subscriptions id =
          some { sub with lastDeliveredEvent := e.sequenceNumber } := by
        rw [hstep]
        exact Function.update_self ..
      have hrest := ih (h.step (.getEvent id)) hsub''
      rw [hstep] at hrest
      rw [drain, hsome, if_pos hlag]
      dsimp only
      rw [hrest, drop_filter_cons (by omega) hget hpass, List.take_succ_cons]
      · have hnext : (e.sequenceNumber + 1).toNat = i + 1 := by omega
        have hpub : (w.step render (.getEvent id)).published = w.published := rfl
        have hlag' : (w.published.length : Int) ≤ e.sequenceNumber + 1 + n := by omega
        rw [hpub, if_pos hlag', hnext]
      · intro j hj hji e' he'
        exact hskip j (by omega) hji e' he'

/-- An event that calls would deliver. -/
def Deliverable (render : Json → CString) (w : World n) (sub : Subscription) (e : Event) : Prop :=
  w.manager.globalSequence ≤ sub.lastDeliveredEvent + 1 + n ∧
    sub.lastDeliveredEvent < e.sequenceNumber ∧ passes render sub.filters e = true

instance (w : World n) (sub : Subscription) : DecidablePred (Deliverable render w sub) :=
  fun _ => inferInstanceAs (Decidable (_ ∧ _ ∧ _))

/-- Filtering a list that has nothing to find before its `c`-th element. -/
theorem filter_drop_eq {p q : Event → Bool} {es : List Event} {c : Nat}
    (hbefore : ∀ (j : Nat) (e : Event), j < c → es[j]? = some e → ¬ p e = true)
    (hafter : ∀ (j : Nat) (e : Event), c ≤ j → es[j]? = some e → p e = q e) :
    es.filter p = (es.drop c).filter q := by
  have hnone : (es.take c).filter p = [] := by
    rw [List.filter_eq_nil_iff]
    intro e he
    obtain ⟨j, hj⟩ := List.mem_iff_getElem?.mp he
    by_cases hjc : j < c
    · rw [List.getElem?_take_of_lt hjc] at hj
      exact hbefore j e hjc hj
    · rw [List.getElem?_take_eq_none (by omega)] at hj
      cases hj
  have hsplit : es.filter p = (es.take c).filter p ++ (es.drop c).filter p := by
    rw [← List.filter_append, List.take_append_drop]
  rw [hsplit, hnone, List.nil_append]
  refine List.filter_congr fun e he => ?_
  obtain ⟨j, hj⟩ := List.mem_iff_getElem?.mp he
  rw [List.getElem?_drop] at hj
  exact hafter (c + j) e (by omega) hj

/-- **What reading one by one delivers.** -/
theorem Good.deliverable_eq {w : World n} (h : Good w) {id : Nat} {sub : Subscription}
    (hsub : w.manager.subscriptions id = some sub) :
    deliverable render id w.manager = w.manager.ring.toList.filter fun e => Deliverable render w sub e := by
  obtain ⟨hlo, hhi⟩ := h.cursor id sub hsub
  have hsize : w.manager.ring.size = w.published.length - (w.published.length - n) := by
    rw [← RingBuffer.length_toList, h.ring, List.length_drop]
  rw [deliverable, h.drain_eq _ hsub]
  by_cases hlag : w.published.length ≤ sub.lastDeliveredEvent + 1 + n
  · obtain ⟨c, hc⟩ : ∃ c, (sub.lastDeliveredEvent + 1).toNat = w.published.length - n + c :=
      ⟨_, (Nat.add_sub_cancel' (by omega)).symm⟩
    have hnum : ∀ (j : Nat) (e : Event), (w.published.drop (w.published.length - n))[j]? = some e →
        (sub.lastDeliveredEvent < e.sequenceNumber ↔ c ≤ j) := by
      intro j e hj
      rw [List.getElem?_drop] at hj
      have hseq := h.numbered _ e hj
      omega
    rw [if_pos hlag, List.take_of_length_le, h.ring, hc, ← List.drop_drop]
    · -- the events before the cursor are not delivered, those after it are if they pass
      refine (filter_drop_eq ?_ ?_).symm
      · intro j e hjc hj he
        rw [decide_eq_true_eq] at he
        exact absurd ((hnum j e hj).mp he.2.1) (by omega)
      · intro j e hjc hj
        have hlt := (hnum j e hj).mpr hjc
        simp [Deliverable, h.sequence, hlag, hlt]
    · refine (List.length_filter_le _ _).trans ?_
      rw [List.length_drop]
      omega
  · rw [if_neg hlag, List.take_nil]
    refine (List.filter_eq_nil_iff.mpr ?_).symm
    intro e _ he
    rw [decide_eq_true_eq, Deliverable, h.sequence] at he
    exact hlag he.1

/-- What is buffered is there once. -/
theorem Good.nodup {w : World n} (h : Good w) : w.manager.ring.toList.Nodup := by
  rw [h.ring]
  refine List.Nodup.sublist (List.drop_sublist _ _) ?_
  rw [List.nodup_iff_getElem?_ne_getElem?]
  intro i j hij hj heq
  have hi := List.getElem?_eq_getElem hj
  have hseq := h.numbered j _ hi
  rw [← heq] at hi
  have hseq' := h.numbered i _ hi
  omega

/-- The loop of the batch. -/
theorem collect_eq (start : Int) (k : Nat) (es : List Event) :
    Manager.collect start k es = (es.filter fun e => start ≤ e.sequenceNumber).take k := by
  fun_induction Manager.collect start k es with
  | case1 => rw [List.take_zero]
  | case2 => rw [List.filter_nil, List.take_nil]
  | case3 k e es hstart ih => rw [List.filter_cons_of_pos (by simpa using hstart), List.take_succ_cons, ih]
  | case4 k e es hstart ih => rw [List.filter_cons_of_neg (by simpa using hstart), ih]

end Deliverable

/-! ## The batch -/

/-- **The batch agrees with reading one by one**: it is the first `max` deliverable events with resource
version `v` or a later one. -/
def BatchAgrees {n : Nat} [NeZero n] (render : Json → CString) (m : Manager n) (id : Nat) (v : Int)
    (max : Nat) : Prop :=
  m.getEventsBatch id v max =
    ((deliverable render id m).filter fun e => v ≤ e.resourceVersion).take max

/-- **The batch agrees with reading one by one, exactly**: in every reachable state. -/
theorem batch_agrees_iff {n : Nat} [NeZero n] (render : Json → CString) (before : List Action) (id : Nat)
    (v : Int) (max : Nat) :
    let w := run (World.step render) (World.create n) before
    BatchAgrees render w.manager id v max ↔
      ∀ sub, w.manager.subscriptions id = some sub → ∀ (i : Nat) (e : Event),
        w.manager.ring.toList[i]? = some e →
        ((w.manager.ring.toList.take i).filter fun e => v ≤ e.sequenceNumber).length < max →
        (v ≤ e.sequenceNumber ↔ Deliverable render w sub e ∧ v ≤ e.resourceVersion) := by
  intro w
  have hgood : Good w := good_run before
  unfold BatchAgrees
  cases hsub : w.manager.subscriptions id with
  | none =>
    have hget : w.manager.getEvent render id = (none, w.manager) := by
      rw [Manager.getEvent, hsub]
    have hdrain : deliverable render id w.manager = [] := by
      unfold deliverable
      cases w.manager.ring.size with
      | zero => rfl
      | succ k => rw [drain, hget]
    have hbatch : w.manager.getEventsBatch id v max = [] := by
      rw [Manager.getEventsBatch, hsub]
    rw [hdrain, hbatch, List.filter_nil, List.take_nil]
    exact iff_of_true rfl nofun
  | some sub =>
    have hbatch : w.manager.getEventsBatch id v max =
        (w.manager.ring.toList.filter fun e => v ≤ e.sequenceNumber).take max := by
      rw [Manager.getEventsBatch, hsub, ← collect_eq]
      rfl
    have hbool : ∀ e, (decide (v ≤ e.sequenceNumber) =
          (decide (v ≤ e.resourceVersion) && decide (Deliverable render w sub e))) ↔
        (v ≤ e.sequenceNumber ↔ Deliverable render w sub e ∧ v ≤ e.resourceVersion) := by
      intro e
      rw [← Bool.decide_and, decide_eq_decide, and_comm]
    rw [hbatch, hgood.deliverable_eq hsub, List.filter_filter, take_filter_eq_iff hgood.nodup]
    simp only [hbool, Option.some.injEq, forall_eq']

/-- An event whose version is its sequence number. -/
theorem batch_agrees_iff_first : BatchAgrees (fun _ => [])
    (run (World.step fun _ => []) (World.create 10) [.subscribe 0, addPod 0]).manager 1 0 5 := by
  refine (batch_agrees_iff (fun _ => []) [.subscribe 0, addPod 0] 1 0 5).mpr ?_
  intro sub hsub i e he _
  cases hsub
  cases List.mem_singleton.mp (List.mem_of_getElem? he)
  decide

/-- A subscription and an event of version 100. -/
def versionHundred : List Action := [.subscribe 0, addPod 100]

/-- A batch from version 100 on leaves out the event of that version. -/
theorem batch_misses_event : ¬ BatchAgrees (fun _ => [])
    (run (World.step fun _ => []) (World.create 10) versionHundred).manager 1 100 5 := by
  intro h
  cases h

end Sirah.Watch
