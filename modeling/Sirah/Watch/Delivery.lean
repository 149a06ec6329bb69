import Mathlib.Data.Nat.Find
import Sirah.Watch.Manager

/-!
# What a watcher is given

`watch_manager_get_event` (`internal/pkg/watch/watch_manager.c`) asks the ring for one sequence number,
that after the last delivered event, and goes on to the next only from an event that its filters refuse.
Nothing moves the cursor but a delivery. So a subscription whose next event has been overwritten is never
given anything again: a slow reader, one that subscribes late, and one whose filters refuse more events
in a row than the ring holds.

* `Watched`: what a subscription has been given is what passes its filters among the events up to its
  cursor.
* **`delivery_iff`**: along a run, each call gives the oldest event that is due **iff** in each state at most
  as many events as the ring holds follow the last delivered one, or no buffered event passes the
  filters.
* **`replay_iff`**: the resource version a watch was asked to start from is never looked at. No event up
  to it is delivered **iff** the oldest event due at each call is newer.
-/

namespace Sirah.Watch

open Runs

variable {n : Nat} [NeZero n] {render : Json → CString}

/-! ## Events that are due -/

section Due

variable (render) (w : World n) (id : Nat) (sub : Subscription)

/-- A buffered event that passes the filters and was not delivered. -/
def Pending (e : Event) : Prop :=
  e ∈ w.manager.ring.toList ∧ passes render sub.filters e = true ∧ e ∉ w.delivered id

/-- The oldest of these. -/
def Oldest (e : Event) : Prop :=
  Pending render w id sub e ∧ ∀ e', Pending render w id sub e' → e.sequenceNumber ≤ e'.sequenceNumber

/-- The first buffered event after the cursor that passes the filters. -/
def FirstDue (e : Event) : Prop :=
  (e ∈ w.manager.ring.toList ∧ passes render sub.filters e = true ∧
      sub.lastDeliveredEvent < e.sequenceNumber) ∧
    ∀ e' ∈ w.manager.ring.toList, passes render sub.filters e' = true →
      sub.lastDeliveredEvent < e'.sequenceNumber → e.sequenceNumber ≤ e'.sequenceNumber

end Due

/-- **Nothing is lost or repeated**: what was delivered is, in publication order, published events that
pass the filters; an event that is still due comes after all of them; and a call returns the oldest
one. -/
structure Delivers (render : Json → CString) (id : Nat) (w : World n) (sub : Subscription) : Prop where
  inOrder : (w.delivered id).Sublist (w.published.filter (passes render sub.filters))
  complete : ∀ e, Pending render w id sub e → ∀ d ∈ w.delivered id, d.sequenceNumber < e.sequenceNumber
  next : ∀ e, (w.manager.getEvent render id).1 = some e ↔ Oldest render w id sub e

/-- The subscription is there and has been given what it should. -/
def DeliversTo (render : Json → CString) (id : Nat) (w : World n) : Prop :=
  ∃ sub, w.manager.subscriptions id = some sub ∧ Delivers render id w sub

/-- At most as many events as the ring holds follow the last delivered one, or none that is buffered passes
the filters. -/
def KeepsUp (render : Json → CString) (id : Nat) (w : World n) : Prop :=
  ∀ sub, w.manager.subscriptions id = some sub →
    w.manager.globalSequence ≤ sub.lastDeliveredEvent + 1 + n ∨
      ∀ e ∈ w.manager.ring.toList, passes render sub.filters e = false

/-! ## The cursor -/

/-- A subscription with the filters `fs`, and what it has been given. -/
structure Watched (render : Json → CString) (id : Nat) (fs : List Filter) (w : World n) : Prop
    extends Good w where
  watched : ∃ sub, w.manager.subscriptions id = some sub ∧ sub.filters = fs ∧
    w.delivered id = (w.published.take (sub.lastDeliveredEvent + 1).toNat).filter (passes render fs)

/-- Neither ends the subscription nor changes its filters. -/
def Action.Keeps (id : Nat) : Action → Prop
  | .unsubscribe id' => id' ≠ id
  | .addFilter id' _ _ _ => id' ≠ id
  | _ => True

/-- A delivery moves the cursor to the first event that passes. -/
theorem take_filter_concat {p : Event → Bool} {es : List Event} {c i : Nat} {e : Event} (hci : c ≤ i)
    (he : es[i]? = some e) (hp : p e = true)
    (hskip : ∀ j, c ≤ j → j < i → ∀ e', es[j]? = some e' → p e' = false) :
    (es.take (i + 1)).filter p = (es.take c).filter p ++ [e] := by
  obtain ⟨k, rfl⟩ : ∃ k, i = c + k := ⟨i - c, by omega⟩
  have hnone : ((es.drop c).take k).filter p = [] := by
    rw [List.filter_eq_nil_iff]
    intro e' he'
    obtain ⟨j, hj⟩ := List.mem_iff_getElem?.mp he'
    have hjk : j < k := by
      by_contra hge
      rw [List.getElem?_take_eq_none (by omega)] at hj
      cases hj
    rw [List.getElem?_take_of_lt hjk, List.getElem?_drop] at hj
    rw [hskip (c + j) (by omega) (by omega) e' hj]
    exact Bool.false_ne_true
  rw [List.take_add_one, he, List.filter_append, List.take_add, List.filter_append, hnone,
    List.append_nil, Option.toList_some, List.filter_cons_of_pos hp, List.filter_nil]

theorem Watched.step {id : Nat} {fs : List Filter} {w : World n} (h : Watched render id fs w) {a : Action}
    (ha : a.Keeps id) : Watched render id fs (w.step render a) := by
  refine ⟨h.toGood.step a, ?_⟩
  obtain ⟨sub, hsub, hfs, hdel⟩ := h.watched
  have hcur := h.cursor id sub hsub
  have hmove := World.step_move render w a
  generalize w.step render a = w' at hmove
  cases hmove with
  | idle => exact ⟨sub, hsub, hfs, hdel⟩
  | publish _ e =>
    refine ⟨sub, hsub, hfs, ?_⟩
    simp only [World.pushed]
    rw [List.take_append_of_le_length (by omega)]
    exact hdel
  | enable b => exact ⟨sub, hsub, hfs, hdel⟩
  | subscribe resourceVersion =>
    have hid : id ≠ w.manager.nextSubscriptionId := (h.ids id sub hsub).ne
    refine ⟨sub, (Function.update_of_ne hid ..).trans hsub, hfs, ?_⟩
    exact (Function.update_of_ne hid ..).trans hdel
  | unsubscribe id' => exact ⟨sub, (Function.update_of_ne (Ne.symm ha) ..).trans hsub, hfs, hdel⟩
  | filter id' type key value sub' f hsub' =>
    exact ⟨sub, (Function.update_of_ne (Ne.symm ha) ..).trans hsub, hfs, hdel⟩
  | deliver id' sub' e hsub' he =>
    by_cases hid : id = id'
    · subst hid
      cases hsub.symm.trans hsub'
      obtain ⟨i, hget, hseq, hlt, -, hpass, hskip⟩ := h.getEvent_some hsub he
      refine ⟨_, Function.update_self .., hfs, ?_⟩
      refine (Function.update_self ..).trans ?_
      have hi : (e.sequenceNumber + 1).toNat = i + 1 := by omega
      rw [hdel, hi, ← hfs]
      refine (take_filter_concat (by omega) hget hpass ?_).symm
      intro j hj hji e' he'
      exact hskip j (by omega) hji e' he'
    · refine ⟨sub, (Function.update_of_ne hid ..).trans hsub, hfs, ?_⟩
      exact (Function.update_of_ne hid ..).trans hdel

/-! ## One state -/

/-- The ring holds the last events. -/
theorem Good.mem_ring {w : World n} (h : Good w) {e : Event} :
    e ∈ w.manager.ring.toList ↔
      ∃ i : Nat, w.published[i]? = some e ∧ w.published.length ≤ i + n ∧ e.sequenceNumber = i := by
  rw [h.ring, List.mem_iff_getElem?]
  constructor
  · rintro ⟨j, hj⟩
    rw [List.getElem?_drop] at hj
    exact ⟨_, hj, by omega, h.numbered _ e hj⟩
  · rintro ⟨i, hi, hlo, -⟩
    refine ⟨i - (w.published.length - n), ?_⟩
    rw [List.getElem?_drop, show w.published.length - n + (i - (w.published.length - n)) = i by omega]
    exact hi

section OneState

variable {w : World n} {id : Nat} {sub : Subscription}

theorem Good.firstDue_of_getEvent (h : Good w) (hsub : w.manager.subscriptions id = some sub) {e : Event}
    (he : (w.manager.getEvent render id).1 = some e) :
    w.published.length ≤ sub.lastDeliveredEvent + 1 + n ∧ FirstDue render w sub e := by
  obtain ⟨i, hget, hseq, hlt, hlag, hpass, hskip⟩ := h.getEvent_some hsub he
  refine ⟨hlag, ⟨h.mem_ring.mpr ⟨i, hget, by omega, hseq⟩, hpass, by omega⟩, ?_⟩
  intro e' hring hpass' hlt'
  obtain ⟨j, hj, -, hseq'⟩ := h.mem_ring.mp hring
  by_contra hlater
  have hnot := hskip j (by omega) (by omega) e' hj
  rw [hpass'] at hnot
  cases hnot

/-- **A call returns the first event due**, unless the subscription has fallen behind. -/
theorem Good.getEvent_iff (h : Good w) (hsub : w.manager.subscriptions id = some sub) {e : Event} :
    (w.manager.getEvent render id).1 = some e ↔
      w.published.length ≤ sub.lastDeliveredEvent + 1 + n ∧ FirstDue render w sub e := by
  refine ⟨h.firstDue_of_getEvent hsub, ?_⟩
  rintro ⟨hlag, ⟨hring, hpass, hlt⟩, hfirst⟩
  obtain ⟨i, hi, -, hseq⟩ := h.mem_ring.mp hring
  have hcur := (h.cursor id sub hsub).1
  have hmem : e ∈ w.published.drop (sub.lastDeliveredEvent + 1).toNat := by
    refine List.mem_iff_getElem?.mpr ⟨i - (sub.lastDeliveredEvent + 1).toNat, ?_⟩
    rw [List.getElem?_drop, Nat.add_sub_cancel' (by omega)]
    exact hi
  -- a call returns some event, and this one is a first event due as well
  obtain ⟨e₀, he₀⟩ : ∃ e₀, (w.manager.getEvent render id).1 = some e₀ := by
    rw [h.getEvent_eq hsub, if_pos hlag, ← Option.isSome_iff_exists, List.find?_isSome]
    exact ⟨e, hmem, hpass⟩
  obtain ⟨-, ⟨hring₀, hpass₀, hlt₀⟩, hfirst₀⟩ := h.firstDue_of_getEvent hsub he₀
  obtain ⟨j, hj, -, hseq₀⟩ := h.mem_ring.mp hring₀
  have hle := hfirst e₀ hring₀ hpass₀ hlt₀
  have hge := hfirst₀ e hring hpass hlt
  have hij : i = j := by omega
  rw [hij, hj] at hi
  cases hi
  exact he₀

/-- What a subscription has been given, by sequence numbers. -/
theorem Good.mem_delivered (h : Good w)
    (hdel : w.delivered id =
      (w.published.take (sub.lastDeliveredEvent + 1).toNat).filter (passes render sub.filters))
    {e : Event} : e ∈ w.delivered id ↔
      e ∈ w.published ∧ passes render sub.filters e = true ∧ e.sequenceNumber ≤ sub.lastDeliveredEvent := by
  rw [hdel, List.mem_filter]
  constructor
  · rintro ⟨hmem, hpass⟩
    obtain ⟨j, hj⟩ := List.mem_iff_getElem?.mp hmem
    have hlt : j < (sub.lastDeliveredEvent + 1).toNat := by
      by_contra hge
      rw [List.getElem?_take_eq_none (by omega)] at hj
      cases hj
    rw [List.getElem?_take_of_lt hlt] at hj
    have hseq := h.numbered j e hj
    exact ⟨List.mem_of_getElem? hj, hpass, by omega⟩
  · rintro ⟨hmem, hpass, hle⟩
    obtain ⟨j, hj⟩ := List.mem_iff_getElem?.mp hmem
    have hseq := h.numbered j e hj
    refine ⟨List.mem_iff_getElem?.mpr ⟨j, ?_⟩, hpass⟩
    rw [List.getElem?_take_of_lt (by omega)]
    exact hj

/-- **An event is due** that is buffered, passes and follows the cursor. -/
theorem Good.pending_iff (h : Good w)
    (hdel : w.delivered id =
      (w.published.take (sub.lastDeliveredEvent + 1).toNat).filter (passes render sub.filters))
    {e : Event} : Pending render w id sub e ↔ e ∈ w.manager.ring.toList ∧
      passes render sub.filters e = true ∧ sub.lastDeliveredEvent < e.sequenceNumber := by
  unfold Pending
  rw [h.mem_delivered hdel]
  refine and_congr_right fun hring => and_congr_right fun hpass => ?_
  obtain ⟨i, hi, -⟩ := h.mem_ring.mp hring
  simp [List.mem_of_getElem? hi, hpass]

theorem Good.oldest_iff (h : Good w)
    (hdel : w.delivered id =
      (w.published.take (sub.lastDeliveredEvent + 1).toNat).filter (passes render sub.filters))
    {e : Event} : Oldest render w id sub e ↔ FirstDue render w sub e := by
  unfold Oldest FirstDue
  simp only [h.pending_iff hdel, and_imp]

/-- Among the buffered events that pass there is an oldest one. -/
theorem Good.exists_oldest (h : Good w) {p : Event → Bool} (hp : ∃ e ∈ w.manager.ring.toList, p e = true) :
    ∃ e ∈ w.manager.ring.toList, p e = true ∧ ∀ e' ∈ w.manager.ring.toList, p e' = true →
      e.sequenceNumber ≤ e'.sequenceNumber := by
  classical
  have hex : ∃ i : Nat, ∃ e ∈ w.manager.ring.toList, p e = true ∧ e.sequenceNumber = i := by
    obtain ⟨e, hring, hpass⟩ := hp
    obtain ⟨i, -, -, hseq⟩ := h.mem_ring.mp hring
    exact ⟨i, e, hring, hpass, hseq⟩
  obtain ⟨e, hring, hpass, hseq⟩ := Nat.find_spec hex
  refine ⟨e, hring, hpass, ?_⟩
  intro e' hring' hpass'
  obtain ⟨j, -, -, hseq'⟩ := h.mem_ring.mp hring'
  have hle := Nat.find_min' hex ⟨e', hring', hpass', hseq'⟩
  omega

/-- **One state**: a subscription that was given what passes up to its cursor is given the next event due
exactly if it has not fallen behind. -/
theorem Watched.delivers_iff {fs : List Filter} (h : Watched render id fs w) :
    DeliversTo render id w ↔ KeepsUp render id w := by
  obtain ⟨sub, hsub, rfl, hdel⟩ := h.watched
  have hgood := h.toGood
  constructor
  · rintro ⟨sub', hsub', hd⟩ sub'' hsub''
    cases hsub.symm.trans hsub'
    cases hsub.symm.trans hsub''
    by_contra hbehind
    obtain ⟨hlag, hsome⟩ := not_or.mp hbehind
    rw [hgood.sequence] at hlag
    push Not at hsome
    obtain ⟨e, hring, hpass, hfirst⟩ := hgood.exists_oldest
      (hsome.imp fun e he => ⟨he.1, by simpa using he.2⟩)
    -- the cursor is before the ring, so the oldest event that passes is due
    have hpend : Pending render w id sub e := by
      obtain ⟨i, -, hlo, hseq⟩ := hgood.mem_ring.mp hring
      exact (hgood.pending_iff hdel).mpr ⟨hring, hpass, by omega⟩
    have hnext := (hd.next e).mpr ⟨hpend, fun e' he' => hfirst e' he'.1 he'.2.1⟩
    exact hlag ((hgood.getEvent_iff hsub).mp hnext).1
  · intro hk
    refine ⟨sub, hsub, ?_, ?_, ?_⟩
    · rw [hdel]
      exact (List.take_sublist _ _).filter _
    · intro e he d hd
      have hlt := ((hgood.pending_iff hdel).mp he).2.2
      have hle := ((hgood.mem_delivered hdel).mp hd).2.2
      omega
    · intro e
      rw [hgood.getEvent_iff hsub, ← hgood.oldest_iff hdel]
      rcases hk sub hsub with hlag | hnone
      · rw [hgood.sequence] at hlag
        simp [hlag]
      · have hno : ¬ Oldest render w id sub e := by
          rintro ⟨⟨hring, hpass, -⟩, -⟩
          rw [hnone e hring] at hpass
          cases hpass
        simp [hno]

end OneState

/-! ## Whole runs -/

/-- The subscription was just made: nothing was delivered to it. -/
def Started (id : Nat) (w : World n) : Prop :=
  ∃ sub, w.manager.subscriptions id = some sub ∧ sub.lastDeliveredEvent = -1 ∧ w.delivered id = []

variable (render) in
/-- **Nothing is lost or repeated, exactly**: from a subscription that was just made, whatever was called
before, a run of publications and reads gives it each time the oldest event due exactly if in each state
at most `n` events follow the last one delivered or no buffered event passes. -/
theorem delivery_iff (before steps : List Action) (id : Nat)
    (hstart : Started id (run (World.step render) (World.create n) before))
    (hkeeps : ∀ a ∈ steps, a.Keeps id) :
    AllStates (World.step render) (DeliversTo render id)
        (run (World.step render) (World.create n) before) steps ↔
      AllStates (World.step render) (KeepsUp render id)
        (run (World.step render) (World.create n) before) steps := by
  obtain ⟨sub, hsub, hlast, hdel⟩ := hstart
  have hwatched : Watched render id sub.filters (run (World.step render) (World.create n) before) := by
    refine ⟨good_run before, sub, hsub, rfl, ?_⟩
    rw [hdel, hlast]
    rfl
  exact allStates_congr (fun w h => h.delivers_iff)
    (allStates_of_allSteps (fun w a h ha => h.step ha) hwatched (allSteps_of_mem hkeeps))

/-- A publication of an object. -/
def addPod (resourceVersion : Int) : Action := .publishEvent .added (.obj []) resourceVersion 0

/-- A reader that keeps up with a ring of two events. -/
theorem delivery_iff_two : Started 1 (run (World.step fun _ => []) (World.create 2) [.subscribe 0]) ∧
    AllStates (World.step fun _ => []) (DeliversTo (fun _ => []) 1)
      (run (World.step fun _ => []) (World.create 2) [.subscribe 0])
      [addPod 1, addPod 2, .getEvent 1] := by
  have hstart : Started 1 (run (World.step fun _ => []) (World.create 2) [.subscribe 0]) :=
    ⟨_, rfl, rfl, rfl⟩
  have hkeeps : ∀ a ∈ [addPod 1, addPod 2, .getEvent 1], a.Keeps 1 := by
    simp [addPod, Action.Keeps]
  refine ⟨hstart, (delivery_iff _ _ _ 1 hstart hkeeps).mpr ⟨?_, ?_, ?_, ?_⟩⟩ <;> rintro sub ⟨⟩
  · exact .inl (by decide)
  · exact .inl (by decide)
  · exact .inl (by decide)
  · exact .inl (by decide)

/-- A reader of a ring of one event that misses one is given nothing more. -/
theorem slow_reader_stuck : ¬ AllStates (World.step fun _ => []) (DeliversTo (fun _ => []) 1)
    (run (World.step fun _ => []) (World.create 1) [.subscribe 0]) [addPod 1, addPod 2] := by
  intro h
  obtain ⟨sub, hsub, hd⟩ := h.run_mem
  cases hsub
  have hnext := (hd.next ⟨.added, .obj [], 2, 1, 0, none⟩).mpr ?_
  · cases hnext
  · refine ⟨⟨List.mem_singleton_self _, rfl, List.not_mem_nil⟩, ?_⟩
    rintro e' ⟨hring, -⟩
    cases List.mem_singleton.mp hring
    exact le_rfl

/-! ## Where a watch starts -/

/-- An `ADDED`, `MODIFIED` or `DELETED`. -/
def Event.IsChange (e : Event) : Prop := e.type = .added ∨ e.type = .modified ∨ e.type = .deleted

/-- **A watch starts where it was asked to**: no change up to version `r` was delivered. -/
def StartsAfter (id : Nat) (r : Int) (w : World n) : Prop :=
  ∀ e ∈ w.delivered id, e.IsChange → r < e.resourceVersion

/-- At a read of a subscription that has not fallen behind, the first event due is no change up to
version `r`. -/
def DueIsNewer (render : Json → CString) (id : Nat) (r : Int) (w : World n) (a : Action) : Prop :=
  a = .getEvent id → ∀ sub, w.manager.subscriptions id = some sub →
    w.manager.globalSequence ≤ sub.lastDeliveredEvent + 1 + n →
    ∀ e, FirstDue render w sub e → e.IsChange → r < e.resourceVersion

/-- What a read delivers. -/
theorem delivered_getEvent (w : World n) (id : Nat) : (w.step render (.getEvent id)).delivered id =
    w.delivered id ++ (w.manager.getEvent render id).1.toList :=
  Function.update_self ..

/-- No other call delivers anything to a subscription. -/
theorem mem_delivered_of_ne {w : World n} {id : Nat} {a : Action} (ha : a ≠ .getEvent id) {e : Event}
    (he : e ∈ (w.step render a).delivered id) : e ∈ w.delivered id := by
  have hmove := World.step_move render w a
  generalize w.step render a = w' at hmove he
  cases hmove with
  | subscribe resourceVersion =>
    replace he : e ∈ Function.update w.delivered w.manager.nextSubscriptionId [] id := he
    by_cases hid : id = w.manager.nextSubscriptionId
    · rw [hid, Function.update_self] at he
      cases he
    · rwa [Function.update_of_ne hid] at he
  | deliver id' sub e' hsub he' =>
    have hid : id ≠ id' := fun h => ha (h ▸ rfl)
    exact Function.update_of_ne hid _ w.delivered ▸ he
  | _ => exact he

theorem startsAfter_step {w : World n} (h : Good w) {id : Nat} {r : Int} (hs : StartsAfter id r w)
    (a : Action) : StartsAfter id r (w.step render a) ↔ DueIsNewer render id r w a := by
  by_cases ha : a = .getEvent id
  · subst ha
    unfold StartsAfter
    rw [delivered_getEvent]
    constructor
    · intro hafter _ sub hsub hlag e hfirst hchange
      rw [h.sequence] at hlag
      refine hafter e ?_ hchange
      rw [(h.getEvent_iff hsub).mpr ⟨hlag, hfirst⟩]
      exact List.mem_append_right _ (List.mem_singleton_self e)
    · intro hnewer e he hchange
      rcases List.mem_append.mp he with he | he
      · exact hs e he hchange
      · have hsome := Option.mem_toList.mp he
        obtain ⟨sub, hsub⟩ : ∃ sub, w.manager.subscriptions id = some sub := by
          rcases World.getEvent_cases render w.manager id with hnone | ⟨sub, -, hsub, -⟩
          · rw [hnone] at hsome
            cases hsome
          · exact ⟨sub, hsub⟩
        obtain ⟨hlag, hfirst⟩ := (h.getEvent_iff hsub).mp hsome
        exact hnewer rfl sub hsub (h.sequence ▸ hlag) e hfirst hchange
  · refine iff_of_true ?_ fun h => absurd h ha
    intro e he
    exact hs e (mem_delivered_of_ne ha he)

variable (render) in
/-- **A watch starts where it was asked to, exactly**: whatever was called before and comes after the
subscription. -/
theorem replay_iff (before steps : List Action) (r : Int) :
    AllStates (World.step render)
        (StartsAfter (run (World.step render) (World.create n) before).manager.nextSubscriptionId r)
        (run (World.step render) (World.create n) (before ++ [.subscribe r])) steps ↔
      AllSteps (World.step render)
        (DueIsNewer render (run (World.step render) (World.create n) before).manager.nextSubscriptionId r)
        (run (World.step render) (World.create n) (before ++ [.subscribe r])) steps := by
  refine allStates_iff_allSteps (I := Good) (fun w a h _ => h.step a)
    (fun w a h _ hs => startsAfter_step h hs a) (good_run _) ?_ allSteps_true
  intro e he
  rw [run_append, run_cons, run_nil] at he
  simp only [World.step, Manager.subscribe, Function.update_self] at he
  cases he

/-- A watch from version 5 on, and an event of version 7. -/
theorem replay_iff_seven : AllStates (World.step fun _ => []) (StartsAfter 1 5)
    (run (World.step fun _ => []) (World.create 10) [.subscribe 5]) [addPod 7, .getEvent 1] := by
  refine (replay_iff (fun _ => []) [] [addPod 7, .getEvent 1] 5).mpr ⟨nofun, ?_, trivial⟩
  rintro - sub - - e ⟨⟨he, -⟩, -⟩ -
  cases List.mem_singleton.mp he
  decide

/-- A watch from version 5 on is given the event of version 3. -/
theorem old_event_replayed : ¬ AllStates (World.step fun _ => []) (StartsAfter 1 5)
    (run (World.step fun _ => []) (World.create 10) [addPod 3, .subscribe 5]) [.getEvent 1] := by
  intro h
  have := h.run_mem _ (List.mem_singleton_self _) (.inl rfl)
  exact absurd this (by decide)

end Sirah.Watch
