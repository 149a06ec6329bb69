import Sirah.Lib.Json
import Sirah.Lib.RingBuffer
import Sirah.Lib.Run

/-!
# The watch manager

Model of `internal/pkg/watch/watch_manager.c`: a ring buffer of events, the subscriptions with their
filters and cursors, and the operations on them.

* Each operation is one step: it runs under the locks it takes. A subscription is named by its id; one that
  was freed is gone from `subscriptions`. `get_event` is modelled for timeout 0, where the first search
  that fails ends the call.
* `n` is the capacity of the ring, positive as `watch_manager_create` demands.
* `World` adds the history: what was published, and what was delivered to each subscription.

`Good` is what every reachable state satisfies: the ring holds the last `n` published events and an event's
sequence number is its place in the history. **`getEvent_eq`** says what a call returns in such a state: it
searches one sequence number after the other from its cursor on, so that it finds nothing at all once the
first of them has been overwritten.
-/

namespace Sirah.Watch

open Runs

/-! ## Data -/

/-- `watch_event_type_t`. -/
inductive EventType where
  | added
  | modified
  | deleted
  | bookmark
  | error
  deriving DecidableEq, Repr

/-- `watch_event_t`. -/
structure Event where
  type : EventType
  object : Json
  resourceVersion : Int
  sequenceNumber : Int
  timestamp : Int
  errorMessage : Option CString

/-- `{0}`. -/
def Event.zero : Event := ⟨.added, .null, 0, 0, 0, none⟩

/-- `watch_filter_type_t`. -/
inductive FilterType where
  | label
  | field
  | resourceVersion
  deriving DecidableEq, Repr

/-- `watch_filter_t`; `match_any` is always 0. -/
structure Filter where
  type : FilterType
  key : CString
  value : CString
  deriving DecidableEq, Repr

/-- `watch_subscription_t`. -/
structure Subscription where
  resourceVersion : Int
  filters : List Filter
  lastDeliveredEvent : Int
  deriving DecidableEq, Repr

/-- `watch_manager_t` over a ring of `n` events. -/
structure Manager (n : Nat) [NeZero n] where
  ring : RingBuffer Event n
  globalSequence : Int
  subscriptions : Nat → Option Subscription
  nextSubscriptionId : Nat
  enabled : Bool

/-! ## Filters -/

section Filters

variable (render : Json → CString)

/-- `watch_object_matches_label`. -/
def matchesLabel (object : Json) (key value : CString) : Bool :=
  match object with
  | .null => true
  | object => (((object.get "metadata").get "labels").get key).getString render = some value

/-- `watch_object_matches_field`, whose path `strtok_r` takes apart at its dots. -/
def matchesField (object : Json) (path value : CString) : Bool :=
  match object with
  | .null => true
  | object =>
    (((CString.splitOn 46 path).filter (· ≠ [])).foldl Json.get object).getString render = some value

/-- One filter. -/
def Filter.matchesObject (object : Json) (f : Filter) : Bool :=
  match f.type with
  | .label => matchesLabel render object f.key f.value
  | .field => matchesField render object f.key f.value
  | .resourceVersion => true

/-- `watch_object_matches_filters`. -/
def matchesFilters (object : Json) (filters : List Filter) : Bool :=
  match object with
  | .null => true
  | object => filters.all (Filter.matchesObject render object)

/-- The test of `watch_manager_get_event`: bookmarks and errors pass every filter. -/
def passes (filters : List Filter) (e : Event) : Bool :=
  e.type = .bookmark || e.type = .error || matchesFilters render e.object filters

end Filters

/-! ## Operations -/

namespace Manager

variable {n : Nat} [NeZero n]

/-- `watch_manager_create`. -/
def create (n : Nat) [NeZero n] : Manager n := ⟨.empty n Event.zero, 0, fun _ => none, 1, true⟩

/-- `watch_ring_buffer_push`. -/
def push (m : Manager n) (e : Event) : Manager n :=
  { m with ring := m.ring.push { e with sequenceNumber := m.globalSequence }
           globalSequence := m.globalSequence + 1 }

/-- `watch_ring_buffer_get_by_sequence`. -/
def getBySequence (m : Manager n) (sequence : Int) : Option Event :=
  m.ring.toList.find? fun e => e.sequenceNumber = sequence

/-- The loop of `watch_ring_buffer_get_range`; `k` events are still wanted. -/
def collect (start : Int) : Nat → List Event → List Event
  | 0, _ => []
  | _, [] => []
  | k + 1, e :: es =>
    if e.sequenceNumber ≥ start then e :: collect start k es else collect start (k + 1) es

/-- `watch_ring_buffer_get_range`. -/
def getRange (m : Manager n) (start : Int) (maxEvents : Nat) : List Event :=
  collect start maxEvents m.ring.toList

/-- The end of the three `watch_manager_publish_…`: an event, or −1. -/
def publish (m : Manager n) : Option Event → Int × Manager n
  | none => (-1, m)
  | some e => (0, m.push e)

/-- The event of `watch_manager_publish_event`. -/
def objectEvent (m : Manager n) (type : EventType) (object : Json) (resourceVersion now : Int) :
    Option Event :=
  match m.enabled, object with
  | false, _ => none
  | true, .null => none
  | true, object => some ⟨type, object, resourceVersion, 0, now, none⟩

/-- The event of `watch_manager_publish_bookmark`. -/
def bookmarkEvent (m : Manager n) (resourceVersion now : Int) : Option Event :=
  if m.enabled then some ⟨.bookmark, .null, resourceVersion, 0, now, none⟩ else none

/-- The event of `watch_manager_publish_error`. -/
def errorEvent (m : Manager n) (message : Option CString) (now : Int) : Option Event :=
  match m.enabled, message with
  | false, _ => none
  | true, none => none
  | true, some message => some ⟨.error, .null, 0, 0, now, some message⟩

/-- `watch_manager_publish_event`. -/
def publishEvent (m : Manager n) (type : EventType) (object : Json) (resourceVersion now : Int) :
    Int × Manager n :=
  m.publish (m.objectEvent type object resourceVersion now)

/-- `watch_manager_publish_bookmark`. -/
def publishBookmark (m : Manager n) (resourceVersion now : Int) : Int × Manager n :=
  m.publish (m.bookmarkEvent resourceVersion now)

/-- `watch_manager_publish_error`. -/
def publishError (m : Manager n) (message : Option CString) (now : Int) : Int × Manager n :=
  m.publish (m.errorEvent message now)

/-- `watch_manager_set_enabled`. -/
def setEnabled (m : Manager n) (enabled : Bool) : Manager n := { m with enabled := enabled }

/-- The subscription of an id becomes `sub`. -/
def setSubscription (m : Manager n) (id : Nat) (sub : Option Subscription) : Manager n :=
  { m with subscriptions := Function.update m.subscriptions id sub }

/-- `watch_manager_subscribe`. -/
def subscribe (m : Manager n) (resourceVersion : Int) : Nat × Manager n :=
  (m.nextSubscriptionId,
    { m.setSubscription m.nextSubscriptionId (some ⟨resourceVersion, [], -1⟩) with
      nextSubscriptionId := m.nextSubscriptionId + 1 })

/-- `watch_manager_unsubscribe`. -/
def unsubscribe (m : Manager n) (id : Nat) : Manager n := m.setSubscription id none

/-- `watch_subscription_add_filter`. -/
def addFilter (m : Manager n) (id : Nat) (type : FilterType) (key value : Option CString) :
    Int × Manager n :=
  match m.subscriptions id, key, value with
  | some sub, some key, some value =>
    (0, m.setSubscription id (some { sub with filters := sub.filters ++ [⟨type, key, value⟩] }))
  | _, _, _ => (-1, m)

section Retrieval

variable (render : Json → CString)

/-- The loop of `watch_manager_get_event`, for at most `k` events. -/
def seek (m : Manager n) (filters : List Filter) : Nat → Int → Option Event
  | 0, _ => none
  | k + 1, next =>
    match m.getBySequence next with
    | none => none
    | some e => if passes render filters e then some e else m.seek filters k (next + 1)

/-- `watch_manager_get_event` with timeout 0. -/
def getEvent (m : Manager n) (id : Nat) : Option Event × Manager n :=
  match m.subscriptions id with
  | none => (none, m)
  | some sub =>
    match m.seek render sub.filters (m.ring.size + 1) (sub.lastDeliveredEvent + 1) with
    | none => (none, m)
    | some e => (some e, m.setSubscription id (some { sub with lastDeliveredEvent := e.sequenceNumber }))

/-- `watch_manager_get_events_batch`. -/
def getEventsBatch (m : Manager n) (id : Nat) (startVersion : Int) (maxEvents : Nat) : List Event :=
  match m.subscriptions id with
  | none => []
  | some _ => m.getRange startVersion maxEvents

end Retrieval

end Manager

/-! ## Runs -/

/-- A call. -/
inductive Action where
  | publishEvent (type : EventType) (object : Json) (resourceVersion now : Int)
  | publishBookmark (resourceVersion now : Int)
  | publishError (message : Option CString) (now : Int)
  | setEnabled (enabled : Bool)
  | subscribe (resourceVersion : Int)
  | unsubscribe (id : Nat)
  | addFilter (id : Nat) (type : FilterType) (key value : Option CString)
  | getEvent (id : Nat)

/-- The manager and its history. -/
structure World (n : Nat) [NeZero n] where
  manager : Manager n
  published : List Event
  delivered : Nat → List Event

namespace World

variable {n : Nat} [NeZero n]

/-- A new manager. -/
def create (n : Nat) [NeZero n] : World n := ⟨.create n, [], fun _ => []⟩

/-- The manager after a publication, and the event noted as the ring took it. -/
def note (w : World n) (e : Option Event) (m : Manager n) : World n :=
  { w with manager := m
           published := w.published ++
             (e.map fun e => { e with sequenceNumber := w.manager.globalSequence }).toList }

/-- One call. -/
def step (render : Json → CString) (w : World n) : Action → World n
  | .publishEvent type object resourceVersion now =>
    w.note (w.manager.objectEvent type object resourceVersion now)
      (w.manager.publishEvent type object resourceVersion now).2
  | .publishBookmark resourceVersion now =>
    w.note (w.manager.bookmarkEvent resourceVersion now)
      (w.manager.publishBookmark resourceVersion now).2
  | .publishError message now =>
    w.note (w.manager.errorEvent message now) (w.manager.publishError message now).2
  | .setEnabled enabled => { w with manager := w.manager.setEnabled enabled }
  | .subscribe resourceVersion =>
    let r := w.manager.subscribe resourceVersion
    { w with manager := r.2, delivered := Function.update w.delivered r.1 [] }
  | .unsubscribe id => { w with manager := w.manager.unsubscribe id }
  | .addFilter id type key value => { w with manager := (w.manager.addFilter id type key value).2 }
  | .getEvent id =>
    let r := w.manager.getEvent render id
    { w with manager := r.2
             delivered := Function.update w.delivered id (w.delivered id ++ r.1.toList) }

/-- The world after an event is published. -/
def pushed (w : World n) (e : Event) : World n :=
  { w with manager := w.manager.push e
           published := w.published ++ [{ e with sequenceNumber := w.manager.globalSequence }] }

/-- The world after an event is delivered. -/
def deliver (w : World n) (id : Nat) (sub : Subscription) (e : Event) : World n :=
  { w with manager := w.manager.setSubscription id (some { sub with lastDeliveredEvent := e.sequenceNumber })
           delivered := Function.update w.delivered id (w.delivered id ++ [e]) }

theorem note_publish (w : World n) (e : Option Event) :
    w.note e (w.manager.publish e).2 = match e with
      | none => w
      | some e => w.pushed e := by
  cases e with
  | none =>
    unfold note
    rw [Option.map_none, Option.toList_none, List.append_nil]
    rfl
  | some e => rfl

/-- What a call can do. -/
inductive Move (render : Json → CString) (w : World n) : Action → World n → Prop where
  | idle (a : Action) : Move render w a w
  | publish (a : Action) (e : Event) (h : ∀ id, a ≠ .getEvent id) : Move render w a (w.pushed e)
  | enable (b : Bool) : Move render w (.setEnabled b) { w with manager := w.manager.setEnabled b }
  | subscribe (resourceVersion : Int) : Move render w (.subscribe resourceVersion)
      { w with manager := (w.manager.subscribe resourceVersion).2
               delivered := Function.update w.delivered w.manager.nextSubscriptionId [] }
  | unsubscribe (id : Nat) :
    Move render w (.unsubscribe id) { w with manager := w.manager.unsubscribe id }
  | filter (id : Nat) (type : FilterType) (key value : Option CString) (sub : Subscription) (f : Filter)
      (h : w.manager.subscriptions id = some sub) : Move render w (.addFilter id type key value)
      { w with manager := w.manager.setSubscription id (some { sub with filters := sub.filters ++ [f] }) }
  | deliver (id : Nat) (sub : Subscription) (e : Event) (h : w.manager.subscriptions id = some sub)
      (he : (w.manager.getEvent render id).1 = some e) :
    Move render w (.getEvent id) (w.deliver id sub e)

/-- What a call returns, and what it leaves. -/
theorem getEvent_cases (render : Json → CString) (m : Manager n) (id : Nat) :
    m.getEvent render id = (none, m) ∨ ∃ sub e, m.subscriptions id = some sub ∧
      m.getEvent render id =
        (some e, m.setSubscription id (some { sub with lastDeliveredEvent := e.sequenceNumber })) := by
  unfold Manager.getEvent
  split
  · exact .inl rfl
  · rename_i sub hsub
    split
    · exact .inl rfl
    · rename_i e he
      exact .inr ⟨sub, e, hsub, rfl⟩

theorem step_move (render : Json → CString) (w : World n) (a : Action) :
    Move render w a (w.step render a) := by
  have noted : ∀ a e, (∀ id, a ≠ .getEvent id) → Move render w a (w.note e (w.manager.publish e).2) := by
    intro a e ha
    rw [note_publish]
    cases e with
    | none => exact .idle a
    | some e => exact .publish a e ha
  cases a with
  | publishEvent type object resourceVersion now => exact noted _ _ nofun
  | publishBookmark resourceVersion now => exact noted _ _ nofun
  | publishError message now => exact noted _ _ nofun
  | setEnabled b => exact .enable b
  | subscribe resourceVersion => exact .subscribe resourceVersion
  | unsubscribe id => exact .unsubscribe id
  | addFilter id type key value =>
    unfold step Manager.addFilter
    dsimp only
    split
    · rename_i sub key value hsub
      exact .filter id type _ _ sub ⟨type, key, value⟩ hsub
    · exact .idle _
  | getEvent id =>
    rcases getEvent_cases render w.manager id with hnone | ⟨sub, e, hsub, hsome⟩
    · have heq : w.step render (.getEvent id) = w := by
        simp [step, hnone]
      rw [heq]
      exact .idle _
    · have heq : w.step render (.getEvent id) = w.deliver id sub e := by
        simp only [step, hsome]
        rfl
      rw [heq]
      exact .deliver id sub e hsub (by rw [hsome])

end World

/-! ## Reachable states -/

/-- **What every reachable state satisfies.** -/
structure Good {n : Nat} [NeZero n] (w : World n) : Prop where
  ring : w.manager.ring.toList = w.published.drop (w.published.length - n)
  sequence : w.manager.globalSequence = w.published.length
  numbered : ∀ (i : Nat) (e : Event), w.published[i]? = some e → e.sequenceNumber = i
  cursor : ∀ id sub, w.manager.subscriptions id = some sub →
    -1 ≤ sub.lastDeliveredEvent ∧ sub.lastDeliveredEvent < w.published.length
  ids : ∀ id sub, w.manager.subscriptions id = some sub → id < w.manager.nextSubscriptionId

section Reachable

variable {n : Nat} [NeZero n] {w : World n} {render : Json → CString}

theorem good_create : Good (World.create n) where
  ring := by
    show (RingBuffer.empty n Event.zero).toList = _
    rw [RingBuffer.toList_empty, World.create, List.drop_nil]
  sequence := rfl
  numbered := nofun
  cursor := nofun
  ids := nofun

theorem Good.pushed (h : Good w) (e : Event) : Good (w.pushed e) where
  ring := RingBuffer.toList_push_of_toList h.ring _
  sequence := by
    show w.manager.globalSequence + 1 = _
    rw [h.sequence, World.pushed, List.length_append, List.length_singleton]
    rfl
  numbered := by
    intro i e' he
    rw [World.pushed] at he
    rcases Nat.lt_trichotomy i w.published.length with hi | hi | hi
    · rw [List.getElem?_append_left hi] at he
      exact h.numbered i e' he
    · rw [hi, List.getElem?_concat_length] at he
      cases he
      rw [hi]
      exact h.sequence
    · rw [List.getElem?_eq_none (by simp; omega)] at he
      cases he
  cursor := by
    intro id sub hsub
    have := h.cursor id sub hsub
    simp only [World.pushed, List.length_append, List.length_singleton]
    omega
  ids := h.ids

/-- Changing the subscriptions. -/
theorem Good.setSubscription (h : Good w) {id next : Nat} {o : Option Subscription}
    (hnext : w.manager.nextSubscriptionId ≤ next)
    (ho : ∀ sub, o = some sub → (-1 ≤ sub.lastDeliveredEvent ∧
      sub.lastDeliveredEvent < w.published.length) ∧ id < next) (d : Nat → List Event) :
    Good { w with manager := { w.manager.setSubscription id o with nextSubscriptionId := next }
                  delivered := d } where
  ring := h.ring
  sequence := h.sequence
  numbered := h.numbered
  cursor := by
    intro id' sub hsub
    replace hsub : Function.update w.manager.subscriptions id o id' = some sub := hsub
    by_cases hid : id' = id
    · rw [hid, Function.update_self] at hsub
      exact (ho sub hsub).1
    · rw [Function.update_of_ne hid] at hsub
      exact h.cursor id' sub hsub
  ids := by
    intro id' sub hsub
    replace hsub : Function.update w.manager.subscriptions id o id' = some sub := hsub
    by_cases hid : id' = id
    · rw [hid, Function.update_self] at hsub
      rw [hid]
      exact (ho sub hsub).2
    · rw [Function.update_of_ne hid] at hsub
      exact (h.ids id' sub hsub).trans_le hnext

/-! ## What a call returns -/

/-- Searching consecutive sequence numbers, the first of which is `c`. -/
theorem find_sequence {es : List Event} {c : Nat}
    (h : ∀ (j : Nat) (e : Event), es[j]? = some e → e.sequenceNumber = (c + j : Nat)) (i : Nat) :
    es.find? (fun e => e.sequenceNumber = (i : Int)) = if c ≤ i then es[i - c]? else none := by
  induction es generalizing c with
  | nil => simp
  | cons e es ih =>
    have hhead : e.sequenceNumber = c := h 0 e rfl
    have htail : ∀ (j : Nat) (e : Event), es[j]? = some e → e.sequenceNumber = (c + 1 + j : Nat) := by
      intro j e' he'
      rw [h (j + 1) e' he', Nat.add_assoc, Nat.add_comm 1 j]
    by_cases hi : i = c
    · simp [hi, hhead]
    · have hne : ¬ e.sequenceNumber = i := by
        rw [hhead]
        omega
      rw [List.find?_cons_of_neg (by simpa using hne), ih htail]
      by_cases hlt : c ≤ i
      · obtain ⟨j, rfl⟩ : ∃ j, i = c + 1 + j := ⟨i - c - 1, by omega⟩
        rw [if_pos (by omega), if_pos hlt, show c + 1 + j - (c + 1) = j by omega,
          show c + 1 + j - c = j + 1 by omega, List.getElem?_cons_succ]
      · rw [if_neg (by omega), if_neg hlt]

/-- A buffered event, by its sequence number. -/
theorem Good.getBySequence (h : Good w) (i : Nat) :
    w.manager.getBySequence i = if w.published.length - n ≤ i then w.published[i]? else none := by
  have hnum : ∀ (j : Nat) (e : Event), w.manager.ring.toList[j]? = some e →
      e.sequenceNumber = (w.published.length - n + j : Nat) := by
    intro j e he
    rw [h.ring, List.getElem?_drop] at he
    exact h.numbered _ e he
  rw [Manager.getBySequence, find_sequence hnum, h.ring]
  by_cases hi : w.published.length - n ≤ i
  · rw [if_pos hi, if_pos hi, List.getElem?_drop, Nat.add_sub_cancel' hi]
  · rw [if_neg hi, if_neg hi]

/-- **What a call returns**: nothing if the event after the cursor has been overwritten, else the first event
from there on that passes the filters. -/
theorem Good.seek (h : Good w) (filters : List Filter) (k next : Nat)
    (hk : w.published.length < next + k) : w.manager.seek render filters k next =
      if w.published.length - n ≤ next then (w.published.drop next).find? (passes render filters)
      else none := by
  induction k generalizing next with
  | zero =>
    rw [List.drop_eq_nil_of_le (by omega), Manager.seek, List.find?_nil, ite_self]
  | succ k ih =>
    rw [Manager.seek, h.getBySequence]
    by_cases hnext : w.published.length - n ≤ next
    · rw [if_pos hnext, if_pos hnext]
      cases he : w.published[next]? with
      | none =>
        rw [List.drop_eq_nil_of_le (List.getElem?_eq_none_iff.mp he)]
        rfl
      | some e =>
        obtain ⟨hlt, rfl⟩ := List.getElem?_eq_some_iff.mp he
        rw [List.drop_eq_getElem_cons hlt]
        by_cases hpass : passes render filters w.published[next]
        · rw [List.find?_cons_of_pos hpass]
          exact if_pos hpass
        · have hrec := ih (next + 1) (by omega)
          rw [if_pos (by omega)] at hrec
          rw [List.find?_cons_of_neg hpass, ← hrec]
          exact if_neg hpass
    · rw [if_neg hnext, if_neg hnext]

/-- **What a call returns**, for a subscription of the manager. -/
theorem Good.getEvent_eq (h : Good w) {id : Nat} {sub : Subscription}
    (hsub : w.manager.subscriptions id = some sub) : (w.manager.getEvent render id).1 =
      if w.published.length ≤ sub.lastDeliveredEvent + 1 + n then
        (w.published.drop (sub.lastDeliveredEvent + 1).toNat).find? (passes render sub.filters)
      else none := by
  obtain ⟨hlo, hhi⟩ := h.cursor id sub hsub
  have hsize : w.manager.ring.size = w.published.length - (w.published.length - n) := by
    rw [← RingBuffer.length_toList, h.ring, List.length_drop]
  obtain ⟨next, hnext⟩ : ∃ next : Nat, sub.lastDeliveredEvent + 1 = next :=
    ⟨_, (Int.toNat_of_nonneg (by omega)).symm⟩
  have hfst : (w.manager.getEvent render id).1 =
      w.manager.seek render sub.filters (w.manager.ring.size + 1) next := by
    unfold Manager.getEvent
    rw [hsub, ← hnext]
    dsimp only
    split <;> rename_i heq <;> rw [heq]
  rw [hfst, hnext, Int.toNat_natCast]
  by_cases hlag : w.published.length - n ≤ next
  · rw [h.seek sub.filters _ next (by omega), if_pos hlag, if_pos (by omega)]
  · rw [if_neg (by omega), Manager.seek, h.getBySequence, if_neg hlag]

/-- An event that is returned is the first from the cursor on that passes. -/
theorem Good.getEvent_some (h : Good w) {id : Nat} {sub : Subscription}
    (hsub : w.manager.subscriptions id = some sub) {e : Event}
    (he : (w.manager.getEvent render id).1 = some e) :
    ∃ i : Nat, w.published[i]? = some e ∧ e.sequenceNumber = i ∧ sub.lastDeliveredEvent < i ∧
      w.published.length ≤ sub.lastDeliveredEvent + 1 + n ∧ passes render sub.filters e = true ∧
      ∀ j : Nat, sub.lastDeliveredEvent < j → j < i → ∀ e', w.published[j]? = some e' →
        passes render sub.filters e' = false := by
  obtain ⟨hlo, hhi⟩ := h.cursor id sub hsub
  rw [h.getEvent_eq hsub] at he
  split at he
  · rename_i hlag
    obtain ⟨next, hnext⟩ : ∃ next : Nat, sub.lastDeliveredEvent + 1 = next :=
      ⟨_, (Int.toNat_of_nonneg (by omega)).symm⟩
    rw [hnext, Int.toNat_natCast] at he
    obtain ⟨hpass, i, hi, hget, hfirst⟩ := List.find?_eq_some_iff_getElem.mp he
    have hget' : w.published[next + i]? = some e := by
      rw [← List.getElem?_drop, List.getElem?_eq_getElem hi, hget]
    refine ⟨next + i, hget', h.numbered _ e hget', by omega, hlag, hpass, ?_⟩
    intro j hj hji e' he'
    obtain ⟨j', rfl⟩ : ∃ j', j = next + j' := ⟨j - next, by omega⟩
    have hnot := hfirst j' (by omega)
    rw [← List.getElem?_drop] at he'
    obtain ⟨_, rfl⟩ := List.getElem?_eq_some_iff.mp he'
    simpa using hnot
  · cases he

/-- The invariant holds of every step. -/
theorem Good.step (h : Good w) (a : Action) : Good (w.step render a) := by
  have hmove := World.step_move render w a
  generalize w.step render a = w' at hmove
  cases hmove with
  | idle => exact h
  | publish _ e => exact h.pushed e
  | enable b => exact ⟨h.ring, h.sequence, h.numbered, h.cursor, h.ids⟩
  | subscribe resourceVersion =>
    refine h.setSubscription (Nat.le_succ _) ?_ _
    rintro sub ⟨⟩
    exact ⟨⟨le_rfl, by show (-1 : Int) < _; omega⟩, Nat.lt_succ_self _⟩
  | unsubscribe id =>
    refine h.setSubscription le_rfl ?_ _
    rintro sub ⟨⟩
  | filter id type key value sub f hsub =>
    refine h.setSubscription le_rfl ?_ _
    rintro sub' ⟨⟩
    exact ⟨h.cursor id sub hsub, h.ids id sub hsub⟩
  | deliver id sub e hsub he =>
    refine h.setSubscription le_rfl ?_ _
    rintro sub' ⟨⟩
    obtain ⟨i, hget, hseq, -⟩ := h.getEvent_some hsub he
    have hi := (List.getElem?_eq_some_iff.mp hget).1
    refine ⟨?_, h.ids id sub hsub⟩
    show -1 ≤ e.sequenceNumber ∧ e.sequenceNumber < _
    omega

/-- **Every reachable state.** -/
theorem good_run (as : List Action) : Good (run (World.step render) (World.create n) as) :=
  (allStates_of_step (fun _ a h => h.step a) good_create).run_mem

end Reachable

end Sirah.Watch
