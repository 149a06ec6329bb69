import Sirah.Watch.Manager

/-!
# The indices of the ring

`watch_ring_buffer_t` of `internal/pkg/watch/watch_manager.c` as it is stored: an array, the places of the oldest event
and of the next one to write, the number of events, and the sequence number of the next one. The indices are 64 bits
wide, so that no sum of an index and a number of events wraps around.

* `Refines`: the stored ring is the ring of a `Manager`. A push keeps it so (`Refines.push`), and what is read is the
  same (`Refines.readOut`, `Refines.getBySequence`).
* **`holdsLast`**: after any pushes the ring holds the last events that fit, in order and numbered one after the other,
  and finds by its number exactly what it holds.
-/

namespace Sirah.Watch

/-- `watch_ring_buffer_t`. -/
structure WatchRingBuffer where
  events : List Event
  capacity : Nat
  size : Nat
  headIndex : Nat
  tailIndex : Nat
  globalSequence : Int

namespace WatchRingBuffer

/-- `watch_ring_buffer_init`. -/
def init (capacity : Nat) : WatchRingBuffer := ⟨List.replicate capacity Event.zero, capacity, 0, 0, 0, 0⟩

/-- `watch_ring_buffer_push`. -/
def push (b : WatchRingBuffer) (e : Event) : WatchRingBuffer where
  events := b.events.set b.tailIndex { e with sequenceNumber := b.globalSequence }
  capacity := b.capacity
  size := if b.size = b.capacity then b.size else b.size + 1
  headIndex := if b.size = b.capacity then (b.headIndex + 1) % b.capacity else b.headIndex
  tailIndex := (b.tailIndex + 1) % b.capacity
  globalSequence := b.globalSequence + 1

/-- The event `i` steps behind the oldest one. -/
def eventAt (b : WatchRingBuffer) (i : Nat) : Option Event := b.events[(b.headIndex + i) % b.capacity]?

/-- What is read from `head_index` on, in `size` steps. -/
def readOut (b : WatchRingBuffer) : List (Option Event) := (List.range b.size).map b.eventAt

/-- `watch_ring_buffer_get_by_sequence`. -/
def getBySequence (b : WatchRingBuffer) (sequence : Int) : Option Event :=
  (List.range b.size).findSome? fun i => (b.eventAt i).filter fun e => decide (e.sequenceNumber = sequence)

/-- The events that are pushed, numbered from 0 on. -/
def numbered (es : List Event) : List Event := es.mapIdx fun i e => { e with sequenceNumber := i }

/-- **The ring holds the last events** of those pushed. -/
structure HoldsLast (c : Nat) (es : List Event) (b : WatchRingBuffer) : Prop where
  size : b.size = min es.length c
  /-- In order: every step from `head_index` on is at a place of the array. -/
  events : b.readOut = ((numbered es).drop (es.length - b.size)).map some
  /-- With consecutive sequence numbers. -/
  consecutive : ∀ i < b.size, ∃ e, b.eventAt i = some e ∧ e.sequenceNumber = (es.length - b.size + i : Nat)
  tail : b.tailIndex = (b.headIndex + b.size) % c
  /-- What is found by its number. -/
  found : ∀ s : Int, (b.getBySequence s).isSome = true ↔ (es.length : Int) - b.size ≤ s ∧ s < es.length

/-! ## The ring of the manager -/

variable {c : Nat} [NeZero c] {b : WatchRingBuffer} {m : Manager c} {es : List Event}

/-- **The stored ring is the one of the manager.** -/
structure Refines (b : WatchRingBuffer) (m : Manager c) : Prop where
  capacity : b.capacity = c
  length : b.events.length = c
  slots : ∀ i : Fin c, b.events[i.val]? = some (m.ring.slots i)
  size : b.size = m.ring.size
  head : b.headIndex = m.ring.head.val
  tail : b.tailIndex = m.ring.tail.val
  sequence : b.globalSequence = m.globalSequence

theorem refines_init (c : Nat) [NeZero c] : Refines (init c) (Manager.create c) where
  capacity := rfl
  length := List.length_replicate
  slots i := by
    rw [init, List.getElem?_replicate_of_lt i.isLt]
    rfl
  size := rfl
  head := rfl
  tail := rfl
  sequence := rfl

theorem val_succ (i : Fin c) : (i + 1).val = (i.val + 1) % c := by
  rw [Fin.val_add, Fin.val_one', Nat.add_mod_mod]

/-- **A push.** -/
theorem Refines.push (h : Refines b m) (e : Event) : Refines (b.push e) (m.push e) where
  capacity := h.capacity
  length := by
    rw [WatchRingBuffer.push, List.length_set]
    exact h.length
  slots i := by
    have hlt : i.val < b.events.length := h.length ▸ i.isLt
    show (b.events.set b.tailIndex _)[i.val]? =
      some (Function.update m.ring.slots m.ring.tail { e with sequenceNumber := m.globalSequence } i)
    by_cases hi : i = m.ring.tail
    · rw [hi] at hlt ⊢
      rw [Function.update_self, h.tail, List.getElem?_set_self hlt, h.sequence]
    · have hne : b.tailIndex ≠ i.val := fun heq => hi (Fin.ext (heq.symm.trans h.tail))
      rw [Function.update_of_ne hi, List.getElem?_set_ne hne, h.slots]
  size := by
    simp only [WatchRingBuffer.push, Manager.push, RingBuffer.push, h.size, h.capacity]
  head := by
    simp only [WatchRingBuffer.push, Manager.push, RingBuffer.push, h.size, h.capacity, h.head]
    split
    · rw [val_succ]
    · rfl
  tail := by
    simp only [WatchRingBuffer.push, Manager.push, RingBuffer.push, h.capacity, h.tail]
    rw [val_succ]
  sequence := congrArg (· + 1) h.sequence

/-- The place some steps behind the oldest event. -/
theorem val_add_ofNat (i : Fin c) (k : Nat) : (i + Fin.ofNat c k).val = (i.val + k) % c := by
  rw [Fin.val_add]
  exact Nat.add_mod_mod _ _ _

theorem Refines.eventAt (h : Refines b m) (i : Nat) :
    b.eventAt i = some (m.ring.slots (m.ring.head + Fin.ofNat c i)) := by
  have hplace : (b.headIndex + i) % b.capacity = (m.ring.head + Fin.ofNat c i).val := by
    rw [val_add_ofNat, h.head, h.capacity]
  rw [WatchRingBuffer.eventAt, hplace, h.slots]

theorem Refines.tailIndex (h : Refines b m) : b.tailIndex = (b.headIndex + b.size) % c := by
  rw [h.tail, m.ring.tail_eq, val_add_ofNat, h.head, h.size]

theorem Refines.readOut (h : Refines b m) : b.readOut = m.ring.toList.map some := by
  rw [WatchRingBuffer.readOut, RingBuffer.toList, List.map_map, h.size]
  exact List.map_congr_left fun i _ => h.eventAt i

theorem Refines.getBySequence (h : Refines b m) (s : Int) : b.getBySequence s = m.getBySequence s := by
  have hread := h.readOut
  unfold WatchRingBuffer.readOut at hread
  have hmap : b.getBySequence s = ((List.range b.size).map b.eventAt).findSome?
      fun o => o.filter fun e => decide (e.sequenceNumber = s) := by
    rw [List.findSome?_map]
    rfl
  rw [hmap, hread, List.findSome?_map, Manager.getBySequence, List.find?_eq_findSome?_guard]
  rfl

/-! ## Pushes -/

/-- The manager and its history after the pushes. -/
def history (c : Nat) [NeZero c] (es : List Event) : World c := es.foldl World.pushed (World.create c)

theorem history_concat (es : List Event) (e : Event) : history c (es ++ [e]) = (history c es).pushed e :=
  List.foldl_concat ..

theorem good_history (es : List Event) : Good (history c es) := by
  induction es using List.reverseRecOn with
  | nil => exact good_create
  | append_singleton es e ih =>
    rw [history_concat]
    exact ih.pushed e

theorem published_history (es : List Event) : (history c es).published = numbered es := by
  induction es using List.reverseRecOn with
  | nil => rfl
  | append_singleton es e ih =>
    have hsequence := (good_history (c := c) es).sequence
    have hlength : (numbered es).length = es.length := List.length_mapIdx
    rw [ih, hlength] at hsequence
    rw [history_concat, World.pushed, ih, hsequence, numbered, numbered, List.mapIdx_concat]

theorem refines_history (es : List Event) : Refines (es.foldl push (init c)) (history c es).manager := by
  induction es using List.reverseRecOn with
  | nil => exact refines_init c
  | append_singleton es e ih =>
    rw [List.foldl_concat, history_concat]
    exact ih.push e

theorem length_numbered (es : List Event) : (numbered es).length = es.length := List.length_mapIdx

/-- An event of those from the place `d` on, by its number. -/
theorem find_numbered_isSome (es : List Event) (d : Nat) (s : Int) :
    (((numbered es).drop d).find? fun e => e.sequenceNumber = s).isSome = true ↔ (d : Int) ≤ s ∧ s < es.length := by
  rw [List.find?_isSome]
  constructor
  · rintro ⟨e, he, hs⟩
    obtain ⟨j, hj⟩ := List.mem_iff_getElem?.mp he
    rw [List.getElem?_drop, numbered, List.getElem?_mapIdx] at hj
    obtain ⟨e₀, hget, rfl⟩ := Option.map_eq_some_iff.mp hj
    obtain ⟨hlt, -⟩ := List.getElem?_eq_some_iff.mp hget
    have hnumber : ((d + j : Nat) : Int) = s := of_decide_eq_true hs
    omega
  · rintro ⟨hlo, hhi⟩
    obtain ⟨j, rfl⟩ : ∃ j : Nat, s = ((d + j : Nat) : Int) := ⟨(s - d).toNat, by omega⟩
    have hlt : d + j < es.length := by omega
    refine ⟨{ es[d + j] with sequenceNumber := (d + j : Nat) }, ?_, decide_eq_true rfl⟩
    refine List.mem_iff_getElem?.mpr ⟨j, ?_⟩
    rw [List.getElem?_drop, numbered, List.getElem?_mapIdx, List.getElem?_eq_getElem hlt, Option.map_some]

/-- **The ring holds the last events, whatever is pushed.** -/
theorem holdsLast (c : Nat) (hc : 1 ≤ c) (es : List Event) : HoldsLast c es (es.foldl push (init c)) := by
  have : NeZero c := ⟨Nat.ne_of_gt hc⟩
  have href := refines_history (c := c) es
  have hring := (good_history (c := c) es).ring
  rw [published_history, length_numbered] at hring
  generalize es.foldl push (init c) = b at href
  have hsize : b.size = min es.length c := by
    rw [href.size, ← RingBuffer.length_toList, hring, List.length_drop, length_numbered]
    omega
  have hdrop : es.length - c = es.length - b.size := by omega
  rw [hdrop] at hring
  have hread : b.readOut = ((numbered es).drop (es.length - b.size)).map some := by
    rw [href.readOut, hring]
  refine ⟨hsize, hread, fun i hi => ?_, href.tailIndex, fun s => ?_⟩
  · have hplace : es.length - b.size + i < es.length := by omega
    have hget := congrArg (fun l => l[i]?) hread
    simp only [readOut, List.getElem?_map, List.getElem?_range hi, Option.map_some, List.getElem?_drop, numbered,
      List.getElem?_mapIdx, List.getElem?_eq_getElem hplace] at hget
    exact ⟨_, Option.some.inj hget, rfl⟩
  · rw [href.getBySequence, Manager.getBySequence, hring, find_numbered_isSome]
    have hle : b.size ≤ es.length := by omega
    rw [Int.ofNat_sub hle]

/-- Three pushes into two places. -/
theorem holdsLast_overwritten :
    HoldsLast 2 [.zero, .zero, .zero] ([Event.zero, .zero, .zero].foldl push (init 2)) :=
  holdsLast 2 (by decide) [.zero, .zero, .zero]

end WatchRingBuffer

end Sirah.Watch
